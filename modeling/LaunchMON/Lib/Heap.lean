/-
  Allocated memory, as far as it is given back.

  A pointer is an allocation: `malloc` never returns the same twice, so a pointer that is kept after it
  has been freed stays apart from all later ones.  The heap remembers what has been freed, in order;
  that nothing is freed twice is that this list has no duplicates.

  `Holds h ps` says that the pointers of `ps` are apart from each other and still to be freed.  It is
  kept by forgetting pointers (`Holds.mono`), by allocating (`Holds.malloc`), and by freeing some of
  them (`Holds.freeAll`).
-/
import Mathlib.Data.List.Nodup
import Mathlib.Data.List.Perm.Subperm
import Mathlib.Tactic.Common

/-- A pointer to allocated memory. -/
abbrev Ptr := ℕ

/-- The next pointer, and what has been freed. -/
structure Heap where
  next : Ptr
  freed : List Ptr

namespace Heap

def empty : Heap := ⟨0, []⟩

def malloc (h : Heap) : Ptr × Heap := (h.next, { h with next := h.next + 1 })

def freeAll (h : Heap) (ps : List Ptr) : Heap := { h with freed := h.freed ++ ps }

/-- `free` of a pointer that may be NULL. -/
def free (h : Heap) (p : Option Ptr) : Heap := h.freeAll p.toList

@[simp] theorem freed_malloc (h : Heap) : h.malloc.2.freed = h.freed := rfl

@[simp] theorem next_freeAll (h : Heap) (ps : List Ptr) : (h.freeAll ps).next = h.next := rfl

theorem freeAll_freeAll (h : Heap) (ps qs : List Ptr) :
    (h.freeAll ps).freeAll qs = h.freeAll (ps ++ qs) := by
  simp only [freeAll, List.append_assoc]

/-- `n` allocations. -/
def mallocs (h : Heap) : ℕ → List Ptr × Heap
  | 0 => ([], h)
  | n + 1 => (h.malloc.1 :: (mallocs h.malloc.2 n).1, (mallocs h.malloc.2 n).2)

@[simp] theorem freed_mallocs : ∀ (n : ℕ) (h : Heap), (h.mallocs n).2.freed = h.freed := by
  intro n
  induction n with
  | zero => exact fun _ => rfl
  | succ n ih => exact fun h => (ih h.malloc.2).trans h.freed_malloc

/-- The pointers of `ps` are apart, and none of them has been freed. -/
structure Holds (h : Heap) (ps : List Ptr) : Prop where
  nodup : (h.freed ++ ps).Nodup
  lt : ∀ p ∈ h.freed ++ ps, p < h.next

variable {h : Heap} {ps qs : List Ptr}

theorem holds_empty : Holds empty [] := ⟨List.nodup_nil, fun _ hp => absurd hp List.not_mem_nil⟩

namespace Holds

theorem freed (hp : Holds h ps) : h.freed.Nodup := hp.nodup.of_append_left

theorem mono (hp : Holds h ps) (hle : qs.Subperm ps) : Holds h qs := by
  have hsub : (h.freed ++ qs).Subperm (h.freed ++ ps) := (List.subperm_append_left _).mpr hle
  obtain ⟨l, hperm, hlsub⟩ := hsub
  exact ⟨hperm.nodup_iff.mp (hp.nodup.sublist hlsub),
    fun p hq => hp.lt p (hlsub.subset (hperm.mem_iff.mpr hq))⟩

theorem malloc (hp : Holds h ps) : Holds h.malloc.2 (h.malloc.1 :: ps) := by
  have hnew : h.next ∉ h.freed ++ ps := fun hin => absurd (hp.lt _ hin) (Nat.lt_irrefl _)
  constructor
  · refine List.nodup_middle.mpr (List.nodup_cons.mpr ⟨hnew, hp.nodup⟩)
  · intro p hq
    rcases List.mem_cons.mp (List.perm_middle.mem_iff.mp hq) with rfl | hq
    · exact Nat.lt_succ_self _
    · exact Nat.lt_succ_of_lt (hp.lt p hq)

theorem mallocs : ∀ (n : ℕ) {h : Heap} {ps : List Ptr}, Holds h ps →
    Holds (h.mallocs n).2 ((h.mallocs n).1 ++ ps) := by
  intro n
  induction n with
  | zero => exact fun hp => hp
  | succ n ih =>
    intro h ps hp
    exact (ih hp.malloc).mono List.perm_middle.symm.subperm

theorem freeAll (hp : Holds h (ps ++ qs)) : Holds (h.freeAll ps) qs := by
  unfold Heap.freeAll
  exact ⟨by rw [List.append_assoc]; exact hp.nodup, by rw [List.append_assoc]; exact hp.lt⟩

end Holds

end Heap
