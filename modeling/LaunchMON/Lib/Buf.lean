/-
  Memory behind a pointer.

  A buffer is a function from offsets to cells, so that what a program leaves alone is part of the
  result: `write` changes the cells it is given and no others (`write_outside`), consecutive writes
  are one write (`write_write`), consecutive reads are one read (`read_add`).
-/
import Mathlib.Data.List.GetD
import Mathlib.Tactic.Common

/-- The cells behind a pointer, by offset. -/
abbrev Buf (β : Type*) := Nat → β

namespace Buf

variable {β : Type*}

/-- `memcpy` of `bs` to offset `off`. -/
def write (m : Buf β) (off : Nat) (bs : List β) : Buf β :=
  fun i => if off ≤ i then bs.getD (i - off) (m i) else m i

/-- The `n` cells from offset `off` on. -/
def read (m : Buf β) (off n : Nat) : List β := (List.range n).map fun i => m (off + i)

@[simp] theorem length_read (m : Buf β) (off n : Nat) : (read m off n).length = n := by
  simp [read]

@[simp] theorem write_nil (m : Buf β) (off : Nat) : write m off [] = m := by
  funext i
  simp [write]

/-- Cells before and behind the written ones keep their contents. -/
theorem write_outside {m : Buf β} {off : Nat} {bs : List β} {i : Nat}
    (h : i < off ∨ off + bs.length ≤ i) : write m off bs i = m i := by
  unfold write
  split
  · rw [List.getD_eq_getElem?_getD, List.getElem?_eq_none (by omega), Option.getD_none]
  · rfl

theorem write_inside {m : Buf β} {off : Nat} {bs : List β} {i : Nat} (hi : i < bs.length) :
    write m off bs (off + i) = bs[i] := by
  unfold write
  rw [if_pos (Nat.le_add_right _ _), Nat.add_sub_cancel_left, List.getD_eq_getElem _ _ hi]

/-- Two writes, one right behind the other, are one. -/
theorem write_write (m : Buf β) (off : Nat) (xs ys : List β) :
    write (write m off xs) (off + xs.length) ys = write m off (xs ++ ys) := by
  funext i
  rcases Nat.lt_or_ge i (off + xs.length) with hi | hi
  · rw [write_outside (Or.inl hi)]
    unfold write
    split
    · rw [List.getD_append _ _ _ _ (by omega)]
    · rfl
  · unfold write
    rw [if_pos hi, if_pos (by omega), if_pos (by omega), List.getD_append_right _ _ _ _ (by omega),
      Nat.sub_sub]
    rw [@List.getD_eq_getElem?_getD _ xs, List.getElem?_eq_none (by omega), Option.getD_none]

/-- What was written is read back. -/
@[simp] theorem read_write (m : Buf β) (off : Nat) (bs : List β) :
    read (write m off bs) off bs.length = bs := by
  refine List.ext_getElem (length_read _ _ _) fun i h1 h2 => ?_
  simp only [read, List.getElem_map, List.getElem_range, write_inside h2]

theorem read_add (m : Buf β) (off a b : Nat) :
    read m off (a + b) = read m off a ++ read m (off + a) b := by
  simp only [read, List.range_add, List.map_append, List.map_map, Function.comp_def, Nat.add_assoc]

/-- A part of what was written. -/
theorem read_write_sub (m : Buf β) (off k n : Nat) (bs : List β) (h : k + n ≤ bs.length) :
    read (write m off bs) (off + k) n = (bs.drop k).take n := by
  refine List.ext_getElem (by simp; omega) fun i h1 h2 => ?_
  rw [length_read] at h1
  simp only [read, List.getElem_map, List.getElem_range, List.getElem_take, List.getElem_drop,
    Nat.add_assoc, write_inside (show k + i < bs.length by omega)]

theorem take_drop_read (m : Buf β) (off k n l : Nat) (h : k + n ≤ l) :
    ((read m off l).drop k).take n = read m (off + k) n := by
  refine List.ext_getElem (by simp; omega) fun i h1 h2 => ?_
  simp only [read, List.getElem_map, List.getElem_range, List.getElem_take, List.getElem_drop,
    Nat.add_assoc]

end Buf
