/-
  Bytes of a C program on a little-endian machine: words of 32 and 64 bits, and NUL-terminated strings.

  A reader takes the bytes from its position on and says `none` where the C code would read past the
  end.  Each codec has one round-trip law, stated for an encoding with anything behind it
  (`readLe32_append`, `readCString_append`), so that laws compose by dropping what has been read.
-/
import Mathlib.Algebra.Group.Int.Defs
import Mathlib.Algebra.Group.Nat.Defs
import Mathlib.Data.List.TakeWhile
import Mathlib.Tactic.Common

namespace CBytes

/-! ## Words -/

/-- The bytes of a 32-bit word, lowest first. -/
def le32 (x : UInt32) : List UInt8 :=
  [UInt8.ofNat x.toNat, UInt8.ofNat (x.toNat / 2 ^ 8), UInt8.ofNat (x.toNat / 2 ^ 16),
    UInt8.ofNat (x.toNat / 2 ^ 24)]

/-- The word at the front of `bs`. -/
def readLe32 : List UInt8 → Option UInt32
  | b0 :: b1 :: b2 :: b3 :: _ => some (UInt32.ofNat
      (b0.toNat + 2 ^ 8 * b1.toNat + 2 ^ 16 * b2.toNat + 2 ^ 24 * b3.toNat))
  | _ => none

@[simp] theorem length_le32 (x : UInt32) : (le32 x).length = 4 := rfl

@[simp] theorem readLe32_append (x : UInt32) (rest : List UInt8) :
    readLe32 (le32 x ++ rest) = some x := by
  have hx := x.toNat_lt
  show some (UInt32.ofNat _) = _
  simp only [UInt8.toNat_ofNat']
  congr 1
  refine UInt32.toNat_inj.mp ?_
  rw [UInt32.toNat_ofNat']
  omega

@[simp] theorem drop_le32_append (x : UInt32) (rest : List UInt8) :
    (le32 x ++ rest).drop 4 = rest := List.drop_left' (length_le32 x)

/-- The words of a list take four bytes each. -/
theorem length_flatMap_le32 {α : Type} (f : α → UInt32) (l : List α) :
    (l.flatMap fun a => le32 (f a)).length = 4 * l.length := by
  induction l with
  | nil => rfl
  | cons a l ih =>
    rw [List.flatMap_cons, List.length_append, length_le32, ih, List.length_cons]
    omega

/-- A word of a list is found behind those before it. -/
theorem readLe32_drop_flatMap {α : Type} (f : α → UInt32) : ∀ (l : List α) (rest : List UInt8) (i : Nat)
    (hi : i < l.length), readLe32 (((l.flatMap fun a => le32 (f a)) ++ rest).drop (4 * i)) =
      some (f l[i]) := by
  intro l
  induction l with
  | nil => exact fun rest i hi => absurd hi (Nat.not_lt_zero i)
  | cons a l ih =>
    intro rest i hi
    rw [List.flatMap_cons, List.append_assoc]
    cases i with
    | zero => exact readLe32_append _ _
    | succ i =>
      rw [Nat.mul_succ, Nat.add_comm, ← List.drop_drop, drop_le32_append]
      exact ih rest i (Nat.lt_of_succ_lt_succ hi)

@[simp] theorem readLe32_le32 (x : UInt32) : readLe32 (le32 x) = some x := by
  simpa using readLe32_append x []

/-- The bytes of a 64-bit word, lowest first. -/
def le64 (x : UInt64) : List UInt8 :=
  le32 (UInt32.ofNat x.toNat) ++ le32 (UInt32.ofNat (x.toNat / 2 ^ 32))

/-- The 64-bit word at the front of `bs`. -/
def readLe64 (bs : List UInt8) : Option UInt64 := do
  let lo ← readLe32 bs
  let hi ← readLe32 (bs.drop 4)
  some (UInt64.ofNat (lo.toNat + 2 ^ 32 * hi.toNat))

@[simp] theorem length_le64 (x : UInt64) : (le64 x).length = 8 := rfl

@[simp] theorem readLe64_append (x : UInt64) (rest : List UInt8) : readLe64 (le64 x ++ rest) = some x := by
  have hx := x.toNat_lt
  unfold readLe64 le64
  rw [List.append_assoc, readLe32_append, drop_le32_append, readLe32_append]
  show some (UInt64.ofNat _) = _
  rw [UInt32.toNat_ofNat', UInt32.toNat_ofNat']
  congr 1
  refine UInt64.toNat_inj.mp ?_
  rw [UInt64.toNat_ofNat']
  omega

/-- The bytes of a word are those it is read from. -/
theorem eq_le32_of_read {x : UInt32} {bs : List UInt8} (hlen : bs.length = 4)
    (h : readLe32 bs = some x) : bs = le32 x := by
  match bs, hlen with
  | [b0, b1, b2, b3], _ =>
    have h0 := b0.toNat_lt
    have h1 := b1.toNat_lt
    have h2 := b2.toNat_lt
    have h3 := b3.toNat_lt
    injection h with h
    have hx := congrArg UInt32.toNat h
    rw [UInt32.toNat_ofNat'] at hx
    simp only [le32, ← hx, List.cons.injEq, and_true, ← UInt8.toNat_inj, UInt8.toNat_ofNat']
    omega

/-- An `int` and its bits. -/
theorem toInt_eq (x : Int32) : x.toInt =
    if 2 * x.toUInt32.toNat < 2 ^ 32 then (x.toUInt32.toNat : Int)
    else x.toUInt32.toNat - 2 ^ 32 := BitVec.toInt_eq_toNat_cond x.toBitVec

/-! ## Strings -/

/-- A C string: the bytes before the terminating NUL. -/
@[ext] structure CString where
  bytes : List UInt8
  noNul : (0 : UInt8) ∉ bytes
  deriving DecidableEq

namespace CString

/-- `std::string` compares the bytes in order. -/
instance : Ord CString := ⟨fun s t => compare s.bytes t.bytes⟩

instance : Std.TransOrd CString where
  eq_swap {s t} := Std.OrientedOrd.eq_swap (a := s.bytes) (b := t.bytes)
  isLE_trans {s t u} := Std.TransOrd.isLE_trans (a := s.bytes) (b := t.bytes) (c := u.bytes)

instance : Std.LawfulEqOrd CString where
  compare_self {s} := Std.ReflOrd.compare_self (a := s.bytes)
  eq_of_compare h := CString.ext (Std.LawfulEqOrd.eq_of_compare h)

def empty : CString := ⟨[], List.not_mem_nil⟩

/-- A lower-case letter. -/
def letter (c : ℕ) : CString := ⟨[UInt8.ofNat (97 + c % 26)], by
  have hlt := c.mod_lt (show 0 < 26 by decide)
  rw [List.mem_singleton, ← UInt8.toNat_inj, UInt8.toNat_ofNat']
  simp only [UInt8.toNat_zero]
  omega⟩

def strlen (s : CString) : Nat := s.bytes.length

/-- The bytes the string takes in memory. -/
def image (s : CString) : List UInt8 := s.bytes ++ [0]

@[simp] theorem length_image (s : CString) : s.image.length = s.strlen + 1 := by
  simp [image, strlen]

end CString

/-- The C string that starts at the front of `bs`. -/
def readCString (bs : List UInt8) : Option CString :=
  if (0 : UInt8) ∈ bs then
    some ⟨bs.takeWhile (· != 0), fun h => by simpa using List.mem_takeWhile_imp h⟩
  else none

@[simp] theorem readCString_append (s : CString) (rest : List UInt8) :
    readCString (s.image ++ rest) = some s := by
  have hmem : (0 : UInt8) ∈ s.image ++ rest := by simp [CString.image]
  have htake : (s.image ++ rest).takeWhile (· != 0) = s.bytes := by
    rw [CString.image, List.append_assoc, List.takeWhile_append_of_pos]
    · simp
    · intro b hb
      have : b ≠ 0 := fun h => s.noNul (h ▸ hb)
      simpa using this
  rw [readCString, if_pos hmem]
  exact congrArg some (CString.ext htake)

end CBytes
