/-
  A file of records of one size, read with `fread` into one buffer.

  1. **The read** — `fread` of one item stores the bytes that it gets at the front of the buffer and
     counts whole items.  An item that the file ends inside of is stored as far as it goes; at the end
     of the file the buffer stays.

  2. **The file** — its whole records, and what is in the buffer when it has been read to its end: the
     last record, with the bytes behind it on top.

  3. **The loop** that reads until the buffer satisfies a test and does not look at the count.  It ends
     with the first record that satisfies the test, or with what is left at the end, or never
     (`readUntil_iff`).
-/
import Mathlib.Data.List.OfFn
import Mathlib.Data.List.GetD
import Mathlib.Tactic.Common

namespace Records

variable {β : Type*} {n : ℕ}

/-! ## Reading -/

/-- `fread(buf, n, 1, fptr)`: the count, the buffer and the rest of the file. -/
def fread (buf : Fin n → β) (rest : List β) : ℕ × (Fin n → β) × List β :=
  (if n ≤ rest.length then 1 else 0, fun i => rest.getD i.1 (buf i), rest.drop n)

theorem fread_whole (buf r : Fin n → β) (rest : List β) :
    fread buf (List.ofFn r ++ rest) = (1, r, rest) := by
  have hlen : (List.ofFn r).length = n := List.length_ofFn
  unfold fread
  rw [if_pos (by rw [List.length_append]; omega), List.drop_left' hlen]
  congr 2
  funext i
  rw [List.getD_append _ _ _ _ (by omega), List.getD_eq_getElem _ _ (by omega), List.getElem_ofFn]

/-- A file that ends inside of the item. -/
theorem fread_short (buf : Fin n → β) {rest : List β} (h : rest.length < n) :
    fread buf rest = (0, fun i => rest.getD i.1 (buf i), []) := by
  unfold fread
  rw [if_neg (by omega), List.drop_eq_nil_of_le h.le]

/-- The end of the file. -/
theorem fread_eof (buf : Fin n → β) : (fread buf []).2 = (buf, []) := by
  unfold fread
  rw [List.drop_nil]
  rfl

/-! ## The file -/

/-- The whole records of a file. -/
def records (n : ℕ) (text : List β) : List (Fin n → β) :=
  List.ofFn fun (k : Fin (text.length / n)) (i : Fin n) => text.get ⟨n * k + i, by
    calc n * k.1 + i.1 < n * (k.1 + 1) := by rw [Nat.mul_succ]; omega
      _ ≤ n * (text.length / n) := Nat.mul_le_mul_left n k.2
      _ ≤ text.length := Nat.mul_div_le _ _⟩

/-- What is in the buffer when the file has been read to its end. -/
def leftover (buf : Fin n → β) (text : List β) : Fin n → β :=
  let last := (records n text).getLast?.getD buf
  fun i => (text.drop (n * (text.length / n))).getD i.1 (last i)

theorem records_append (hn : 0 < n) (r : Fin n → β) (rest : List β) :
    records n (List.ofFn r ++ rest) = r :: records n rest := by
  have hlen : (List.ofFn r ++ rest).length = rest.length + n := by
    rw [List.length_append, List.length_ofFn, Nat.add_comm]
  have hdiv : (List.ofFn r ++ rest).length / n = rest.length / n + 1 := by
    rw [hlen, Nat.add_div_right _ hn]
  unfold records
  refine List.ext_getElem ?_ fun k hk hk' => ?_
  · rw [List.length_ofFn, List.length_cons, List.length_ofFn, hdiv]
  · rw [List.getElem_ofFn]
    cases k with
    | zero =>
      funext i
      rw [List.getElem_cons_zero, List.get_eq_getElem]
      simp only [Nat.mul_zero, Nat.zero_add]
      rw [List.getElem_append_left (by rw [List.length_ofFn]; exact i.2), List.getElem_ofFn]
    | succ k =>
      funext i
      rw [List.getElem_cons_succ, List.getElem_ofFn, List.get_eq_getElem, List.get_eq_getElem]
      simp only [Nat.mul_succ]
      rw [List.getElem_append_right (by rw [List.length_ofFn]; omega)]
      simp only [List.length_ofFn]
      congr 1
      omega

theorem records_short {text : List β} (h : text.length < n) : records n text = [] := by
  rw [← List.length_eq_zero_iff, records, List.length_ofFn, Nat.div_eq_of_lt h]

theorem leftover_append (hn : 0 < n) (buf r : Fin n → β) (rest : List β) :
    leftover buf (List.ofFn r ++ rest) = leftover r rest := by
  have hlen : (List.ofFn r ++ rest).length = rest.length + n := by
    rw [List.length_append, List.length_ofFn, Nat.add_comm]
  have hdrop : (List.ofFn r ++ rest).drop (n * ((List.ofFn r ++ rest).length / n)) =
      rest.drop (n * (rest.length / n)) := by
    rw [hlen, Nat.add_div_right _ hn, Nat.mul_succ, Nat.add_comm, ← List.drop_drop,
      List.drop_left' List.length_ofFn]
  unfold leftover
  rw [hdrop, records_append hn, List.getLast?_cons, Option.getD_some]

theorem leftover_short (buf : Fin n → β) {text : List β} (h : text.length < n) :
    leftover buf text = fun i => text.getD i.1 (buf i) := by
  unfold leftover
  rw [records_short h, Nat.div_eq_of_lt h]
  rfl

/-- A file is the end of a record, or a record and what is behind it. -/
theorem first_record (n : ℕ) (text : List β) :
    text.length < n ∨ ∃ (r : Fin n → β) (rest : List β), text = List.ofFn r ++ rest := by
  rcases Nat.lt_or_ge text.length n with h | h
  · exact Or.inl h
  · refine Or.inr ⟨fun i => text.get ⟨i, by omega⟩, text.drop n, ?_⟩
    have htake : List.ofFn (fun i : Fin n => text.get ⟨i, by omega⟩) = text.take n := by
      refine List.ext_getElem (by rw [List.length_ofFn, List.length_take, min_eq_left h])
        fun k hk hk' => ?_
      rw [List.getElem_ofFn, List.getElem_take]
      rfl
    rw [htake, List.take_append_drop]

/-! ## The loop -/

/-- `do { fread(buf, n, 1, fptr); } while (!stop(buf));` -/
def readUntil (stop : (Fin n → β) → Bool) : ℕ → (Fin n → β) → List β → Option (Fin n → β)
  | 0, _, _ => none
  | fuel + 1, buf, rest =>
    let (_, buf, rest) := fread buf rest
    if stop buf then some buf else readUntil stop fuel buf rest

variable {stop : (Fin n → β) → Bool}

/-- One turn of the loop. -/
theorem readUntil_turn (buf : Fin n → β) (rest : List β) (b : Fin n → β) :
    (∃ fuel, readUntil stop fuel buf rest = some b) ↔
      if stop (fread buf rest).2.1 then (fread buf rest).2.1 = b
      else ∃ fuel, readUntil stop fuel (fread buf rest).2.1 (fread buf rest).2.2 = some b := by
  have hturn (fuel : ℕ) : readUntil stop (fuel + 1) buf rest =
      if stop (fread buf rest).2.1 then some (fread buf rest).2.1
      else readUntil stop fuel (fread buf rest).2.1 (fread buf rest).2.2 := rfl
  -- Without fuel there is no result.
  rw [← Nat.or_exists_add_one, or_iff_right (show readUntil stop 0 buf rest ≠ some b from nofun)]
  simp only [hturn]
  split
  · simp
  · rfl

/-- At the end of the file the loop goes round with the same buffer. -/
theorem readUntil_eof {buf : Fin n → β} (h : stop buf = false) (fuel : ℕ) :
    readUntil stop fuel buf [] = none := by
  induction fuel with
  | zero => rfl
  | succ fuel ih =>
    rw [readUntil]
    show (if stop (fread buf []).2.1 then _ else readUntil stop fuel (fread buf []).2.1 (fread buf []).2.2) = _
    rw [fread_eof, if_neg (by rw [h]; decide)]
    exact ih

/-- **How the loop ends**: with the first record that satisfies the test, else with what is left. -/
theorem readUntil_iff (hn : 0 < n) (buf : Fin n → β) (text : List β) (b : Fin n → β) :
    (∃ fuel, readUntil stop fuel buf text = some b) ↔
      ((records n text).find? stop).or
        (if stop (leftover buf text) then some (leftover buf text) else none) = some b := by
  induction hlen : text.length using Nat.strong_induction_on generalizing text buf with
  | _ len ih =>
    rw [readUntil_turn]
    rcases first_record n text with hshort | ⟨r, rest, rfl⟩
    · -- This read stores the bytes that are left; later ones change nothing any more.
      rw [records_short hshort, leftover_short buf hshort, List.find?_nil, Option.none_or,
        fread_short buf hshort]
      dsimp only
      split
      · exact Option.some_inj.symm
      · rename_i hstop
        refine ⟨fun ⟨fuel, h⟩ => ?_, fun h => by cases h⟩
        rw [readUntil_eof (Bool.not_eq_true _ ▸ hstop)] at h
        cases h
    · have hrest : rest.length < len := by
        rw [← hlen, List.length_append, List.length_ofFn]
        omega
      rw [records_append hn, leftover_append hn, fread_whole]
      dsimp only
      split
      · rename_i hstop
        rw [List.find?_cons_of_pos hstop, Option.some_or]
        exact Option.some_inj.symm
      · rename_i hstop
        rw [List.find?_cons_of_neg hstop]
        exact ih rest.length hrest r rest rfl

end Records
