/-
  Text files, line by line.

  1. **The stream** — an `ifstream` has the rest of its file, `eofbit` and `failbit`.  `getline` stores at
     most `n - 1` characters; a line that is longer, or no character at all, sets `failbit`; a last line
     without a newline sets `eofbit` only.

  2. **The loop** that reads until the end of the file, with a body that may break.

  3. **The lines of a text** — what is between the newlines, without an empty rest behind the last one.
     The loop is a fold over them (`whileLines_eq`), whether or not the last one is terminated.

  4. **A loop that tests for the end of the file alone** does not get a last line without a newline
     (`returns_end`).  Behind a line that does not fit it gets empty lines for ever (`returns_long`,
     `returns_failed`).
-/
import LaunchMON.Lib.Strings

namespace Lines

open CText

variable {α : Type}

/-! ## Streams -/

structure Stream where
  rest : Str
  eofbit : Bool
  failbit : Bool
  deriving DecidableEq

/-- A file that has been opened. -/
def Stream.ofText (text : Str) : Stream := ⟨text, false, false⟩

/-- `getline(line, n)` on a stream that is good. -/
def getline (n : ℕ) (s : Stream) : Str × Stream :=
  let line := s.rest.takeWhile (· ≠ '\n')
  if n ≤ line.length then (line.take (n - 1), ⟨s.rest.drop (n - 1), false, true⟩)
  else match s.rest.drop line.length with
    | [] => (line, ⟨[], true, line.isEmpty⟩)
    | _ :: rest => (line, ⟨rest, false, false⟩)

/-- `while (!eof) { getline; if (fail) break; body }`.  A body that breaks returns `.error`. -/
def whileLines (n : ℕ) (body : α → Str → Except α α) : ℕ → Stream → α → Option α
  | 0, _, _ => none
  | fuel + 1, s, a =>
    if s.eofbit then some a
    else
      let (line, s) := getline n s
      if s.failbit then some a
      else match body a line with
        | .error a => some a
        | .ok a => whileLines n body fuel s a

/-! ## Lines -/

/-- The lines of a text. -/
def lines (text : Str) : List Str :=
  let parts := text.splitOn '\n'
  if parts.getLast? = some [] then parts.dropLast else parts

/-- A loop over a list, with a body that may break. -/
def foldLines (body : α → Str → Except α α) : α → List Str → α
  | a, [] => a
  | a, line :: ls =>
    match body a line with
    | .error a => a
    | .ok a => foldLines body a ls

@[simp] theorem lines_nil : lines [] = [] := rfl

/-- A last line without a newline. -/
theorem lines_unterminated {text : Str} (h : '\n' ∉ text) (hne : text ≠ []) : lines text = [text] := by
  unfold lines
  rw [List.splitOn_eq_singleton h]
  exact if_neg fun hlast => hne (Option.some.inj hlast)

theorem lines_cons {line : Str} (h : '\n' ∉ line) (rest : Str) :
    lines (line ++ '\n' :: rest) = line :: lines rest := by
  unfold lines
  rw [List.splitOn_append_cons_self_of_not_mem h]
  have hne : rest.splitOn '\n' ≠ [] := List.splitOn_ne_nil _ _
  dsimp only
  rw [List.getLast?_cons_of_ne_nil hne, List.dropLast_cons_of_ne_nil hne]
  split
  · rfl
  · rfl

/-- A text is empty, or a line without a newline, or a line and what is behind its newline. -/
theorem first_line (text : Str) : text = [] ∨ ('\n' ∉ text ∧ text ≠ []) ∨
    ∃ line rest, text = line ++ '\n' :: rest ∧ '\n' ∉ line := by
  by_cases hmem : '\n' ∈ text
  · obtain ⟨line, rest, rfl, hline⟩ := List.eq_append_cons_of_mem hmem
    exact Or.inr (Or.inr ⟨line, rest, rfl, hline⟩)
  · by_cases hne : text = []
    · exact Or.inl hne
    · exact Or.inr (Or.inl ⟨hmem, hne⟩)

/-- A line has no newline. -/
theorem not_mem_of_mem_lines (text : Str) : ∀ line ∈ lines text, '\n' ∉ line := by
  induction hlen : text.length using Nat.strong_induction_on generalizing text with
  | _ n ih =>
    intro line hline
    rcases first_line text with rfl | ⟨hno, hne⟩ | ⟨first, rest, rfl, hfirst⟩
    · exact absurd hline List.not_mem_nil
    · rw [lines_unterminated hno hne] at hline
      exact List.mem_singleton.mp hline ▸ hno
    · rw [lines_cons hfirst] at hline
      rcases List.mem_cons.mp hline with rfl | hline
      · exact hfirst
      · exact ih rest.length (by rw [← hlen, List.length_append, List.length_cons]; omega) rest rfl line hline

theorem takeWhile_line {line : Str} (h : '\n' ∉ line) : line.takeWhile (· ≠ '\n') = line :=
  List.takeWhile_eq_self_iff.mpr fun _ hc => decide_eq_true (ne_of_mem_of_not_mem hc h)

theorem takeWhile_newline (rest : Str) : ('\n' :: rest).takeWhile (· ≠ '\n') = [] :=
  List.takeWhile_cons_of_neg (by decide)

theorem getline_cons {n : ℕ} {line : Str} (h : '\n' ∉ line) (hn : line.length < n) (rest : Str) :
    getline n (.ofText (line ++ '\n' :: rest)) = (line, .ofText rest) := by
  have htake : (line ++ '\n' :: rest).takeWhile (· ≠ '\n') = line := by
    rw [List.takeWhile_append_of_pos fun c hc => decide_eq_true (ne_of_mem_of_not_mem hc h)]
    exact List.append_nil line
  unfold getline Stream.ofText
  dsimp only
  rw [htake, if_neg (not_le.mpr hn), List.drop_left]

theorem getline_unterminated {n : ℕ} {text : Str} (h : '\n' ∉ text) (hn : text.length < n) :
    getline n (.ofText text) = (text, ⟨[], true, text.isEmpty⟩) := by
  unfold getline Stream.ofText
  dsimp only
  rw [takeWhile_line h, if_neg (not_le.mpr hn), List.drop_length]

/-- A turn of the loop that gets a line. -/
theorem whileLines_step {n fuel : ℕ} (body : α → Str → Except α α) {s s' : Stream} {line : Str}
    (hs : s.eofbit = false) (hline : getline n s = (line, s')) (hs' : s'.failbit = false) (a : α) :
    whileLines n body (fuel + 1) s a = match body a line with
      | .error a => some a
      | .ok a => whileLines n body fuel s' a := by
  rw [whileLines, hs, hline]
  dsimp only
  rw [hs']
  rfl

/-- A turn that gets none. -/
theorem whileLines_fail {n fuel : ℕ} (body : α → Str → Except α α) {s s' : Stream} {line : Str}
    (hs : s.eofbit = false) (hline : getline n s = (line, s')) (hs' : s'.failbit = true) (a : α) :
    whileLines n body (fuel + 1) s a = some a := by
  rw [whileLines, hs, hline]
  dsimp only
  rw [hs']
  rfl

/-- **The loop over a file is a fold over its lines**, if they fit into the buffer. -/
theorem whileLines_eq {n : ℕ} (body : α → Str → Except α α) (hpos : 0 < n) : ∀ (fuel : ℕ) (text : Str)
    (a : α), (∀ line ∈ lines text, line.length < n) → text.length < fuel →
      whileLines n body fuel (.ofText text) a = some (foldLines body a (lines text)) := by
  intro fuel
  induction fuel with
  | zero =>
    intro text a _ hfuel
    exact absurd hfuel (Nat.not_lt_zero _)
  | succ fuel ih =>
    intro text a hn hfuel
    rcases first_line text with rfl | ⟨hno, hne⟩ | ⟨line, rest, rfl, hline⟩
    · exact whileLines_fail body rfl (getline_unterminated List.not_mem_nil hpos) rfl a
    · have hlen : 0 < text.length := List.length_pos_iff.mpr hne
      rw [lines_unterminated hno hne] at hn ⊢
      rw [whileLines_step body rfl (getline_unterminated hno (hn text List.mem_cons_self))
        (List.isEmpty_eq_false_iff.mpr hne), foldLines]
      -- The turn behind the last line finds `eofbit`.
      obtain ⟨k, rfl⟩ : ∃ k, fuel = k + 1 := ⟨fuel - 1, by omega⟩
      cases body a text with
      | error a => rfl
      | ok a => rfl
    · rw [lines_cons hline] at hn ⊢
      rw [whileLines_step body rfl (getline_cons hline (hn line List.mem_cons_self) rest) rfl, foldLines]
      rw [List.length_append, List.length_cons] at hfuel
      cases body a line with
      | error a => rfl
      | ok a => exact ih rest a (fun l hl => hn l (List.mem_cons_of_mem _ hl)) (by omega)

/-! ## Terminated lines -/

/-- The lines of a text that have a newline. -/
def terminated (text : Str) : List Str := (text.splitOn '\n').dropLast

/-- What is behind the last newline. -/
def lastPart (text : Str) : Str := (text.splitOn '\n').getLast?.getD []

theorem terminated_cons {line : Str} (h : '\n' ∉ line) (rest : Str) :
    terminated (line ++ '\n' :: rest) = line :: terminated rest := by
  unfold terminated
  rw [List.splitOn_append_cons_self_of_not_mem h, List.dropLast_cons_of_ne_nil (List.splitOn_ne_nil _ _)]

theorem lastPart_cons {line : Str} (h : '\n' ∉ line) (rest : Str) :
    lastPart (line ++ '\n' :: rest) = lastPart rest := by
  unfold lastPart
  rw [List.splitOn_append_cons_self_of_not_mem h, List.getLast?_cons_of_ne_nil (List.splitOn_ne_nil _ _)]

theorem terminated_of_not_mem {text : Str} (h : '\n' ∉ text) : terminated text = [] := by
  unfold terminated
  rw [List.splitOn_eq_singleton h]
  rfl

theorem lastPart_of_not_mem {text : Str} (h : '\n' ∉ text) : lastPart text = text := by
  unfold lastPart
  rw [List.splitOn_eq_singleton h]
  rfl

/-- A property of every text, line by line from its end. -/
theorem text_induction {P : Str → Prop} (last : ∀ text, '\n' ∉ text → P text)
    (cons : ∀ line rest, '\n' ∉ line → P rest → P (line ++ '\n' :: rest)) (text : Str) : P text := by
  induction hlen : text.length using Nat.strong_induction_on generalizing text with
  | _ len ih =>
    rcases first_line text with rfl | ⟨hno, -⟩ | ⟨line, rest, rfl, hline⟩
    · exact last [] List.not_mem_nil
    · exact last text hno
    · have hrest : rest.length < len := by
        rw [← hlen, List.length_append, List.length_cons]
        omega
      exact cons line rest hline (ih rest.length hrest rest rfl)

/-- The lines are those with a newline, and what is behind the last one. -/
theorem lines_eq (text : Str) :
    lines text = terminated text ++ if lastPart text = [] then [] else [lastPart text] := by
  induction text using text_induction with
  | last text h =>
    rw [terminated_of_not_mem h, lastPart_of_not_mem h, List.nil_append]
    split
    · next hnil => rw [hnil, lines_nil]
    · next hne => exact lines_unterminated h hne
  | cons line rest h ih => rw [lines_cons h, terminated_cons h, lastPart_cons h, ih, List.cons_append]

/-! ## Loops that test for the end of the file alone -/

section

variable {ε : Type}

/-- `getline` on a stream in any state: one that is not good gives an empty line. -/
def Stream.getline (n : ℕ) (s : Stream) : Str × Stream :=
  if s.eofbit || s.failbit then ([], { s with failbit := true }) else Lines.getline n s

/-- How a turn of a loop ends: the next one follows, or it breaks, or there is an exception. -/
inductive Turn (ε α : Type)
  | next (a : α)
  | leave (a : α)
  | throw (e : ε)

/-- `while (!ifs.getline(line, n).eof()) body`.  The body is `none` if it does not end. -/
def eofLines (n : ℕ) (body : α → Str → Option (Turn ε α)) : ℕ → Stream → α → Option (Except ε α)
  | 0, _, _ => none
  | fuel + 1, s, a =>
    let (line, s) := s.getline n
    if s.eofbit then some (.ok a)
    else match body a line with
      | none => none
      | some (.next a) => eofLines n body fuel s a
      | some (.leave a) => some (.ok a)
      | some (.throw e) => some (.error e)

/-- The loop ends, with the result `r`. -/
def Returns (n : ℕ) (body : α → Str → Option (Turn ε α)) (s : Stream) (a : α) (r : Except ε α) : Prop :=
  ∃ fuel, eofLines n body fuel s a = some r

/-- A turn leads to the result `r`, if the turns behind it do as `behind` says. -/
def Leads (behind : α → Prop) (r : Except ε α) : Option (Turn ε α) → Prop
  | none => False
  | some (.next a) => behind a
  | some (.leave a) => r = .ok a
  | some (.throw e) => r = .error e

variable {n : ℕ} {body : α → Str → Option (Turn ε α)} {a : α} {r : Except ε α}

theorem returns_turn (s : Stream) : Returns n body s a r ↔
    if (s.getline n).2.eofbit then r = .ok a
    else Leads (fun a => Returns n body (s.getline n).2 a r) r (body a (s.getline n).1) := by
  have hturn (fuel : ℕ) : eofLines n body (fuel + 1) s a =
      if (s.getline n).2.eofbit then some (.ok a)
      else match body a (s.getline n).1 with
        | none => none
        | some (.next a) => eofLines n body fuel (s.getline n).2 a
        | some (.leave a) => some (.ok a)
        | some (.throw e) => some (.error e) := rfl
  unfold Returns
  -- Without fuel there is no result.
  rw [← Nat.or_exists_add_one, or_iff_right (show eofLines n body 0 s a ≠ some r from nofun)]
  simp only [hturn]
  split
  · simp [eq_comm]
  · cases body a (s.getline n).1 with
    | none => simp [Leads]
    | some turn =>
      cases turn with
      | next a => rfl
      | leave a => simp [Leads, eq_comm]
      | throw e => simp [Leads, eq_comm]

/-- A last part without a newline ends the loop, and the body does not get it. -/
theorem returns_end {text : Str} (h : '\n' ∉ text) (hn : text.length < n) :
    Returns n body (.ofText text) a r ↔ r = .ok a := by
  have hget : (Stream.ofText text).getline n = (text, ⟨[], true, text.isEmpty⟩) := getline_unterminated h hn
  rw [returns_turn, hget]
  exact Iff.rfl

theorem returns_line {line : Str} (h : '\n' ∉ line) (hn : line.length < n) (rest : Str) :
    Returns n body (.ofText (line ++ '\n' :: rest)) a r ↔
      Leads (fun a => Returns n body (.ofText rest) a r) r (body a line) := by
  have hget : (Stream.ofText (line ++ '\n' :: rest)).getline n = (line, .ofText rest) := getline_cons h hn rest
  rw [returns_turn, hget]
  exact Iff.rfl

/-- A line that does not fit: the body gets its front, and then the stream has failed. -/
theorem returns_long {line : Str} (h : '\n' ∉ line) (hn : n ≤ line.length) {rest : Str}
    (hrest : rest.takeWhile (· ≠ '\n') = []) :
    Returns n body (.ofText (line ++ rest)) a r ↔
      Leads (fun a => Returns n body ⟨(line ++ rest).drop (n - 1), false, true⟩ a r) r
        (body a (line.take (n - 1))) := by
  have htake : (line ++ rest).takeWhile (· ≠ '\n') = line := by
    rw [List.takeWhile_append_of_pos fun c hc => decide_eq_true (ne_of_mem_of_not_mem hc h), hrest,
      List.append_nil]
  have hget : (Stream.ofText (line ++ rest)).getline n =
      (line.take (n - 1), ⟨(line ++ rest).drop (n - 1), false, true⟩) := by
    show Lines.getline n (.ofText (line ++ rest)) = _
    unfold getline Stream.ofText
    dsimp only
    rw [htake, if_pos hn]
  rw [returns_turn, hget]
  exact Iff.rfl

/-- From then on the lines are empty, and there is no end of the file. -/
theorem returns_failed (rest : Str) : Returns n body ⟨rest, false, true⟩ a r ↔
    Leads (fun a => Returns n body ⟨rest, false, true⟩ a r) r (body a []) := by
  rw [returns_turn]
  exact Iff.rfl

/-- A body that goes on with an empty line goes on for ever. -/
theorem not_returns_failed (hbody : body a [] = some (.next a)) (rest : Str) :
    ¬Returns n body ⟨rest, false, true⟩ a r := by
  have hget : (Stream.mk rest false true).getline n = ([], ⟨rest, false, true⟩) := rfl
  rintro ⟨fuel, h⟩
  induction fuel with
  | zero => cases h
  | succ fuel ih =>
    rw [eofLines, hget] at h
    dsimp only at h
    rw [if_neg Bool.false_ne_true, hbody] at h
    exact ih h

end

end Lines
