/-
  `tokenize` of `lmon_fe.cxx`, which takes a command line apart.

  A token is collected in a scratch buffer that comes from `malloc` and has as many cells as the string
  has characters, and one more.  A space that is neither quoted nor escaped ends the token, and then
  the function looks for further spaces, so that a run of spaces separates once.  It looks for them in
  the SCRATCH BUFFER.

    (1) A token is never longer than what has been read of the string, so the writes stay within the
        buffer, and all of them are behind the place where the function looks.  What it finds there has
        been there from the beginning.
    (2) So the function is a scan over the string beside the scratch buffer (`tokenize_eq_scan`): behind
        a separator, the scan drops characters as long as the buffer beside them has spaces.
    (3) The split that is meant is the scan of the string beside itself (`scan_self`), and a list of
        tokens that has been quoted, escaped and joined is split into itself (`split_joinTokens`).
    (4) Beside a buffer full of spaces all is dropped behind the first separator, and beside one without
        spaces nothing is.  Where both give the same, nothing behind the first separator makes a token,
        and that is enough for every buffer (`tokenize_iff`).

  The list of tokens is one to which `tokenize` appends.  The index of the source is an `int`; strings
  are shorter than what it holds.
-/
import LaunchMON.Lib.Strings
import Mathlib.Data.List.Basic

namespace LaunchMON.Frontend

open CText

/-! ## The function -/

/-- The local variables, and the list of tokens. -/
structure Tok where
  buffer : List Char
  bufferPos : ℕ
  escaped : Bool
  quoted : Bool
  result : List Str

/-- What an escaped character stands for. -/
def escapeLetter (c : Char) : Char :=
  if c = 'a' then '\x07'
  else if c = 'b' then '\x08'
  else if c = 'f' then '\x0c'
  else if c = 'n' then '\n'
  else if c = 'r' then '\r'
  else if c = 't' then '\t'
  else if c = 'v' then '\x0b'
  else c

/-- `append_to_buffer`, which must stay within the buffer. -/
def Tok.appendToBuffer (st : Tok) (c : Char) : Option Tok :=
  if st.bufferPos < st.buffer.length then
    some { st with buffer := st.buffer.set st.bufferPos c, bufferPos := st.bufferPos + 1 }
  else none

/-- The end of a token: a terminator, and the C string goes to the list. -/
def Tok.pushBack (st : Tok) : Option Tok := do
  let st ← st.appendToBuffer '\x00'
  return { st with result := st.result ++ [st.buffer.takeWhile (· ≠ '\x00')] }

/-- `while (i + 1 < len && buffer[i + 1] == ' ') i++`. -/
def skipSpaces (buffer : List Char) (len i : ℕ) : ℕ :=
  if i + 1 < len ∧ buffer.getD (i + 1) '\x00' = ' ' then skipSpaces buffer len (i + 1) else i
termination_by len - i

/-- The body of the loop, with the index that it leaves. -/
def tokStep (len : ℕ) (st : Tok) (i : ℕ) (c : Char) : Option (Tok × ℕ) :=
  if st.escaped then do
    let st ← st.appendToBuffer (escapeLetter c)
    return ({ st with escaped := false }, i)
  else if c = '\\' then some ({ st with escaped := true }, i)
  else if c = '"' then some ({ st with quoted := !st.quoted }, i)
  else if st.quoted then do
    let st ← st.appendToBuffer c
    return (st, i)
  else if c = ' ' then do
    let st ← st.pushBack
    return ({ st with bufferPos := 0 }, skipSpaces st.buffer len i)
  else do
    let st ← st.appendToBuffer c
    return (st, i)

/-- The loop over the string. -/
def tokLoop (str : Str) : ℕ → ℕ → Tok → Option Tok
  | 0, _, _ => none
  | fuel + 1, i, st =>
    match str[i]? with
    | none => some st
    | some c => do
      let (st, i) ← tokStep str.length st i c
      tokLoop str fuel (i + 1) st

/-- What is left in the buffer behind the loop. -/
def Tok.finish (st : Tok) : Option Tok := if 0 < st.bufferPos then st.pushBack else some st

/-- `tokenize`, with what `malloc` returns. -/
def tokenize (scratch : List Char) (str : Str) (result : List Str) : Option (List Str) := do
  let st ← tokLoop str (str.length + 1) 0 ⟨scratch, 0, false, false, result⟩
  let st ← st.finish
  return st.result

/-! ## The split that is meant -/

/-- What a character means: nothing if it separates, otherwise the flags behind it and what it gives to
    the token. -/
def lex (escaped quoted : Bool) (c : Char) : Option (Bool × Bool × Str) :=
  if escaped then some (false, quoted, [escapeLetter c])
  else if c = '\\' then some (true, quoted, [])
  else if c = '"' then some (false, !quoted, [])
  else if quoted then some (false, true, [c])
  else if c = ' ' then none
  else some (false, false, [c])

/-- The tokens of a string, behind the characters `cur` of a token: a run of spaces that are neither
    quoted nor escaped separates two tokens.  `run` says that a separator is in front. -/
def split (cur : Str) (escaped quoted run : Bool) : Str → List Str
  | [] => if cur = [] then [] else [cur]
  | c :: rest =>
    if run ∧ c = ' ' then split cur escaped quoted true rest
    else
      match lex escaped quoted c with
      | none => cur :: split [] false false true rest
      | some (escaped, quoted, t) => split (cur ++ t) escaped quoted false rest

/-! ## The scan -/

/-- The tokens of a string that stands beside a scratch buffer.  Behind a separator, characters are
    dropped as long as there are spaces beside them. -/
def scan (cur : Str) (escaped quoted skip : Bool) : List (Char × Char) → List Str
  | [] => if cur = [] then [] else [cur]
  | p :: rest =>
    if skip ∧ p.2 = ' ' then scan cur escaped quoted true rest
    else
      match lex escaped quoted p.1 with
      | none => cur :: scan [] false false true rest
      | some (escaped, quoted, t) => scan (cur ++ t) escaped quoted false rest

theorem scan_self (str : Str) : ∀ (cur : Str) (escaped quoted run : Bool),
    scan cur escaped quoted run (str.map fun c => (c, c)) = split cur escaped quoted run str := by
  induction str with
  | nil =>
    intro cur escaped quoted run
    rfl
  | cons c rest ih =>
    intro cur escaped quoted run
    rw [List.map_cons, scan, split, ih, ih]
    dsimp only
    cases lex escaped quoted c with
    | none => rfl
    | some r =>
      dsimp only
      rw [ih]

theorem not_skipping {P : Prop} : ¬(false = true ∧ P) := fun h => Bool.noConfusion h.1

section

variable {cur : Str} {escaped quoted skip : Bool} {p : Char × Char} {rest : List (Char × Char)}

/-- A separator that is not dropped. -/
theorem scan_separator (h : ¬(skip = true ∧ p.2 = ' ')) (hlex : lex escaped quoted p.1 = none) :
    scan cur escaped quoted skip (p :: rest) = cur :: scan [] false false true rest := by
  rw [scan, if_neg h, hlex]

/-- Any other character that is not dropped. -/
theorem scan_char (h : ¬(skip = true ∧ p.2 = ' ')) {escaped' quoted' : Bool} {t : Str}
    (hlex : lex escaped quoted p.1 = some (escaped', quoted', t)) :
    scan cur escaped quoted skip (p :: rest) = scan (cur ++ t) escaped' quoted' false rest := by
  rw [scan, if_neg h, hlex]

end

/-- Where the buffer has no space, nothing is dropped. -/
theorem scan_skip {p : Char × Char} (h : p.2 ≠ ' ') (cur : Str) (escaped quoted : Bool)
    (rest : List (Char × Char)) :
    scan cur escaped quoted true (p :: rest) = scan cur escaped quoted false (p :: rest) := by
  rw [scan, scan, if_neg (fun hs => h hs.2), if_neg (@not_skipping (p.2 = ' '))]

/-! ## The writes -/

section

variable {scratch : List Char} {str : Str}

/-- The head of the loop at index `i`, with the token `cur` in the buffer. -/
structure At (scratch : List Char) (str : Str) (i : ℕ) (cur : Str) (st : Tok) : Prop where
  length_eq : st.buffer.length = str.length + 1
  pos_eq : st.bufferPos = cur.length
  pos_le : cur.length ≤ i
  front : cur <+: st.buffer
  behind : ∀ k, i ≤ k → st.buffer[k]? = scratch[k]?
  noNul : '\x00' ∉ cur

/-- A character that is appended while the index is within the string. -/
theorem At.appendToBuffer {i : ℕ} {cur : Str} {st : Tok} (h : At scratch str i cur st)
    (hi : i ≤ str.length) (c : Char) : ∃ buffer,
      st.appendToBuffer c = some { st with buffer := buffer, bufferPos := cur.length + 1 } ∧
      buffer.length = str.length + 1 ∧ cur ++ [c] <+: buffer ∧
      ∀ k, i + 1 ≤ k → buffer[k]? = scratch[k]? := by
  have hpos : cur.length < st.buffer.length := by
    rw [h.length_eq]
    exact Nat.lt_succ_of_le (h.pos_le.trans hi)
  refine ⟨st.buffer.set cur.length c, ?_, ?_, ?_, ?_⟩
  · rw [Tok.appendToBuffer, h.pos_eq, if_pos hpos]
  · rw [List.length_set]
    exact h.length_eq
  -- the buffer goes on behind `cur`, so the new character overwrites its next cell
  · obtain ⟨rest, hrest⟩ := h.front
    obtain ⟨x, xs, hx⟩ : ∃ x xs, rest = x :: xs := by
      refine List.exists_cons_of_ne_nil fun hnil => ?_
      rw [← hrest, hnil, List.append_nil] at hpos
      exact absurd hpos (Nat.lt_irrefl _)
    rw [← hrest, hx, List.set_append_right _ _ le_rfl, Nat.sub_self, List.set_cons_zero,
      List.prefix_append_right_inj]
    exact ⟨xs, rfl⟩
  · intro k hk
    rw [List.getElem?_set_ne (by have := h.pos_le; omega)]
    exact h.behind k (by omega)

/-- A token that is ended goes to the list as it is. -/
theorem At.pushBack {i : ℕ} {cur : Str} {st : Tok} (h : At scratch str i cur st)
    (hi : i ≤ str.length) : ∃ buffer,
      st.pushBack = some { st with
        buffer := buffer, bufferPos := cur.length + 1, result := st.result ++ [cur] } ∧
      buffer.length = str.length + 1 ∧ ∀ k, i + 1 ≤ k → buffer[k]? = scratch[k]? := by
  obtain ⟨buffer, happend, hlen, hfront, hbehind⟩ := h.appendToBuffer hi '\x00'
  refine ⟨buffer, ?_, hlen, hbehind⟩
  have htoken : buffer.takeWhile (· ≠ '\x00') = cur := by
    obtain ⟨rest, rfl⟩ := hfront
    have hcur : ∀ c ∈ cur, decide (c ≠ '\x00') = true := by
      intro c hc
      refine decide_eq_true ?_
      rintro rfl
      exact h.noNul hc
    rw [List.append_assoc, List.takeWhile_append_of_pos hcur]
    simp
  rw [Tok.pushBack, happend]
  show some _ = some _
  rw [htoken]

/-- The string beside the buffer, from an index on. -/
def beside (scratch : List Char) (str : Str) (i : ℕ) : List (Char × Char) := (str.zip scratch).drop i

/-- What the inner loop skips is what the scan drops. -/
theorem skipSpaces_scan {buffer : List Char} (hscratch : scratch.length = str.length + 1) (i : ℕ)
    (hbehind : ∀ k, i + 1 ≤ k → buffer[k]? = scratch[k]?) :
    i ≤ skipSpaces buffer str.length i ∧ (i < str.length → skipSpaces buffer str.length i < str.length) ∧
    scan [] false false true (beside scratch str (i + 1)) =
      scan [] false false false (beside scratch str (skipSpaces buffer str.length i + 1)) := by
  have hlen : (str.zip scratch).length = str.length := by
    rw [List.length_zip, hscratch]
    omega
  induction hn : str.length - i generalizing i with
  | zero =>
    have hend : beside scratch str (i + 1) = [] := List.drop_of_length_le (by omega)
    rw [skipSpaces, if_neg (by omega), hend]
    exact ⟨le_rfl, id, rfl⟩
  | succ n ih =>
    by_cases hlast : i + 1 < str.length
    · have hcons : beside scratch str (i + 1) =
          (str[i + 1], scratch[i + 1]) :: beside scratch str (i + 2) := by
        rw [beside, List.drop_eq_getElem_cons (by omega), List.getElem_zip]
        rfl
      have hget : buffer.getD (i + 1) '\x00' = scratch[i + 1] := by
        rw [List.getD_eq_getElem?_getD, hbehind _ le_rfl, List.getElem?_eq_getElem]
        rfl
      rw [skipSpaces, hget]
      -- the loop looks ahead in its buffer and not in the string, and there the scratch still stands
      by_cases hspace : scratch[i + 1] = ' '
      · obtain ⟨hle, hlt, hscan⟩ := ih (i + 1) (fun k hk => hbehind k (by omega)) (by omega)
        rw [if_pos ⟨hlast, hspace⟩]
        refine ⟨by omega, fun _ => hlt hlast, ?_⟩
        rw [← hscan, hcons, scan, if_pos ⟨rfl, hspace⟩]
      · rw [if_neg (fun h => hspace h.2)]
        refine ⟨le_rfl, id, ?_⟩
        rw [hcons]
        exact scan_skip hspace _ _ _ _
    · have hend : beside scratch str (i + 1) = [] := List.drop_of_length_le (by omega)
      rw [skipSpaces, if_neg (fun h => hlast h.1), hend]
      exact ⟨le_rfl, id, rfl⟩

/-- The pair at an index of the string. -/
theorem beside_cons (hscratch : scratch.length = str.length + 1) {i : ℕ} (hi : i < str.length) :
    ∃ c s, str[i]? = some c ∧ c ∈ str ∧ beside scratch str i = (c, s) :: beside scratch str (i + 1) := by
  have hlen : i < (str.zip scratch).length := by
    rw [List.length_zip, hscratch]
    omega
  refine ⟨str[i], scratch[i], List.getElem?_eq_getElem hi, List.getElem_mem hi, ?_⟩
  rw [beside, List.drop_eq_getElem_cons hlen, List.getElem_zip]
  rfl

/-- An escaped character is no terminator. -/
theorem escapeLetter_ne {c : Char} (h : c ≠ '\x00') : escapeLetter c ≠ '\x00' := by
  unfold escapeLetter
  repeat' split
  all_goals first | decide | exact h

theorem noNul_append {cur : Str} {c : Char} (h : '\x00' ∉ cur) (hc : c ≠ '\x00') :
    '\x00' ∉ cur ++ [c] := by
  intro hmem
  rcases List.mem_append.mp hmem with hmem | hmem
  · exact h hmem
  · exact hc (List.mem_singleton.mp hmem).symm

/-- A character that is appended, with the flags set. -/
theorem At.append {i : ℕ} {cur : Str} {st : Tok} (h : At scratch str i cur st) (hi : i < str.length)
    {c : Char} (hc : c ≠ '\x00') (escaped quoted : Bool) : ∃ buffer,
      st.appendToBuffer c = some { st with buffer := buffer, bufferPos := cur.length + 1 } ∧
      At scratch str (i + 1) (cur ++ [c])
        { st with buffer := buffer, bufferPos := cur.length + 1, escaped := escaped, quoted := quoted } := by
  obtain ⟨buffer, happend, hlen, hfront, hbehind⟩ := h.appendToBuffer hi.le c
  refine ⟨buffer, happend, hlen, ?_, ?_, hfront, hbehind, noNul_append h.noNul hc⟩
  · rw [List.length_append, List.length_singleton]
  · rw [List.length_append, List.length_singleton]
    exact Nat.succ_le_succ h.pos_le

/-- **One step** of the loop, and what the scan says of it. -/
theorem tokStep_eq (hscratch : scratch.length = str.length + 1) (hstr : '\x00' ∉ str) {i : ℕ}
    {cur : Str} {st : Tok} (h : At scratch str i cur st) (hi : i < str.length) :
    ∃ c st' j cur', str[i]? = some c ∧ tokStep str.length st i c = some (st', j) ∧ i ≤ j ∧
      j < str.length ∧ At scratch str (j + 1) cur' st' ∧
      st.result ++ scan cur st.escaped st.quoted false (beside scratch str i) =
        st'.result ++ scan cur' st'.escaped st'.quoted false (beside scratch str (j + 1)) := by
  obtain ⟨c, s, hget, hc, hcons⟩ := beside_cons hscratch hi
  have hnul : c ≠ '\x00' := by
    rintro rfl
    exact hstr hc
  have hstill (escaped quoted : Bool) :
      At scratch str (i + 1) cur { st with escaped := escaped, quoted := quoted } :=
    ⟨h.length_eq, h.pos_eq, h.pos_le.trans (Nat.le_succ i), h.front, fun k hk => h.behind k (by omega),
      h.noNul⟩
  -- one case for each branch of the loop, in the source's order
  rw [hcons]
  by_cases hescaped : st.escaped = true
  · have hlex : lex st.escaped st.quoted c = some (false, st.quoted, [escapeLetter c]) := if_pos hescaped
    obtain ⟨buffer, happend, hat⟩ := h.append hi (escapeLetter_ne hnul) false st.quoted
    refine ⟨c, _, i, _, hget, ?_, le_rfl, hi, hat, ?_⟩
    · rw [tokStep, if_pos hescaped, happend]
      rfl
    · rw [scan_char not_skipping hlex]
  have hplain : st.escaped = false := Bool.eq_false_iff.mpr hescaped
  by_cases hslash : c = '\\'
  · have hlex : lex st.escaped st.quoted c = some (true, st.quoted, []) := by
      rw [lex, if_neg hescaped, if_pos hslash]
    refine ⟨c, _, i, _, hget, ?_, le_rfl, hi, hstill true st.quoted, ?_⟩
    · rw [tokStep, if_neg hescaped, if_pos hslash]
    · rw [scan_char not_skipping hlex, List.append_nil]
  by_cases hquote : c = '"'
  · have hlex : lex st.escaped st.quoted c = some (st.escaped, !st.quoted, []) := by
      rw [lex, if_neg hescaped, if_neg hslash, if_pos hquote, hplain]
    refine ⟨c, _, i, _, hget, ?_, le_rfl, hi, hstill st.escaped (!st.quoted), ?_⟩
    · rw [tokStep, if_neg hescaped, if_neg hslash, if_pos hquote]
    · rw [scan_char not_skipping hlex, List.append_nil]
  by_cases hquoted : st.quoted = true
  · have hlex : lex st.escaped st.quoted c = some (st.escaped, st.quoted, [c]) := by
      rw [lex, if_neg hescaped, if_neg hslash, if_neg hquote, if_pos hquoted, hplain, hquoted]
    obtain ⟨buffer, happend, hat⟩ := h.append hi hnul st.escaped st.quoted
    refine ⟨c, _, i, _, hget, ?_, le_rfl, hi, hat, ?_⟩
    · rw [tokStep, if_neg hescaped, if_neg hslash, if_neg hquote, if_pos hquoted, happend]
      rfl
    · rw [scan_char not_skipping hlex]
  have hopen : st.quoted = false := Bool.eq_false_iff.mpr hquoted
  -- the branch that skips: the token ends and the following blanks are passed over
  by_cases hspace : c = ' '
  · have hlex : lex st.escaped st.quoted c = none := by
      rw [lex, if_neg hescaped, if_neg hslash, if_neg hquote, if_neg hquoted, if_pos hspace]
    obtain ⟨buffer, hpush, hlen, hbehind⟩ := h.pushBack hi.le
    obtain ⟨hle, hlt, hscan⟩ := skipSpaces_scan hscratch i hbehind
    refine ⟨c, { st with buffer := buffer, bufferPos := 0, result := st.result ++ [cur] },
      skipSpaces buffer str.length i, [], hget, ?_, hle, hlt hi, ?_, ?_⟩
    · rw [tokStep, if_neg hescaped, if_neg hslash, if_neg hquote, if_neg hquoted, if_pos hspace, hpush]
      rfl
    · exact ⟨hlen, rfl, Nat.zero_le _, List.nil_prefix, fun k hk => hbehind k (by omega),
        List.not_mem_nil⟩
    · rw [scan_separator not_skipping hlex, hscan, hplain, hopen, List.append_assoc]
      rfl
  · have hlex : lex st.escaped st.quoted c = some (st.escaped, st.quoted, [c]) := by
      rw [lex, if_neg hescaped, if_neg hslash, if_neg hquote, if_neg hquoted, if_neg hspace, hplain, hopen]
    obtain ⟨buffer, happend, hat⟩ := h.append hi hnul st.escaped st.quoted
    refine ⟨c, _, i, _, hget, ?_, le_rfl, hi, hat, ?_⟩
    · rw [tokStep, if_neg hescaped, if_neg hslash, if_neg hquote, if_neg hquoted, if_neg hspace, happend]
      rfl
    · rw [scan_char not_skipping hlex]

/-- **The loop is the scan**, from every index and with every token in the buffer. -/
theorem tokLoop_eq (hscratch : scratch.length = str.length + 1) (hstr : '\x00' ∉ str) :
    ∀ (fuel i : ℕ) (cur : Str) (st : Tok), str.length < fuel + i → i ≤ str.length →
      At scratch str i cur st → ∃ st' st'', tokLoop str fuel i st = some st' ∧ st'.finish = some st'' ∧
        st''.result = st.result ++ scan cur st.escaped st.quoted false (beside scratch str i) := by
  intro fuel
  induction fuel with
  | zero =>
    intro i cur st hfuel hi _
    omega
  | succ fuel ih =>
    intro i cur st hfuel hi hat
    -- one turn may pass over several blanks, so the induction is on fuel and not on `i`
    rcases Nat.lt_or_ge i str.length with hlt | hge
    · obtain ⟨c, st', j, cur', hget, hstep, hij, hj, hat', hscan⟩ := tokStep_eq hscratch hstr hat hlt
      obtain ⟨st₁, st₂, hloop, hfin, hres⟩ := ih (j + 1) cur' st' (by omega) (by omega) hat'
      refine ⟨st₁, st₂, ?_, hfin, hres.trans hscan.symm⟩
      rw [tokLoop, hget]
      show (tokStep str.length st i c).bind _ = _
      rw [hstep]
      exact hloop
    · have hend : beside scratch str i = [] := List.drop_of_length_le (by
        rw [List.length_zip]
        omega)
      have hloop : tokLoop str (fuel + 1) i st = some st := by
        rw [tokLoop, List.getElem?_eq_none hge]
      rw [hloop, hend, scan]
      -- at the end of the line a token still open is pushed, as `finish` does
      by_cases hcur : cur = []
      · have hpos : st.bufferPos = 0 := by rw [hat.pos_eq, hcur, List.length_nil]
        refine ⟨st, st, rfl, ?_, ?_⟩
        · rw [Tok.finish, if_neg (by omega)]
        · rw [if_pos hcur, List.append_nil]
      · have hpos : 0 < st.bufferPos := by
          rw [hat.pos_eq]
          exact List.length_pos_iff.mpr hcur
        obtain ⟨buffer, hpush, -, -⟩ := hat.pushBack hi
        have hfin : st.finish = st.pushBack := if_pos hpos
        refine ⟨st, _, rfl, hfin.trans hpush, ?_⟩
        rw [if_neg hcur]

/-- **`tokenize` is the scan** beside what `malloc` returns; in particular it writes within that. -/
theorem tokenize_eq_scan (hscratch : scratch.length = str.length + 1) (hstr : '\x00' ∉ str)
    (result : List Str) : tokenize scratch str result =
      some (result ++ scan [] false false false (str.zip scratch)) := by
  obtain ⟨st', st'', hloop, hfin, hres⟩ := tokLoop_eq hscratch hstr (str.length + 1) 0 []
    ⟨scratch, 0, false, false, result⟩ (by omega) (Nat.zero_le _)
    ⟨hscratch, rfl, le_rfl, List.nil_prefix, fun _ _ => rfl, List.not_mem_nil⟩
  rw [tokenize, hloop]
  show st'.finish.bind _ = _
  rw [hfin]
  show some st''.result = _
  rw [hres, beside, List.drop_zero]

end

/-! ## Strings of one token -/

/-- Double quotes, and at most a backslash behind them: nothing that goes into a token. -/
def Blank : Str → Prop
  | [] => True
  | c :: rest => (c = '"' ∧ Blank rest) ∨ (c = '\\' ∧ rest = [])

/-- The first space that is neither quoted nor escaped has nothing for a token behind it. -/
def OneToken (escaped quoted : Bool) : Str → Prop
  | [] => True
  | c :: rest =>
    match lex escaped quoted c with
    | none => Blank rest
    | some (escaped, quoted, _) => OneToken escaped quoted rest

/-- What is not dropped is blank, too. -/
theorem scan_blank : ∀ (ps : List (Char × Char)) (quoted skip : Bool), Blank (ps.map Prod.fst) →
    scan [] false quoted skip ps = [] := by
  intro ps
  induction ps with
  | nil =>
    intro quoted skip _
    rfl
  | cons p ps ih =>
    intro quoted skip h
    obtain ⟨c, s⟩ := p
    rw [scan]
    rcases h with ⟨hquote, hrest⟩ | ⟨hslash, hnil⟩
    · obtain rfl : c = '"' := hquote
      rw [ih _ _ hrest]
      show (if _ then [] else scan ([] ++ []) false (!quoted) false ps) = []
      rw [List.append_nil, ih _ _ hrest, ite_self]
    · obtain rfl : c = '\\' := hslash
      rw [List.map_eq_nil_iff.mp hnil]
      split
      · rfl
      · rfl

theorem split_blank {str : Str} (h : Blank str) (quoted run : Bool) :
    split [] false quoted run str = [] := by
  rw [← scan_self]
  refine scan_blank _ _ _ ?_
  rw [List.map_map, show (Prod.fst ∘ fun c : Char => (c, c)) = id from rfl, List.map_id]
  exact h

/-- Behind a token that has begun there is one. -/
theorem scan_ne_nil : ∀ (ps : List (Char × Char)) (cur : Str) (escaped quoted skip : Bool), cur ≠ [] →
    scan cur escaped quoted skip ps ≠ [] := by
  intro ps
  induction ps with
  | nil =>
    intro cur escaped quoted skip hcur
    rw [scan, if_neg hcur]
    exact List.cons_ne_nil _ _
  | cons p ps ih =>
    intro cur escaped quoted skip hcur
    rw [scan]
    split
    · exact ih _ _ _ _ hcur
    split
    · exact List.cons_ne_nil _ _
    · exact ih _ _ _ _ (List.append_ne_nil_of_left_ne_nil hcur _)

/-- What the scan drops beside a buffer full of spaces: all that is left. -/
theorem scan_spaces (str : Str) (escaped quoted : Bool) :
    scan [] escaped quoted true (str.map fun c => (c, ' ')) = [] := by
  induction str with
  | nil => rfl
  | cons c str ih =>
    rw [List.map_cons, scan, if_pos ⟨rfl, rfl⟩]
    exact ih

/-- A character that gives nothing to a token and does not separate. -/
theorem lex_nothing {quoted escaped' quoted' : Bool} {c : Char}
    (h : lex false quoted c = some (escaped', quoted', [])) :
    (c = '\\' ∧ escaped' = true) ∨ (c = '"' ∧ escaped' = false) := by
  rw [lex, if_neg Bool.false_ne_true] at h
  split at h
  · next hslash =>
    cases h
    exact Or.inl ⟨hslash, rfl⟩
  split at h
  · next hquote =>
    cases h
    exact Or.inr ⟨hquote, rfl⟩
  split at h
  · cases h
  split at h
  · cases h
  · cases h

/-- Beside a buffer without spaces, only what is blank gives no token. -/
theorem blank_of_scan (str : Str) : ∀ quoted skip : Bool,
    scan [] false quoted skip (str.map fun c => (c, 'x')) = [] → Blank str := by
  induction str with
  | nil =>
    intro quoted skip _
    exact trivial
  | cons c str ih =>
    intro quoted skip h
    have hkept : ∀ skip' : Bool, ¬(skip' = true ∧ ('x' : Char) = ' ') :=
      fun _ hs => absurd hs.2 (by decide)
    rw [List.map_cons] at h
    -- `'x'` is no blank, so nothing is skipped and every character is lexed
    cases hlex : lex false quoted c with
    | none =>
      rw [scan_separator (hkept _) hlex] at h
      exact absurd h (List.cons_ne_nil _ _)
    | some r =>
      obtain ⟨escaped', quoted', t⟩ := r
      rw [scan_char (hkept _) hlex] at h
      cases t with
      | cons d t => exact absurd h (scan_ne_nil _ _ _ _ _ (List.cons_ne_nil _ _))
      | nil =>
        rcases lex_nothing hlex with ⟨hslash, rfl⟩ | ⟨hquote, rfl⟩
        · refine Or.inr ⟨hslash, ?_⟩
          cases str with
          | nil => rfl
          | cons d str =>
            rw [List.map_cons, @scan_char _ _ _ _ _ _ (hkept _) _ _ _ (if_pos rfl)] at h
            exact absurd h (scan_ne_nil _ _ _ _ _ (List.cons_ne_nil _ _))
        · exact Or.inl ⟨hquote, ih _ _ h⟩

/-- A string of one token is split as it is meant, beside every buffer. -/
theorem scan_of_oneToken : ∀ (ps : List (Char × Char)) (cur : Str) (escaped quoted : Bool),
    OneToken escaped quoted (ps.map Prod.fst) →
    scan cur escaped quoted false ps = split cur escaped quoted false (ps.map Prod.fst) := by
  intro ps
  induction ps with
  | nil =>
    intro cur escaped quoted _
    rfl
  | cons p ps ih =>
    intro cur escaped quoted h
    rw [List.map_cons, OneToken] at h
    rw [List.map_cons, split, if_neg not_skipping]
    cases hlex : lex escaped quoted p.1 with
    | none =>
      rw [hlex] at h
      rw [scan_separator not_skipping hlex, scan_blank _ _ _ h]
      exact congrArg (cur :: ·) (split_blank h false true).symm
    | some r =>
      rw [hlex] at h
      rw [scan_char not_skipping hlex]
      exact ih _ _ _ h

/-- Two buffers are enough to tell. -/
theorem oneToken_of_scan (str : Str) : ∀ (cur : Str) (escaped quoted : Bool),
    scan cur escaped quoted false (str.map fun c => (c, ' ')) =
      scan cur escaped quoted false (str.map fun c => (c, 'x')) → OneToken escaped quoted str := by
  induction str with
  | nil =>
    intro cur escaped quoted _
    exact trivial
  | cons c str ih =>
    intro cur escaped quoted h
    rw [List.map_cons, List.map_cons] at h
    rw [OneToken]
    cases hlex : lex escaped quoted c with
    | none =>
      rw [@scan_separator cur _ _ _ (c, ' ') _ not_skipping hlex,
        @scan_separator cur _ _ _ (c, 'x') _ not_skipping hlex, scan_spaces] at h
      exact blank_of_scan _ _ _ (List.cons.inj h).2.symm
    | some r =>
      rw [@scan_char cur _ _ _ (c, ' ') _ not_skipping _ _ _ hlex,
        @scan_char cur _ _ _ (c, 'x') _ not_skipping _ _ _ hlex] at h
      exact ih _ _ _ h

/-! ## Joined tokens -/

/-- A character as it is written between double quotes. -/
def escapeChar (c : Char) : Str :=
  if c = '\x07' then ['\\', 'a']
  else if c = '\x08' then ['\\', 'b']
  else if c = '\x0c' then ['\\', 'f']
  else if c = '\n' then ['\\', 'n']
  else if c = '\r' then ['\\', 'r']
  else if c = '\t' then ['\\', 't']
  else if c = '\x0b' then ['\\', 'v']
  else if c = '\\' ∨ c = '"' then ['\\', c]
  else [c]

/-- A token between double quotes. -/
def quoteToken (t : Str) : Str := '"' :: t.flatMap escapeChar ++ ['"']

/-- A list of tokens with one or more spaces between them. -/
def joinTokens (t : Str) (ts : List (ℕ × Str)) : Str :=
  quoteToken t ++ ts.flatMap fun p => List.replicate (p.1 + 1) ' ' ++ quoteToken p.2

/-- A character that does not separate, where no separator is in front. -/
theorem split_char {cur : Str} {escaped quoted escaped' quoted' : Bool} {c : Char} {t : Str}
    (hlex : lex escaped quoted c = some (escaped', quoted', t)) (rest : Str) :
    split cur escaped quoted false (c :: rest) = split (cur ++ t) escaped' quoted' false rest := by
  rw [split, if_neg not_skipping, hlex]

/-- A backslash between double quotes, and what is behind it. -/
theorem split_escaped (cur : Str) (d : Char) (rest : Str) :
    split cur false true false ('\\' :: d :: rest) =
      split (cur ++ [escapeLetter d]) false true false rest := by
  rw [@split_char cur false true true true '\\' [] rfl,
    @split_char (cur ++ []) true true false true d [escapeLetter d] rfl, List.append_nil]

/-- A character that has been escaped is taken into the token as it was. -/
theorem split_escapeChar (cur : Str) (c : Char) (rest : Str) :
    split cur false true false (escapeChar c ++ rest) = split (cur ++ [c]) false true false rest := by
  unfold escapeChar
  split
  · next h => rw [h]; exact split_escaped cur 'a' rest
  split
  · next h => rw [h]; exact split_escaped cur 'b' rest
  split
  · next h => rw [h]; exact split_escaped cur 'f' rest
  split
  · next h => rw [h]; exact split_escaped cur 'n' rest
  split
  · next h => rw [h]; exact split_escaped cur 'r' rest
  split
  · next h => rw [h]; exact split_escaped cur 't' rest
  split
  · next h => rw [h]; exact split_escaped cur 'v' rest
  split
  · next h =>
    rcases h with rfl | rfl
    · exact split_escaped cur '\\' rest
    · exact split_escaped cur '"' rest
  -- any other character stands for itself between the quotes
  · next h =>
    obtain ⟨hslash, hquote⟩ := not_or.mp h
    have hlex : lex false true c = some (false, true, [c]) := by
      rw [lex, if_neg Bool.false_ne_true, if_neg hslash, if_neg hquote, if_pos rfl]
    exact split_char hlex rest

/-- A quoted token. -/
theorem split_quoteToken (t rest : Str) (run : Bool) :
    split [] false false run (quoteToken t ++ rest) = split t false false false rest := by
  have hbody : ∀ (t cur : Str), split cur false true false (t.flatMap escapeChar ++ ('"' :: rest)) =
      split (cur ++ t) false false false rest := by
    intro t
    induction t with
    | nil =>
      intro cur
      exact @split_char cur false true false false '"' [] rfl rest
    | cons c t ih =>
      intro cur
      rw [List.flatMap_cons, List.append_assoc, split_escapeChar, ih, List.append_assoc]
      rfl
  have hopen : ¬(run = true ∧ '"' = ' ') := fun h => absurd h.2 (by decide)
  rw [quoteToken, List.cons_append, List.cons_append, split, if_neg hopen, List.append_assoc]
  exact hbody t []

/-- Spaces between two tokens. -/
theorem split_spaces (cur rest : Str) (k : ℕ) :
    split cur false false false (List.replicate (k + 1) ' ' ++ rest) = cur :: split [] false false true rest := by
  have hrun : ∀ k : ℕ, split [] false false true (List.replicate k ' ' ++ rest) =
      split [] false false true rest := by
    intro k
    induction k with
    | zero => rfl
    | succ k ih =>
      rw [List.replicate_succ, List.cons_append, split, if_pos ⟨rfl, rfl⟩]
      exact ih
  rw [List.replicate_succ, List.cons_append, split, if_neg not_skipping]
  show cur :: split [] false false true (List.replicate k ' ' ++ rest) = _
  rw [hrun]

/-- **The split that is meant** gives back every list of tokens that has been quoted, escaped and joined
    with one or more spaces. -/
theorem split_joinTokens : ∀ (ts : List (ℕ × Str)) (t : Str) (run : Bool), t ≠ [] → (∀ p ∈ ts, p.2 ≠ []) →
    split [] false false run (joinTokens t ts) = t :: ts.map Prod.snd := by
  intro ts
  induction ts with
  | nil =>
    intro t run ht _
    rw [joinTokens, split_quoteToken]
    exact if_neg ht
  | cons p ts ih =>
    intro t run ht hts
    obtain ⟨hp, hts⟩ := List.forall_mem_cons.mp hts
    rw [joinTokens, split_quoteToken, List.flatMap_cons, List.append_assoc, split_spaces]
    exact congrArg (t :: ·) (ih p.2 true hp hts)

/-! ## The result -/

/-- **`tokenize`** writes within its buffer, whatever that holds; and what it gives depends on the string
    only and is the split that is meant if and only if nothing behind the first space makes a token. -/
theorem tokenize_iff (str : Str) (hstr : '\x00' ∉ str) (result : List Str) :
    (∀ scratch : List Char, scratch.length = str.length + 1 →
      (tokenize scratch str result).isSome = true) ∧
    ((∀ scratch : List Char, scratch.length = str.length + 1 →
      tokenize scratch str result = some (result ++ split [] false false false str)) ↔
        OneToken false false str) := by
  have hfst : ∀ scratch : List Char, scratch.length = str.length + 1 →
      (str.zip scratch).map Prod.fst = str :=
    fun scratch hscratch => List.map_fst_zip (by omega)
  have hconst : ∀ d : Char, str.zip (List.replicate (str.length + 1) d) = str.map fun c => (c, d) := by
    intro d
    refine List.ext_getElem ?_ fun i _ _ => ?_
    · rw [List.length_zip, List.length_map, List.length_replicate]
      omega
    · rw [List.getElem_zip, List.getElem_map, List.getElem_replicate]
  refine ⟨fun scratch hscratch => by rw [tokenize_eq_scan hscratch hstr]; rfl, ?_⟩
  constructor
  · intro h
    -- two scratch buffers that disagree everywhere: one of blanks, one of `'x'`
    have hscan : ∀ d : Char, scan [] false false false (str.map fun c => (c, d)) =
        split [] false false false str := by
      intro d
      have hd := h (List.replicate (str.length + 1) d) List.length_replicate
      rw [tokenize_eq_scan List.length_replicate hstr, hconst] at hd
      exact List.append_cancel_left (Option.some.inj hd)
    exact oneToken_of_scan str [] false false ((hscan ' ').trans (hscan 'x').symm)
  · intro h scratch hscratch
    rw [tokenize_eq_scan hscratch hstr, scan_of_oneToken, hfst scratch hscratch]
    rw [hfst scratch hscratch]
    exact h

/-- A word with a blank and a quote in it, written with quotes and an escape, and a space at its end. -/
def quotedWord : Str := ['"', 'a', ' ', 'b', '"', '\\', '"', ' ']

/-- It is one token, whatever the buffer holds. -/
theorem tokenize_iff_quoted :
    (∀ scratch : List Char, scratch.length = quotedWord.length + 1 →
      tokenize scratch quotedWord [] = some [['a', ' ', 'b', '"']]) ∧
    ((∀ scratch : List Char, scratch.length = quotedWord.length + 1 →
      tokenize scratch quotedWord [] = some ([] ++ split [] false false false quotedWord)) ↔
        OneToken false false quotedWord) := by
  have hiff := (tokenize_iff quotedWord (by decide) []).2
  have hone : OneToken false false quotedWord := trivial
  refine ⟨fun scratch hscratch => ?_, hiff⟩
  rw [hiff.mpr hone scratch hscratch]
  rfl

/-- Two words with two spaces between them, and a buffer that is cleared. -/
theorem tokenize_counterexample :
    ¬∀ (str : Str), '\x00' ∉ str → ∀ (result : List Str) (scratch : List Char),
      scratch.length = str.length + 1 →
      tokenize scratch str result = some (result ++ split [] false false false str) := by
  intro h
  have hrun := h "ssh  -x".toList (by decide) [] (List.replicate 8 '\x00') rfl
  exact absurd hrun (by decide +kernel)

end LaunchMON.Frontend
