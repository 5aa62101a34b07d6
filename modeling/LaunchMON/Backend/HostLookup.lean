/-
  The lookups of a daemon in files of lines (`lmon_daemon_internal.cxx`): a field of the personality file
  of an I/O node, and an alias in the hosts file.

  1. **The program** — `getPersonalityField` and `resolvHNAlias`.  Both loops test for the end of the file
     alone, and both take a line apart by searches for the ends of its words.

  2. **One line** — in terms of words: what the body of each loop does with a line that it has got
     (`personalityLine_eq`, `aliasLine_eq`).

  3. **What is expected of them** — the value of the first line `field=value` with the field, and the first
     word of a line that has the alias and is not a comment.

  4. **When they do what is expected** (`lookups_meet_iff`).  A last line without a newline is not looked
     at.  Behind a line that does not fit into the buffer all lines are empty: the first loop goes on for
     ever, and the second one indexes an empty string.  So it does for an empty line of the file, or one
     of delimiters; and a field without a value is an exception that nobody catches.
-/
import LaunchMON.Engine.RmConfig
import LaunchMON.Lib.Lines

namespace LaunchMON.Backend

open CText Lines
open Engine.RmConfig (cStr pathMax)

/-! ## The program -/

/-- A string is used outside of its range: `substr` throws `std::out_of_range`, and `operator[]` reads
    what is there. -/
inductive Fault
  | outOfRange
  deriving DecidableEq, Repr

/-- `delim` of `getPersonalityField`. -/
def fieldDelim : Str := ['=']

/-- `delim` of `resolvHNAlias`. -/
def hostDelim : Str := ['\t', ' ']

/-- A turn of the loop of `getPersonalityField`; the state is `found` and `value`. -/
def personalityLine (fieldName : Str) (st : Bool × Str) (line : Str) : Option (Turn Fault (Bool × Str)) :=
  let strLine := cStr line
  let lastPos := findFirstNotOf fieldDelim strLine (some 0)
  let pos := findFirstOf fieldDelim strLine lastPos
  if pos ≠ none ∨ lastPos ≠ none then
    match substrTo strLine lastPos pos with
    | none => some (.throw .outOfRange)
    | some word =>
      if fieldName = word then
        let lastPos := findFirstNotOf fieldDelim strLine pos
        let pos := findFirstOf fieldDelim strLine lastPos
        match substrTo strLine lastPos pos with
        | none => some (.throw .outOfRange)
        | some value => some (.leave (true, value))
      else some (.next st)
  else some (.next st)

/-- `getPersonalityField`.  The file is `none` if it cannot be read.  Only `ios_base::failure` is caught,
    and no stream here throws it. -/
def getPersonalityField (fuel : ℕ) (pFile : Option Str) (fieldName value : Str) :
    Option (Except Fault (Bool × Str)) :=
  match pFile with
  | none => some (.ok (false, value))
  | some text => eofLines pathMax (personalityLine fieldName) fuel (.ofText text) (false, value)

/-- `strLine[pos]`.  The terminator is in range. -/
def charAt (strLine : Str) (pos : Option ℕ) : Option Char := pos.bind fun i => (strLine ++ ['\x00'])[i]?

/-- The loop over the tokens of a line. -/
def tokenLoop (delim strLine : Str) : ℕ → Option ℕ → Option ℕ → List Str → Option (Except Fault (List Str))
  | 0, _, _, _ => none
  | fuel + 1, lastPos, pos, tokens =>
    if pos ≠ none ∨ lastPos ≠ none then
      match substrTo strLine lastPos pos with
      | none => some (.error .outOfRange)
      | some token =>
        let lastPos := findFirstNotOf delim strLine pos
        let pos := findFirstOf delim strLine lastPos
        tokenLoop delim strLine fuel lastPos pos (tokens ++ [token])
    else some (.ok tokens)

/-- A turn of the loop of `resolvHNAlias`; the state is `found` and `IP`.  A line has at most as many
    tokens as characters. -/
def aliasLine (hnAlias : Str) (st : Bool × Str) (line : Str) : Option (Turn Fault (Bool × Str)) :=
  let strLine := cStr line
  let lastPos := findFirstNotOf hostDelim strLine (some 0)
  match charAt strLine lastPos with
  | none => some (.throw .outOfRange)
  | some ch =>
    if ch = '#' then some (.next st)
    else
      let pos := findFirstOf hostDelim strLine lastPos
      match tokenLoop hostDelim strLine (strLine.length + 1) lastPos pos [] with
      | none => none
      | some (.error e) => some (.throw e)
      | some (.ok tokens) => some (.next (if hnAlias ∈ tokens then (true, tokens.headD []) else st))

/-- `resolvHNAlias`. -/
def resolvHNAlias (fuel : ℕ) (hostsFile : Option Str) (hnAlias ip : Str) :
    Option (Except Fault (Bool × Str)) :=
  match hostsFile with
  | none => some (.ok (false, ip))
  | some text => eofLines pathMax (aliasLine hnAlias) fuel (.ofText text) (false, ip)

/-! ## What is expected of it -/

/-- A line `field=value`, and its value: the words between the delimiters. -/
def fieldValue (fieldName line : Str) : Option Str :=
  match words fieldDelim line with
  | field :: value :: _ => if field = fieldName then some value else none
  | _ => none

/-- The value of the first line that has the field. -/
def personalityField (fieldName text : Str) : Option Str :=
  (lines text).findSome? fun line => fieldValue fieldName (cStr line)

/-- The result of a lookup says what is expected. -/
def Answers (expected : Option Str) (r : Bool × Str) : Prop :=
  match expected with
  | some value => r = (true, value)
  | none => r.1 = false

/-- A comment occupies the whole line. -/
def Comment (line : Str) : Prop := (words hostDelim line).head?.bind List.head? = some '#'

/-- The line has the alias, and is not a comment. -/
def Names (hnAlias line : Str) : Prop := ¬Comment line ∧ hnAlias ∈ words hostDelim line

instance (line : Str) : Decidable (Comment line) := inferInstanceAs (Decidable (_ = _))

instance (hnAlias line : Str) : Decidable (Names hnAlias line) := inferInstanceAs (Decidable (_ ∧ _))

/-- The result is the first word of a line that has the alias, if there is one. -/
def Resolves (hnAlias text : Str) (r : Bool × Str) : Prop :=
  if ∃ line ∈ lines text, Names hnAlias (cStr line) then
    r.1 = true ∧ ∃ line ∈ lines text, Names hnAlias (cStr line) ∧ (words hostDelim (cStr line)).head? = some r.2
  else r.1 = false

/-! ## One line -/

/-- What the body of a loop gets of a line: as much as the buffer holds. -/
def seen (line : Str) : Str := cStr (line.take (pathMax - 1))

theorem seen_of_fits {line : Str} (h : line.length < pathMax) : seen line = cStr line := by
  unfold seen
  rw [List.take_of_length_le (by omega)]

/-- The turn of `getPersonalityField`, by the words of the line. -/
def personalityTurn (fieldName : Str) (st : Bool × Str) (strLine : Str) : Turn Fault (Bool × Str) :=
  match words fieldDelim strLine with
  | [] => .next st
  | [field] => if fieldName = field then .throw .outOfRange else .next st
  | field :: value :: _ => if fieldName = field then .leave (true, value) else .next st

theorem personalityLine_eq (fieldName : Str) (st : Bool × Str) (line : Str) :
    personalityLine fieldName st line = some (personalityTurn fieldName st (cStr line)) := by
  unfold personalityLine personalityTurn
  generalize cStr line = strLine
  dsimp only
  rcases next_word fieldDelim strLine 0 with ⟨hwords, hnone⟩ | ⟨i, word, k, hi, -, hsub, hnext, -, -, hwords⟩
  · rw [List.drop_zero] at hwords
    rw [hnone, hwords]
    rfl
  · rw [List.drop_zero] at hwords
    rw [hi, if_pos (Or.inr (Option.some_ne_none i)), hsub, hnext, hwords]
    dsimp only
    -- The value is the next word, if there is one.
    rcases next_word fieldDelim strLine k with ⟨hrest, hnone⟩ | ⟨j, value, k', hj, -, hval, -, -, -, hrest⟩
    · rw [hnone, hrest]
      dsimp only
      split <;> rfl
    · rw [hj, hval, hrest]
      dsimp only
      split <;> rfl

theorem tokenLoop_eq (delim strLine : Str) (fuel k : ℕ) (tokens : List Str) (hk : k ≤ strLine.length)
    (hfuel : strLine.length - k < fuel) :
    tokenLoop delim strLine fuel (findFirstNotOf delim strLine (some k))
      (findFirstOf delim strLine (findFirstNotOf delim strLine (some k))) tokens =
        some (.ok (tokens ++ words delim (strLine.drop k))) := by
  induction fuel generalizing k tokens with
  | zero => exact absurd hfuel (Nat.not_lt_zero _)
  | succ fuel ih =>
    rw [tokenLoop]
    rcases next_word delim strLine k with ⟨hwords, hnone⟩ | ⟨i, word, k', hi, -, hsub, hnext, hlt, hle, hwords⟩
    · rw [hnone, hwords, List.append_nil]
      rfl
    · rw [hi, if_pos (Or.inr (Option.some_ne_none i)), hsub, hnext, hwords]
      dsimp only
      rw [ih k' (tokens ++ [word]) hle (by omega), List.append_assoc]
      rfl

/-- The step of `resolvHNAlias` for a line with words. -/
def aliasStep (hnAlias : Str) (st : Bool × Str) (strLine : Str) : Bool × Str :=
  if Names hnAlias strLine then (true, (words hostDelim strLine).headD []) else st

theorem aliasLine_eq (hnAlias : Str) (st : Bool × Str) (line : Str) :
    aliasLine hnAlias st line = some (if words hostDelim (cStr line) = [] then .throw .outOfRange
      else .next (aliasStep hnAlias st (cStr line))) := by
  unfold aliasLine aliasStep
  generalize cStr line = strLine
  have htokens := tokenLoop_eq hostDelim strLine (strLine.length + 1) 0 [] (Nat.zero_le _) (by omega)
  rw [List.drop_zero, List.nil_append] at htokens
  dsimp only
  rcases next_word hostDelim strLine 0 with ⟨hwords, hnone⟩ | ⟨i, word, k, hi, hchar, -, -, -, -, hwords⟩
  · rw [List.drop_zero] at hwords
    rw [hnone, if_pos hwords]
    rfl
  · rw [List.drop_zero] at hwords
    have hne : word ≠ [] := ne_nil_of_mem_words (hwords ▸ List.mem_cons_self)
    obtain ⟨ch, word, rfl⟩ := List.exists_cons_of_ne_nil hne
    have hat : charAt strLine (some i) = some ch := by
      obtain ⟨hlt, -⟩ := List.getElem?_eq_some_iff.mp hchar
      show (strLine ++ ['\x00'])[i]? = _
      rw [List.getElem?_append_left hlt, hchar]
      rfl
    rw [htokens, hi, hat, if_neg (by rw [hwords]; exact List.cons_ne_nil _ _)]
    have hcomment : Comment strLine ↔ ch = '#' := by
      unfold Comment
      rw [hwords]
      exact Option.some_inj
    dsimp only
    by_cases hch : ch = '#'
    · rw [if_pos hch, if_neg fun h : Names hnAlias strLine => h.1 (hcomment.mpr hch)]
    · have hnames : Names hnAlias strLine ↔ hnAlias ∈ words hostDelim strLine :=
        and_iff_right (mt hcomment.mp hch)
      rw [if_neg hch]
      simp only [hnames]

/-! ## The personality file -/

/-- The line begins with the field. -/
def Mentions (fieldName strLine : Str) : Prop := (words fieldDelim strLine).head? = some fieldName

/-- The line has a value of the field, and the buffer does not cut it off. -/
def InBuffer (fieldName line : Str) : Prop :=
  ∃ value, fieldValue fieldName (cStr line) = some value ∧ fieldValue fieldName (seen line) = some value

/-- **When the field is read right**, for the lines with a newline and what is behind the last one. -/
def FieldReadable (fieldName : Str) : List Str → Str → Prop
  | [], last =>
    if last.length < pathMax then fieldValue fieldName (cStr last) = none else InBuffer fieldName last
  | line :: ls, last => InBuffer fieldName line ∨
    (line.length < pathMax ∧ ¬Mentions fieldName (cStr line) ∧ FieldReadable fieldName ls last)

/-- A line does not begin with the field, or has nothing else, or has a value of it. -/
theorem personalityTurn_cases (fieldName : Str) (st : Bool × Str) (strLine : Str) :
    (¬Mentions fieldName strLine ∧ fieldValue fieldName strLine = none ∧
      personalityTurn fieldName st strLine = .next st) ∨
    (Mentions fieldName strLine ∧ fieldValue fieldName strLine = none ∧
      personalityTurn fieldName st strLine = .throw .outOfRange) ∨
    ∃ value, Mentions fieldName strLine ∧ fieldValue fieldName strLine = some value ∧
      personalityTurn fieldName st strLine = .leave (true, value) := by
  unfold Mentions fieldValue personalityTurn
  match words fieldDelim strLine with
  | [] => exact Or.inl ⟨(nomatch ·), rfl, rfl⟩
  | [field] =>
    by_cases hfield : fieldName = field
    · exact Or.inr (Or.inl ⟨congrArg some hfield.symm, rfl, if_pos hfield⟩)
    · exact Or.inl ⟨fun h => hfield (Option.some.inj h).symm, rfl, if_neg hfield⟩
  | field :: value :: _ =>
    by_cases hfield : fieldName = field
    · exact Or.inr (Or.inr ⟨value, congrArg some hfield.symm, if_pos hfield.symm, if_pos hfield⟩)
    · exact Or.inl ⟨fun h => hfield (Option.some.inj h).symm, if_neg (Ne.symm hfield), if_neg hfield⟩

theorem seen_append (line : Str) : ∃ rest, cStr line = seen line ++ rest := by
  refine ⟨(cStr line).drop (pathMax - 1), ?_⟩
  have hseen : seen line = (cStr line).take (pathMax - 1) := List.take_takeWhile.symm
  rw [hseen, List.take_append_drop]

/-- What the front of a line has, the line has. -/
theorem fieldValue_of_seen {fieldName line value : Str} (h : fieldValue fieldName (seen line) = some value) :
    ∃ value', fieldValue fieldName (cStr line) = some value' := by
  obtain ⟨rest, hrest⟩ := seen_append line
  unfold fieldValue at h
  split at h
  · next field _ _ hwords =>
    obtain ⟨value', ws, hmore⟩ := words_extend hwords rest
    split at h
    · next hfield =>
      refine ⟨value', ?_⟩
      unfold fieldValue
      rw [hrest, hmore]
      exact if_pos hfield
    · cases h
  · cases h

section

variable (fieldName : Str) (st : Bool × Str)

/-- A line that does not fit gives the value it has, or the loop never ends well. -/
theorem personality_long {line rest : Str} {expected : Option Str} (hline : '\n' ∉ line)
    (hlong : pathMax ≤ line.length) (hrest : rest.takeWhile (· ≠ '\n') = [])
    (hexpected : ∀ value, fieldValue fieldName (cStr line) = some value → expected = some value) :
    (∃ r, Returns pathMax (personalityLine fieldName) (.ofText (line ++ rest)) st (.ok r) ∧
      Answers expected r) ↔ InBuffer fieldName line := by
  have hnext : personalityLine fieldName st [] = some (.next st) := personalityLine_eq fieldName st []
  have hseen : cStr (line.take (pathMax - 1)) = seen line := rfl
  simp only [returns_long hline hlong hrest, personalityLine_eq, hseen]
  rcases personalityTurn_cases fieldName st (seen line) with ⟨-, hvalue, hturn⟩ | ⟨-, hvalue, hturn⟩ |
    ⟨value, -, hvalue, hturn⟩
  · -- Behind this line, only empty ones follow.
    refine iff_of_false ?_ fun ⟨value, _, h⟩ => nomatch hvalue.symm.trans h
    rintro ⟨r, hr, -⟩
    rw [hturn] at hr
    exact not_returns_failed hnext _ hr
  · refine iff_of_false ?_ fun ⟨value, _, h⟩ => nomatch hvalue.symm.trans h
    rintro ⟨r, hr, -⟩
    rw [hturn] at hr
    cases hr
  · obtain ⟨value', hwhole⟩ := fieldValue_of_seen hvalue
    rw [hturn, hexpected value' hwhole]
    constructor
    · rintro ⟨r, hr, hanswer⟩
      cases hr
      cases hanswer
      exact ⟨value, hwhole, hvalue⟩
    · rintro ⟨value'', hwhole', hseen⟩
      obtain rfl := Option.some.inj (hvalue.symm.trans hseen)
      obtain rfl := Option.some.inj (hwhole.symm.trans hwhole')
      exact ⟨(true, value'), rfl, rfl⟩

variable {fieldName}

theorem personalityField_last {text : Str} (h : '\n' ∉ text) :
    personalityField fieldName text = fieldValue fieldName (cStr text) := by
  unfold personalityField
  by_cases hne : text = []
  · rw [hne, lines_nil]
    rfl
  · rw [lines_unterminated h hne, List.findSome?_singleton]

theorem personalityField_cons {line : Str} (h : '\n' ∉ line) (rest : Str) :
    personalityField fieldName (line ++ '\n' :: rest) =
      (fieldValue fieldName (cStr line)).or (personalityField fieldName rest) := by
  unfold personalityField
  rw [lines_cons h, List.findSome?_cons]
  cases fieldValue fieldName (cStr line) <;> rfl

variable {st}

/-- **The personality file.** -/
theorem personality_meets_iff (hst : st.1 = false) (text : Str) :
    (∃ r, Returns pathMax (personalityLine fieldName) (.ofText text) st (.ok r) ∧
      Answers (personalityField fieldName text) r) ↔
        FieldReadable fieldName (terminated text) (lastPart text) := by
  induction text using text_induction with
  | last text h =>
    rw [terminated_of_not_mem h, lastPart_of_not_mem h, FieldReadable, personalityField_last h]
    split
    · next hfits =>
      simp only [returns_end h hfits, Except.ok.injEq, exists_eq_left]
      cases fieldValue fieldName (cStr text) with
      | none => exact iff_of_true hst rfl
      | some value =>
        refine iff_of_false (fun hanswer => ?_) (Option.some_ne_none value)
        rw [hanswer] at hst
        cases hst
    · next hlong =>
      have hline := personality_long fieldName st h (not_lt.mp hlong)
        List.takeWhile_nil fun _ hvalue => hvalue
      rwa [List.append_nil] at hline
  | cons line rest h ih =>
    rw [terminated_cons h, lastPart_cons h, FieldReadable, personalityField_cons h]
    by_cases hfits : line.length < pathMax
    · have hseen : InBuffer fieldName line ↔ ∃ value, fieldValue fieldName (cStr line) = some value := by
        unfold InBuffer
        rw [seen_of_fits hfits]
        exact exists_congr fun value => and_self_iff
      simp only [returns_line h hfits, personalityLine_eq, hseen]
      rcases personalityTurn_cases fieldName st (cStr line) with ⟨hno, hvalue, hturn⟩ |
        ⟨hyes, hvalue, hturn⟩ | ⟨value, hyes, hvalue, hturn⟩
      · -- Nothing about the field: the rest of the file decides.
        simp only [hturn, hvalue, Option.none_or]
        refine ih.trans ⟨fun hrest => Or.inr ⟨hfits, hno, hrest⟩, ?_⟩
        rintro (⟨value, h⟩ | ⟨-, -, hrest⟩)
        · cases h
        · exact hrest
      · -- The field without a value.
        simp only [hturn]
        refine iff_of_false ?_ ?_
        · rintro ⟨r, hr, -⟩
          cases hr
        · rintro (⟨value, h⟩ | ⟨-, hno, -⟩)
          · exact nomatch hvalue.symm.trans h
          · exact hno hyes
      · simp only [hturn, hvalue, Option.some_or]
        exact iff_of_true ⟨(true, value), rfl, rfl⟩ (Or.inl ⟨value, rfl⟩)
    · rw [personality_long fieldName st h (not_lt.mp hfits) (takeWhile_newline rest)
        fun value hvalue => by rw [hvalue, Option.some_or]]
      exact (or_iff_left fun hrest => hfits hrest.1).symm

end

/-! ## The hosts file -/

/-- **When the hosts file is read right.** -/
def HostsReadable (hnAlias text : Str) : Prop :=
  (∀ line ∈ terminated text, line.length < pathMax ∧ words hostDelim (cStr line) ≠ []) ∧
    (lastPart text).length < pathMax ∧
    (Names hnAlias (cStr (lastPart text)) → ∃ line ∈ terminated text, Names hnAlias (cStr line))

section

variable {hnAlias : Str} {st : Bool × Str} {r : Except Fault (Bool × Str)}

/-- A line that does not fit is followed by empty ones. -/
theorem alias_long {line rest : Str} (hline : '\n' ∉ line) (hlong : pathMax ≤ line.length)
    (hrest : rest.takeWhile (· ≠ '\n') = []) :
    Returns pathMax (aliasLine hnAlias) (.ofText (line ++ rest)) st r ↔ r = .error .outOfRange := by
  have hempty (st : Bool × Str) : aliasLine hnAlias st [] = some (.throw .outOfRange) := aliasLine_eq hnAlias st []
  rw [returns_long hline hlong hrest, aliasLine_eq]
  split
  · rfl
  · show Returns pathMax (aliasLine hnAlias) ⟨_, false, true⟩ _ r ↔ _
    rw [returns_failed, hempty]
    rfl

/-- The run: a fold over the lines with a newline, or an index out of range. -/
theorem alias_run (text : Str) (st : Bool × Str) :
    Returns pathMax (aliasLine hnAlias) (.ofText text) st r ↔
      r = if (∀ line ∈ terminated text, line.length < pathMax ∧ words hostDelim (cStr line) ≠ []) ∧
          (lastPart text).length < pathMax then
        .ok ((terminated text).foldl (fun st line => aliasStep hnAlias st (cStr line)) st)
      else .error .outOfRange := by
  induction text using text_induction generalizing st with
  | last text h =>
    rw [terminated_of_not_mem h, lastPart_of_not_mem h]
    by_cases hfits : text.length < pathMax
    · rw [returns_end h hfits, if_pos ⟨fun line hline => absurd hline List.not_mem_nil, hfits⟩]
      rfl
    · have hrun : Returns pathMax (aliasLine hnAlias) (.ofText (text ++ [])) st r ↔ _ :=
        alias_long h (not_lt.mp hfits) List.takeWhile_nil
      rw [List.append_nil] at hrun
      rw [hrun, if_neg fun hgood => hfits hgood.2]
  | cons line rest h ih =>
    rw [terminated_cons h, lastPart_cons h, List.foldl_cons]
    by_cases hfits : line.length < pathMax
    · rw [returns_line h hfits, aliasLine_eq]
      by_cases hwords : words hostDelim (cStr line) = []
      · rw [if_pos hwords, if_neg fun hgood => (hgood.1 line List.mem_cons_self).2 hwords]
        rfl
      · have hcond : ((∀ l ∈ line :: terminated rest, l.length < pathMax ∧ words hostDelim (cStr l) ≠ []) ∧
            (lastPart rest).length < pathMax) ↔
            (∀ l ∈ terminated rest, l.length < pathMax ∧ words hostDelim (cStr l) ≠ []) ∧
              (lastPart rest).length < pathMax := by
          rw [List.forall_mem_cons, and_assoc, and_iff_right ⟨hfits, hwords⟩]
        rw [if_neg hwords]
        simp only [hcond]
        exact ih _
    · rw [alias_long h (not_lt.mp hfits) (takeWhile_newline rest),
        if_neg fun hgood => hfits (hgood.1 line List.mem_cons_self).1]

/-- The fold ends with the last line that has the alias. -/
theorem foldl_aliasStep (hnAlias : Str) (ls : List Str) (st : Bool × Str) :
    let st' := ls.foldl (fun st line => aliasStep hnAlias st (cStr line)) st
    (st'.1 = true ∧ ∃ line ∈ ls, Names hnAlias (cStr line) ∧ (words hostDelim (cStr line)).head? = some st'.2) ∨
      ((∀ line ∈ ls, ¬Names hnAlias (cStr line)) ∧ st' = st) := by
  induction ls generalizing st with
  | nil => exact Or.inr ⟨fun line hline => absurd hline List.not_mem_nil, rfl⟩
  | cons line ls ih =>
    rw [List.foldl_cons]
    rcases ih (aliasStep hnAlias st (cStr line)) with ⟨hfound, l, hl, hnames⟩ | ⟨hnone, hst⟩
    · exact Or.inl ⟨hfound, l, List.mem_cons_of_mem _ hl, hnames⟩
    · dsimp only
      rw [hst]
      by_cases hnames : Names hnAlias (cStr line)
      · left
        obtain ⟨word, ws, hwords⟩ := List.exists_cons_of_ne_nil (List.ne_nil_of_mem hnames.2)
        unfold aliasStep
        rw [if_pos hnames]
        refine ⟨rfl, line, List.mem_cons_self, hnames, ?_⟩
        rw [hwords]
        rfl
      · refine Or.inr ⟨List.forall_mem_cons.mpr ⟨hnames, hnone⟩, if_neg hnames⟩

/-- **The hosts file.** -/
theorem alias_meets_iff (hst : st.1 = false) (text : Str) :
    (∃ r, Returns pathMax (aliasLine hnAlias) (.ofText text) st (.ok r) ∧ Resolves hnAlias text r) ↔
      HostsReadable hnAlias text := by
  have hempty : ¬Names hnAlias [] := fun h => absurd h.2 List.not_mem_nil
  have hlines : (∃ line ∈ lines text, Names hnAlias (cStr line)) ↔
      (∃ line ∈ terminated text, Names hnAlias (cStr line)) ∨ Names hnAlias (cStr (lastPart text)) := by
    rw [lines_eq]
    split
    · next hnil =>
      rw [List.append_nil, hnil]
      exact (or_iff_left hempty).symm
    · simp only [List.mem_append, List.mem_singleton, or_and_right, exists_or, exists_eq_left]
  have hmem : ∀ line ∈ terminated text, line ∈ lines text := fun line hline => by
    rw [lines_eq]
    exact List.mem_append_left _ hline
  unfold HostsReadable
  rw [← and_assoc]
  simp only [alias_run]
  split
  · next hgood =>
    simp only [Except.ok.injEq, exists_eq_left, and_iff_right hgood]
    unfold Resolves
    simp only [hlines]
    rcases foldl_aliasStep hnAlias (terminated text) st with ⟨hfound, line, hline, hnames⟩ | ⟨hnone, hfold⟩
    · rw [if_pos (Or.inl ⟨line, hline, hnames.1⟩)]
      exact iff_of_true ⟨hfound, line, hmem line hline, hnames⟩ fun _ => ⟨line, hline, hnames.1⟩
    · have hno : ¬∃ line ∈ terminated text, Names hnAlias (cStr line) := fun ⟨line, hline, h⟩ => hnone line hline h
      rw [hfold, hst]
      by_cases hlast : Names hnAlias (cStr (lastPart text))
      · rw [if_pos (Or.inr hlast)]
        exact iff_of_false (fun h => Bool.false_ne_true h.1) fun h => hno (h hlast)
      · rw [if_neg (not_or.mpr ⟨hno, hlast⟩)]
        exact iff_of_true rfl fun h => absurd h hlast
  · next hbad =>
    refine iff_of_false ?_ fun h => hbad h.1
    rintro ⟨r, hr, -⟩
    cases hr

end

/-! ## Both -/

theorem getPersonalityField_meets_iff (fieldName value text : Str) :
    (∃ fuel r, getPersonalityField fuel (some text) fieldName value = some (.ok r) ∧
      Answers (personalityField fieldName text) r) ↔
        FieldReadable fieldName (terminated text) (lastPart text) := by
  rw [← personality_meets_iff (show (false, value).1 = false from rfl) text, exists_comm]
  exact exists_congr fun r => exists_and_right

theorem resolvHNAlias_meets_iff (hnAlias ip text : Str) :
    (∃ fuel r, resolvHNAlias fuel (some text) hnAlias ip = some (.ok r) ∧ Resolves hnAlias text r) ↔
      HostsReadable hnAlias text := by
  rw [← alias_meets_iff (show (false, ip).1 = false from rfl) text, exists_comm]
  exact exists_congr fun r => exists_and_right

/-- **When the lookups do what is expected of them**, for every content of the files. -/
theorem lookups_meet_iff (text : Str) :
    (∀ fieldName value, (∃ fuel r, getPersonalityField fuel (some text) fieldName value = some (.ok r) ∧
      Answers (personalityField fieldName text) r) ↔
        FieldReadable fieldName (terminated text) (lastPart text)) ∧
    ∀ hnAlias ip, (∃ fuel r, resolvHNAlias fuel (some text) hnAlias ip = some (.ok r) ∧
      Resolves hnAlias text r) ↔ HostsReadable hnAlias text :=
  ⟨fun fieldName value => getPersonalityField_meets_iff fieldName value text,
    fun hnAlias ip => resolvHNAlias_meets_iff hnAlias ip text⟩

/-- The file is one line of the field, without a newline. -/
def unterminatedField : Str := "BG_IP=10.0.0.1".toList

/-- The file is one line that does not fit. -/
def longLine : Str := List.replicate pathMax 'a'

/-- The file begins with an empty line. -/
def emptyLine : Str := '\n' :: "10.0.0.1 ion1\n".toList

/-- The field of a last line without a newline is not found; behind a line that does not fit there is no
    end; and an empty line is indexed out of range. -/
theorem lookups_not_expected :
    (¬∃ fuel r, getPersonalityField fuel (some unterminatedField) "BG_IP".toList [] = some (.ok r) ∧
      Answers (personalityField "BG_IP".toList unterminatedField) r) ∧
    (¬∃ fuel r, getPersonalityField fuel (some longLine) "BG_IP".toList [] = some (.ok r) ∧
      Answers (personalityField "BG_IP".toList longLine) r) ∧
    ¬∃ fuel r, resolvHNAlias fuel (some emptyLine) "ion1".toList [] = some (.ok r) ∧
      Resolves "ion1".toList emptyLine r := by
  refine ⟨?_, ?_, ?_⟩
  · have hno : '\n' ∉ unterminatedField := by decide
    rw [getPersonalityField_meets_iff, terminated_of_not_mem hno, lastPart_of_not_mem hno, FieldReadable,
      if_pos (by decide)]
    decide
  · have hletters : ∀ c ∈ longLine, c = 'a' := fun c hc => List.eq_of_mem_replicate hc
    have hno : '\n' ∉ longLine := fun h => absurd (hletters _ h) (by decide)
    have hlen : longLine.length = pathMax := List.length_replicate
    have hcstr : cStr longLine = longLine :=
      List.takeWhile_eq_self_iff.mpr fun c hc => by rw [hletters c hc]; decide
    have hword : words fieldDelim longLine = [longLine] :=
      words_word (List.ne_nil_of_length_pos (hlen ▸ by decide)) fun c hc => by rw [hletters c hc]; decide
    rw [getPersonalityField_meets_iff, terminated_of_not_mem hno, lastPart_of_not_mem hno, FieldReadable,
      if_neg (by rw [hlen]; exact lt_irrefl _)]
    rintro ⟨value, hvalue, -⟩
    unfold fieldValue at hvalue
    rw [hcstr, hword] at hvalue
    cases hvalue
  · rw [resolvHNAlias_meets_iff]
    rintro ⟨hgood, -⟩
    have hlines : terminated emptyLine = [] :: terminated "10.0.0.1 ion1\n".toList :=
      terminated_cons (List.not_mem_nil (a := '\n')) _
    rw [hlines] at hgood
    exact (hgood [] List.mem_cons_self).2 rfl

end LaunchMON.Backend
