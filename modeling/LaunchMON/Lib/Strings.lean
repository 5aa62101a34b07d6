/-
  C strings as lists of characters, and what libraries do with them: `strtok` with one delimiter, words
  between several, fields with quotes, `atoi`, and the decimal numbers of `%d`.

  A list that has been joined by a delimiter is taken apart by `strtok` (`strtok_intercalate`), and by a
  tokenizer that knows quotes if there are none (`fields_join`).  Words are found by searches for their
  ends (`next_word`).  A number that has been printed is read by `atoi` (`atoi_percentD`).
-/
import Mathlib.Data.List.TakeWhile
import Mathlib.Data.Int.Notation

namespace CText

/-- A string, up to its terminator. -/
abbrev Str := List Char

/-! ## Positions -/

theorem findIdx?_absent {ch : Char} {s : Str} (h : ch ∉ s) : s.findIdx? (· = ch) = none :=
  List.findIdx?_eq_none_iff.mpr fun _ hc => decide_eq_false fun heq => h (heq ▸ hc)

/-- A character is found behind a part that has none of its kind. -/
theorem findIdx?_behind {ch : Char} {part : Str} (h : ch ∉ part) (rest : Str) :
    (part ++ ch :: rest).findIdx? (· = ch) = some part.length := by
  rw [List.findIdx?_append, findIdx?_absent h, Option.none_or, List.findIdx?_cons,
    if_pos (decide_eq_true rfl), Option.map_some, Nat.zero_add]

/-! ## Tokens -/

/-- The tokens of `strtok` with one delimiter. -/
def strtok (delim : Char) (s : Str) : List Str := (s.splitOn delim).filter (· ≠ [])

/-- A joined list of tokens is taken apart. -/
theorem strtok_intercalate {delim : Char} {l : List Str} (h : ∀ w ∈ l, w ≠ [] ∧ delim ∉ w)
    (hne : l ≠ []) : strtok delim ([delim].intercalate l) = l := by
  unfold strtok
  rw [List.splitOn_intercalate delim (fun w hw => (h w hw).2) hne]
  refine List.filter_eq_self.mpr fun w hw => ?_
  exact decide_eq_true (h w hw).1

/-- What is in a part has been in the string. -/
theorem mem_of_mem_splitOn {delim : Char} {s w : Str} (hw : w ∈ s.splitOn delim) {ch : Char}
    (hch : ch ∈ w) : ch ∈ s := by
  obtain ⟨i, hi⟩ := List.mem_iff_getElem?.mp hw
  have hmem : w ∈ (s.splitOn delim).intersperse [delim] :=
    List.mem_iff_getElem?.mpr ⟨2 * i, by rw [List.getElem?_intersperse_two_mul, hi]⟩
  rw [← @List.intercalate_splitOn _ s _ _ delim]
  exact List.mem_flatten.mpr ⟨w, hmem, hch⟩

/-! ## Words -/

/-- The words of a string: what is between delimiters, and not empty. -/
def words (delims s : Str) : List Str := (s.splitOnP (delims.contains ·)).filter (· ≠ [])

theorem contains_delim {delims : Str} {d : Char} : d ∈ delims → delims.contains d = true :=
  List.contains_iff_mem.mpr

theorem contains_other {delims : Str} {c : Char} (h : c ∉ delims) : delims.contains c = false :=
  Bool.eq_false_iff.mpr (mt List.contains_iff_mem.mp h)

theorem words_append_delim {delims : Str} {d : Char} (hd : d ∈ delims) (s t : Str) :
    words delims (s ++ d :: t) = words delims s ++ words delims t := by
  unfold words
  rw [List.splitOnP_append_cons s t (contains_delim hd), List.filter_append]

theorem ne_nil_of_mem_words {delims s word : Str} (h : word ∈ words delims s) : word ≠ [] :=
  of_decide_eq_true (List.mem_filter.mp h).2

theorem words_word {delims word : Str} (hne : word ≠ []) (hword : ∀ c ∈ word, c ∉ delims) :
    words delims word = [word] := by
  unfold words
  rw [List.splitOnP_eq_singleton fun c hc => contains_other (hword c hc)]
  exact List.filter_eq_self.mpr fun w hw => decide_eq_true (List.mem_singleton.mp hw ▸ hne)

/-- Delimiters in front of a string belong to no word. -/
theorem words_gap {delims gap : Str} (h : ∀ c ∈ gap, c ∈ delims) (s : Str) :
    words delims (gap ++ s) = words delims s := by
  induction gap with
  | nil => rfl
  | cons c gap ih =>
    have hc := words_append_delim (h c List.mem_cons_self) [] (gap ++ s)
    rw [List.cons_append, ← ih fun d hd => h d (List.mem_cons_of_mem _ hd)]
    exact hc

theorem words_delims {delims s : Str} (h : ∀ c ∈ s, c ∈ delims) : words delims s = [] := by
  have hgap := words_gap h []
  rw [List.append_nil] at hgap
  exact hgap

/-- A word at the front, and what is behind it. -/
theorem words_front {delims word rest : Str} (hne : word ≠ []) (hword : ∀ c ∈ word, c ∉ delims)
    (hrest : ∀ c ∈ rest.head?, c ∈ delims) : words delims (word ++ rest) = word :: words delims rest := by
  cases rest with
  | nil =>
    rw [List.append_nil, words_word hne hword]
    rfl
  | cons d rest =>
    have hd : d ∈ delims := hrest d rfl
    have hcons := words_append_delim hd [] rest
    rw [words_append_delim hd, words_word hne hword]
    exact congrArg (word :: ·) hcons.symm

/-- A string is delimiters alone, or a gap, a word and what is behind it. -/
theorem first_word (delims s : Str) : (∀ c ∈ s, c ∈ delims) ∨
    ∃ gap word rest, s = gap ++ (word ++ rest) ∧ (∀ c ∈ gap, c ∈ delims) ∧ word ≠ [] ∧
      (∀ c ∈ word, c ∉ delims) ∧ ∀ c ∈ rest.head?, c ∈ delims := by
  induction s with
  | nil => exact Or.inl fun c hc => absurd hc List.not_mem_nil
  | cons c s ih =>
    by_cases hc : c ∈ delims
    · rcases ih with hall | ⟨gap, word, rest, rfl, hgap, hword⟩
      · exact Or.inl (List.forall_mem_cons.mpr ⟨hc, hall⟩)
      · exact Or.inr ⟨c :: gap, word, rest, rfl, List.forall_mem_cons.mpr ⟨hc, hgap⟩, hword⟩
    · -- The word goes up to the next delimiter.
      let letter : Char → Bool := fun d => decide (d ∉ delims)
      refine Or.inr ⟨[], c :: s.takeWhile letter, s.dropWhile letter, ?_,
        fun c hc => absurd hc List.not_mem_nil, List.cons_ne_nil _ _, ?_, ?_⟩
      · rw [List.nil_append, List.cons_append, List.takeWhile_append_dropWhile]
      · have hletters : ∀ d ∈ s.takeWhile letter, d ∉ delims := fun d hd =>
          of_decide_eq_true (List.mem_takeWhile_imp (p := letter) hd)
        exact List.forall_mem_cons.mpr ⟨hc, hletters⟩
      · intro d hd
        have hstop := List.head?_dropWhile_not letter s
        rw [Option.mem_def.mp hd] at hstop
        exact not_not.mp (of_decide_eq_false hstop)

theorem words_eq_nil_iff {delims s : Str} : words delims s = [] ↔ ∀ c ∈ s, c ∈ delims := by
  refine ⟨fun hnil => ?_, words_delims⟩
  rcases first_word delims s with hall | ⟨gap, word, rest, rfl, hgap, hne, hword, hrest⟩
  · exact hall
  · rw [words_gap hgap, words_front hne hword hrest] at hnil
    cases hnil

/-- More behind the second word leaves the first one as it is, and a second one. -/
theorem words_extend {delims s v w : Str} {ws : List Str} (h : words delims s = w :: v :: ws) (t : Str) :
    ∃ v' ws', words delims (s ++ t) = w :: v' :: ws' := by
  rcases first_word delims s with hall | ⟨gap, word, rest, rfl, hgap, hne, hword, hrest⟩
  · rw [words_delims hall] at h
    cases h
  · rw [words_gap hgap, words_front hne hword hrest] at h
    obtain ⟨rfl, hwords⟩ := List.cons.inj h
    obtain ⟨d, rest, rfl⟩ : ∃ d r, rest = d :: r := List.exists_cons_of_ne_nil fun hnil => by
      rw [hnil] at hwords
      cases hwords
    have hsecond : words delims (d :: rest ++ t) ≠ [] := by
      intro hnil
      have hall := words_eq_nil_iff.mp hnil
      rw [words_eq_nil_iff.mpr fun c hc => hall c (List.mem_append_left t hc)] at hwords
      cases hwords
    obtain ⟨v', ws', hws⟩ := List.exists_cons_of_ne_nil hsecond
    refine ⟨v', ws', ?_⟩
    have hfront := words_front hne hword (show ∀ c ∈ (d :: rest ++ t).head?, c ∈ delims from hrest)
    rw [List.append_assoc, List.append_assoc, words_gap hgap, hfront, hws]

/-! ## Searches

  Positions are `none` where a program has `npos`. -/

/-- `find_first_of(delims, pos)`. -/
def findFirstOf (delims s : Str) (pos : Option ℕ) : Option ℕ :=
  pos.bind fun i => ((s.drop i).findIdx? (delims.contains ·)).map (i + ·)

/-- `find_first_not_of(delims, pos)`. -/
def findFirstNotOf (delims s : Str) (pos : Option ℕ) : Option ℕ :=
  pos.bind fun i => ((s.drop i).findIdx? (!delims.contains ·)).map (i + ·)

/-- `substr(pos, stop - pos)`, with an unsigned difference; `none` where it throws `out_of_range`. -/
def substrTo (s : Str) (pos stop : Option ℕ) : Option Str :=
  pos.bind fun i =>
    if s.length < i then none
    else some (match stop with
      | some j => if i ≤ j then (s.drop i).take (j - i) else s.drop i
      | none => s.drop i)

/-- A gap is skipped. -/
theorem findFirstNotOf_gap {delims s gap word rest : Str} {k : ℕ} (hs : s.drop k = gap ++ (word ++ rest))
    (hgap : ∀ c ∈ gap, c ∈ delims) (hne : word ≠ []) (hword : ∀ c ∈ word, c ∉ delims) :
    findFirstNotOf delims s (some k) = some (k + gap.length) := by
  obtain ⟨c, word, rfl⟩ := List.exists_cons_of_ne_nil hne
  have hgap' : gap.findIdx? (!delims.contains ·) = none :=
    List.findIdx?_eq_none_iff.mpr fun d hd => by rw [contains_delim (hgap d hd)]; rfl
  have hc : (!delims.contains c) = true := by
    rw [contains_other (hword c List.mem_cons_self)]
    rfl
  show ((s.drop k).findIdx? _).map _ = _
  rw [hs, List.findIdx?_append, hgap', Option.none_or, List.cons_append, List.findIdx?_cons, if_pos hc,
    Option.map_some, Option.map_some, Nat.zero_add]

theorem findFirstNotOf_delims {delims s : Str} {k : ℕ} (h : ∀ c ∈ s.drop k, c ∈ delims) :
    findFirstNotOf delims s (some k) = none := by
  show ((s.drop k).findIdx? _).map _ = none
  rw [List.findIdx?_eq_none_iff.mpr fun c hc => by rw [contains_delim (h c hc)]; rfl]
  rfl

/-- A word ends at a delimiter, or with the string. -/
theorem findFirstOf_word {delims s word rest : Str} {i : ℕ} (hs : s.drop i = word ++ rest)
    (hword : ∀ c ∈ word, c ∉ delims) (hrest : ∀ c ∈ rest.head?, c ∈ delims) :
    findFirstOf delims s (some i) = if rest = [] then none else some (i + word.length) := by
  have hword' : word.findIdx? (delims.contains ·) = none :=
    List.findIdx?_eq_none_iff.mpr fun c hc => contains_other (hword c hc)
  show ((s.drop i).findIdx? _).map _ = _
  rw [hs, List.findIdx?_append, hword', Option.none_or]
  cases rest with
  | nil => rfl
  | cons d rest =>
    rw [List.findIdx?_cons, if_pos (contains_delim (hrest d rfl)), if_neg (List.cons_ne_nil _ _),
      Option.map_some, Option.map_some, Nat.zero_add]

/-- **The next word.**  From a position on there are only delimiters, or the searches find the ends of
    the first word; whether it ends with the string or not, the next search begins right behind it. -/
theorem next_word (delims s : Str) (k : ℕ) :
    (words delims (s.drop k) = [] ∧ findFirstNotOf delims s (some k) = none) ∨
    ∃ i word k', findFirstNotOf delims s (some k) = some i ∧ s[i]? = word.head? ∧
      substrTo s (some i) (findFirstOf delims s (some i)) = some word ∧
      findFirstNotOf delims s (findFirstOf delims s (some i)) = findFirstNotOf delims s (some k') ∧
      k < k' ∧ k' ≤ s.length ∧ words delims (s.drop k) = word :: words delims (s.drop k') := by
  rcases first_word delims (s.drop k) with hall | ⟨gap, word, rest, hs, hgap, hne, hword, hrest⟩
  · exact Or.inl ⟨words_delims hall, findFirstNotOf_delims hall⟩
  · have hi : s.drop (k + gap.length) = word ++ rest := by
      rw [← List.drop_drop, hs, List.drop_left]
    have hk' : s.drop (k + gap.length + word.length) = rest := by
      rw [← List.drop_drop, hi, List.drop_left]
    have hpos := List.length_pos_iff.mpr hne
    have hlen : k + gap.length + word.length ≤ s.length := by
      have h := congrArg List.length hi
      rw [List.length_drop, List.length_append] at h
      omega
    have hend := findFirstOf_word hi hword hrest
    refine Or.inr ⟨k + gap.length, word, k + gap.length + word.length, findFirstNotOf_gap hs hgap hne hword,
      ?_, ?_, ?_, by omega, hlen, ?_⟩
    · have hhead : (s.drop (k + gap.length))[0]? = word.head? := by
        rw [hi, List.getElem?_append_left hpos, List.head?_eq_getElem?]
      rwa [List.getElem?_drop, Nat.add_zero] at hhead
    · rw [hend]
      show (if s.length < k + gap.length then none else _) = _
      rw [if_neg (by omega)]
      split
      · next j hj =>
        split at hj
        · cases hj
        · rw [← Option.some.inj hj, if_pos (Nat.le_add_right _ _), hi, Nat.add_sub_cancel_left, List.take_left]
      · next hj =>
        split at hj
        · next hrest' => rw [hi, hrest', List.append_nil]
        · cases hj
    · rw [hend]
      split
      · next hrest' =>
        exact (findFirstNotOf_delims fun c hc => by
          rw [hk', hrest'] at hc
          exact absurd hc List.not_mem_nil).symm
      · rfl
    · rw [hs, words_gap hgap, words_front hne hword hrest, hk']

/-! ## Fields -/

/-- The fields of a line with separators and quotes, behind the characters `cur` of a field: a separator
    between quotes belongs to its field, and no quote does. -/
def fields (isSep isQuote : Char → Bool) (cur : Str) (inQuote : Bool) : Str → List Str
  | [] => [cur]
  | ch :: rest =>
    if isSep ch then
      if inQuote then fields isSep isQuote (cur ++ [ch]) true rest
      else cur :: fields isSep isQuote [] false rest
    else if isQuote ch then fields isSep isQuote cur (!inQuote) rest
    else fields isSep isQuote (cur ++ [ch]) inQuote rest

/-- The fields of a line; none if there is no line. -/
def escapedListSeparator (separator quote s : Str) : List Str :=
  if s = [] then [] else fields separator.contains quote.contains [] false s

section

variable {isSep isQuote : Char → Bool}

/-- What is neither separator nor quote goes into the field. -/
theorem fields_append {w : Str} (hw : ∀ ch ∈ w, isSep ch = false ∧ isQuote ch = false) (cur rest : Str) :
    fields isSep isQuote cur false (w ++ rest) = fields isSep isQuote (cur ++ w) false rest := by
  induction w generalizing cur with
  | nil => rw [List.nil_append, List.append_nil]
  | cons ch w ih =>
    obtain ⟨hsep, hquote⟩ := hw ch List.mem_cons_self
    rw [List.cons_append, fields, if_neg (by rw [hsep]; decide), if_neg (by rw [hquote]; decide),
      ih fun ch hch => hw ch (List.mem_cons_of_mem _ hch), List.append_assoc]
    rfl

/-- **Words with a separator behind each** are taken apart; nothing is behind the last one. -/
theorem fields_join {sep : Char} (hsep : isSep sep = true) {ws : List Str}
    (hws : ∀ w ∈ ws, ∀ ch ∈ w, isSep ch = false ∧ isQuote ch = false) :
    fields isSep isQuote [] false (ws.flatMap fun w => w ++ [sep]) = ws ++ [[]] := by
  induction ws with
  | nil => rfl
  | cons w ws ih =>
    rw [List.flatMap_cons, List.append_assoc, fields_append (hws w List.mem_cons_self), List.nil_append,
      List.singleton_append, fields, if_pos hsep, if_neg (by decide),
      ih fun w hw => hws w (List.mem_cons_of_mem _ hw)]
    rfl

/-- What is in a field has been in the line. -/
theorem mem_of_mem_fields (s : Str) : ∀ (cur : Str) (inQuote : Bool),
    ∀ w ∈ fields isSep isQuote cur inQuote s, ∀ ch ∈ w, ch ∈ cur ∨ ch ∈ s := by
  induction s with
  | nil =>
    intro cur inQuote w hw ch hch
    exact Or.inl (List.mem_singleton.mp hw ▸ hch)
  | cons d s ih =>
    intro cur inQuote w hw ch hch
    have hbehind : ∀ cur' inQuote', w ∈ fields isSep isQuote cur' inQuote' s →
        (∀ d' ∈ cur', d' ∈ cur ∨ d' = d) → ch ∈ cur ∨ ch ∈ d :: s := by
      intro cur' inQuote' hw' hcur'
      rcases ih cur' inQuote' w hw' ch hch with h | h
      · rcases hcur' ch h with h | rfl
        · exact Or.inl h
        · exact Or.inr List.mem_cons_self
      · exact Or.inr (List.mem_cons_of_mem _ h)
    have hsnoc : ∀ d' ∈ cur ++ [d], d' ∈ cur ∨ d' = d := by
      intro d' hd'
      rcases List.mem_append.mp hd' with h | h
      · exact Or.inl h
      · exact Or.inr (List.mem_singleton.mp h)
    rw [fields] at hw
    split at hw
    · split at hw
      · exact hbehind _ _ hw hsnoc
      · rcases List.mem_cons.mp hw with rfl | hw
        · exact Or.inl hch
        · exact hbehind _ _ hw fun d' hd' => absurd hd' List.not_mem_nil
    · split at hw
      · exact hbehind _ _ hw fun d' hd' => Or.inl hd'
      · exact hbehind _ _ hw hsnoc

/-- No quote comes through. -/
theorem fields_no_quote (hquote : ∀ ch, isSep ch = true → isQuote ch = false) (s : Str) :
    ∀ (cur : Str) (inQuote : Bool), (∀ ch ∈ cur, isQuote ch = false) →
      ∀ w ∈ fields isSep isQuote cur inQuote s, ∀ ch ∈ w, isQuote ch = false := by
  induction s with
  | nil =>
    intro cur inQuote hcur w hw
    exact List.mem_singleton.mp hw ▸ hcur
  | cons d s ih =>
    intro cur inQuote hcur w hw
    have hnil : ∀ ch ∈ ([] : Str), isQuote ch = false := fun ch hch => absurd hch List.not_mem_nil
    have hsnoc (hd : isQuote d = false) : ∀ ch ∈ cur ++ [d], isQuote ch = false := by
      intro ch hch
      rcases List.mem_append.mp hch with hch | hch
      · exact hcur ch hch
      · exact List.mem_singleton.mp hch ▸ hd
    rw [fields] at hw
    split at hw
    · next hsep =>
      split at hw
      · exact ih _ _ (hsnoc (hquote d hsep)) w hw
      · rcases List.mem_cons.mp hw with rfl | hw
        · exact hcur
        · exact ih _ _ hnil w hw
    · split at hw
      · exact ih _ _ hcur w hw
      · next hd => exact ih _ _ (hsnoc (Bool.eq_false_iff.mpr hd)) w hw

/-- Without quotes no separator comes through. -/
theorem fields_no_sep {s : Str} (hs : ∀ ch ∈ s, isQuote ch = false) :
    ∀ cur : Str, (∀ ch ∈ cur, isSep ch = false) →
      ∀ w ∈ fields isSep isQuote cur false s, ∀ ch ∈ w, isSep ch = false := by
  induction s with
  | nil =>
    intro cur hcur w hw
    exact List.mem_singleton.mp hw ▸ hcur
  | cons d s ih =>
    intro cur hcur w hw
    have ih := ih fun ch hch => hs ch (List.mem_cons_of_mem _ hch)
    rw [fields] at hw
    split at hw
    · rw [if_neg (by decide)] at hw
      rcases List.mem_cons.mp hw with rfl | hw
      · exact hcur
      · exact ih [] (fun ch hch => absurd hch List.not_mem_nil) w hw
    · next hsep =>
      rw [if_neg (by rw [hs d List.mem_cons_self]; decide)] at hw
      refine ih _ (fun ch hch => ?_) w hw
      rcases List.mem_append.mp hch with hch | hch
      · exact hcur ch hch
      · exact List.mem_singleton.mp hch ▸ Bool.eq_false_iff.mpr hsep

end

/-! ## Numbers -/

/-- `isspace`. -/
def isSpace (c : Char) : Bool := [' ', '\t', '\n', '\x0b', '\x0c', '\r'].contains c

/-- The number at the front of a string. -/
def digitsVal (s : Str) : ℕ := Nat.ofDigitChars 10 (s.takeWhile Char.isDigit) 0

/-- `atoi`, for numbers that fit. -/
def atoi (s : Str) : ℤ :=
  match s.dropWhile isSpace with
  | '-' :: t => -digitsVal t
  | '+' :: t => digitsVal t
  | t => digitsVal t

/-- `%u`. -/
def decimal (n : ℕ) : Str := Nat.toDigits 10 n

/-- `%d`. -/
def percentD (x : ℤ) : Str := if x < 0 then '-' :: decimal x.natAbs else decimal x.natAbs

theorem digitsVal_decimal (n : ℕ) : digitsVal (decimal n) = n := by
  have hdigits : (decimal n).takeWhile Char.isDigit = decimal n := by
    refine List.takeWhile_eq_self_iff.mpr fun c hc => ?_
    exact Nat.isDigit_of_mem_toDigits (by decide) (by decide) hc
  unfold digitsVal
  rw [hdigits]
  exact Nat.ofDigitChars_toDigits (by decide) (by decide)

/-- A digit is neither a space nor a sign. -/
theorem digit_first {c : Char} (h : c.isDigit = true) : isSpace c = false ∧ c ≠ '-' ∧ c ≠ '+' := by
  have hnone : ['-', '+', ' ', '\t', '\n', '\x0b', '\x0c', '\r'].any Char.isDigit = false := rfl
  have hspecial : ∀ d ∈ ['-', '+', ' ', '\t', '\n', '\x0b', '\x0c', '\r'], c ≠ d := by
    rintro d hd rfl
    exact List.any_eq_false.mp hnone c hd h
  refine ⟨?_, hspecial '-' (by decide), hspecial '+' (by decide)⟩
  rw [← Bool.not_eq_true]
  intro hspace
  refine hspecial c ?_ rfl
  exact List.mem_cons_of_mem _ (List.mem_cons_of_mem _ (List.contains_iff_mem.mp hspace))

theorem atoi_decimal (n : ℕ) : atoi (decimal n) = n := by
  have hval := digitsVal_decimal n
  obtain ⟨c, t, hct⟩ := List.exists_cons_of_ne_nil (show decimal n ≠ [] from Nat.toDigits_ne_nil)
  have hdigit : c.isDigit = true :=
    Nat.isDigit_of_mem_toDigits (by decide) (by decide) (hct ▸ List.mem_cons_self : c ∈ decimal n)
  obtain ⟨hspace, hminus, hplus⟩ := digit_first hdigit
  rw [hct] at hval ⊢
  unfold atoi
  rw [List.dropWhile_cons_of_neg (by rw [hspace]; decide)]
  split
  · next heq => exact absurd (List.cons.inj heq).1 hminus
  · next heq => exact absurd (List.cons.inj heq).1 hplus
  · next heq => rw [hval]

/-- **A printed number is read back.** -/
theorem atoi_percentD (x : ℤ) : atoi (percentD x) = x := by
  unfold percentD
  split
  · have hval := digitsVal_decimal x.natAbs
    show -((digitsVal (decimal x.natAbs) : ℕ) : ℤ) = x
    rw [hval]
    omega
  · rw [atoi_decimal]
    omega

end CText
