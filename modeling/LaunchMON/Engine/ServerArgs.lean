/-
  The arguments for the server, in the memory of the launcher: `handle_mpir_variables` of
  `sdbg_linux_launchmon.cxx`, for a launcher that starts the daemons itself.

  The launcher takes the command of the daemons from a buffer of BG_SERVERARG_LENGTH bytes: one C string
  behind the other, and an empty one at the end.

  1. **The code** (`serverargsWritten`) measures the tokens joined by blanks, and copies the tokens with
     a zero behind each into an array that is zero from the start.

  2. **The copy** (`foldl_putArg`): the loop leaves the serialised tokens at the front of the array, and
     nothing else has changed.  A blank is as long as a zero, so what is measured is as long as what is
     copied, and the test leaves room for one more zero.

  3. **The strings** (`readStrings_serialised`): tokens that are neither empty nor have a zero in them are
     read back.  No token is empty because `expand_launch_string` removes these, and none has a zero
     because all it is made of are C strings (`expanded_nulFree`).

  4. **An empty list** is not written at all, although it would fit (`serverargs_counterexample`).
-/
import LaunchMON.Engine.Handlers
import LaunchMON.Engine.LaunchString
import LaunchMON.Lib.Buf

namespace LaunchMON.Engine

open CText

/-! ## The code -/

/-- One round of the loop over the tokens: `serverargs` and what lies behind it, and `traverse`. -/
def putArg (st : Buf Char × ℕ) (tok : Str) : Buf Char × ℕ :=
  let (serverargs, traverse) := st
  let serverargs := serverargs.write traverse tok
  let traverse := traverse + tok.length
  (serverargs.write traverse ['\x00'], traverse + 1)

/-- The memory from `serverargs` on at the end, and the buffer that `tracer_write` is given, if it is
    called.  `stack` is what has been there. -/
def serverargsWritten (stack : Buf Char) (expstr : Str) (alist : List Str) : Buf Char × Option Str :=
  let serverargs := stack.write 0 (List.replicate bgServerargLength '\x00')
  if expstr ≠ [] then
    if bgServerargLength ≤ expstr.length then (serverargs, none)
    else
      let serverargs := (alist.foldl putArg (serverargs, 0)).1
      (serverargs, some (serverargs.read 0 bgServerargLength))
  else (serverargs, none)

/-! ## What is asked for -/

/-- Tokens with a zero behind each. -/
def terminated (toks : List Str) : Str := toks.flatMap fun tok => tok ++ ['\x00']

/-- The serialised form of a list of tokens: an empty string is its end. -/
def serialised (toks : List Str) : Str := terminated toks ++ ['\x00']

/-- The C strings of a buffer up to the first empty one, behind the characters `cur` of a string; `none`
    if the buffer ends first. -/
def readStrings (cur : Str) : Str → Option (List Str)
  | [] => none
  | ch :: rest =>
    if ch = '\x00' then
      if cur = [] then some [] else (readStrings [] rest).map (cur :: ·)
    else readStrings (cur ++ [ch]) rest

/-- A buffer for the launcher from which the tokens are read back. -/
structure Holds (buf : Str) (toks : List Str) : Prop where
  size : buf.length = bgServerargLength
  strings : readStrings [] buf = some toks

/-! ## The copy -/

theorem terminated_cons (tok : Str) (toks : List Str) :
    terminated (tok :: toks) = tok ++ ['\x00'] ++ terminated toks := List.flatMap_cons

/-- **The loop** puts the tokens one behind the other. -/
theorem foldl_putArg (toks : List Str) : ∀ (serverargs : Buf Char) (traverse : ℕ),
    toks.foldl putArg (serverargs, traverse) =
      (serverargs.write traverse (terminated toks), traverse + (terminated toks).length) := by
  induction toks with
  | nil =>
    intro serverargs traverse
    rw [List.foldl_nil, terminated, List.flatMap_nil, Buf.write_nil, List.length_nil, Nat.add_zero]
  | cons tok toks ih =>
    intro serverargs traverse
    have hone : putArg (serverargs, traverse) tok =
        (serverargs.write traverse (tok ++ ['\x00']), traverse + (tok ++ ['\x00']).length) := by
      rw [putArg, Buf.write_write, List.length_append, Nat.add_assoc]
      rfl
    rw [List.foldl_cons, hone, ih, Buf.write_write, terminated_cons,
      @List.length_append _ (tok ++ ['\x00']) (terminated toks), Nat.add_assoc]

/-- What is measured is as long as what is copied. -/
theorem length_blanks (toks : List Str) :
    (toks.flatMap fun tok => tok ++ [' ']).length = (terminated toks).length := by
  rw [terminated, List.length_flatMap, List.length_flatMap]
  simp only [List.length_append, List.length_singleton]

theorem blanks_eq_nil {toks : List Str} : (toks.flatMap fun tok => tok ++ [' ']) = [] ↔ toks = [] := by
  rw [List.flatMap_eq_nil_iff]
  constructor
  · intro h
    refine List.eq_nil_iff_forall_not_mem.mpr fun tok htok => ?_
    exact List.cons_ne_nil _ _ (List.append_eq_nil_iff.mp (h tok htok)).2
  · rintro rfl tok htok
    exact absurd htok List.not_mem_nil

/-- The array after the copy: what has been copied, and zeros. -/
theorem read_serverargs (stack : Buf Char) {s : Str} (hs : s.length ≤ bgServerargLength) :
    ((stack.write 0 (List.replicate bgServerargLength '\x00')).write 0 s).read 0 bgServerargLength =
      s ++ List.replicate (bgServerargLength - s.length) '\x00' := by
  have hlen : bgServerargLength = s.length + (bgServerargLength - s.length) := by omega
  conv_lhs => rw [hlen]
  rw [Buf.read_add, Buf.read_write, List.append_cancel_left_eq]
  refine List.ext_getElem (by rw [Buf.length_read, List.length_replicate]) fun i hi _ => ?_
  rw [Buf.length_read] at hi
  have hbehind : 0 + s.length + i < bgServerargLength := by omega
  simp only [Buf.read, List.getElem_map, List.getElem_range, List.getElem_replicate]
  rw [Buf.write_outside (Or.inr (by omega)), ← Nat.zero_add (0 + s.length + i),
    Buf.write_inside (by rw [List.length_replicate]; omega), List.getElem_replicate]

/-! ## The strings -/

/-- A string without a zero, and the zero behind it. -/
theorem readStrings_append {tok : Str} (htok : '\x00' ∉ tok) (cur rest : Str) (hne : cur ++ tok ≠ []) :
    readStrings cur (tok ++ '\x00' :: rest) = (readStrings [] rest).map ((cur ++ tok) :: ·) := by
  induction tok generalizing cur with
  | nil =>
    rw [List.append_nil] at hne ⊢
    rw [List.nil_append, readStrings, if_pos rfl, if_neg hne]
  | cons ch tok ih =>
    have hch : ch ≠ '\x00' := fun h => htok (h ▸ List.mem_cons_self)
    rw [List.cons_append, readStrings, if_neg hch, ih fun h => htok (List.mem_cons_of_mem _ h),
      List.append_assoc]
    · rfl
    · rw [List.append_assoc]
      exact List.append_ne_nil_of_right_ne_nil _ (List.cons_ne_nil _ _)

/-- **The tokens are read back**, whatever is behind them. -/
theorem readStrings_serialised {toks : List Str} (h : ∀ tok ∈ toks, tok ≠ [] ∧ '\x00' ∉ tok) (rest : Str) :
    readStrings [] (terminated toks ++ '\x00' :: rest) = some toks := by
  induction toks with
  | nil => rfl
  | cons tok toks ih =>
    obtain ⟨hne, hnul⟩ := h tok List.mem_cons_self
    rw [terminated_cons, List.append_assoc, List.append_assoc, List.singleton_append,
      readStrings_append hnul [] _ hne, ih fun tok htok => h tok (List.mem_cons_of_mem _ htok)]
    rfl

/-- **A list that fits** and is not empty is written, and can be read back. -/
theorem serverargsWritten_holds (stack : Buf Char) {toks : List Str} (hne : toks ≠ [])
    (htoks : ∀ tok ∈ toks, tok ≠ [] ∧ '\x00' ∉ tok) (hfits : (serialised toks).length ≤ bgServerargLength) :
    ∃ buf, (serverargsWritten stack (toks.flatMap fun tok => tok ++ [' ']) toks).2 = some buf ∧
      Holds buf toks := by
  rw [serialised, List.length_append, List.length_singleton] at hfits
  have hroom : bgServerargLength - (terminated toks).length =
      bgServerargLength - (terminated toks).length - 1 + 1 := by omega
  rw [serverargsWritten, if_pos fun h => hne (blanks_eq_nil.mp h), length_blanks, if_neg (by omega),
    foldl_putArg]
  refine ⟨_, rfl, Buf.length_read _ _ _, ?_⟩
  rw [read_serverargs stack (Nat.le_of_succ_le hfits), hroom, List.replicate_succ]
  exact readStrings_serialised htoks _

/-- A list that does not fit is not written. -/
theorem serverargsWritten_tooLong (stack : Buf Char) {toks : List Str}
    (hlong : bgServerargLength < (serialised toks).length) :
    (serverargsWritten stack (toks.flatMap fun tok => tok ++ [' ']) toks).2 = none := by
  rw [serialised, List.length_append, List.length_singleton] at hlong
  rw [serverargsWritten, length_blanks, if_pos (show bgServerargLength ≤ _ by omega), ite_self]

/-- **Nothing is stored behind the array.** -/
theorem serverargsWritten_outside (stack : Buf Char) (toks : List Str) {i : ℕ} (hi : bgServerargLength ≤ i) :
    (serverargsWritten stack (toks.flatMap fun tok => tok ++ [' ']) toks).1 i = stack i := by
  have hzero : (stack.write 0 (List.replicate bgServerargLength '\x00')) i = stack i :=
    Buf.write_outside (Or.inr (by rw [List.length_replicate]; omega))
  unfold serverargsWritten
  split
  · split
    · exact hzero
    · next hfits =>
      rw [length_blanks] at hfits
      show (toks.foldl putArg (_, 0)).1 i = stack i
      have hbehind : 0 + (terminated toks).length ≤ i := by omega
      rw [foldl_putArg]
      exact (Buf.write_outside (Or.inr hbehind)).trans hzero
  · exact hzero

/-! ## Where the tokens come from -/

/-- `strdup` and `c_str`: no string has a zero in it.  The launch string and the command of the helper are
    lines of a file, read with `getline` into an array. -/
structure NulFree (c : ColocStrParam) (e : LaunchEnv) (h : LaunchMethodT) (launchString : Str) : Prop where
  launchString : '\x00' ∉ launchString
  launcherCommand : '\x00' ∉ h.launcherCommand
  tvcmd : '\x00' ∉ e.tvcmd
  sshcmd : '\x00' ∉ e.sshcmd
  lmonRemoteLogin : '\x00' ∉ streamed e.lmonRemoteLogin
  rmDaemonPath : '\x00' ∉ c.rmDaemonPath
  rmDaemonArgs : ∀ a ∈ c.rmDaemonArgs, '\x00' ∉ a
  rmDaemonStub : '\x00' ∉ c.rmDaemonStub
  sharedsec : '\x00' ∉ streamed c.sharedsec
  randomid : '\x00' ∉ streamed c.randomid
  hnfilename : '\x00' ∉ streamed c.hnfilename

theorem nul_notMem_append {u v : Str} (hu : '\x00' ∉ u) (hv : '\x00' ∉ v) : '\x00' ∉ u ++ v := by
  rw [List.mem_append]
  exact not_or.mpr ⟨hu, hv⟩

theorem nul_notMem_percentD (x : ℤ) : '\x00' ∉ percentD x := by
  have hdigits : '\x00' ∉ decimal x.natAbs := fun h =>
    absurd (Nat.isDigit_of_mem_toDigits (by decide) (by decide) h) (by decide)
  unfold percentD
  split
  · exact List.not_mem_cons_of_ne_of_not_mem (by decide) hdigits
  · exact hdigits

variable {c : ColocStrParam} {e : LaunchEnv} {h : LaunchMethodT} {launchString : Str}

theorem expandALetter_nulFree (hnul : NulFree c e h launchString) (p : Char) :
    '\x00' ∉ (c.expandALetter p).1 := by
  unfold ColocStrParam.expandALetter
  split
  · exact hnul.rmDaemonStub
  · exact hnul.randomid
  · exact hnul.rmDaemonPath
  · exact nul_notMem_percentD _
  · exact hnul.hnfilename
  · exact nul_notMem_percentD _
  · intro hmem
    obtain ⟨a, ha, hmem⟩ := List.mem_flatMap.mp hmem
    exact nul_notMem_append (hnul.rmDaemonArgs a ha) (by decide) hmem
  · exact hnul.sharedsec
  · decide
  · decide

theorem expandToken_nulFree (hnul : NulFree c e h launchString) {tok : Str} (htok : '\x00' ∉ tok) :
    '\x00' ∉ (c.expandToken tok).1 := by
  rcases first_percent tok with hno | ⟨u, s, rfl, hu⟩
  · rw [expandToken_of_notMem hno]
    exact htok
  · rw [List.mem_append, not_or] at htok
    cases s with
    | nil =>
      rw [expandToken_last hu]
      exact nul_notMem_append htok.1 htok.2
    | cons p rest =>
      rw [expandToken_letter hu]
      dsimp only
      split
      · refine nul_notMem_append htok.1 (nul_notMem_append (expandALetter_nulFree hnul p) fun hmem => ?_)
        exact htok.2 (List.mem_cons_of_mem _ (List.mem_cons_of_mem _ hmem))
      · exact nul_notMem_append htok.1 htok.2

theorem piece_nulFree (hnul : NulFree c e h launchString) {tok : Str} (htok : '\x00' ∉ tok) :
    ∀ tok' ∈ c.piece tok, '\x00' ∉ tok' := by
  intro tok' htok'
  have hexpanded := expandToken_nulFree hnul htok
  unfold ColocStrParam.piece at htok'
  dsimp only at htok'
  split at htok'
  · unfold escapedListSeparator at htok'
    split at htok'
    · exact absurd htok' List.not_mem_nil
    · intro hmem
      rcases mem_of_mem_fields _ _ _ tok' htok' _ hmem with h | h
      · exact absurd h List.not_mem_nil
      · exact hexpanded h
  · exact List.mem_singleton.mp htok' ▸ hexpanded

theorem helperTokens_nulFree (hnul : NulFree c e h launchString) :
    ∀ tok ∈ e.helperTokens h, '\x00' ∉ tok := by
  intro tok htok
  unfold LaunchEnv.helperTokens at htok
  split at htok
  · split at htok
    · simp only [List.mem_cons, List.not_mem_nil, or_false] at htok
      rcases htok with rfl | rfl | rfl
      · exact hnul.tvcmd
      · exact hnul.launcherCommand
      · decide
    · split at htok
      · rw [List.mem_singleton.mp htok]
        have hlogin := hnul.lmonRemoteLogin
        cases hcase : e.lmonRemoteLogin with
        | none => exact hnul.sshcmd
        | some v =>
          rw [hcase] at hlogin
          exact hlogin
      · exact List.mem_singleton.mp htok ▸ hnul.launcherCommand
  · exact absurd htok List.not_mem_nil

/-- **No token has a zero in it**, and none is empty. -/
theorem expanded_nulFree (hnul : NulFree c e h launchString) :
    ∀ tok ∈ c.expanded (e.helperTokens h ++ launchString.splitOn ' '), tok ≠ [] ∧ '\x00' ∉ tok := by
  intro tok htok
  obtain ⟨hmem, hne⟩ := List.mem_filter.mp htok
  obtain ⟨tok₀, htok₀, hpiece⟩ := List.mem_flatMap.mp hmem
  refine ⟨of_decide_eq_true hne, piece_nulFree hnul ?_ tok hpiece⟩
  rcases List.mem_append.mp htok₀ with hhelper | hstring
  · exact helperTokens_nulFree hnul tok₀ hhelper
  · exact fun hzero => hnul.launchString (mem_of_mem_splitOn hstring hzero)

/-! ## The buffer of the launcher -/

/-- A `char`. -/
def byte (ch : Char) : UInt8 := UInt8.ofNat ch.toNat

/-- What the engine writes is the array, byte for byte: the tokens with a zero behind each, and zeros. -/
theorem writeServerArgs_eq (cfg : Config) (addr : VA) (stack : Buf Char) (toks : List Str) :
    (serverargsWritten stack (toks.flatMap fun tok => tok ++ [' ']) toks).2.elim (pure ())
        (fun buf => tracerWrite cfg true addr (buf.map byte)) =
      writeServerArgs cfg addr
        (if toks = [] ∨ bgServerargLength < (serialised toks).length then none
          else some ((terminated toks).map byte)) := by
  by_cases hne : toks = []
  · subst hne
    rw [if_pos (Or.inl rfl)]
    rfl
  by_cases hlong : bgServerargLength < (serialised toks).length
  · rw [if_pos (Or.inr hlong), serverargsWritten_tooLong stack hlong]
    rfl
  · rw [if_neg (not_or.mpr ⟨hne, hlong⟩)]
    rw [serialised, List.length_append, List.length_singleton] at hlong
    rw [serverargsWritten, if_pos fun h => hne (blanks_eq_nil.mp h), length_blanks, if_neg (by omega),
      foldl_putArg]
    show tracerWrite cfg true addr ((Buf.read _ 0 bgServerargLength).map byte) = tracerWrite cfg true addr _
    rw [read_serverargs stack (by omega), List.map_append, List.map_replicate, List.take_append,
      List.length_map, List.take_of_length_le (by rw [List.length_map]; omega), List.take_replicate,
      Nat.min_eq_left (Nat.sub_le _ _)]
    rfl

/-- What becomes of a list of tokens, wherever the array lies. -/
structure Encodes (expstr : Str) (alist : List Str) : Prop where
  tooLong : bgServerargLength < (serialised alist).length →
    ∀ stack, (serverargsWritten stack expstr alist).2 = none
  fits : (serialised alist).length ≤ bgServerargLength → alist ≠ [] →
    ∀ stack, ∃ buf, (serverargsWritten stack expstr alist).2 = some buf ∧ Holds buf alist
  empty : alist = [] → ∀ stack, (serverargsWritten stack expstr alist).2 = none
  inside : ∀ stack i, bgServerargLength ≤ i → (serverargsWritten stack expstr alist).1 i = stack i

/-- **The arguments of the server**: what `expand_launch_string` returns is written as a whole or not at
    all, and can be read back. -/
theorem serverargs_encodes {boostTokenizer : Str → Str → Str → Str → List Str}
    (hboost : ∀ separator quote s,
      boostTokenizer [] separator quote s = escapedListSeparator separator quote s)
    {fuel : ℕ} (hfuel : (e.helperTokens h ++ launchString.splitOn ' ').length ≤ fuel)
    (hnul : NulFree c e h launchString) :
    ∃ expstr alist, c.expandLaunchString boostTokenizer fuel e h launchString = some (expstr, alist) ∧
      Encodes expstr alist := by
  refine ⟨_, _, expandLaunchString_eq hboost hfuel, ?_⟩
  constructor
  · intro hlong stack
    exact serverargsWritten_tooLong stack hlong
  · intro hfits hne stack
    exact serverargsWritten_holds stack hne (expanded_nulFree hnul) hfits
  · intro hempty stack
    rw [hempty]
    rfl
  · intro stack i hi
    exact serverargsWritten_outside stack _ hi

/-- A launcher that starts the daemons itself. -/
def sampleColoc : LaunchMethodT := ⟨.mpirColoc, []⟩

theorem sample_nulFree (launchString : Str) (hnul : '\x00' ∉ launchString) :
    NulFree (sampleParam ["-v".toList]) sampleEnv sampleColoc launchString := by
  constructor
  · exact hnul
  all_goals decide

theorem serverargs_encodes_verbose :
    ∃ expstr alist, (sampleParam ["-v".toList]).expandLaunchString (fun _ => escapedListSeparator) 2
        sampleEnv sampleColoc "%d %o".toList = some (expstr, alist) ∧ Encodes expstr alist :=
  serverargs_encodes (fun _ _ _ => rfl) (by decide +kernel)
    (sample_nulFree "%d %o".toList (by decide +kernel))

/-- An empty launch string: the end of the list would fit, but the buffer stays as it is. -/
theorem serverargs_counterexample :
    ∃ expstr alist, (sampleParam ["-v".toList]).expandLaunchString (fun _ => escapedListSeparator) 1
        sampleEnv sampleColoc [] = some (expstr, alist) ∧
      (serialised alist).length ≤ bgServerargLength ∧
      ∀ stack, ¬∃ buf, (serverargsWritten stack expstr alist).2 = some buf ∧ Holds buf alist := by
  refine ⟨[], [], by decide +kernel, by decide, ?_⟩
  rintro stack ⟨buf, hbuf, -⟩
  cases hbuf

end LaunchMON.Engine
