/-
  The command that launches the daemons: `rc_rm_t::expand_launch_string` and `expand_a_letter` of
  `sdbg_rm_map.cxx`.

  The launch string of a resource manager is split at blanks, and the first percent sign of each token
  is replaced by what the letter behind it stands for.  The arguments of the daemon (`%o`) are joined
  with a blank behind each, the joined token is split by a tokenizer of boost that knows quotes, and its
  parts are spliced into the list over which the loop runs.  Empty tokens are removed at the end.

  1. **The loop** (`loop_eq`): a round leaves the iterator on the token behind the one it has met, so
     there is one round for each token of the launch string, and the list becomes the concatenation of
     what each token becomes (`piece`).

  2. **What is asked for** (`wanted`): the arguments as they are for `%o`, nothing for an empty token,
     and for any other token the token with all of its known letters replaced (`replaceAll`).

  3. **When the two agree** (`launchString_arguments`).  A list of strings may agree with another one
     by accident; here it cannot, because each token becomes as many strings as it should.

  The tokenizer is a parameter; `hboost` says what its documentation says.
-/
import LaunchMON.Lib.Strings
import Mathlib.Data.List.Basic

namespace LaunchMON.Engine

open CText

/-! ## The parameters -/

/-- `coloc_str_param_t`, as far as a letter asks for it. -/
structure ColocStrParam where
  rmDaemonPath : Str
  rmDaemonArgs : List Str
  rmDaemonStub : Str
  nnodes : ℤ
  sharedsec : Option Str
  randomid : Option Str
  resourceid : ℤ
  hnfilename : Option Str

/-- `launch_method_e`. -/
inductive LaunchMethod
  | mpirColoc
  | launchHelperMethod
  | launchMethodUnknown
  deriving DecidableEq

/-- `launch_method_t`. -/
structure LaunchMethodT where
  launchMethod : LaunchMethod
  launcherCommand : Str

/-- The environment variables `LMON_DEBUG_BES` and `LMON_REMOTE_LOGIN`, and the commands `TVCMD` and
    `SSHCMD` of the configuration. -/
structure LaunchEnv where
  lmonDebugBes : Bool
  lmonRemoteLogin : Option Str
  tvcmd : Str
  sshcmd : Str

/-- The value of `*i` for a stream: a null pointer puts nothing into it. -/
def streamed (s : Option Str) : Str := s.getD []

/-- `expand_a_letter`, and `split_maybe_needed`. -/
def ColocStrParam.expandALetter (c : ColocStrParam) (p : Char) : Str × Bool :=
  match p with
  | 'b' => (c.rmDaemonStub, false)
  | 'c' => (streamed c.randomid, false)
  | 'd' => (c.rmDaemonPath, false)
  | 'j' => (percentD c.resourceid, false)
  | 'l' => (streamed c.hnfilename, false)
  | 'n' => (percentD c.nnodes, false)
  | 'o' => (c.rmDaemonArgs.flatMap fun i => i ++ [' '], true)
  | 's' => (streamed c.sharedsec, false)
  | 'h' => ("localhost".toList, false)
  | _ => ("na".toList, false)

/-! ## The list of tokens -/

/-- The tokens in front of the launch string, if a helper launches the daemons. -/
def LaunchEnv.helperTokens (e : LaunchEnv) (h : LaunchMethodT) : List Str :=
  if h.launchMethod = .launchHelperMethod then
    if e.lmonDebugBes = true ∧ h.launcherCommand ≠ "LMON_REMOTE_LOGIN".toList then
      [e.tvcmd, h.launcherCommand, "-a".toList]
    else if h.launcherCommand = "LMON_REMOTE_LOGIN".toList then [e.lmonRemoteLogin.getD e.sshcmd]
    else [h.launcherCommand]
  else []

/-- `tokens` with an iterator: it is on the first of `after`, and at the end if there is none. -/
structure Cursor where
  before : List Str
  after : List Str

/-- `itr++`. -/
def Cursor.next (cur : Cursor) : Cursor := ⟨cur.before ++ cur.after.take 1, cur.after.drop 1⟩

/-- An assignment to `*itr`. -/
def Cursor.set (cur : Cursor) (tok : Str) : Cursor := ⟨cur.before, tok :: cur.after.drop 1⟩

/-- `tokens.splice(itr, sub_list)`. -/
def Cursor.splice (cur : Cursor) (subList : List Str) : Cursor := ⟨cur.before ++ subList, cur.after⟩

/-- `tokens.erase(itr--)`. -/
def Cursor.eraseBack (cur : Cursor) : Cursor :=
  ⟨cur.before.dropLast, cur.before.getLast?.toList ++ cur.after.drop 1⟩

section

-- the fields of `boost::tokenizer` with `escaped_list_separator`: escapes, separators, quotes, the line
variable (boostTokenizer : Str → Str → Str → Str → List Str)

/-- `*itr` after the replacement, and `split_case`. -/
def ColocStrParam.expandToken (c : ColocStrParam) (tok : Str) : Str × Bool :=
  match tok.dropWhile (· ≠ '%') with
  | _ :: p :: rest =>
    let (expSubstr, splitCase) := c.expandALetter p
    (if expSubstr ≠ "na".toList then tok.takeWhile (· ≠ '%') ++ (expSubstr ++ rest) else tok, splitCase)
  | _ => (tok, false)

/-- The body of the loop over the tokens. -/
def ColocStrParam.body (c : ColocStrParam) (cur : Cursor) : Cursor :=
  match cur.after with
  | [] => cur
  | tok :: _ =>
    let (tok, splitCase) := c.expandToken tok
    let cur := cur.set tok
    if splitCase then
      let subList := boostTokenizer [] [' '] ['"', '\''] tok
      if 1 < subList.length then (cur.splice subList).eraseBack else cur
    else cur

/-- The loop, over at most `fuel` tokens; `none` if these are not all. -/
def ColocStrParam.loop (c : ColocStrParam) : ℕ → Cursor → Option (List Str)
  | 0, cur => if cur.after = [] then some cur.before else none
  | fuel + 1, cur =>
    if cur.after = [] then some cur.before else loop c fuel (c.body boostTokenizer cur).next

/-- `expand_launch_string`: the expanded string and the tokens. -/
def ColocStrParam.expandLaunchString (c : ColocStrParam) (fuel : ℕ) (e : LaunchEnv) (h : LaunchMethodT)
    (launchString : Str) : Option (Str × List Str) :=
  let tokens := e.helperTokens h ++ launchString.splitOn ' '
  if tokens = [] then some ([], [])
  else do
    let tokens ← c.loop boostTokenizer fuel ⟨[], tokens⟩
    let tokens := tokens.filter (· ≠ [])
    return (tokens.flatMap fun tok => tok ++ [' '], tokens)

end

/-! ## What each token becomes -/

/-- The strings that take the place of a token. -/
def ColocStrParam.piece (c : ColocStrParam) (tok : Str) : List Str :=
  let (tok, splitCase) := c.expandToken tok
  let subList := escapedListSeparator [' '] ['"', '\''] tok
  if splitCase = true ∧ 1 < subList.length then subList else [tok]

/-- The strings that take the place of some tokens in the end. -/
def ColocStrParam.expanded (c : ColocStrParam) (tokens : List Str) : List Str :=
  (tokens.flatMap c.piece).filter (· ≠ [])

variable {boostTokenizer : Str → Str → Str → Str → List Str} {c : ColocStrParam}

/-- A round leaves the iterator behind what the token has become. -/
theorem body_next (hboost : ∀ separator quote s,
      boostTokenizer [] separator quote s = escapedListSeparator separator quote s)
    (before : List Str) (tok : Str) (rest : List Str) :
    (c.body boostTokenizer ⟨before, tok :: rest⟩).next = ⟨before ++ c.piece tok, rest⟩ := by
  unfold ColocStrParam.body ColocStrParam.piece
  dsimp only
  rw [hboost]
  cases c.expandToken tok with
  | mk tok' splitCase =>
  cases splitCase with
  | false => rfl
  | true =>
    dsimp only
    rw [if_pos rfl]
    by_cases hlen : 1 < (escapedListSeparator [' '] ['"', '\''] tok').length
    · rw [if_pos hlen, if_pos ⟨rfl, hlen⟩]
      have hne : before ++ escapedListSeparator [' '] ['"', '\''] tok' ≠ [] :=
        List.append_ne_nil_of_right_ne_nil _ (List.ne_nil_of_length_pos (Nat.zero_lt_of_lt hlen))
      simp only [Cursor.splice, Cursor.eraseBack, Cursor.next, Cursor.set, List.getLast?_eq_some_getLast hne,
        Option.toList_some, List.singleton_append, List.take_succ_cons, List.take_zero, List.drop_succ_cons,
        List.drop_zero, List.dropLast_concat_getLast hne]
    · rw [if_neg hlen, if_neg fun h => hlen h.2]
      rfl

/-- **One round for each token**, and the list is what the tokens have become. -/
theorem loop_eq (hboost : ∀ separator quote s,
      boostTokenizer [] separator quote s = escapedListSeparator separator quote s) :
    ∀ (after before : List Str) (fuel : ℕ), after.length ≤ fuel →
      c.loop boostTokenizer fuel ⟨before, after⟩ = some (before ++ after.flatMap c.piece) := by
  intro after
  induction after with
  | nil =>
    intro before fuel _
    rw [List.flatMap_nil, List.append_nil]
    cases fuel <;> exact if_pos rfl
  | cons tok after ih =>
    intro before fuel hfuel
    obtain ⟨fuel, rfl⟩ : ∃ k, fuel = k + 1 := ⟨fuel - 1, by rw [List.length_cons] at hfuel; omega⟩
    rw [ColocStrParam.loop, if_neg (List.cons_ne_nil _ _), body_next hboost, ih _ _ (Nat.le_of_succ_le_succ hfuel), List.flatMap_cons, List.append_assoc]

theorem expanded_append (toks toks' : List Str) :
    c.expanded (toks ++ toks') = c.expanded toks ++ c.expanded toks' := by
  rw [ColocStrParam.expanded, List.flatMap_append, List.filter_append]
  rfl

/-- What the code returns, if it is given as many rounds as there are tokens. -/
theorem expandLaunchString_eq (hboost : ∀ separator quote s,
      boostTokenizer [] separator quote s = escapedListSeparator separator quote s)
    {e : LaunchEnv} {h : LaunchMethodT} {launchString : Str} {fuel : ℕ}
    (hfuel : (e.helperTokens h ++ launchString.splitOn ' ').length ≤ fuel) :
    c.expandLaunchString boostTokenizer fuel e h launchString =
      some ((c.expanded (e.helperTokens h ++ launchString.splitOn ' ')).flatMap fun tok => tok ++ [' '],
        c.expanded (e.helperTokens h ++ launchString.splitOn ' ')) := by
  have hne : e.helperTokens h ++ launchString.splitOn ' ' ≠ [] :=
    List.append_ne_nil_of_right_ne_nil _ (List.splitOn_ne_nil _ _)
  rw [ColocStrParam.expandLaunchString]
  dsimp only
  rw [if_neg hne, loop_eq hboost _ _ _ hfuel]
  rfl

/-! ## What is asked for -/

/-- `%o`. -/
def percentO : Str := ['%', 'o']

/-- What a letter stands for that is not the one of the arguments. -/
def ColocStrParam.value (c : ColocStrParam) (p : Char) : Option Str :=
  match p with
  | 'b' => some c.rmDaemonStub
  | 'c' => some (streamed c.randomid)
  | 'd' => some c.rmDaemonPath
  | 'j' => some (percentD c.resourceid)
  | 'l' => some (streamed c.hnfilename)
  | 'n' => some (percentD c.nnodes)
  | 's' => some (streamed c.sharedsec)
  | 'h' => some "localhost".toList
  | _ => none

/-- All known letters of a token replaced. -/
def replaceAll (value : Char → Option Str) : Str → Str
  | [] => []
  | [ch] => [ch]
  | ch :: p :: rest =>
    if ch = '%' then
      match value p with
      | some v => v ++ replaceAll value rest
      | none => ch :: replaceAll value (p :: rest)
    else ch :: replaceAll value (p :: rest)

/-- The strings that some tokens should become. -/
def ColocStrParam.wanted (c : ColocStrParam) (tokens : List Str) : List Str :=
  tokens.flatMap fun tok =>
    if tok = percentO then c.rmDaemonArgs else if tok = [] then [] else [replaceAll c.value tok]

/-- An argument that comes through: not empty, without blanks and quotes. -/
def CleanArg (a : Str) : Prop := a ≠ [] ∧ ∀ ch ∈ a, ch ≠ ' ' ∧ ch ≠ '"' ∧ ch ≠ '\''

/-- A token that comes through.  It does not become empty; its first percent sign is followed by a letter
    whose value is not the code's sign for no value, or by no known letter; and behind that there is
    nothing to replace. -/
def ColocStrParam.CleanToken (c : ColocStrParam) (tok : Str) : Prop :=
  replaceAll c.value tok ≠ [] ∧
  ∀ u p rest, tok = u ++ '%' :: p :: rest → '%' ∉ u →
    (∀ v, c.value p = some v → v ≠ "na".toList ∧ replaceAll c.value rest = rest) ∧
    (c.value p = none → replaceAll c.value (p :: rest) = p :: rest)

theorem replaceAll_cons_of_ne (value : Char → Option Str) {ch : Char} (hch : ch ≠ '%') (s : Str) :
    replaceAll value (ch :: s) = ch :: replaceAll value s := by
  cases s with
  | nil => rfl
  | cons p rest => rw [replaceAll, if_neg hch]

theorem replaceAll_append (value : Char → Option Str) {u : Str} (hu : '%' ∉ u) (s : Str) :
    replaceAll value (u ++ s) = u ++ replaceAll value s := by
  induction u with
  | nil => rfl
  | cons ch u ih =>
    rw [List.cons_append, replaceAll_cons_of_ne _ fun h => hu (h ▸ List.mem_cons_self),
      ih fun h => hu (List.mem_cons_of_mem _ h)]
    rfl

/-- The letters of the code, and what they stand for. -/
theorem expandALetter_value {p : Char} (hp : p ≠ 'o') :
    c.expandALetter p = ((c.value p).getD "na".toList, false) := by
  unfold ColocStrParam.expandALetter
  split <;> first | rfl | skip
  · exact absurd rfl hp
  · unfold ColocStrParam.value
    split <;> first | rfl | contradiction

/-! ## One token -/

theorem takeWhile_percent {u : Str} (hu : '%' ∉ u) (s : Str) :
    (u ++ '%' :: s).takeWhile (· ≠ '%') = u ∧ (u ++ '%' :: s).dropWhile (· ≠ '%') = '%' :: s := by
  have hall : ∀ ch ∈ u, decide (ch ≠ '%') = true := fun ch hch => decide_eq_true fun h => hu (h ▸ hch)
  rw [List.takeWhile_append_of_pos hall, List.dropWhile_append_of_pos hall]
  exact ⟨List.append_nil u, rfl⟩

/-- Where the first percent sign of a token is. -/
theorem first_percent (tok : Str) : '%' ∉ tok ∨ ∃ u s, tok = u ++ '%' :: s ∧ '%' ∉ u := by
  by_cases hmem : '%' ∈ tok
  · obtain ⟨u, s, rfl, hu⟩ := List.eq_append_cons_of_mem hmem
    exact Or.inr ⟨u, s, rfl, hu⟩
  · exact Or.inl hmem

theorem expandToken_of_notMem {tok : Str} (h : '%' ∉ tok) : c.expandToken tok = (tok, false) := by
  have hdrop : tok.dropWhile (· ≠ '%') = [] :=
    List.dropWhile_eq_nil_iff.mpr fun ch hch => decide_eq_true fun heq => h (heq ▸ hch)
  rw [ColocStrParam.expandToken, hdrop]

theorem expandToken_last {u : Str} (hu : '%' ∉ u) : c.expandToken (u ++ ['%']) = (u ++ ['%'], false) := by
  rw [ColocStrParam.expandToken, (takeWhile_percent hu []).2]

theorem expandToken_letter {u : Str} (hu : '%' ∉ u) (p : Char) (rest : Str) :
    c.expandToken (u ++ '%' :: p :: rest) =
      (if (c.expandALetter p).1 ≠ "na".toList then u ++ ((c.expandALetter p).1 ++ rest)
        else u ++ '%' :: p :: rest, (c.expandALetter p).2) := by
  rw [ColocStrParam.expandToken, (takeWhile_percent hu (p :: rest)).1, (takeWhile_percent hu (p :: rest)).2]

theorem piece_of_expandToken {tok tok' : Str} (h : c.expandToken tok = (tok', false)) :
    c.piece tok = [tok'] := by
  rw [ColocStrParam.piece, h]
  exact if_neg fun h => absurd h.1 (by decide)

/-- The place of the first percent sign is one. -/
theorem percent_unique {u u' s s' : Str} (hu : '%' ∉ u) (hu' : '%' ∉ u')
    (heq : u ++ '%' :: s = u' ++ '%' :: s') : s = s' := by
  have hdrop := congrArg (List.dropWhile (· ≠ '%')) heq
  rw [(takeWhile_percent hu s).2, (takeWhile_percent hu' s').2] at hdrop
  exact (List.cons.inj hdrop).2

/-- A token without a letter comes through. -/
theorem cleanToken_of_no_letter {tok : Str} (h : ∀ u p rest, tok = u ++ '%' :: p :: rest → '%' ∈ u) :
    c.CleanToken tok ↔ replaceAll c.value tok ≠ [] :=
  ⟨fun hclean => hclean.1, fun hne => ⟨hne, fun u p rest heq hu => absurd (h u p rest heq) hu⟩⟩

theorem cleanToken_letter {u rest : Str} {p : Char} (hu : '%' ∉ u) :
    c.CleanToken (u ++ '%' :: p :: rest) ↔ replaceAll c.value (u ++ '%' :: p :: rest) ≠ [] ∧
      (∀ v, c.value p = some v → v ≠ "na".toList ∧ replaceAll c.value rest = rest) ∧
      (c.value p = none → replaceAll c.value (p :: rest) = p :: rest) := by
  constructor
  · exact fun hclean => ⟨hclean.1, hclean.2 u p rest rfl hu⟩
  · rintro ⟨hne, hletter⟩
    refine ⟨hne, fun u' p' rest' heq hu' => ?_⟩
    obtain ⟨rfl, rfl⟩ := List.cons.inj (percent_unique hu hu' heq)
    exact hletter

theorem replaceAll_letter_some {u rest v : Str} {p : Char} (hu : '%' ∉ u) (hv : c.value p = some v) :
    replaceAll c.value (u ++ '%' :: p :: rest) = u ++ (v ++ replaceAll c.value rest) := by
  rw [replaceAll_append _ hu, replaceAll, if_pos rfl, hv]

theorem replaceAll_letter_none {u rest : Str} {p : Char} (hu : '%' ∉ u) (hv : c.value p = none) :
    replaceAll c.value (u ++ '%' :: p :: rest) = u ++ '%' :: replaceAll c.value (p :: rest) := by
  rw [replaceAll_append _ hu, replaceAll, if_pos rfl, hv]

/-- What the code and the wanted expansion make of a token that is not split: one string each.  They are
    the same string, and not empty, if the token comes through. -/
structure Agrees (c : ColocStrParam) (tok tok' : Str) : Prop where
  piece : c.piece tok = [tok']
  empty : tok' = [] → replaceAll c.value tok = []
  clean : tok' = replaceAll c.value tok ∧ replaceAll c.value tok ≠ [] ↔ c.CleanToken tok

/-- A token in which nothing is replaced. -/
theorem agrees_self {tok : Str} (hcode : c.expandToken tok = (tok, false))
    (hall : replaceAll c.value tok = tok) (h : ∀ u p rest, tok = u ++ '%' :: p :: rest → '%' ∈ u) :
    Agrees c tok tok where
  piece := piece_of_expandToken hcode
  empty hempty := hall.trans hempty
  clean := by
    rw [cleanToken_of_no_letter h]
    exact and_iff_right hall.symm

/-- A letter that stands for nothing. -/
theorem agrees_letter_none {u : Str} {p : Char} (hu : '%' ∉ u) (hp : p ≠ 'o') (rest : Str)
    (hv : c.value p = none) : Agrees c (u ++ '%' :: p :: rest) (u ++ '%' :: p :: rest) := by
  have hcode := @expandToken_letter c u hu p rest
  rw [expandALetter_value hp, hv] at hcode
  refine ⟨piece_of_expandToken hcode, fun h => absurd h (by simp), ?_⟩
  rw [cleanToken_letter hu, replaceAll_letter_none hu hv]
  constructor
  · rintro ⟨heq, hne⟩
    refine ⟨hne, fun v h => ?_, fun _ => ?_⟩
    · rw [hv] at h
      cases h
    · exact (List.cons.inj (List.append_cancel_left heq)).2.symm
  · rintro ⟨hne, -, hrest⟩
    exact ⟨by rw [hrest hv], hne⟩

/-- A letter that stands for something. -/
theorem agrees_letter_some {u v : Str} {p : Char} (hu : '%' ∉ u) (hp : p ≠ 'o') (rest : Str)
    (hv : c.value p = some v) : ∃ tok', Agrees c (u ++ '%' :: p :: rest) tok' := by
  have hcode := @expandToken_letter c u hu p rest
  rw [expandALetter_value hp, hv] at hcode
  dsimp only [Option.getD_some] at hcode
  by_cases hna : v = "na".toList
  · rw [if_neg (not_not.mpr hna)] at hcode
    refine ⟨_, piece_of_expandToken hcode, fun h => absurd h (by simp), ?_⟩
    rw [cleanToken_letter hu, replaceAll_letter_some hu hv]
    refine iff_of_false ?_ fun hclean => (hclean.2.1 v hv).1 hna
    -- the code leaves the percent sign where an `n` is wanted
    rintro ⟨heq, -⟩
    have hcancel := List.append_cancel_left heq
    rw [hna] at hcancel
    exact absurd (List.cons.inj hcancel).1 (by decide)
  · rw [if_pos hna] at hcode
    refine ⟨_, piece_of_expandToken hcode, ?_, ?_⟩
    · intro h
      obtain ⟨rfl, hrest⟩ := List.append_eq_nil_iff.mp h
      obtain ⟨rfl, rfl⟩ := List.append_eq_nil_iff.mp hrest
      rw [replaceAll_letter_some hu hv]
      rfl
    · rw [cleanToken_letter hu, replaceAll_letter_some hu hv]
      constructor
      · rintro ⟨heq, hne⟩
        refine ⟨hne, fun v' hv' => ?_, fun h => ?_⟩
        · obtain rfl : v = v' := Option.some.inj (hv.symm.trans hv')
          exact ⟨hna, (List.append_cancel_left (List.append_cancel_left heq)).symm⟩
        · rw [hv] at h
          cases h
      · rintro ⟨hne, hrest, -⟩
        exact ⟨by rw [(hrest v hv).2], hne⟩

/-- A token without the letter of the arguments. -/
theorem exists_agrees {tok : Str} (hno : ¬ percentO <:+: tok) : ∃ tok', Agrees c tok tok' := by
  rcases first_percent tok with hmem | ⟨u, s, rfl, hu⟩
  · refine ⟨tok, agrees_self (expandToken_of_notMem hmem) ?_ fun u p rest heq => absurd ?_ hmem⟩
    · rw [← List.append_nil tok, replaceAll_append _ hmem]
      rfl
    · rw [heq]
      exact List.mem_append_right _ List.mem_cons_self
  · cases s with
    | nil =>
      refine ⟨_, agrees_self (expandToken_last hu) (replaceAll_append _ hu _) fun u' p rest heq => ?_⟩
      by_contra hu'
      cases percent_unique hu hu' heq
    | cons p rest =>
      have hp : p ≠ 'o' := by
        rintro rfl
        exact hno ⟨u, rest, by rw [List.append_assoc]; rfl⟩
      cases hv : c.value p with
      | none => exact ⟨_, agrees_letter_none hu hp rest hv⟩
      | some v => exact agrees_letter_some hu hp rest hv

/-! ## The arguments -/

/-- What `%o` stands for. -/
def ColocStrParam.argsLine (c : ColocStrParam) : Str := c.rmDaemonArgs.flatMap fun i => i ++ [' ']

theorem argsLine_eq_nil : c.argsLine = [] ↔ c.rmDaemonArgs = [] := by
  unfold ColocStrParam.argsLine
  cases c.rmDaemonArgs with
  | nil => exact iff_of_true rfl rfl
  | cons a as => exact iff_of_false (by simp) (List.cons_ne_nil _ _)

/-- The characters of the line are blanks and those of the arguments. -/
theorem mem_argsLine {ch : Char} (h : ch ∈ c.argsLine) : ch = ' ' ∨ ∃ a ∈ c.rmDaemonArgs, ch ∈ a := by
  obtain ⟨a, ha, hch⟩ := List.mem_flatMap.mp h
  rcases List.mem_append.mp hch with hch | hch
  · exact Or.inr ⟨a, ha, hch⟩
  · exact Or.inl (List.mem_singleton.mp hch)

theorem expandToken_percentO : c.expandToken percentO = (c.argsLine, true) := by
  have hne : (c.expandALetter 'o').1 ≠ "na".toList := by
    show c.argsLine ≠ _
    intro hna
    unfold ColocStrParam.argsLine at hna
    cases hargs : c.rmDaemonArgs with
    | nil =>
      rw [hargs] at hna
      cases hna
    | cons a as =>
      have hblank : ' ' ∈ "na".toList := by
        rw [← hna, hargs]
        simp
      exact absurd hblank (by decide)
  have hletter := @expandToken_letter c [] List.not_mem_nil 'o' []
  rw [if_pos hne] at hletter
  refine hletter.trans (congrArg (·, true) ?_)
  exact List.append_nil c.argsLine

theorem contains_blank {ch : Char} : [' '].contains ch = false ↔ ch ≠ ' ' := by
  rw [← Bool.not_eq_true, List.contains_iff_mem, List.mem_singleton]

theorem contains_quote {ch : Char} : ['"', '\''].contains ch = false ↔ ch ≠ '"' ∧ ch ≠ '\'' := by
  rw [← Bool.not_eq_true, List.contains_iff_mem, List.mem_cons, List.mem_singleton, not_or]

/-- An argument that the tokenizer has given back comes through, if all of them are given back. -/
theorem clean_of_fields (hmem : ∀ a ∈ c.rmDaemonArgs, a ≠ [] ∧
    a ∈ fields [' '].contains ['"', '\''].contains [] false c.argsLine) :
    ∀ a ∈ c.rmDaemonArgs, CleanArg a := by
  have hquote : ∀ a ∈ c.rmDaemonArgs, ∀ ch ∈ a, ['"', '\''].contains ch = false := by
    intro a ha
    refine fields_no_quote (fun ch hch => ?_) c.argsLine [] false (by simp) a (hmem a ha).2
    obtain rfl : ch = ' ' := List.mem_singleton.mp (List.contains_iff_mem.mp hch)
    rfl
  have hline : ∀ ch ∈ c.argsLine, ['"', '\''].contains ch = false := by
    intro ch hch
    rcases mem_argsLine hch with rfl | ⟨a, ha, hch⟩
    · rfl
    · exact hquote a ha ch hch
  intro a ha
  refine ⟨(hmem a ha).1, fun ch hch => ⟨?_, contains_quote.mp (hquote a ha ch hch)⟩⟩
  exact contains_blank.mp (fields_no_sep hline [] (by simp) a (hmem a ha).2 ch hch)

/-- **The token `%o`** becomes the arguments, up to empty strings, exactly if all of them come
    through. -/
theorem piece_percentO : (c.piece percentO).filter (· ≠ []) = c.rmDaemonArgs ↔
    ∀ a ∈ c.rmDaemonArgs, CleanArg a := by
  rw [ColocStrParam.piece, expandToken_percentO]
  dsimp only
  by_cases hnil : c.rmDaemonArgs = []
  · rw [argsLine_eq_nil.mpr hnil, hnil]
    exact iff_of_true rfl (by simp)
  · have hline : c.argsLine ≠ [] := fun h => hnil (argsLine_eq_nil.mp h)
    rw [escapedListSeparator, if_neg hline]
    constructor
    · intro heq
      by_cases hlen : 1 < (fields [' '].contains ['"', '\''].contains [] false c.argsLine).length
      · rw [if_pos ⟨rfl, hlen⟩] at heq
        refine clean_of_fields fun a ha => ?_
        rw [← heq, List.mem_filter] at ha
        exact ⟨of_decide_eq_true ha.2, ha.1⟩
      · -- nothing is spliced: the line would be its own only argument
        have hone : [c.argsLine].filter (· ≠ []) = [c.argsLine] :=
          List.filter_eq_self.mpr fun a ha => decide_eq_true (List.mem_singleton.mp ha ▸ hline)
        rw [if_neg fun h => hlen h.2, hone] at heq
        have hlength : (c.rmDaemonArgs.flatMap fun i => i ++ [' ']).length = c.argsLine.length := rfl
        rw [← heq] at hlength
        simp at hlength
    · intro hclean
      have hfields : fields [' '].contains ['"', '\''].contains [] false c.argsLine =
          c.rmDaemonArgs ++ [[]] := by
        refine fields_join (by decide) fun a ha ch hch => ?_
        obtain ⟨hblank, hquote⟩ := (hclean a ha).2 ch hch
        exact ⟨contains_blank.mpr hblank, contains_quote.mpr hquote⟩
      have hlen : 1 < (c.rmDaemonArgs ++ [[]]).length := by
        rw [List.length_append]
        exact Nat.succ_lt_succ (List.length_pos_iff.mpr hnil)
      rw [hfields, if_pos ⟨rfl, hlen⟩, List.filter_append,
        List.filter_eq_self.mpr fun a ha => decide_eq_true (hclean a ha).1]
      exact List.append_nil _

/-! ## The whole list -/

section

variable {α β : Type} {f g : α → List β}

/-- Two lists of pieces that differ in length in the pieces of one kind only. -/
theorem length_flatMap_add [BEq α] [LawfulBEq α] {o : α} (l : List α)
    (hlen : ∀ a ∈ l, a ≠ o → (f a).length = (g a).length) :
    (l.flatMap f).length + l.count o * (g o).length = (l.flatMap g).length + l.count o * (f o).length := by
  induction l with
  | nil => simp
  | cons a l ih =>
    have ih := ih fun b hb => hlen b (List.mem_cons_of_mem _ hb)
    rw [List.flatMap_cons, List.flatMap_cons, List.length_append, List.length_append, List.count_cons]
    by_cases ha : a = o
    · rw [ha, beq_self_eq_true, if_pos rfl, Nat.succ_mul, Nat.succ_mul]
      omega
    · rw [if_neg (by simpa using ha), hlen a List.mem_cons_self ha, Nat.add_zero]
      omega

/-- Pieces of the same lengths are found again. -/
theorem flatMap_eq_iff (l : List α) (hlen : ∀ a ∈ l, (f a).length = (g a).length) :
    l.flatMap f = l.flatMap g ↔ ∀ a ∈ l, f a = g a := by
  constructor
  · intro heq
    induction l with
    | nil => exact fun a ha => absurd ha List.not_mem_nil
    | cons a l ih =>
      rw [List.flatMap_cons, List.flatMap_cons] at heq
      obtain ⟨ha, hl⟩ := List.append_inj heq (hlen a List.mem_cons_self)
      intro b hb
      rcases List.mem_cons.mp hb with rfl | hb
      · exact ha
      · exact ih (fun b hb => hlen b (List.mem_cons_of_mem _ hb)) hl b hb
  · exact fun h => List.flatMap_congr h

end

/-- What a token becomes in the end, and what it should become. -/
def ColocStrParam.becomes (c : ColocStrParam) (tok : Str) : List Str := (c.piece tok).filter (· ≠ [])

/-- What a token should become. -/
def ColocStrParam.shouldBecome (c : ColocStrParam) (tok : Str) : List Str :=
  if tok = percentO then c.rmDaemonArgs else if tok = [] then [] else [replaceAll c.value tok]

theorem piece_nil : c.piece [] = [[]] := piece_of_expandToken (expandToken_of_notMem List.not_mem_nil)

/-- Of the tokens that are not split. -/
theorem becomes_other {tok : Str} (hno : ¬ percentO <:+: tok) :
    (replaceAll c.value tok ≠ [] → (c.becomes tok).length = 1) ∧
    (c.becomes tok = [replaceAll c.value tok] ∧ replaceAll c.value tok ≠ [] ↔ c.CleanToken tok) := by
  obtain ⟨tok', hagrees⟩ := @exists_agrees c tok hno
  have hpos : tok' ≠ [] → c.becomes tok = [tok'] := by
    intro h
    rw [ColocStrParam.becomes, hagrees.piece]
    exact List.filter_eq_self.mpr fun a ha => decide_eq_true (List.mem_singleton.mp ha ▸ h)
  constructor
  · intro hall
    rw [hpos fun h => hall (hagrees.empty h)]
    rfl
  · rw [← hagrees.clean]
    refine and_congr_left fun hall => ?_
    rw [hpos fun h => hall (hagrees.empty h), List.cons.injEq]
    exact and_iff_left rfl

/-- **The code gives what is asked for** exactly if the arguments and the other tokens come through. -/
theorem expanded_eq_wanted_iff {tokens : List Str} (hown : ∀ tok ∈ tokens, percentO <:+: tok → tok = percentO)
    (hmem : percentO ∈ tokens) : c.expanded tokens = c.wanted tokens ↔
      (∀ a ∈ c.rmDaemonArgs, CleanArg a) ∧
        ∀ tok ∈ tokens, tok ≠ percentO → tok ≠ [] → c.CleanToken tok := by
  have hother : ∀ tok ∈ tokens, tok ≠ percentO → ¬ percentO <:+: tok :=
    fun tok htok hne hin => hne (hown tok htok hin)
  have hcode : c.expanded tokens = tokens.flatMap c.becomes := List.filter_flatMap ..
  have hshould : ∀ tok, tok ≠ percentO → tok ≠ [] → c.shouldBecome tok = [replaceAll c.value tok] := by
    intro tok ho hne
    rw [ColocStrParam.shouldBecome, if_neg ho, if_neg hne]
  have hnil : c.becomes [] = c.shouldBecome [] := by
    rw [ColocStrParam.becomes, piece_nil, ColocStrParam.shouldBecome, if_neg (by decide), if_pos rfl]
    rfl
  rw [hcode]
  show tokens.flatMap c.becomes = tokens.flatMap c.shouldBecome ↔ _
  constructor
  · intro heq
    -- no string of the code is empty, so none is asked for
    have hfull : ∀ tok ∈ tokens, tok ≠ percentO → tok ≠ [] → replaceAll c.value tok ≠ [] := by
      intro tok htok ho hne hempty
      have hin : ([] : Str) ∈ tokens.flatMap c.shouldBecome :=
        List.mem_flatMap.mpr ⟨tok, htok, by rw [hshould tok ho hne, hempty]; exact List.mem_cons_self⟩
      rw [← heq, ← hcode] at hin
      exact absurd rfl (of_decide_eq_true (List.mem_filter.mp hin).2)
    have hlen : ∀ tok ∈ tokens, tok ≠ percentO →
        (c.becomes tok).length = (c.shouldBecome tok).length := by
      intro tok htok ho
      by_cases hne : tok = []
      · rw [hne, hnil]
      · rw [(becomes_other (hother tok htok ho)).1 (hfull tok htok ho hne), hshould tok ho hne]
        rfl
    have hcount := length_flatMap_add tokens hlen
    rw [heq] at hcount
    have hargs : (c.becomes percentO).length = (c.shouldBecome percentO).length :=
      (Nat.eq_of_mul_eq_mul_left (List.count_pos_iff.mpr hmem) (Nat.add_left_cancel hcount)).symm
    have hpoint := (flatMap_eq_iff tokens fun tok htok => by
      by_cases ho : tok = percentO
      · rw [ho, hargs]
      · exact hlen tok htok ho).mp heq
    constructor
    · exact piece_percentO.mp (hpoint percentO hmem)
    · intro tok htok ho hne
      refine (becomes_other (hother tok htok ho)).2.mp ⟨?_, hfull tok htok ho hne⟩
      rw [hpoint tok htok, hshould tok ho hne]
  · rintro ⟨hargs, hclean⟩
    refine List.flatMap_congr fun tok htok => ?_
    by_cases ho : tok = percentO
    · rw [ho]
      exact piece_percentO.mpr hargs
    · by_cases hne : tok = []
      · rw [hne, hnil]
      · rw [((becomes_other (hother tok htok ho)).2.mpr (hclean tok htok ho hne)).1, hshould tok ho hne]

/-- **Daemon arguments in a launch string.**  The loop terminates after one round for each token, and
    behind the tokens of the launch helper come the tokens of the launch string, the arguments in the
    place of `%o`, exactly if no argument is empty or has a blank or a quote in it, and every other token
    comes through. -/
theorem launchString_arguments (hboost : ∀ separator quote s,
      boostTokenizer [] separator quote s = escapedListSeparator separator quote s)
    (e : LaunchEnv) (h : LaunchMethodT) (launchString : Str) (fuel : ℕ)
    (hfuel : (e.helperTokens h ++ launchString.splitOn ' ').length ≤ fuel)
    (hown : ∀ tok ∈ launchString.splitOn ' ', percentO <:+: tok → tok = percentO)
    (hmem : percentO ∈ launchString.splitOn ' ') :
    ∃ expandedString tokens, c.expandLaunchString boostTokenizer fuel e h launchString =
        some (expandedString, tokens) ∧
      (tokens = c.expanded (e.helperTokens h) ++ c.wanted (launchString.splitOn ' ') ↔
        (∀ a ∈ c.rmDaemonArgs, CleanArg a) ∧
          ∀ tok ∈ launchString.splitOn ' ', tok ≠ percentO → tok ≠ [] → c.CleanToken tok) := by
  refine ⟨_, _, expandLaunchString_eq hboost hfuel, ?_⟩
  rw [expanded_append, List.append_cancel_left_eq]
  exact expanded_eq_wanted_iff hown hmem

/-- A daemon with the given arguments on two nodes. -/
def sampleParam (rmDaemonArgs : List Str) : ColocStrParam where
  rmDaemonPath := "/bin/be".toList
  rmDaemonArgs := rmDaemonArgs
  rmDaemonStub := "na".toList
  nnodes := 2
  sharedsec := some "key".toList
  randomid := some "7".toList
  resourceid := 42
  hnfilename := none

/-- A launch helper, and nothing in the environment. -/
def sampleHelper : LaunchMethodT := ⟨.launchHelperMethod, "srun".toList⟩

def sampleEnv : LaunchEnv := ⟨false, none, "totalview".toList, "ssh".toList⟩

theorem launchString_arguments_verbose :
    ∃ expandedString tokens, (sampleParam ["-v".toList]).expandLaunchString
        (fun _ => escapedListSeparator) 4 sampleEnv sampleHelper "-n%n %d %o".toList =
        some (expandedString, tokens) ∧
      (tokens = (sampleParam ["-v".toList]).expanded (sampleEnv.helperTokens sampleHelper) ++
          (sampleParam ["-v".toList]).wanted ("-n%n %d %o".toList.splitOn ' ') ↔
        (∀ a ∈ ["-v".toList], CleanArg a) ∧ ∀ tok ∈ "-n%n %d %o".toList.splitOn ' ', tok ≠ percentO →
          tok ≠ [] → (sampleParam ["-v".toList]).CleanToken tok) :=
  launchString_arguments (fun _ _ _ => rfl) sampleEnv sampleHelper "-n%n %d %o".toList 4 (by decide +kernel)
    (by decide +kernel) (by decide +kernel)

/-- An argument with a blank in it becomes two. -/
theorem launchString_counterexample :
    ∃ expandedString tokens, (sampleParam ["a b".toList]).expandLaunchString
        (fun _ => escapedListSeparator) 2 sampleEnv sampleHelper "%o".toList = some (expandedString, tokens) ∧
      ¬["a b".toList] <:+: tokens :=
  ⟨"srun a b ".toList, ["srun".toList, "a".toList, "b".toList], by decide +kernel, by decide +kernel⟩

end LaunchMON.Engine
