/-
  Which argument vectors `opts_args_t::process_args` of `sdbg_opt.cxx` can be given.

  The scan looks at what stands behind an option without asking whether there is anything, goes on behind
  as many arguments as the number behind `--daemonopts` says, be it negative, and hands what `strtok` and
  `getenv` return to functions that do not expect a null pointer.

  1. **An argument vector as it should be** (`WellFormed`): from an index on it is a sequence of items,
     each with what belongs to it.  A negative count leads back to an earlier index, from which on the
     vector has to be well-formed again; so the sequence has to come to an end.

  2. **The two agree** turn by turn: an item makes the scan go on where the next one is
     (`item_turn`), and where the scan goes on there is an item (`turn_item`).  By induction on the
     sequence in one direction, and on the number of scanLoop in the other, the scan stays inside of the
     vector exactly if this is well-formed (`processArgs_inside_iff`).
-/
import LaunchMON.Engine.Options

namespace LaunchMON.Engine.Arguments

open CText

/-! ## The letters of the options -/

/-- The letters of the options; any other one asks for the usage. -/
def letters : List Char := ['a', 'o', 'v', 'd', 't', 'p', 'r', 's', 'x']

theorem scanSwitch_usage {e : EngineEnv} {nargv : List Str} {s : Scan} {c : Char} (hc : c ∉ letters) :
    scanSwitch e nargv s c = .error .exits := by
  unfold scanSwitch
  split <;> first | rfl | exact absurd (by decide) hc

/-! ## Argument vectors as they should be -/

/-- There is an option with a letter at an index. -/
def Opt (nargv : List Str) (i : ℤ) (c : Char) : Prop :=
  ∃ arg, argAt nargv i = some arg ∧ arg.head? = some '-' ∧ optLetter arg = c

/-- An item of the vector: what stands at an index, with all that belongs to it.  It tells where the next
    item is; there is none if the rest is not looked at. -/
inductive Item (e : EngineEnv) (nargv : List Str) (i : ℤ) : Option ℤ → Prop
  | target {arg : Str} (harg : argAt nargv i = some arg) (hdash : arg.head? ≠ some '-')
      (hpath : e.pathSet = true) : Item e nargv i (some (i + 1))
  | launcher (hopt : Opt nargv i 'a') : Item e nargv i none
  | usage {c : Char} (hopt : Opt nargv i c) (hc : c ∉ letters) : Item e nargv i none
  | value {c : Char} {v : Str} (hopt : Opt nargv i c) (hc : c = 'v' ∨ c = 'r' ∨ c = 's')
      (hv : argAt nargv (i + 1) = some v) : Item e nargv i (some (i + 2))
  | traceout {v : Str} (hopt : Opt nargv i 'o') (hv : argAt nargv (i + 1) = some v) :
      Item e nargv i (if e.fopen v then some (i + 2) else none)
  | daemonpath {v : Str} (hopt : Opt nargv i 'd') (hv : argAt nargv (i + 1) = some v)
      (hpath : e.pathSet = true) :
      Item e nargv i (if (checkPath e.stat v (strtok ':' e.path) v).1 then some (i + 2) else none)
  | pid {v : Str} (hopt : Opt nargv i 'p') (hv : argAt nargv (i + 1) = some v) :
      Item e nargv i (if (e.procExe (atoi v)).isSome then some (i + 2) else none)
  | selftrace {v : Str} (hopt : Opt nargv i 'x') (hv : argAt nargv (i + 1) = some v)
      (htokens : 2 ≤ (strtok ':' v).length) : Item e nargv i (some (i + 2))
  | daemonopts {v : Str} (hopt : Opt nargv i 't') (hv : argAt nargv (i + 1) = some v)
      (hcount : i + 1 + atoi v < nargv.length) : Item e nargv i (some (i + 2 + atoi v))

/-- **A vector that is well-formed** from an index on. -/
inductive WellFormed (e : EngineEnv) (nargv : List Str) : ℤ → Prop
  | done {i : ℤ} (h : nargv.length ≤ i) : WellFormed e nargv i
  | last {i : ℤ} (item : Item e nargv i none) : WellFormed e nargv i
  | next {i j : ℤ} (item : Item e nargv i (some j)) (rest : WellFormed e nargv j) : WellFormed e nargv i

/-! ## A turn -/

section

variable {e : EngineEnv} {nargv : List Str} {s : Scan}

theorem readArg_none {i : ℤ} (h : argAt nargv i = none) : readArg nargv i = .error (.outside i) := by
  rw [readArg, h]

/-- The arguments that a vector has. -/
theorem argAt_isSome (i : ℤ) : (∃ arg, argAt nargv i = some arg) ↔ 0 ≤ i ∧ i < nargv.length := by
  unfold argAt
  split
  · next hneg =>
    refine iff_of_false ?_ (by omega)
    rintro ⟨arg, harg⟩
    cases harg
  · next hpos =>
    rw [← Option.isSome_iff_exists, isSome_getElem?]
    omega

/-- The counted arguments can be read if the last of them can. -/
theorem pushOpts_spec : ∀ (n : ℕ) (i : ℤ) (acc : List Str), 0 ≤ i →
    (n = 0 ∨ i + n ≤ nargv.length) ∧ (∃ opts, pushOpts nargv n i acc = .ok opts) ∨
      (¬(n = 0 ∨ i + n ≤ nargv.length) ∧ ∃ j, pushOpts nargv n i acc = .error (.outside j)) := by
  intro n
  induction n with
  | zero => exact fun i acc _ => Or.inl ⟨Or.inl rfl, acc, rfl⟩
  | succ n ih =>
    intro i acc hi
    rw [pushOpts]
    by_cases hlt : i < nargv.length
    · obtain ⟨arg, harg⟩ := (argAt_isSome i).mpr ⟨hi, hlt⟩
      rw [readArg_some harg]
      rcases ih (i + 1) (acc ++ [arg]) (by omega) with ⟨hin, hok⟩ | ⟨hout, herr⟩
      · exact Or.inl ⟨by omega, hok⟩
      · exact Or.inr ⟨by omega, herr⟩
    · have hnone : argAt nargv i = none := by
        refine Option.eq_none_iff_forall_not_mem.mpr fun arg harg => hlt ?_
        exact ((argAt_isSome i).mp ⟨arg, harg⟩).2
      rw [readArg_none hnone]
      exact Or.inr ⟨by omega, i, rfl⟩

/-- `i++`. -/
def nextTurn (s : Scan) : Scan := { s with i := s.i + 1 }

/-- A turn at an option. -/
theorem turn_option {c : Char} (hopt : Opt nargv s.i c) :
    scanStep e nargv s = (scanSwitch e nargv s c).map nextTurn := by
  obtain ⟨arg, harg, hdash, rfl⟩ := hopt
  have hbody : scanArg e nargv s arg = scanSwitch e nargv s (optLetter arg) := if_pos hdash
  rw [scanStep_eq harg, hbody]
  rfl

/-- A turn at an argument that is no option. -/
theorem turn_target {arg : Str} (harg : argAt nargv s.i = some arg) (hdash : arg.head? ≠ some '-') :
    scanStep e nargv s = (scanTarget e s arg).map nextTurn := by
  have hbody : scanArg e nargv s arg = scanTarget e s arg := if_neg hdash
  rw [scanStep_eq harg, hbody]
  rfl

/-- Where the scan goes on behind a turn: it does not if it leaves through `exit`, or has ended. -/
def GoesOn (r : Except Leaves Scan) : Option ℤ → Prop
  | none => r = .error .exits ∨ ∃ s, r = .ok s ∧ s.finParsing = true
  | some j => ∃ s, r = .ok s ∧ s.finParsing = false ∧ s.i = j

theorem goesOn_some {s' : Scan} {j : ℤ} (hfin : s'.finParsing = false) (hj : s'.i + 1 = j) :
    GoesOn ((Except.ok s').map nextTurn) (some j) := ⟨_, rfl, hfin, hj⟩

theorem goesOn_none {s' : Scan} (hfin : s'.finParsing = true) :
    GoesOn ((Except.ok s').map nextTurn) none := Or.inr ⟨_, rfl, hfin⟩

/-- **At an item** the scan goes on to the next one. -/
theorem item_turn (hfin : s.finParsing = false) {next : Option ℤ} (h : Item e nargv s.i next) :
    GoesOn (scanStep e nargv s) next := by
  have hskip : s.i + 1 + 1 = s.i + 2 := by omega
  cases h with
  | target harg hdash hpath =>
    rw [turn_target harg hdash, scanTarget, checkInPath, if_pos hpath]
    exact goesOn_some hfin rfl
  | launcher hopt =>
    rw [turn_option hopt, scanSwitch]
    cases s.debugtarget with
    | none => exact goesOn_none rfl
    | some debugtarget => exact goesOn_none rfl
  | usage hopt hc =>
    rw [turn_option hopt, scanSwitch_usage hc]
    exact Or.inl rfl
  | value hopt hc hv =>
    rw [turn_option hopt]
    rcases hc with rfl | rfl | rfl
    all_goals
      rw [scanSwitch, readArg_some hv]
      exact goesOn_some hfin hskip
  | @traceout v hopt hv =>
    have hturn : scanStep e nargv s =
        (if e.fopen v then .ok (s.took s.opt) else .error .exits : Except Leaves Scan).map nextTurn := by
      rw [turn_option hopt, scanSwitch, readArg_some hv]
      rfl
    rw [hturn]
    cases e.fopen v with
    | true => exact goesOn_some hfin hskip
    | false => exact Or.inl rfl
  | @daemonpath v hopt hv hpath =>
    have hcheck : checkInPath e v = .ok (checkPath e.stat v (strtok ':' e.path) v) := if_pos hpath
    rw [turn_option hopt, scanSwitch, readArg_some hv]
    simp only [Except.bind, bind, hcheck]
    cases (checkPath e.stat v (strtok ':' e.path) v).1 with
    | true => exact goesOn_some hfin hskip
    | false => exact goesOn_none rfl
  | @pid v hopt hv =>
    rw [turn_option hopt, scanSwitch, readArg_some hv]
    simp only [Except.bind, bind, lmonGetExecpath]
    cases e.procExe (atoi v) with
    | some opath => exact goesOn_some hfin hskip
    | none => exact goesOn_none rfl
  | selftrace hopt hv htokens =>
    rw [turn_option hopt, scanSwitch, readArg_some hv]
    simp only [Except.bind, bind]
    rw [if_neg (by omega)]
    exact goesOn_some hfin hskip
  | @daemonopts v hopt hv hcount =>
    have hbounds := (argAt_isSome (s.i + 1)).mp ⟨v, hv⟩
    rcases @pushOpts_spec nargv (atoi v).toNat (s.i + 2) s.opt.toolDaemonOpts (by omega) with
      ⟨-, opts, hopts⟩ | ⟨hout, -⟩
    · rw [turn_option hopt, scanSwitch, readArg_some hv]
      simp only [Except.bind, bind, hopts]
      exact goesOn_some hfin (by dsimp only; omega)
    · exact absurd (by omega) hout

/-- An option without the argument that it takes is read behind the vector. -/
theorem turn_lacking {c : Char} (hopt : Opt nargv s.i c) (hc : c ∈ letters) (ha : c ≠ 'a')
    (hnone : argAt nargv (s.i + 1) = none) : scanStep e nargv s = .error (.outside (s.i + 1)) := by
  rw [turn_option hopt]
  simp only [letters, List.mem_cons, List.not_mem_nil, or_false] at hc
  rcases hc with rfl | rfl | rfl | rfl | rfl | rfl | rfl | rfl | rfl
  · exact absurd rfl ha
  all_goals
    rw [scanSwitch, readArg_none hnone]
    rfl

/-- **Where a turn stays inside** there is an item. -/
theorem turn_item (h : ∀ l, scanStep e nargv s = .error l → l = .exits) :
    ∃ next, Item e nargv s.i next := by
  cases harg : argAt nargv s.i with
  | none =>
    have hout := h (.outside s.i) (by rw [scanStep, readArg_none harg]; rfl)
    cases hout
  | some arg =>
    by_cases hdash : arg.head? = some '-'
    · have hopt : Opt nargv s.i (optLetter arg) := ⟨arg, harg, hdash, rfl⟩
      generalize optLetter arg = c at hopt
      -- an option whose item does not fit would leave in another way than `exits`
      by_cases hc : c ∈ letters
      · by_cases ha : c = 'a'
        · exact ⟨_, .launcher (ha ▸ hopt)⟩
        · cases hv : argAt nargv (s.i + 1) with
          | none => cases h _ (turn_lacking hopt hc ha hv)
          | some v =>
            simp only [letters, List.mem_cons, List.not_mem_nil, or_false] at hc
            rcases hc with rfl | rfl | rfl | rfl | rfl | rfl | rfl | rfl | rfl
            · exact absurd rfl ha
            · exact ⟨_, .traceout hopt hv⟩
            · exact ⟨_, .value hopt (Or.inl rfl) hv⟩
            · refine ⟨_, .daemonpath hopt hv ?_⟩
              by_contra hpath
              have hnull : scanStep e nargv s = .error .null := by
                rw [turn_option hopt, scanSwitch, readArg_some hv]
                simp only [Except.bind, bind, checkInPath, if_neg hpath]
                rfl
              cases h _ hnull
            · refine ⟨_, .daemonopts hopt hv ?_⟩
              by_contra hcount
              have hbounds := (argAt_isSome (s.i + 1)).mp ⟨v, hv⟩
              rcases @pushOpts_spec nargv (atoi v).toNat (s.i + 2) s.opt.toolDaemonOpts (by omega) with
                ⟨hin, -⟩ | ⟨-, j, hj⟩
              · omega
              · have hout : scanStep e nargv s = .error (.outside j) := by
                  rw [turn_option hopt, scanSwitch, readArg_some hv]
                  simp only [Except.bind, bind, hj]
                  rfl
                cases h _ hout
            · exact ⟨_, .pid hopt hv⟩
            · exact ⟨_, .value hopt (Or.inr (Or.inl rfl)) hv⟩
            · exact ⟨_, .value hopt (Or.inr (Or.inr rfl)) hv⟩
            · refine ⟨_, .selftrace hopt hv ?_⟩
              by_contra htokens
              have hnull : scanStep e nargv s = .error .null := by
                rw [turn_option hopt, scanSwitch, readArg_some hv]
                simp only [Except.bind, bind]
                rw [if_pos (by omega)]
                rfl
              cases h _ hnull
      · exact ⟨_, .usage hopt hc⟩
    · refine ⟨_, .target harg hdash ?_⟩
      by_contra hpath
      have hnull : scanStep e nargv s = .error .null := by
        rw [turn_target harg hdash, scanTarget, checkInPath, if_neg hpath]
        rfl
      cases h _ hnull

/-! ## The whole scan -/

/-- A result that is reached without a look outside of the vector and without a null pointer. -/
def Within {α : Type} (r : Except Leaves α) : Prop := ∀ l, r = .error l → l = .exits

/-- **A well-formed vector** is scanned to its end, or to an `exit`. -/
theorem wellFormed_scanLoop {i : ℤ} (h : WellFormed e nargv i) :
    ∀ s : Scan, s.i = i → ∃ fuel r, scanLoop e nargv fuel s = some r ∧ Within r := by
  have hend : ∀ s : Scan, ¬(s.i < nargv.length ∧ s.finParsing = false) →
      ∃ fuel r, scanLoop e nargv fuel s = some r ∧ Within r := by
    intro s hs
    exact ⟨1, .ok s, by rw [scanLoop, if_neg hs], nofun⟩
  induction h with
  | done hlen =>
    rintro s rfl
    exact hend s fun hand => absurd hand.1 (by omega)
  | last item =>
    rintro s rfl
    by_cases hs : s.i < nargv.length ∧ s.finParsing = false
    · rcases item_turn hs.2 item with herr | ⟨s', hok, hfin⟩
      · refine ⟨1, .error .exits, by rw [scanLoop, if_pos hs, herr], ?_⟩
        rintro l ⟨⟩
        rfl
      · refine ⟨2, .ok s', ?_, nofun⟩
        rw [scanLoop, if_pos hs, hok]
        dsimp only
        rw [scanLoop, if_neg fun hand => absurd (hand.2.symm.trans hfin) (by decide)]
    · exact hend s hs
  | next item _ ih =>
    rintro s rfl
    by_cases hs : s.i < nargv.length ∧ s.finParsing = false
    · obtain ⟨s', hok, -, hj⟩ := item_turn hs.2 item
      obtain ⟨fuel, r, hr, hwithin⟩ := ih s' hj
      refine ⟨fuel + 1, r, ?_, hwithin⟩
      rw [scanLoop, if_pos hs, hok]
      exact hr
    · exact hend s hs

/-- **A scan that stays within** has gone over a well-formed vector. -/
theorem scanLoop_wellFormed : ∀ (fuel : ℕ) (s : Scan) (r : Except Leaves Scan), s.finParsing = false →
    scanLoop e nargv fuel s = some r → Within r → WellFormed e nargv s.i := by
  intro fuel
  induction fuel with
  | zero =>
    intro s r _ hr
    cases hr
  | succ fuel ih =>
    intro s r hfin hr hwithin
    rw [scanLoop] at hr
    by_cases hlt : s.i < nargv.length
    · rw [if_pos ⟨hlt, hfin⟩] at hr
      have hinside : ∀ l, scanStep e nargv s = .error l → l = .exits := by
        intro l hl
        rw [hl] at hr
        exact hwithin l (Option.some.inj hr).symm
      obtain ⟨next, item⟩ := turn_item hinside
      cases next with
      | none => exact .last item
      | some j =>
        obtain ⟨s', hok, hfin', rfl⟩ := item_turn hfin item
        rw [hok] at hr
        exact .next item (ih s' r hfin' hr hwithin)
    · exact .done (by omega)

/-- The states of the scan at the head of its loop. -/
inductive Reached (e : EngineEnv) (nargv : List Str) : Scan → Prop
  | start : Reached e nargv .start
  | turn {s s' : Scan} (h : Reached e nargv s) (hi : s.i < nargv.length) (hfin : s.finParsing = false)
      (hturn : scanStep e nargv s = .ok s') : Reached e nargv s'

/-- Whatever the scan of a well-formed vector comes to is well-formed. -/
theorem reached_wellFormed (h : WellFormed e nargv 1) (hs : Reached e nargv s) :
    s.finParsing = false → WellFormed e nargv s.i := by
  induction hs with
  | start => exact fun _ => h
  | @turn s s' _ hi hfin hturn ih =>
    intro hfin'
    cases ih hfin with
    | done hlen => omega
    | last item =>
      rcases item_turn hfin item with herr | ⟨s'', hok, hend⟩
      · rw [hturn] at herr
        cases herr
      · rw [hturn] at hok
        cases hok
        exact absurd (hfin'.symm.trans hend) (by decide)
    | next item rest =>
      obtain ⟨s'', hok, -, rfl⟩ := item_turn hfin item
      rw [hturn] at hok
      cases hok
      exact rest

/-- An option that takes an argument stands at the end of the vector. -/
def LacksValue (nargv : List Str) (i : ℤ) : Prop :=
  ∃ c, Opt nargv i c ∧ c ∈ letters ∧ c ≠ 'a' ∧ argAt nargv (i + 1) = none

/-- What is asked of `process_args`: it comes to an end within the vector, and reports an argument that
    is missing. -/
structure Inside (e : EngineEnv) (nargv : List Str) : Prop where
  ends : ∃ fuel r, processArgsWithin e fuel nargv = some r ∧ Within r
  missing : ∀ s, Reached e nargv s → s.i < nargv.length → s.finParsing = false → LacksValue nargv s.i →
    ∃ fuel parsed, processArgsWithin e fuel nargv = some (.ok parsed) ∧ parsed.hasParseError = true

theorem finish_within (s : Scan) : Within (s.finish e) := by
  unfold Scan.finish
  split
  · split
    · exact nofun
    · rintro l ⟨⟩
      rfl
  · exact nofun

end

/-- **Which argument vectors are scanned as they should be**: those that are well-formed from the first
    argument on. -/
theorem processArgs_inside_iff (e : EngineEnv) (nargv : List Str) : Inside e nargv ↔ WellFormed e nargv 1 := by
  constructor
  · intro h
    obtain ⟨fuel, r, hr, hwithin⟩ := h.ends
    unfold processArgsWithin at hr
    split at hr
    · next hlen => exact .done (by omega)
    · obtain ⟨r', hturns, rfl⟩ := Option.map_eq_some_iff.mp hr
      refine scanLoop_wellFormed fuel .start r' rfl hturns fun l hl => ?_
      rw [hl] at hwithin
      exact hwithin l rfl
  · intro h
    constructor
    · by_cases hlen : nargv.length < 2
      · refine ⟨0, .error .exits, if_pos hlen, ?_⟩
        rintro l ⟨⟩
        rfl
      · obtain ⟨fuel, r, hr, hwithin⟩ := wellFormed_scanLoop h .start rfl
        refine ⟨fuel, _, by rw [processArgsWithin, if_neg hlen, hr]; rfl, ?_⟩
        cases r with
        | error l =>
          rintro l' ⟨⟩
          exact hwithin l rfl
        | ok s => exact finish_within s
    · rintro s hs hi hfin ⟨c, hopt, hc, ha, hnone⟩
      have hout := turn_lacking (e := e) hopt hc ha hnone
      cases reached_wellFormed h hs hfin with
      | done hlen => omega
      | last item =>
        rcases item_turn hfin item with herr | ⟨s', hok, -⟩
        · rw [hout] at herr
          cases herr
        · rw [hout] at hok
          cases hok
      | next item _ =>
        obtain ⟨s', hok, -⟩ := item_turn hfin item
        rw [hout] at hok
        cases hok

/-- A machine on which every file exists and no process is known. -/
def sampleEnv : EngineEnv where
  stat := fun _ => true
  path := "/bin".toList
  procExe := fun _ => none
  fopen := fun _ => true
  rmMap := true
  pid_range := nofun
  pathSet := true

/-- `launchmon -v`: the verbosity is read from the null pointer behind the vector. -/
theorem processArgs_inside_counterexample : ¬Inside sampleEnv ["launchmon".toList, "-v".toList] := by
  intro h
  obtain ⟨fuel, r, hr, hwithin⟩ := h.ends
  cases fuel with
  | zero => cases hr
  | succ fuel =>
    have hout : processArgsWithin sampleEnv (fuel + 1) ["launchmon".toList, "-v".toList] =
        some (.error (.outside 2)) := rfl
    rw [hout] at hr
    obtain rfl := Option.some.inj hr
    cases hwithin _ rfl

end LaunchMON.Engine.Arguments
