/-
  The options of the engine: `opts_args_t::process_args` of `sdbg_opt.cxx`.

  One scan goes over the argument vector.  An option takes what stands behind it, `--daemonopts` as many
  arguments as its count says, and `-a` ends the scan: what is behind it belongs to the launcher.  An
  argument without a dash is the launcher.

  The scan leaves through `exit`, or because it reads the vector where it has nothing, or follows a
  null pointer (`Leaves`).  Where PATH is set and only the result is asked for, all of these are `none`
  (`processArgs`).  The verbosity of the self-trace is left out.
-/
import LaunchMON.Lib.Strings

namespace LaunchMON.Engine

open CText

/-! ## Data -/

/-- `opt_struct_t`. -/
structure OptStruct where
  verbose : ℤ
  attach : Bool
  remote : Bool
  toolDaemon : Str
  debugtarget : Str
  toolDaemonOpts : List Str
  remoteInfo : Str
  lmonSecInfo : Str
  launcherPid : ℤ
  remaining : Option (List Str)

/-- `opts_args_t::opts_args_t`. -/
def OptStruct.init : OptStruct where
  verbose := 0
  attach := false
  remote := false
  toolDaemon := []
  debugtarget := []
  toolDaemonOpts := []
  remoteInfo := []
  lmonSecInfo := []
  launcherPid := -1
  remaining := none

/-- What the engine finds on its machine: whether `stat` succeeds, PATH, the link `/proc/<pid>/exe` of a
    process, whether a trace file can be opened, and whether the configuration of the resource manager
    can be read. -/
structure Host where
  stat : Str → Bool
  path : Str
  procExe : ℤ → Option Str
  fopen : Str → Bool
  rmMap : Bool
  /-- The kernel numbers its processes from 1 to PID_MAX_LIMIT. -/
  pid_range : ∀ pid exe, procExe pid = some exe → 0 < pid ∧ pid ≤ 4194304

/-- The machine, and whether PATH is set. -/
structure EngineEnv extends Host where
  pathSet : Bool

/-- A machine with PATH set. -/
def Host.toEngineEnv (h : Host) : EngineEnv := { h with pathSet := true }

/-- How a scan does not come to its end: it prints the usage or fails an assertion, it reads
    `nargv[i]` where the vector has nothing, or it follows a null pointer. -/
inductive Leaves
  | exits
  | outside (i : ℤ)
  | null
  deriving DecidableEq

/-- The locals of the scan. -/
structure Scan where
  i : ℤ
  opt : OptStruct
  debugtarget : Option Str
  finParsing : Bool
  rv : Bool
  hasParseError : Bool

/-! ## The scan -/

/-- `nargv[i]`; `none` is the null pointer, and what is outside of the vector. -/
def argAt (nargv : List Str) (i : ℤ) : Option Str := if i < 0 then none else nargv[i.toNat]?

/-- A read of `nargv[i]` that is followed. -/
def readArg (nargv : List Str) (i : ℤ) : Except Leaves Str :=
  match argAt nargv i with
  | some arg => .ok arg
  | none => .error (.outside i)

/-- `check_path`, with the tokens of PATH that are left. -/
def checkPath (stat : Str → Bool) (base : Str) : List Str → Str → Bool × Str
  | [], path => (stat path, path)
  | pth :: toks, path =>
    if stat path then (true, path)
    else if base.head? ≠ some '/' then checkPath stat base toks (pth ++ '/' :: base)
    else (false, path)

/-- `check_path` with the tokens of PATH, which is copied before anything else. -/
def checkInPath (e : EngineEnv) (base : Str) : Except Leaves (Bool × Str) :=
  if e.pathSet then .ok (checkPath e.stat base (strtok ':' e.path) base) else .error .null

/-- `LMON_get_execpath`. -/
def lmonGetExecpath (h : Host) (pid : ℤ) : Option Str := h.procExe pid

/-- The long options and their letters. -/
def longOpts : List (Str × Char) :=
  [("verbose".toList, 'v'), ("help".toList, 'h'), ("daemonpath".toList, 'd'), ("selftrace".toList, 'x'),
    ("daemonopts".toList, 't'), ("pid".toList, 'p'), ("traceout".toList, 'o'), ("remote".toList, 'r'),
    ("lmonsec".toList, 's')]

/-- The letter of an option. -/
def optLetter (arg : Str) : Char :=
  let c := (arg.drop 1).headD '\x00'
  if c = '-' then ((longOpts.find? fun p => arg.drop 2 = p.1).map Prod.snd).getD c else c

/-- The loop of `--daemonopts`: the arguments from `nargv[i]` on. -/
def pushOpts (nargv : List Str) : ℕ → ℤ → List Str → Except Leaves (List Str)
  | 0, _, toolDaemonOpts => .ok toolDaemonOpts
  | n + 1, i, toolDaemonOpts => do
    let arg ← readArg nargv i
    pushOpts nargv n (i + 1) (toolDaemonOpts ++ [arg])

/-- A parse error that ends the scan. -/
def Scan.bad (s : Scan) : Scan := { s with hasParseError := true, finParsing := true, rv := false }

/-- An option that takes an argument: `i++`. -/
def Scan.took (s : Scan) (opt : OptStruct) : Scan := { s with i := s.i + 1, opt := opt }

/-- The switch of the scan. -/
def scanSwitch (e : EngineEnv) (nargv : List Str) (s : Scan) (c : Char) : Except Leaves Scan :=
  match c with
  | 'a' =>
    match s.debugtarget with
    | some debugtarget => .ok { s with
        opt := { s.opt with remaining := some (debugtarget :: nargv.drop (s.i.toNat + 1)) }
        finParsing := true }
    | none => .ok s.bad
  | 'o' => do
    let arg ← readArg nargv (s.i + 1)
    if e.fopen arg then .ok (s.took s.opt) else .error .exits
  | 'v' => do
    let arg ← readArg nargv (s.i + 1)
    let verbose := atoi arg
    .ok (s.took { s.opt with
      verbose := if verbose = 0 ∨ verbose = 1 ∨ verbose = 2 then verbose else 1 })
  | 'd' => do
    let arg ← readArg nargv (s.i + 1)
    let (found, toolDaemon) ← checkInPath e arg
    let s := if found then s else s.bad
    .ok (s.took { s.opt with toolDaemon := toolDaemon })
  | 't' => do
    let arg ← readArg nargv (s.i + 1)
    let numArgs := atoi arg
    let toolDaemonOpts ← pushOpts nargv numArgs.toNat (s.i + 2) s.opt.toolDaemonOpts
    .ok { s with i := s.i + numArgs + 1, opt := { s.opt with toolDaemonOpts := toolDaemonOpts } }
  | 'p' => do
    let arg ← readArg nargv (s.i + 1)
    let launcherPid := atoi arg
    let opt := { s.opt with launcherPid := launcherPid, attach := true }
    match lmonGetExecpath e.toHost launcherPid with
    | none => .ok (s.bad.took opt)
    | some opath => .ok (s.took { opt with debugtarget := opath })
  | 'r' => do
    let arg ← readArg nargv (s.i + 1)
    .ok (s.took { s.opt with remote := true, remoteInfo := arg })
  | 's' => do
    let arg ← readArg nargv (s.i + 1)
    .ok (s.took { s.opt with lmonSecInfo := arg })
  | 'x' => do
    let arg ← readArg nargv (s.i + 1)
    -- the second token goes to `atoi` as `strtok` returns it
    if (strtok ':' arg).length < 2 then .error .null else .ok (s.took s.opt)
  | _ => .error .exits

/-- An argument that is no option. -/
def scanTarget (e : EngineEnv) (s : Scan) (arg : Str) : Except Leaves Scan := do
  let (found, debugtarget) ← checkInPath e arg
  .ok { s with
    debugtarget := some arg
    opt := { s.opt with debugtarget := debugtarget }
    hasParseError := if found then s.hasParseError else true
    rv := if found then s.rv else false }

/-- The body of the loop, for the argument at `s.i`. -/
def scanArg (e : EngineEnv) (nargv : List Str) (s : Scan) (arg : Str) : Except Leaves Scan :=
  if arg.head? = some '-' then scanSwitch e nargv s (optLetter arg) else scanTarget e s arg

/-- The body of the loop, and `i++`. -/
def scanStep (e : EngineEnv) (nargv : List Str) (s : Scan) : Except Leaves Scan := do
  let arg ← readArg nargv s.i
  let s ← scanArg e nargv s arg
  .ok { s with i := s.i + 1 }

/-- The loop; `none` if it takes more than `fuel` turns. -/
def scanLoop (e : EngineEnv) (nargv : List Str) : ℕ → Scan → Option (Except Leaves Scan)
  | 0, _ => none
  | fuel + 1, s =>
    if s.i < nargv.length ∧ s.finParsing = false then
      match scanStep e nargv s with
      | .error l => some (.error l)
      | .ok s => scanLoop e nargv fuel s
    else some (.ok s)

/-- What `process_args` leaves behind. -/
structure Parsed where
  rv : Bool
  opt : OptStruct
  hasParseError : Bool

/-- The scan at its start. -/
def Scan.start : Scan := ⟨1, .init, none, false, true, false⟩

/-- The end of `process_args`, behind the loop: `construct_rm_map`. -/
def Scan.finish (e : EngineEnv) (s : Scan) : Except Leaves Parsed :=
  if s.hasParseError = false ∧ e.rmMap = false then
    if s.opt.remote = true ∧ s.opt.verbose = 0 then .ok ⟨false, s.opt, true⟩ else .error .exits
  else .ok ⟨s.rv, s.opt, s.hasParseError⟩

/-- `opts_args_t::process_args`; `none` if its loop takes more than `fuel` turns. -/
def processArgsWithin (e : EngineEnv) (fuel : ℕ) (nargv : List Str) : Option (Except Leaves Parsed) :=
  if nargv.length < 2 then some (.error .exits)
  else (scanLoop e nargv fuel .start).map fun r => r.bind (Scan.finish e)

/-- The result of `process_args` where PATH is set: none if it leaves in whatever way. -/
def processArgs (h : Host) (fuel : ℕ) (nargv : List Str) : Option Parsed := do
  let r ← processArgsWithin h.toEngineEnv fuel nargv
  r.toOption

/-! ## One argument after the other -/

section

variable {h : Host} {e : EngineEnv} {nargv : List Str} {s : Scan} {fuel : ℕ}

/-- The argument behind a part of the vector. -/
theorem argAt_append (front back : List Str) (k : ℕ) {i : ℤ} (hi : i = front.length + k) :
    argAt (front ++ back) i = back[k]? := by
  subst hi
  unfold argAt
  rw [if_neg (by omega), show ((front.length : ℤ) + k).toNat = front.length + k by omega,
    List.getElem?_append_right (Nat.le_add_right _ _), Nat.add_sub_cancel_left]

theorem readArg_some {i : ℤ} {arg : Str} (harg : argAt nargv i = some arg) :
    readArg nargv i = .ok arg := by
  rw [readArg, harg]

/-- A turn of the loop. -/
theorem scanLoop_step (hi : s.i < nargv.length) (hfin : s.finParsing = false) {s' : Scan}
    (hstep : scanStep e nargv s = .ok s') :
    scanLoop e nargv (fuel + 1) s = scanLoop e nargv fuel s' := by
  rw [scanLoop, if_pos ⟨hi, hfin⟩, hstep]

/-- The end of the loop. -/
theorem scanLoop_end (hend : ¬(s.i < nargv.length ∧ s.finParsing = false)) :
    scanLoop e nargv (fuel + 1) s = some (.ok s) := by
  rw [scanLoop, if_neg hend]

/-- A path that exists is kept. -/
theorem checkPath_self {stat : Str → Bool} {base : Str} (hbase : stat base = true) :
    ∀ toks, checkPath stat base toks base = (true, base) := by
  intro toks
  cases toks with
  | nil =>
    show (stat base, base) = _
    rw [hbase]
  | cons pth toks => exact if_pos hbase

/-- So it is in the scan, where PATH is set. -/
theorem checkInPath_self {base : Str} (hbase : h.stat base = true) :
    checkInPath h.toEngineEnv base = .ok (true, base) :=
  congrArg Except.ok (checkPath_self hbase _)

/-- The counted arguments are the options of the daemon. -/
theorem pushOpts_append (back : List Str) : ∀ (opts front acc : List Str) {i : ℤ}, i = front.length →
    pushOpts (front ++ (opts ++ back)) opts.length i acc = .ok (acc ++ opts) := by
  intro opts
  induction opts with
  | nil =>
    intro front acc i _
    rw [List.append_nil]
    rfl
  | cons a opts ih =>
    intro front acc i hi
    have harg : argAt (front ++ (a :: opts ++ back)) i = some a := argAt_append front _ 0 (by omega)
    rw [List.length_cons, pushOpts, readArg_some harg]
    have hnext := ih (front ++ [a]) (acc ++ [a]) (i := i + 1) (by rw [List.length_append]; simp [hi])
    rw [List.append_assoc, List.append_assoc] at hnext
    exact hnext

/-- A turn is the body of the loop, and the step to the next index. -/
theorem scanStep_eq {arg : Str} (harg : argAt nargv s.i = some arg) :
    scanStep e nargv s = (scanArg e nargv s arg).map fun s => { s with i := s.i + 1 } := by
  rw [scanStep, readArg_some harg]
  show (scanArg e nargv s arg >>= fun s => .ok _) = _
  cases scanArg e nargv s arg <;> rfl

/-- A turn at an option is the switch for its letter. -/
theorem scanStep_option {arg : Str} {c : Char} {s' : Scan} (harg : argAt nargv s.i = some arg)
    (hdash : arg.head? = some '-') (hletter : optLetter arg = c)
    (hswitch : scanSwitch e nargv s c = .ok s') :
    scanStep e nargv s = .ok { s' with i := s'.i + 1 } := by
  have hbody : scanArg e nargv s arg = .ok s' := by rw [scanArg, if_pos hdash, hletter, hswitch]
  rw [scanStep_eq harg, hbody]
  rfl

/-- `--daemonpath` with a path that exists. -/
theorem scanStep_daemonpath {path : Str} (harg : argAt nargv s.i = some "--daemonpath".toList)
    (hnext : argAt nargv (s.i + 1) = some path) (hpath : h.stat path = true) :
    scanStep h.toEngineEnv nargv s =
      .ok { s with i := s.i + 1 + 1, opt := { s.opt with toolDaemon := path } } := by
  have hswitch : scanSwitch h.toEngineEnv nargv s 'd' = .ok (s.took { s.opt with toolDaemon := path }) := by
    rw [scanSwitch, readArg_some hnext]
    simp only [bind, Except.bind, checkInPath_self hpath]
    rfl
  exact scanStep_option harg rfl rfl hswitch

/-- `--daemonopts` with its count in front of the options. -/
theorem scanStep_daemonopts {front opts back : List Str} (hi : s.i = front.length)
    (hnargv : nargv = front ++ ("--daemonopts".toList :: decimal opts.length :: (opts ++ back))) :
    scanStep h.toEngineEnv nargv s = .ok { s with
      i := s.i + opts.length + 1 + 1
      opt := { s.opt with toolDaemonOpts := s.opt.toolDaemonOpts ++ opts } } := by
  have harg : argAt nargv s.i = some "--daemonopts".toList := by
    rw [hnargv]
    exact argAt_append front _ 0 (by omega)
  have hnext : argAt nargv (s.i + 1) = some (decimal opts.length) := by
    rw [hnargv]
    exact argAt_append front _ 1 (by omega)
  have hpush : pushOpts nargv opts.length (s.i + 2) s.opt.toolDaemonOpts =
      .ok (s.opt.toolDaemonOpts ++ opts) := by
    have hfront : nargv = (front ++ ["--daemonopts".toList, decimal opts.length]) ++ (opts ++ back) := by
      rw [hnargv, List.append_assoc]
      rfl
    rw [hfront]
    exact pushOpts_append back opts _ _ (by rw [List.length_append, hi]; simp)
  have hswitch : scanSwitch h.toEngineEnv nargv s 't' = .ok { s with
      i := s.i + opts.length + 1
      opt := { s.opt with toolDaemonOpts := s.opt.toolDaemonOpts ++ opts } } := by
    rw [scanSwitch, readArg_some hnext]
    show (pushOpts nargv (atoi (decimal opts.length)).toNat (s.i + 2) s.opt.toolDaemonOpts >>= _) = _
    rw [atoi_decimal, Int.toNat_natCast, hpush]
    rfl
  exact scanStep_option harg rfl rfl hswitch

/-- `--pid` with a process that exists. -/
theorem scanStep_pid {pid : ℤ} {exe : Str} (harg : argAt nargv s.i = some "--pid".toList)
    (hnext : argAt nargv (s.i + 1) = some (percentD pid)) (hpid : h.procExe pid = some exe) :
    scanStep h.toEngineEnv nargv s = .ok { s with
      i := s.i + 1 + 1
      opt := { s.opt with launcherPid := pid, attach := true, debugtarget := exe } } := by
  have hswitch : scanSwitch h.toEngineEnv nargv s 'p' =
      .ok (s.took { s.opt with launcherPid := pid, attach := true, debugtarget := exe }) := by
    have hexe : lmonGetExecpath h pid = some exe := hpid
    rw [scanSwitch, readArg_some hnext]
    show (match lmonGetExecpath h (atoi (percentD pid)) with | none => _ | some opath => _) = _
    rw [atoi_percentD, hexe]
  exact scanStep_option harg rfl rfl hswitch

/-- An argument without a dash that exists is the launcher. -/
theorem scanStep_launcher {launcher : Str} (harg : argAt nargv s.i = some launcher)
    (hdash : launcher.head? ≠ some '-') (hpath : h.stat launcher = true) :
    scanStep h.toEngineEnv nargv s = .ok { s with
      i := s.i + 1
      debugtarget := some launcher
      opt := { s.opt with debugtarget := launcher } } := by
  have htarget : scanArg h.toEngineEnv nargv s launcher = .ok { s with
      debugtarget := some launcher, opt := { s.opt with debugtarget := launcher } } := by
    rw [scanArg, if_neg hdash, scanTarget, checkInPath_self hpath]
    rfl
  rw [scanStep_eq harg, htarget]
  rfl

/-- `-a` behind a launcher ends the scan; the rest is the launcher's. -/
theorem scanStep_a {launcher : Str} (harg : argAt nargv s.i = some "-a".toList)
    (htarget : s.debugtarget = some launcher) :
    scanStep h.toEngineEnv nargv s = .ok { s with
      i := s.i + 1
      opt := { s.opt with remaining := some (launcher :: nargv.drop (s.i.toNat + 1)) }
      finParsing := true } := by
  have hswitch : scanSwitch h.toEngineEnv nargv s 'a' = .ok { s with
      opt := { s.opt with remaining := some (launcher :: nargv.drop (s.i.toNat + 1)) }
      finParsing := true } := by
    unfold scanSwitch
    rw [htarget]
    rfl
  exact scanStep_option harg rfl rfl hswitch

end

end LaunchMON.Engine
