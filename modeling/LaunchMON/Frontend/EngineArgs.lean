/-
  How the front end calls the engine on its own node: `LMON_set_options`, the two places of `lmon_fe.cxx`
  that fill `lmonOptArgs`, and the local half of `bld_exec_lmon_launch_str`.

  The vector has three parts.  Three options with one argument each; the options of the daemon behind
  their number, if there are any; and for a launch the launcher, `-a` and its arguments, for an attach
  the process id.  The scan of the engine is followed through them (`scan_front`, `scan_opts`,
  `scan_job`).  What a user's string looks like does not matter anywhere: all of them stand where the
  scan takes an argument, is counting, or has ended.
-/
import LaunchMON.Engine.Options

namespace LaunchMON.Frontend

open CText Engine

/-! ## The vector -/

/-- What the options need of a session: its address and port, the shared key and the random number. -/
structure Endpoint where
  ipInfo : Str
  sinPort : UInt16
  sharedKey : Str
  randomID : ℤ

/-- What is asked of the engine: to launch a job, with the launcher's vector; or to attach to one. -/
inductive Job
  | launch (launcher argv0 : Str) (args : List Str)
  | attach (launcherPid : ℤ)

/-- `LMON_set_options`; `daemonArgopts` is `none` for a null pointer. -/
def lmonSetOptions (mydesc : Endpoint) (verbose : ℤ) (job : Job) (toolDaemon : Str)
    (daemonArgopts : Option (List Str)) : OptStruct where
  verbose := verbose
  attach := match job with
    | .launch _ _ _ => false
    | .attach _ => true
  remote := true
  toolDaemon := toolDaemon
  debugtarget := match job with
    | .launch launcher _ _ => launcher
    | .attach _ => []
  toolDaemonOpts := daemonArgopts.getD []
  remoteInfo := mydesc.ipInfo ++ [':'] ++ percentD mydesc.sinPort.toNat
  lmonSecInfo := mydesc.sharedKey ++ [':'] ++ percentD mydesc.randomID
  launcherPid := match job with
    | .launch _ _ _ => -1
    | .attach launcherPid => if 0 < launcherPid then launcherPid else -1
  remaining := match job with
    | .launch _ argv0 args => some (argv0 :: args)
    | .attach _ => none

/-- `lmonOptArgs`: the options with one argument. -/
def frontArgs (opt : OptStruct) : List Str :=
  ["--remote".toList, opt.remoteInfo, "--lmonsec".toList, opt.lmonSecInfo, "--daemonpath".toList,
    opt.toolDaemon]

/-- `lmonOptArgs`: the options of the daemon. -/
def daemonArgs (opt : OptStruct) : List Str :=
  if opt.toolDaemonOpts = [] then []
  else "--daemonopts".toList :: decimal opt.toolDaemonOpts.length :: opt.toolDaemonOpts

/-- `lmonOptArgs` of `LMON_fe_launchAndSpawnDaemons`; `none` if there is no vector to read. -/
def launchArgs (opt : OptStruct) : Option (List Str) := do
  let remaining ← opt.remaining
  some (frontArgs opt ++ daemonArgs opt ++ [opt.debugtarget, "-a".toList] ++ remaining.drop 1)

/-- `lmonOptArgs` of `LMON_fe_attachAndSpawnDaemons`; `none` if the number overruns `pidstr[10]`. -/
def attachArgs (opt : OptStruct) : Option (List Str) :=
  let pidstr := percentD opt.launcherPid
  if pidstr.length < 10 then some (frontArgs opt ++ daemonArgs opt ++ ["--pid".toList, pidstr]) else none

def lmonOptArgs (job : Job) (opt : OptStruct) : Option (List Str) :=
  match job with
  | .launch _ _ _ => launchArgs opt
  | .attach _ => attachArgs opt

/-- `bld_exec_lmon_launch_str` on the front end's node, without debugging: the vector of the engine. -/
def bldExecLmonLaunchStr (lmonpath : Str) (lmonOptArgs : List Str) : List Str := lmonpath :: lmonOptArgs

/-! ## The scan of the engine -/

section

variable {h : Host} {opt : OptStruct}

/-- The state of the scan in front of argument `i`, with the options in `o`. -/
def scanning (i : ℕ) (o : OptStruct) : Scan := ⟨i, o, none, false, true, false⟩

/-- What the options with one argument set. -/
def frontOpts (opt : OptStruct) : OptStruct :=
  { OptStruct.init with
    remote := true, remoteInfo := opt.remoteInfo, lmonSecInfo := opt.lmonSecInfo
    toolDaemon := opt.toolDaemon }

/-- What is set when the options of the daemon have been counted. -/
def daemonOpts (opt : OptStruct) : OptStruct :=
  { frontOpts opt with toolDaemonOpts := opt.toolDaemonOpts }

/-- The part of the vector in front of the job. -/
def beforeJob (lmonpath : Str) (opt : OptStruct) : List Str :=
  lmonpath :: (frontArgs opt ++ daemonArgs opt)

/-- The options with one argument. -/
theorem scan_front (lmonpath : Str) (rest : List Str) (hdaemon : h.stat opt.toolDaemon = true)
    (fuel : ℕ) :
    scanLoop h.toEngineEnv (lmonpath :: (frontArgs opt ++ rest)) (fuel + 3) (scanning 1 .init) =
      scanLoop h.toEngineEnv (lmonpath :: (frontArgs opt ++ rest)) fuel (scanning 7 (frontOpts opt)) := by
  have hlt : ∀ (i : ℕ) (o : OptStruct), i < 7 →
      (scanning i o).i < (lmonpath :: (frontArgs opt ++ rest)).length := by
    intro i o hi
    have hlen : (lmonpath :: (frontArgs opt ++ rest)).length = rest.length + 7 := by simp [frontArgs]
    rw [hlen]
    show (i : ℤ) < _
    omega
  have hremote : scanStep h.toEngineEnv (lmonpath :: (frontArgs opt ++ rest)) (scanning 1 .init) =
      .ok (scanning 3 { OptStruct.init with remote := true, remoteInfo := opt.remoteInfo }) := rfl
  have hsec : scanStep h.toEngineEnv (lmonpath :: (frontArgs opt ++ rest))
      (scanning 3 { OptStruct.init with remote := true, remoteInfo := opt.remoteInfo }) =
      .ok (scanning 5 { OptStruct.init with
        remote := true, remoteInfo := opt.remoteInfo, lmonSecInfo := opt.lmonSecInfo }) := rfl
  have hpath : scanStep h.toEngineEnv (lmonpath :: (frontArgs opt ++ rest)) (scanning 5 { OptStruct.init with
        remote := true, remoteInfo := opt.remoteInfo, lmonSecInfo := opt.lmonSecInfo }) =
      .ok (scanning 7 (frontOpts opt)) := scanStep_daemonpath rfl rfl hdaemon
  rw [scanLoop_step (hlt 1 _ (by decide)) rfl hremote, scanLoop_step (hlt 3 _ (by decide)) rfl hsec,
    scanLoop_step (hlt 5 _ (by decide)) rfl hpath]

/-- The options of the daemon, which take a turn if there are any. -/
theorem scan_opts (lmonpath : Str) (rest : List Str) : ∃ k ≤ 1, ∀ fuel,
    scanLoop h.toEngineEnv (beforeJob lmonpath opt ++ rest) (fuel + k) (scanning 7 (frontOpts opt)) =
      scanLoop h.toEngineEnv (beforeJob lmonpath opt ++ rest) fuel
        (scanning (beforeJob lmonpath opt).length (daemonOpts opt)) := by
  unfold beforeJob daemonArgs daemonOpts
  split
  · next hnil =>
    refine ⟨0, Nat.zero_le _, fun fuel => ?_⟩
    rw [hnil]
    rfl
  · next hne =>
    refine ⟨1, le_rfl, fun fuel => ?_⟩
    have hstep := @scanStep_daemonopts h ((lmonpath :: (frontArgs opt ++ ("--daemonopts".toList ::
        decimal opt.toolDaemonOpts.length :: opt.toolDaemonOpts))) ++ rest) (scanning 7 (frontOpts opt))
      (lmonpath :: frontArgs opt) opt.toolDaemonOpts rest rfl rfl
    have hlen : (lmonpath :: (frontArgs opt ++ ("--daemonopts".toList ::
        decimal opt.toolDaemonOpts.length :: opt.toolDaemonOpts))).length =
          7 + opt.toolDaemonOpts.length + 1 + 1 := by
      simp [frontArgs]
      omega
    rw [scanLoop_step (by
      rw [List.length_append, hlen]
      show (7 : ℤ) < _
      omega) rfl hstep, hlen]
    rfl

/-- What the engine knows of a job when it has read its part of the vector. -/
def jobOpts (o : OptStruct) (exe : Str) : Job → OptStruct
  | .launch launcher _ args =>
    { o with debugtarget := launcher, remaining := some (launcher :: args) }
  | .attach launcherPid => { o with launcherPid := launcherPid, attach := true, debugtarget := exe }

/-- A launcher, `-a`, and its arguments. -/
theorem scan_launch (front : List Str) (o : OptStruct) {launcher : Str} (args : List Str)
    (hpath : h.stat launcher = true) (hdash : launcher.head? ≠ some '-') (fuel : ℕ) :
    scanLoop h.toEngineEnv (front ++ launcher :: "-a".toList :: args) (fuel + 3) (scanning front.length o) =
      some (.ok ⟨front.length + 2,
        { o with debugtarget := launcher, remaining := some (launcher :: args) }, some launcher, true,
        true, false⟩) := by
  have hlen : (front ++ launcher :: "-a".toList :: args).length = front.length + args.length + 2 := by
    rw [List.length_append, List.length_cons, List.length_cons]
    omega
  have hlauncher : scanStep h.toEngineEnv (front ++ launcher :: "-a".toList :: args)
        (scanning front.length o) =
      .ok ⟨front.length + 1, { o with debugtarget := launcher }, some launcher, false, true, false⟩ :=
    scanStep_launcher (argAt_append front _ 0 (by show (front.length : ℤ) = _; omega)) hdash hpath
  have hrest : (front ++ launcher :: "-a".toList :: args).drop
      (((front.length : ℤ) + 1).toNat + 1) = args := by
    rw [show ((front.length : ℤ) + 1).toNat + 1 = front.length + 2 by omega, ← List.drop_drop,
      List.drop_left' rfl]
    rfl
  have ha := @scanStep_a h (front ++ launcher :: "-a".toList :: args)
    ⟨front.length + 1, { o with debugtarget := launcher }, some launcher, false, true, false⟩ launcher
    (argAt_append front _ 1 (by show (front.length : ℤ) + 1 = _; omega)) rfl
  rw [hrest] at ha
  rw [scanLoop_step (by rw [hlen]; show (front.length : ℤ) < _; omega) rfl hlauncher,
    scanLoop_step (by rw [hlen]; show (front.length : ℤ) + 1 < _; omega) rfl ha, scanLoop_end]
  · rw [show (front.length : ℤ) + 1 + 1 = front.length + 2 by omega]
  · rintro ⟨-, ⟨⟩⟩

/-- `--pid` and its number. -/
theorem scan_attach (front : List Str) (o : OptStruct) {pid : ℤ} {exe : Str}
    (hpid : h.procExe pid = some exe) (fuel : ℕ) :
    scanLoop h.toEngineEnv (front ++ ["--pid".toList, percentD pid]) (fuel + 2) (scanning front.length o) =
      some (.ok ⟨front.length + 2, { o with launcherPid := pid, attach := true, debugtarget := exe }, none,
        false, true, false⟩) := by
  have hlen : (front ++ ["--pid".toList, percentD pid]).length = front.length + 2 := by
    rw [List.length_append]
    rfl
  have hstep : scanStep h.toEngineEnv (front ++ ["--pid".toList, percentD pid]) (scanning front.length o) =
      .ok ⟨front.length + 1 + 1, { o with launcherPid := pid, attach := true, debugtarget := exe }, none,
        false, true, false⟩ :=
    scanStep_pid (argAt_append front _ 0 (by show (front.length : ℤ) = _; omega))
      (argAt_append front _ 1 (by show (front.length : ℤ) + 1 = _; omega)) hpid
  rw [scanLoop_step (by rw [hlen]; show (front.length : ℤ) < _; omega) rfl hstep, scanLoop_end]
  · rw [show (front.length : ℤ) + 1 + 1 = front.length + 2 by omega]
  · rw [hlen]
    rintro ⟨hlt, -⟩
    have hlt : (front.length : ℤ) + 1 + 1 < (front.length + 2 : ℕ) := hlt
    omega

/-- The whole vector. -/
theorem processArgs_eq {lmonpath : Str} {rest : List Str} {o : OptStruct} {i : ℤ} {t : Option Str}
    {fin : Bool} (hdaemon : h.stat opt.toolDaemon = true)
    (hrest : ∀ fuel, scanLoop h.toEngineEnv (beforeJob lmonpath opt ++ rest) (fuel + 3)
      (scanning (beforeJob lmonpath opt).length (daemonOpts opt)) = some (.ok ⟨i, o, t, fin, true, false⟩))
    (ho : o.remote = true ∧ o.verbose = 0) (hlen : 2 ≤ rest.length) {fuel : ℕ}
    (hfuel : (beforeJob lmonpath opt ++ rest).length ≤ fuel) :
    processArgs h fuel (beforeJob lmonpath opt ++ rest) = some ⟨h.rmMap, o, !h.rmMap⟩ := by
  have hlong : 9 ≤ (beforeJob lmonpath opt ++ rest).length := by
    have hfront : (frontArgs opt).length = 6 := rfl
    simp only [beforeJob, List.length_append, List.length_cons, hfront]
    omega
  have hfront : beforeJob lmonpath opt ++ rest = lmonpath :: (frontArgs opt ++ (daemonArgs opt ++ rest)) := by
    rw [beforeJob, List.cons_append, List.append_assoc]
  obtain ⟨k, hk, hopts⟩ := @scan_opts h opt lmonpath rest
  obtain ⟨turns, rfl⟩ : ∃ turns, fuel = turns + 3 + k + 3 := ⟨fuel - 6 - k, by omega⟩
  have hscan : scanLoop h.toEngineEnv (beforeJob lmonpath opt ++ rest) (turns + 3 + k + 3)
        (scanning 1 .init) = some (.ok ⟨i, o, t, fin, true, false⟩) := by
    rw [hfront, scan_front lmonpath _ hdaemon, ← hfront, hopts, hrest]
  have hstart : Scan.start = scanning 1 .init := rfl
  have hwithin : processArgsWithin h.toEngineEnv (turns + 3 + k + 3) (beforeJob lmonpath opt ++ rest) =
      some (Scan.finish h.toEngineEnv ⟨i, o, t, fin, true, false⟩) := by
    rw [processArgsWithin, if_neg (by omega), hstart, hscan]
    rfl
  have hfinish : Scan.finish h.toEngineEnv ⟨i, o, t, fin, true, false⟩ = .ok ⟨h.rmMap, o, !h.rmMap⟩ := by
    rw [Scan.finish]
    cases hmap : h.rmMap with
    | true => exact if_neg fun hand => absurd (hmap.symm.trans hand.2) (by decide)
    | false => exact (if_pos ⟨rfl, hmap⟩).trans (if_pos ho)
  rw [processArgs, hwithin, hfinish]
  rfl

end

/-! ## The round trip -/

/-- What has to be there: the launcher, not to be taken for an option; or the process. -/
def Job.Exists (h : Host) : Job → Prop
  | .launch launcher _ _ => h.stat launcher = true ∧ launcher.head? ≠ some '-'
  | .attach launcherPid => (h.procExe launcherPid).isSome = true

/-- The engine knows the job: the launcher with its arguments, or the process. -/
def Knows (o : OptStruct) : Job → Prop
  | .launch launcher _ args => o.debugtarget = launcher ∧ o.remaining = some (launcher :: args) ∧
    o.attach = false
  | .attach launcherPid => o.launcherPid = launcherPid ∧ o.attach = true

/-- A process id is not longer than its buffer. -/
theorem length_percentD {x : ℤ} (hpos : 0 < x) (hle : x ≤ 4194304) : (percentD x).length < 10 := by
  unfold percentD
  rw [if_neg (by omega), Nat.lt_succ_iff]
  refine (Nat.length_toDigits_le_iff (by decide) (by decide)).mpr ?_
  omega

/-- **Arguments of the engine**: whatever the options of the daemon and the arguments of the launcher
    look like, `process_args` finds no error but a missing configuration of the resource manager, and
    has what the front end has put in. -/
theorem engineArgs_roundTrip (h : Host) (mydesc : Endpoint) (verbose : ℤ) (job : Job)
    (toolDaemon : Str) (daemonArgopts : Option (List Str)) (lmonpath : Str)
    (hdaemon : h.stat toolDaemon = true) (hjob : job.Exists h) :
    ∃ args, lmonOptArgs job (lmonSetOptions mydesc verbose job toolDaemon daemonArgopts) = some args ∧
      ∀ fuel, (bldExecLmonLaunchStr lmonpath args).length ≤ fuel →
        ∃ o, processArgs h fuel (bldExecLmonLaunchStr lmonpath args) = some ⟨h.rmMap, o, !h.rmMap⟩ ∧
          o.remoteInfo = mydesc.ipInfo ++ [':'] ++ percentD mydesc.sinPort.toNat ∧
          o.lmonSecInfo = mydesc.sharedKey ++ [':'] ++ percentD mydesc.randomID ∧
          o.toolDaemon = toolDaemon ∧ o.toolDaemonOpts = daemonArgopts.getD [] ∧ Knows o job := by
  cases job with
  | launch launcher argv0 as =>
    obtain ⟨hpath, hdash⟩ := hjob
    let opt := lmonSetOptions mydesc verbose (.launch launcher argv0 as) toolDaemon daemonArgopts
    have hargs : lmonpath :: (frontArgs opt ++ daemonArgs opt ++ [launcher, "-a".toList] ++ as) =
        beforeJob lmonpath opt ++ launcher :: "-a".toList :: as := by
      rw [beforeJob, List.append_assoc _ [launcher, "-a".toList]]
      rfl
    refine ⟨_, rfl, ?_⟩
    intro fuel hfuel
    show ∃ o, processArgs h fuel (lmonpath :: (frontArgs opt ++ daemonArgs opt ++
      [launcher, "-a".toList] ++ as)) = _ ∧ _
    change (lmonpath :: (frontArgs opt ++ daemonArgs opt ++ [launcher, "-a".toList] ++ as)).length ≤
      fuel at hfuel
    rw [hargs] at hfuel ⊢
    refine ⟨_, @processArgs_eq h opt lmonpath _ _ _ _ _ hdaemon
      (scan_launch (beforeJob lmonpath opt) (daemonOpts opt) as hpath hdash) ⟨rfl, rfl⟩ ?_ fuel hfuel,
      rfl, rfl, rfl, rfl, rfl, rfl, rfl⟩
    rw [List.length_cons, List.length_cons]
    omega
  | attach pid =>
    obtain ⟨exe, hexe⟩ := Option.isSome_iff_exists.mp hjob
    obtain ⟨hpos, hle⟩ := h.pid_range pid exe hexe
    let opt := lmonSetOptions mydesc verbose (.attach pid) toolDaemon daemonArgopts
    have hpid : opt.launcherPid = pid := if_pos hpos
    have hargs : lmonOptArgs (.attach pid) opt =
        some (frontArgs opt ++ daemonArgs opt ++ ["--pid".toList, percentD pid]) := by
      show attachArgs opt = _
      unfold attachArgs
      rw [hpid]
      exact if_pos (length_percentD hpos hle)
    refine ⟨_, hargs, ?_⟩
    intro fuel hfuel
    exact ⟨_, @processArgs_eq h opt lmonpath _ _ _ _ _ hdaemon
      (fun fuel => scan_attach (beforeJob lmonpath opt) (daemonOpts opt) hexe (fuel + 1)) ⟨rfl, rfl⟩
      le_rfl fuel hfuel, rfl, rfl, rfl, rfl, rfl, rfl⟩

/-- A machine with a launcher, a daemon and one process. -/
def oneHost : Host where
  stat path := path = "/bin/srun".toList ∨ path = "/bin/toold".toList
  path := "/bin:/usr/bin".toList
  procExe pid := if pid = 4711 then some "/bin/srun".toList else none
  fopen _ := true
  rmMap := true
  pid_range := by
    intro pid exe h
    split at h
    · omega
    · cases h

/-- Options of the daemon and arguments of the launcher that look like options of the engine. -/
theorem engineArgs_roundTrip_oneHost :
    ∃ args, lmonOptArgs (.launch "/bin/srun".toList "srun".toList ["-a".toList, "--pid".toList, []])
        (lmonSetOptions ⟨"10.0.0.1".toList, 4000, "key".toList, -7⟩ 0
          (.launch "/bin/srun".toList "srun".toList ["-a".toList, "--pid".toList, []])
          "/bin/toold".toList (some ["--remote".toList, [], "-a b".toList])) = some args ∧
      ∀ fuel, (bldExecLmonLaunchStr "launchmon".toList args).length ≤ fuel →
        ∃ o, processArgs oneHost fuel (bldExecLmonLaunchStr "launchmon".toList args) =
            some ⟨oneHost.rmMap, o, !oneHost.rmMap⟩ ∧
          o.remoteInfo = "10.0.0.1".toList ++ [':'] ++ percentD (4000 : UInt16).toNat ∧
          o.lmonSecInfo = "key".toList ++ [':'] ++ percentD (-7) ∧
          o.toolDaemon = "/bin/toold".toList ∧
          o.toolDaemonOpts = (some ["--remote".toList, [], "-a b".toList]).getD [] ∧
          Knows o (.launch "/bin/srun".toList "srun".toList ["-a".toList, "--pid".toList, []]) :=
  engineArgs_roundTrip oneHost _ 0 _ _ _ _ (by decide) ⟨by decide, by decide⟩

end LaunchMON.Frontend
