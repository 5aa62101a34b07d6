/-
  The variables of the daemons at the front end: `LMON_fe_createSession`, `LMON_fe_putToBeDaemonEnv` and
  its sibling for the middleware, and how the engine inherits them (`LMON_set_options` and
  `bld_exec_lmon_launch_str` of `lmon_fe.cxx`).

  A session has a list of variables for the back end.  It begins with those that a daemon needs to find
  its session, and each call puts its own behind them (`puts_daemonEnvList`).  For the engine the list
  becomes a map, in which the first value of a name stays.  So a tool cannot displace the address, the
  key or the number of its session, and of two values that it gives to a name the second is lost
  (`engine_environ`).
-/
import LaunchMON.Lib.Environ
import LaunchMON.Lmonp.Msg
import LaunchMON.Frontend.EngineArgs

namespace LaunchMON.Frontend

open CText Engine Lmonp Std

/-! ## The variables of a session -/

/-- `LMON_FE_ADDR_ENVNAME`. -/
def lmonFeAddrEnvname : Str := "LMON_FE_WHERETOCONNECT_ADDR".toList

/-- `LMON_FE_PORT_ENVNAME`. -/
def lmonFePortEnvname : Str := "LMON_FE_WHERETOCONNECT_PORT".toList

/-- `LMON_SEC_CHK_ENVNAME`. -/
def lmonSecChkEnvname : Str := "LMON_SEC_CHK".toList

/-- `LMON_SHRD_SEC_ENVNAME`. -/
def lmonShrdSecEnvname : Str := "LMON_SHARED_SECRET".toList

/-- The loop of `LMON_fe_putToDaemonEnv` from element `i` on, for `left` elements: the code, and the list
    behind `*sessEnv`.  `malloc i` tells whether there is memory for the node of element `i`; `none` if the
    loop reads behind the array. -/
def putLoop (malloc : ℕ → Bool) (dmonEnv : List EnvVar) :
    ℕ → ℕ → List EnvVar → Option (LmonRc × List EnvVar)
  | 0, _, sessEnv => some (.ok, sessEnv)
  | left + 1, i, sessEnv =>
    if malloc i = false then some (.enomem, sessEnv)
    else do
      let var ← dmonEnv[i]?
      putLoop malloc dmonEnv left (i + 1) (sessEnv ++ [var])

/-- `LMON_fe_putToDaemonEnv`; `dmonEnv` is `none` for a null pointer. -/
def lmonFePutToDaemonEnv (malloc : ℕ → Bool) (sessEnv : List EnvVar) (dmonEnv : Option (List EnvVar))
    (numElem : ℤ) : Option (LmonRc × List EnvVar) :=
  match dmonEnv with
  | none => some (.einval, sessEnv)
  | some dmonEnv =>
    if numElem ≤ 0 then some (.einval, sessEnv)
    else putLoop malloc dmonEnv numElem.toNat 0 sessEnv

/-- The two lists of a descriptor: for the back end, and for the middleware. -/
inductive ForWhom
  | be | mw
  deriving DecidableEq

/-- A listening socket of a session: `ipInfo`, and the port in the order of the host. -/
structure ListenSock where
  ipInfo : Str
  sinPort : UInt16

/-- A session descriptor, as far as daemons get to know of it. -/
structure SessDesc where
  registered : Bool
  spawned : Bool
  feBeConn : ListenSock
  feMwConn : ListenSock
  feEngineConn : ListenSock
  randomID : ℤ
  sharedKey : Str
  daemonEnvList : ForWhom → List EnvVar

/-- `fe_listensock_info_secchk`. -/
def listensockInfo (conn : ListenSock) (randomID : ℤ) (sharedKey : Str) : List EnvVar :=
  [(lmonFeAddrEnvname, conn.ipInfo), (lmonFePortEnvname, percentD conn.sinPort.toNat),
    (lmonSecChkEnvname, percentD randomID), (lmonShrdSecEnvname, sharedKey)]

/-- The variables of `LMON_fe_createSession` for daemons that are to be debugged; `none` if it hands a null
    pointer to `strdup`. -/
def debugBes (fenv : Environ) : Option (List EnvVar) :=
  if (fenv "LMON_DEBUG_BES".toList).isSome then
    (fenv "DISPLAY".toList).map fun display =>
      [("LMON_DEBUG_BES".toList, "yes".toList), ("DISPLAY".toList, display)]
  else some []

/-- `LMON_fe_createSession` for a free descriptor with its sockets, with two numbers of `rand` and the
    variables of the front end.  With `LMON_DEBUG_MWS` it writes two variables to an array of one. -/
def lmonFeCreateSession (fenv : Environ) (feBeConn feMwConn feEngineConn : ListenSock)
    (randomID sharedKey : ℕ) : Option SessDesc := do
  let de ← debugBes fenv
  if (fenv "LMON_DEBUG_MWS".toList).isSome then none
  else some {
    registered := true
    spawned := false
    feBeConn := feBeConn
    feMwConn := feMwConn
    feEngineConn := feEngineConn
    randomID := randomID
    sharedKey := percentD sharedKey
    daemonEnvList := fun
      | .be => listensockInfo feBeConn randomID (percentD sharedKey) ++ de
      | .mw => listensockInfo feMwConn randomID (percentD sharedKey) }

/-- `LMON_fe_putToBeDaemonEnv` and `LMON_fe_putToMwDaemonEnv`. -/
def SessDesc.putToDaemonEnv (mydesc : SessDesc) (who : ForWhom) (malloc : ℕ → Bool)
    (dmonEnv : Option (List EnvVar)) (numElem : ℤ) : Option (LmonRc × SessDesc) :=
  if mydesc.registered = false then some (.ebdarg, mydesc)
  else if mydesc.spawned = false then do
    let (rc, list) ← lmonFePutToDaemonEnv malloc (mydesc.daemonEnvList who) dmonEnv numElem
    return (rc, { mydesc with daemonEnvList := Function.update mydesc.daemonEnvList who list })
  else some (.einval, mydesc)

/-- `LMON_fe_putToBeDaemonEnv`. -/
def lmonFePutToBeDaemonEnv (mydesc : SessDesc) := mydesc.putToDaemonEnv .be

/-- `LMON_fe_putToMwDaemonEnv`. -/
def lmonFePutToMwDaemonEnv (mydesc : SessDesc) := mydesc.putToDaemonEnv .mw

/-- A call of one of the two. -/
structure PutCall where
  who : ForWhom
  dmonEnv : Option (List EnvVar)
  numElem : ℤ
  malloc : ℕ → Bool

def PutCall.run (c : PutCall) (mydesc : SessDesc) : Option (LmonRc × SessDesc) :=
  match c.who with
  | .be => lmonFePutToBeDaemonEnv mydesc c.malloc c.dmonEnv c.numElem
  | .mw => lmonFePutToMwDaemonEnv mydesc c.malloc c.dmonEnv c.numElem

/-- Calls, one after the other. -/
def SessDesc.puts (mydesc : SessDesc) (calls : List PutCall) : Option SessDesc :=
  calls.foldlM (fun mydesc c => do
    let (_, mydesc) ← c.run mydesc
    return mydesc) mydesc

/-! ## The engine is started -/

/-- What `LMON_set_options` needs of a descriptor for its vector. -/
def SessDesc.endpoint (mydesc : SessDesc) : Endpoint :=
  ⟨mydesc.feEngineConn.ipInfo, mydesc.feEngineConn.sinPort, mydesc.sharedKey, mydesc.randomID⟩

/-- `optcontext->envMap` of `LMON_set_options`. -/
def SessDesc.envMap (mydesc : SessDesc) : ExtTreeMap Str Str := firsts (mydesc.daemonEnvList .be)

/-- `bld_exec_lmon_launch_str` on the front end's node, with the tokens of TVCMD: the variables and the
    vector of the engine. -/
def bldExecLocal (tvcmd : List Str) (fenv : Environ) (envMap : ExtTreeMap Str Str)
    (lmonOptArgs : List Str) : Environ × List Str :=
  let env := exported envMap fenv
  let debug := (env "LMON_DEBUG_LAUNCHMON_ENGINE".toList).isSome
  let lmonpath := (env "LMON_LAUNCHMON_ENGINE_PATH".toList).getD "launchmon".toList
  (env, (if debug then tvcmd else []) ++ [lmonpath] ++ (if debug then ["-a".toList] else []) ++ lmonOptArgs)

/-- The engine as `LMON_fe_launchAndSpawnDaemons` and `LMON_fe_attachAndSpawnDaemons` start it. -/
def SessDesc.startEngine (mydesc : SessDesc) (tvcmd : List Str) (fenv : Environ) (verbose : ℤ) (job : Job)
    (toolDaemon : Str) (daemonArgopts : Option (List Str)) : Option (Environ × List Str) := do
  let args ← lmonOptArgs job (lmonSetOptions mydesc.endpoint verbose job toolDaemon daemonArgopts)
  return bldExecLocal tvcmd fenv mydesc.envMap args

/-! ## What the list has -/

/-- The variables that find memory, up to the first that does not. -/
def stored (malloc : ℕ → Bool) : ℕ → List EnvVar → List EnvVar
  | _, [] => []
  | i, var :: vars => if malloc i = false then [] else var :: stored malloc (i + 1) vars

theorem putLoop_eq {malloc : ℕ → Bool} {dmonEnv : List EnvVar} (left : ℕ) :
    ∀ {i : ℕ} {sessEnv : List EnvVar} {rc : LmonRc} {list : List EnvVar},
      putLoop malloc dmonEnv left i sessEnv = some (rc, list) →
      list = sessEnv ++ stored malloc i ((dmonEnv.drop i).take left) := by
  induction left with
  | zero =>
    intro i sessEnv rc list h
    rw [List.take_zero, stored, List.append_nil]
    exact (Prod.mk.inj (Option.some.inj h)).2.symm
  | succ left ih =>
    intro i sessEnv rc list h
    rw [putLoop] at h
    split at h
    · next hm =>
      obtain ⟨-, rfl⟩ := Prod.mk.inj (Option.some.inj h)
      cases (dmonEnv.drop i).take (left + 1) with
      | nil => exact (List.append_nil _).symm
      | cons var vars => rw [stored, if_pos hm, List.append_nil]
    · next hm =>
      obtain ⟨var, hvar, h⟩ := Option.bind_eq_some_iff.mp h
      obtain ⟨hi, rfl⟩ := List.getElem?_eq_some_iff.mp hvar
      rw [ih h, List.drop_eq_getElem_cons hi, List.take_succ_cons, stored, if_neg hm, List.append_assoc]
      rfl

/-- What a call adds to a list. -/
def PutCall.adds (c : PutCall) (who : ForWhom) : List EnvVar :=
  if c.who = who then c.dmonEnv.elim [] fun vars => stored c.malloc 0 (vars.take c.numElem.toNat) else []

theorem PutCall.run_eq (c : PutCall) (mydesc : SessDesc) :
    c.run mydesc = mydesc.putToDaemonEnv c.who c.malloc c.dmonEnv c.numElem := by
  unfold PutCall.run
  cases c.who <;> rfl

/-- The descriptor of a session in which nothing has been launched. -/
def SessDesc.Open (mydesc : SessDesc) : Prop := mydesc.registered = true ∧ mydesc.spawned = false

theorem lmonFePutToDaemonEnv_eq {malloc : ℕ → Bool} {sessEnv list : List EnvVar}
    {dmonEnv : Option (List EnvVar)} {numElem : ℤ} {rc : LmonRc}
    (h : lmonFePutToDaemonEnv malloc sessEnv dmonEnv numElem = some (rc, list)) :
    list = sessEnv ++ dmonEnv.elim [] fun vars => stored malloc 0 (vars.take numElem.toNat) := by
  cases dmonEnv with
  | none =>
    obtain ⟨-, rfl⟩ := Prod.mk.inj (Option.some.inj h)
    exact (List.append_nil _).symm
  | some vars =>
    rw [lmonFePutToDaemonEnv] at h
    split at h
    · next hnum =>
      obtain ⟨-, rfl⟩ := Prod.mk.inj (Option.some.inj h)
      rw [Option.elim_some, Int.toNat_of_nonpos hnum]
      exact (List.append_nil _).symm
    · exact putLoop_eq _ h

/-- A call adds its variables to its list, and nothing else changes. -/
theorem PutCall.run_spec {c : PutCall} {mydesc mydesc' : SessDesc} {rc : LmonRc} (hopen : mydesc.Open)
    (h : c.run mydesc = some (rc, mydesc')) :
    mydesc' = { mydesc with daemonEnvList := fun who => mydesc.daemonEnvList who ++ c.adds who } := by
  rw [PutCall.run_eq, SessDesc.putToDaemonEnv, if_neg (by rw [hopen.1]; decide), if_pos hopen.2] at h
  obtain ⟨⟨rc', list⟩, hlist, h⟩ := Option.bind_eq_some_iff.mp h
  obtain ⟨-, rfl⟩ := Prod.mk.inj (Option.some.inj h)
  have hlists : Function.update mydesc.daemonEnvList c.who list =
      fun who => mydesc.daemonEnvList who ++ c.adds who := by
    funext who
    unfold PutCall.adds
    by_cases hwho : c.who = who
    · subst hwho
      rw [Function.update_self, if_pos rfl]
      exact lmonFePutToDaemonEnv_eq hlist
    · rw [Function.update_of_ne (Ne.symm hwho), if_neg hwho, List.append_nil]
  rw [hlists]

/-- **The lists after any calls**: what each call adds, behind what has been there. -/
theorem puts_daemonEnvList (calls : List PutCall) : ∀ {mydesc mydesc' : SessDesc}, mydesc.Open →
    mydesc.puts calls = some mydesc' → mydesc' =
      { mydesc with daemonEnvList := fun who => mydesc.daemonEnvList who ++ calls.flatMap (·.adds who) } := by
  induction calls with
  | nil =>
    intro mydesc mydesc' _ h
    cases h
    simp only [List.flatMap_nil, List.append_nil]
  | cons c calls ih =>
    intro mydesc mydesc' hopen h
    rw [SessDesc.puts, List.foldlM_cons] at h
    obtain ⟨desc₁, hcall, h⟩ := Option.bind_eq_some_iff.mp h
    obtain ⟨⟨rc, desc₂⟩, hrun, hpure⟩ := Option.bind_eq_some_iff.mp hcall
    cases hpure
    obtain rfl := PutCall.run_spec hopen hrun
    have hrest := @ih { mydesc with
      daemonEnvList := fun who => mydesc.daemonEnvList who ++ c.adds who } mydesc' hopen h
    rw [hrest]
    simp only [List.flatMap_cons, List.append_assoc]

/-- A new session is open, and its variables stand first in the list of the back end. -/
theorem lmonFeCreateSession_spec {fenv : Environ} {feBeConn feMwConn feEngineConn : ListenSock}
    {randomID sharedKey : ℕ} {mydesc : SessDesc}
    (h : lmonFeCreateSession fenv feBeConn feMwConn feEngineConn randomID sharedKey = some mydesc) :
    mydesc.Open ∧ mydesc.feEngineConn = feEngineConn ∧ mydesc.randomID = randomID ∧
      mydesc.sharedKey = percentD sharedKey ∧
      listensockInfo feBeConn randomID (percentD sharedKey) <+: mydesc.daemonEnvList .be := by
  obtain ⟨de, -, h⟩ := Option.bind_eq_some_iff.mp h
  split at h
  · cases h
  · cases h
    exact ⟨⟨rfl, rfl⟩, rfl, rfl, rfl, List.prefix_append _ _⟩

/-! ## What the engine has -/

/-- **The variables of the engine**: the first value of each name in the list of the back end, and for
    other names what the front end has. -/
theorem engine_environ (mydesc : SessDesc) (fenv : Environ) {name : Str} (hname : GoodName name) :
    exported mydesc.envMap fenv name = ((mydesc.daemonEnvList .be).lookup name).or (fenv name) := by
  rw [exported_apply _ _ hname, SessDesc.envMap, getElem?_firsts]

/-- The vector of the engine, when it is not debugged. -/
theorem bldExecLocal_eq {tvcmd : List Str} {fenv : Environ} {envMap : ExtTreeMap Str Str} {args : List Str}
    (hdebug : exported envMap fenv "LMON_DEBUG_LAUNCHMON_ENGINE".toList = none) :
    bldExecLocal tvcmd fenv envMap args = (exported envMap fenv, bldExecLmonLaunchStr
      ((exported envMap fenv "LMON_LAUNCHMON_ENGINE_PATH".toList).getD "launchmon".toList) args) := by
  unfold bldExecLocal
  dsimp only
  rw [hdebug]
  rfl

section

variable {h : Host} {mydesc : Endpoint} {verbose : ℤ} {toolDaemon : Str} {daemonArgopts : Option (List Str)}

/-- The part of the vector that is about the job, and what the engine makes of it. -/
theorem lmonOptArgs_scan {job : Job} (hjob : job.Exists h) (lmonpath : Str) :
    let opt := lmonSetOptions mydesc verbose job toolDaemon daemonArgopts
    ∃ rest exe i t fin, lmonOptArgs job opt = some (frontArgs opt ++ daemonArgs opt ++ rest) ∧
      2 ≤ rest.length ∧ ∀ fuel, scanLoop h.toEngineEnv (beforeJob lmonpath opt ++ rest) (fuel + 3)
        (scanning (beforeJob lmonpath opt).length (daemonOpts opt)) =
          some (.ok ⟨i, jobOpts (daemonOpts opt) exe job, t, fin, true, false⟩) := by
  intro opt
  cases job with
  | launch launcher argv0 as =>
    obtain ⟨hpath, hdash⟩ := hjob
    have hlen : 2 ≤ (launcher :: "-a".toList :: as).length := by
      rw [List.length_cons, List.length_cons]
      omega
    refine ⟨launcher :: "-a".toList :: as, [], _, _, _, ?_, hlen,
      scan_launch (beforeJob lmonpath opt) (daemonOpts opt) as hpath hdash⟩
    show some (frontArgs opt ++ daemonArgs opt ++ [launcher, "-a".toList] ++ as) = _
    rw [List.append_assoc _ [launcher, "-a".toList]]
    rfl
  | attach pid =>
    obtain ⟨exe, hexe⟩ := Option.isSome_iff_exists.mp hjob
    obtain ⟨hpos, hle⟩ := h.pid_range pid exe hexe
    have hpid : opt.launcherPid = pid := if_pos hpos
    refine ⟨["--pid".toList, percentD pid], exe, _, _, _, ?_, le_rfl,
      fun fuel => scan_attach (beforeJob lmonpath opt) (daemonOpts opt) hexe (fuel + 1)⟩
    show attachArgs opt = _
    unfold attachArgs
    rw [hpid]
    exact if_pos (length_percentD hpos hle)

/-- **The engine is told**: it finds no error but a missing configuration, and it has the daemon, its
    arguments, and the key and the number. -/
theorem startEngine_told {desc : SessDesc} {tvcmd : List Str} {fenv : Environ} {job : Job}
    (hdebug : exported desc.envMap fenv "LMON_DEBUG_LAUNCHMON_ENGINE".toList = none)
    (hdaemon : h.stat toolDaemon = true) (hjob : job.Exists h) :
    ∃ argv, desc.startEngine tvcmd fenv verbose job toolDaemon daemonArgopts =
        some (exported desc.envMap fenv, argv) ∧
      ∃ o, (∀ fuel, argv.length ≤ fuel → processArgs h fuel argv = some ⟨h.rmMap, o, !h.rmMap⟩) ∧
        o.toolDaemon = toolDaemon ∧ o.toolDaemonOpts = daemonArgopts.getD [] ∧
        o.lmonSecInfo = desc.sharedKey ++ [':'] ++ percentD desc.randomID := by
  let opt := lmonSetOptions desc.endpoint verbose job toolDaemon daemonArgopts
  obtain ⟨lmonpath, hexec⟩ : ∃ lmonpath, ∀ args, bldExecLocal tvcmd fenv desc.envMap args =
      (exported desc.envMap fenv, bldExecLmonLaunchStr lmonpath args) :=
    ⟨_, fun args => bldExecLocal_eq hdebug⟩
  obtain ⟨rest, exe, i, t, fin, hargs, hlen, hscan⟩ := lmonOptArgs_scan hjob lmonpath
  refine ⟨lmonpath :: (frontArgs opt ++ daemonArgs opt ++ rest), ?_, ?_⟩
  · unfold SessDesc.startEngine
    rw [hargs]
    exact congrArg some (hexec _)
  · have ho : (jobOpts (daemonOpts opt) exe job).remote = true ∧
        (jobOpts (daemonOpts opt) exe job).verbose = 0 := by
      cases job <;> exact ⟨rfl, rfl⟩
    refine ⟨jobOpts (daemonOpts opt) exe job, fun fuel hfuel => ?_, ?_, ?_, ?_⟩
    · exact @processArgs_eq h opt lmonpath _ _ _ _ _ hdaemon hscan ho hlen fuel hfuel
    all_goals cases job <;> rfl

end

end LaunchMON.Frontend
