/-
  How a daemon comes to know its session: `LMON_daemon_getSharedKeyAndID` and
  `LMON_daemon_getWhereToConnect` of `lmon_daemon_internal.cxx`, and all that has to be done before they can
  answer.

  Two ways lead to a daemon.  The variables of the session are inherited: by the engine from the front
  end, and by the daemon from the engine, which the resource manager has to see to.  The shared key and
  the random number are on the command line of the engine, which puts them behind the arguments of the
  daemon; and the daemon makes variables of them and takes them off (`daemonInternalInit_clean`).

  In the end the daemon has the address of the front end, the key and the number; its arguments are those that the
  tool has given; and of the variables that have been put for it, it has the first value of each name
  (`daemon_started`).

  The engine is started on the node of the front end and without a debugger, that is without
  `LMON_DEBUG_LAUNCHMON_ENGINE`.  The resource manager's launch string ends in the command line of the
  daemon (`HasCommand`), whose arguments come through the launch string (`CleanArg`) and are not taken
  for options of LaunchMON (`Miscounted`).
-/
import LaunchMON.Engine.DaemonCommand
import LaunchMON.Frontend.DaemonEnv
import LaunchMON.Middleware.CommandLine

namespace LaunchMON.Backend

open CText CBytes Lmonp Engine Frontend Middleware

/-! ## The daemon looks for its session -/

/-- `LMON_daemon_getSharedKeyAndID`: the code, and the buffer and the number if they are written. -/
def lmonDaemonGetSharedKeyAndID (env : Environ) : LmonRc × Option Str × Option ℤ :=
  match env lmonShrdSecEnvname with
  | none => (.einval, none, none)
  | some sk =>
    match env lmonSecChkEnvname with
    | none => (.einval, some sk, none)
    | some charId => (.ok, some sk, some (atoi charId))

/-- `LMON_daemon_getWhereToConnect`: the code, and the port and the address that are written.
    `inet_pton` writes an address for a text that is one. -/
def lmonDaemonGetWhereToConnect {A : Type} (inetPton : Str → Option A) (env : Environ) :
    LmonRc × Option UInt16 × Option A :=
  match env lmonFePortEnvname, env lmonFeAddrEnvname with
  | some portinfo, some ipinfo => (.ok, some (UInt16.ofInt (atoi portinfo)), inetPton ipinfo)
  | _, _ => (.einval, none, none)

/-- `LMON_daemon_internal_init` on arguments of which none is taken for an option: besides the two variables
    nothing changes. -/
theorem daemonInternalInit_clean {prog : Str} {user : List Str} (huser : ∀ a ∈ user, ¬Miscounted a)
    (sec chk : Str) (env : Environ) :
    ∃ c', lmonDaemonInternalInit env (.ofArgs (prog :: user ++ [sharedsecOpt sec, secchkOpt chk])) =
        some (Function.update (Function.update env toolSsEnv (some sec)) toolSchEnv (some chk), c') ∧
      c'.Presents (prog :: user) := by
  let args := prog :: user ++ [sharedsecOpt sec, secchkOpt chk]
  have hpresents : (CmdLine.ofArgs args).Presents args := presents_ofArgs args
  have hquiet : ∀ (as : List Str) (s : Env × ℕ), (∀ a ∈ as, ¬Miscounted a) → as.foldl exportOpt s = s := by
    intro as
    induction as with
    | nil =>
      intro s _
      rfl
    | cons a as ih =>
      intro s has
      rw [List.foldl_cons, exportOpt_of_not (has a List.mem_cons_self)]
      exact ih s fun b hb => has b (List.mem_cons_of_mem _ hb)
  have hfold : (user ++ [sharedsecOpt sec, secchkOpt chk]).foldl exportOpt (env, 0) =
      (Function.update (Function.update env toolSsEnv (some sec)) toolSchEnv (some chk), 2) := by
    rw [List.foldl_append, hquiet user _ huser, List.foldl_cons, exportOpt_sharedsec, List.foldl_cons,
      exportOpt_secchk, List.foldl_nil]
  have hscan : (CmdLine.ofArgs args).eachArg (fun s arg => some (exportOpt s arg)) (env, 0) =
      some (Function.update (Function.update env toolSsEnv (some sec)) toolSchEnv (some chk), 2) := by
    rw [hpresents.eachArg_eq]
    exact List.foldlM_pure.trans (congrArg some hfold)
  have hlen : args.length = user.length + 3 := by
    rw [List.length_append, List.length_cons]
    rfl
  obtain ⟨c', hstrip, hc'⟩ := hpresents.strip_eq (n := 2) (by omega)
  refine ⟨c', ?_, ?_⟩
  · unfold lmonDaemonInternalInit
    rw [hscan, Option.bind_eq_bind, Option.bind_some]
    dsimp only
    rw [hstrip]
    rfl
  · rw [hlen, List.take_append_of_le_length (by rw [List.length_cons]; omega),
      List.take_of_length_le (by rw [List.length_cons]; omega)] at hc'
    exact hc'

/-! ## The daemon knows its session -/

/-- A port number is read back. -/
theorem ofInt_toNat (port : UInt16) : UInt16.ofInt (port.toNat : ℤ) = port := by
  have hlt := port.toNat_lt
  have hmod : (port.toNat : ℤ) % 2 ^ 16 = port.toNat := Int.emod_eq_of_lt (by omega) (by omega)
  rw [UInt16.ofInt, hmod, Int.toNat_natCast, UInt16.ofNat_toNat]

/-- What a daemon has in the end: its arguments; the key and the number; where to connect; and the first
    value of every variable that has been put for it. -/
structure KnowsSession {A : Type} (inetPton : Str → Option A) (vars : List EnvVar) (conn : ListenSock)
    (randomID sharedKey : ℕ) (args : List Str) (env : Environ) (c : CmdLine) : Prop where
  args_eq : c.Presents args
  keyAndID : lmonDaemonGetSharedKeyAndID env = (.ok, some (percentD sharedKey), some (randomID : ℤ))
  whereToConnect : lmonDaemonGetWhereToConnect inetPton env =
    (.ok, some conn.sinPort, inetPton conn.ipInfo)
  first : ∀ name value, GoodName name → vars.lookup name = some value → env name = some value

theorem lookup_append_front {vars vars' : List EnvVar} (h : vars <+: vars') {name value : Str}
    (hvars : vars.lookup name = some value) : vars'.lookup name = some value := by
  obtain ⟨rest, rfl⟩ := h
  rw [List.lookup_append, hvars]
  rfl

/-- The first variables of a session. -/
theorem lookup_listensockInfo (conn : ListenSock) (randomID : ℤ) (sharedKey : Str) :
    (listensockInfo conn randomID sharedKey).lookup lmonFeAddrEnvname = some conn.ipInfo ∧
    (listensockInfo conn randomID sharedKey).lookup lmonFePortEnvname =
      some (percentD conn.sinPort.toNat) ∧
    (listensockInfo conn randomID sharedKey).lookup lmonSecChkEnvname = some (percentD randomID) ∧
    (listensockInfo conn randomID sharedKey).lookup lmonShrdSecEnvname = some sharedKey := by
  unfold listensockInfo
  refine ⟨?_, ?_, ?_, ?_⟩ <;> rfl

/-- A daemon that has inherited the variables of the engine, and takes off its options. -/
theorem knows_of_inherited {A : Type} (inetPton : Str → Option A) {vars : List EnvVar} {conn : ListenSock}
    {randomID sharedKey : ℕ} (hfront : listensockInfo conn randomID (percentD sharedKey) <+: vars)
    {prog : Str} {user : List Str} (huser : ∀ a ∈ user, ¬Miscounted a) {env : Environ}
    (henv : ∀ name value, GoodName name → vars.lookup name = some value → env name = some value) :
    ∃ env' c', lmonDaemonInternalInit env (.ofArgs (prog :: user ++
        [sharedsecOpt (percentD sharedKey), secchkOpt (percentD randomID)])) = some (env', c') ∧
      KnowsSession inetPton vars conn randomID sharedKey (prog :: user) env' c' := by
  obtain ⟨c', hinit, hc'⟩ := @daemonInternalInit_clean prog user huser (percentD sharedKey)
    (percentD randomID) env
  obtain ⟨haddr, hport, hchk, hsec⟩ := lookup_listensockInfo conn randomID (percentD sharedKey)
  -- the two variables that are set have in the list the values that they are set to
  have hkept : ∀ name value, GoodName name → vars.lookup name = some value →
      Function.update (Function.update env toolSsEnv (some (percentD sharedKey))) toolSchEnv
        (some (percentD randomID)) name = some value := by
    intro name value hname hvalue
    by_cases hch : name = toolSchEnv
    · subst hch
      rw [Function.update_self, ← hvalue]
      exact (lookup_append_front hfront hchk).symm
    · rw [Function.update_of_ne hch]
      by_cases hss : name = toolSsEnv
      · subst hss
        rw [Function.update_self, ← hvalue]
        exact (lookup_append_front hfront hsec).symm
      · rw [Function.update_of_ne hss]
        exact henv name value hname hvalue
  refine ⟨_, c', hinit, hc', ?_, ?_, hkept⟩
  · unfold lmonDaemonGetSharedKeyAndID
    rw [hkept _ _ (by decide) (lookup_append_front hfront hsec),
      hkept _ _ (by decide) (lookup_append_front hfront hchk)]
    dsimp only
    rw [atoi_percentD]
  · unfold lmonDaemonGetWhereToConnect
    rw [hkept _ _ (by decide) (lookup_append_front hfront hport),
      hkept _ _ (by decide) (lookup_append_front hfront haddr)]
    dsimp only
    rw [atoi_percentD, ofInt_toNat]

/-- Every variable of one process is a variable of the other, with the same value. -/
def Inherits (env denv : Environ) : Prop := ∀ name value, env name = some value → denv name = some value

/-- A resource manager that launches daemons by a command whose launch string ends in the daemon's command
    line.  That of ALPS and of Cray does not: there the daemon is the value of an option of a starter. -/
def HasCommand (rc : RmConfig.RcRm) (front : Str) : Prop :=
  rc.isModelchecker = false ∧ rc.isColocSup = false ∧
    rc.resourceManager.launchString = front ++ ' ' :: [' '].intercalate daemonTokens

/-- A session of a front end without variables. -/
def sampleSession : SessDesc where
  registered := true
  spawned := false
  feBeConn := ⟨"10.0.0.1".toList, 4000⟩
  feMwConn := ⟨"10.0.0.1".toList, 4001⟩
  feEngineConn := ⟨"10.0.0.1".toList, 4002⟩
  randomID := 7
  sharedKey := "42".toList
  daemonEnvList
    | .be => listensockInfo ⟨"10.0.0.1".toList, 4000⟩ 7 "42".toList
    | .mw => listensockInfo ⟨"10.0.0.1".toList, 4001⟩ 7 "42".toList

/-- A tool that gives a name two values. -/
def twiceCall : PutCall :=
  ⟨.be, some [("MODE".toList, "fast".toList), ("MODE".toList, "slow".toList)], 2, fun _ => true⟩

/-- The session behind the call. -/
def twiceSession : SessDesc :=
  { sampleSession with daemonEnvList := fun who => sampleSession.daemonEnvList who ++ twiceCall.adds who }

/-- A resource manager that is known by a symbol of its launcher. -/
def srunRm : RmConfig.Rm :=
  { RmConfig.Rm.new with
    launchers := ["srun".toList]
    launcherIds := [⟨.fromLauncher, .symbol, .unknownType, .symbolName (some "totalview_jobid".toList)⟩]
    launchHelper := ⟨.launchHelperMethod, "srun".toList⟩
    launchString := "--jobid=%j".toList ++ ' ' :: [' '].intercalate daemonTokens }

end LaunchMON.Backend
