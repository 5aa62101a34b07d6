/-
  The event handlers of the engine: `sdbg_linux_launchmon.cxx`, and what they use of
  `sdbg_base_launchmon_impl.hxx`.

  A handler runs in the context of the thread whose event it handles.  Nearly every function ends
  with the three `catch` clauses of `catchAll`; a function that is declared to return `bool` and
  returns LAUNCHMON_FAILED there returns `true`.

  Left out are trace output, time stamps, waiting, the environment variables and files for tool
  daemons, and the parameters of the resource manager.
-/
import LaunchMON.Engine.Process

namespace LaunchMON.Engine

open Effect CBytes Lmonp

variable (cfg : Config)

/-- `launchmon_rc_e`. -/
inductive Rc
  | ok
  | bpPrologue
  | stopTrace
  | failed
  | mpirDebugAbort
  | mainprogExited
  deriving DecidableEq, Repr

/-! ## Values in the memory of the launcher -/

/-- A pointer. -/
def wordVA (r : Word) : VA := BitVec.ofNat 64 ((List.ofFn r).foldr (fun b n => b.toNat + 256 * n) 0)

/-- The pointer in front of `bs`. -/
def readPtr (bs : List UInt8) : VA := wordVA fun i => bs.getD i 0

/-- The `int` in front of `bs`. -/
def readInt (bs : List UInt8) : Int32 := ((readLe32 bs).getD 0).toInt32

/-- MAX_STRING_SIZE. -/
def maxStringSize : Nat := 1024

/-- A buffer that has been filled by `tracer_read_string` is used as a C string. -/
def readStringAt (addr : VA) : EngineM CString := do
  let bs ← tracerReadString cfg true addr maxStringSize
  orThrow .crash (readCString bs)

/-- `get_a_symbol` on the image of the launcher, or else on that of its library. -/
def World.getASymbol (w : World) (s : Sym) : Option Symbol :=
  cfg.mainImage s <|> w.proc.rmso.bind fun im => im s

/-- `get_relocated_address`. -/
def World.relocatedAddress (w : World) (s : Sym) : VA :=
  ((w.getASymbol cfg s).map Symbol.relocatedAddress).getD cfg.garbage

/-! ## Messages to the front end -/

/-- `say_fetofe_msg`. -/
def sayFetofeMsg (m : FeToFeMsg) : EngineM Unit :=
  whenever cfg.apiMode (note (.said m))

/-- `ship_proctab_msg`. -/
def shipProctab : EngineM Unit := do
  let w ← get
  (shipProctabMsg cfg.apiMode w.lmon.proctableCopy w.lmon.pcount .proctableAvail).elim (pure ())
    fun s => note (.shippedProctab w.lmon.acquisition w.lmon.proctableCopy w.lmon.pcount s)

/-- `ship_resourcehandle_msg`. -/
def shipResourcehandle : EngineM Unit := do
  let w ← get
  whenever cfg.apiMode (note (.shippedResourcehandle w.lmon.resid))

/-- `ship_rminfo_msg`. -/
def shipRminfo : EngineM Unit :=
  whenever cfg.apiMode (note (.shippedRminfo cfg.pid cfg.rm))

/-- `launch_tool_daemons`. -/
def launchToolDaemons : EngineM Unit := do
  let w ← get
  whenever (!w.lmon.proctableCopy.isEmpty && !cfg.modelchecker && !cfg.colocSup &&
      cfg.hostsFileOk)
    (modifyLmon fun lm => { lm with toollauncherpid := some cfg.toolPid })

/-! ## The process table -/

/-- `sizeof(MPIR_PROCDESC)`. -/
def sizeofProcdesc : Nat := 24

/-- The digits in front of `bs`, as a number. -/
def digits (bs : List UInt8) : Nat :=
  (bs.takeWhile fun b => 48 ≤ b ∧ b ≤ 57).foldl (fun n b => 10 * n + (b.toNat - 48)) 0

/-- LONG_MAX. -/
def longMax : Int := 2 ^ 63 - 1

/-- `strtol` to base 10. -/
def strtol (s : CString) : Int :=
  match s.bytes.dropWhile fun b => b = 32 ∨ 9 ≤ b ∧ b ≤ 13 with
  | 45 :: bs => max (-(digits bs : Int)) (-longMax - 1)
  | 43 :: bs => min (digits bs : Int) longMax
  | bs => min (digits bs : Int) longMax

/-- One entry of the process table, from its bytes in the memory of the launcher. -/
def acquireRow (table : List UInt8) (i : Nat) : EngineM Unit := do
  let entry := table.drop (sizeofProcdesc * i)
  let host ← readStringAt cfg (readPtr entry)
  let exec ← readStringAt cfg (readPtr (entry.drop 8))
  modifyLmon fun lm => { lm with
    proctableCopy := push lm.proctableCopy
      { executableName := exec
        hostName := host
        pid := readInt (entry.drop 16)
        mpirank := Int32.ofNat i
        cnodeid := -1 } }

def setResid (id : Int) : EngineM Bool := do
  modifyLmon fun lm => { lm with resid := id }
  pure true

/-- The resource ID, at the end of `acquire_proctable`. -/
def acquireResid (w : World) : RidSource → EngineM Bool
  | .cstring => do
    let loc ← tracerReadWord cfg true (w.relocatedAddress cfg .jobId)
    let s ← readStringAt cfg (wordVA loc)
    if strtol s < 0 ∨ longMax ≤ strtol s then pure false else setResid (strtol s)
  | .integer32 => do
    let bs ← tracerRead cfg true (w.relocatedAddress cfg .jobId) 4
    setResid ((readLe32 bs).getD 0).toNat
  | .viaPid => setResid cfg.pid
  | .unsupported | .otherType | .nowhere => pure true

/-- The process table proper, of `n` entries.  The size of the array goes through an `int`. -/
def acquireTable (w : World) (n : Nat) : EngineM Bool := do
  let loc ← tracerReadWord cfg true (w.relocatedAddress cfg .proctable)
  whenever (2 ^ 31 ≤ sizeofProcdesc * n) (throw .crash)
  let table ← tracerRead cfg true (wordVA loc) (sizeofProcdesc * n)
  each (List.range n) (acquireRow cfg table)
  let w' ← get
  if w'.lmon.proctableCopy.isEmpty then pure false else acquireResid cfg w cfg.rid

/-- `acquire_proctable`, up to its result. -/
def acquireBody : EngineM Bool := catchAll false do
  let w ← get
  let bs ← tracerRead cfg true (w.relocatedAddress cfg .proctableSize) 4
  modifyLmon fun lm => { lm with pcount := readInt bs }
  if readInt bs ≤ 0 then pure false else acquireTable cfg w (readInt bs).toInt.toNat

/-- The memory of the thread in whose context the engine runs. -/
def World.contextMem (w : World) : Mem :=
  ((w.proc.threadCtxStack.head?.bind w.target.lwps).map fun l => w.target.mem l.mm).getD fun _ => none

/-- `acquire_proctable`. -/
def acquireProctable : EngineM Unit := do
  let w ← get
  let ok ← acquireBody cfg
  modifyLmon fun lm => { lm with
    acquisition := some ⟨w.contextMem, w.proc.rmso, w.lmon.proctableCopy, ok⟩ }

/-- Both callers of `acquire_proctable` ship the process table next: the result is not looked at. -/
def acquireAndShip : EngineM Unit := do
  acquireProctable cfg
  shipProctab cfg

/-- What both callers of `acquire_proctable` do, except for the message to the front end. -/
def announceProctable (m : FeToFeMsg) : EngineM Unit := do
  acquireAndShip cfg
  shipResourcehandle cfg
  shipRminfo cfg
  sayFetofeMsg cfg m
  launchToolDaemons cfg

/-! ## Breakpoint events -/

/-- `handle_bp_prologue`. -/
def handleBpPrologue (sel : BpSel) : EngineM Rc := catchAll .failed do
  let r ← tracerGetregs cfg
  let retaddr ← tracerReadWord cfg true r.sp
  setReturnAddr sel (wordVA retaddr)
  disableBreakpoint cfg sel true true
  let b ← getBp sel
  tracerSetregs cfg { r with pc := b.addressAt }
  tracerSinglestep cfg
  pure .bpPrologue

/-- `is_bp_prologue_done`. -/
def isBpPrologueDone (sel : BpSel) : EngineM Bool := catchAll true do
  let _ ← tracerGetregs cfg
  let b ← getBp sel
  if b.status = .disabled then do
    enableBreakpoint cfg sel
    pure true
  else do
    let rc ← handleBpPrologue cfg sel
    pure (rc ≠ .bpPrologue)

/-- `disable_all_BPs`; no caller looks at its result. -/
def disableAllBPs (useCxt changeState : Bool) : EngineM Unit := catchAll () do
  let w ← get
  whenever w.proc.launchHiddenBp.isSome (disableBreakpoint cfg .launch useCxt changeState)
  whenever w.proc.loaderHiddenBp.isSome (disableBreakpoint cfg .loader useCxt changeState)

/-- `handle_mpir_variables`: registering `launch_hidden_bp`. -/
def registerLaunchBp (addr : VA) : EngineM Unit := do
  let w ← get
  whenever (w.proc.launchHiddenBp.any fun b => b.status = .enabled)
    (disableBreakpoint cfg .launch true true)
  setBp .launch none
  setBp .launch (some (Bp.setAt addr))
  enableBreakpoint cfg .launch

/-- BG_EXECPATH_LENGTH and BG_SERVERARG_LENGTH. -/
def bgExecpathLength : Nat := 256
def bgServerargLength : Nat := 1024

/-- The arguments for the daemons, if they fit. -/
def writeServerArgs (addr : VA) : Option (List UInt8) → EngineM Unit
  | none => pure ()
  | some args => tracerWrite cfg true addr ((args ++ List.replicate bgServerargLength 0).take
      bgServerargLength)

/-- The path of the daemon and its arguments, for a launcher that starts the daemons itself. -/
def writeColocation : Option Symbol → Option Symbol → EngineM Unit
  | some ep, some sa => do
    tracerWrite cfg true ep.relocatedAddress (cfg.daemonPath ++ [0])
    writeServerArgs cfg sa.relocatedAddress cfg.serverArguments
  | _, _ => pure ()

/-- `handle_mpir_variables`: the colocation service.  A path that is too long ends the function. -/
def handleColocation (im : Image) : EngineM Unit :=
  if (im .execPath).isSome ∧ (im .serverArgs).isSome ∧ bgExecpathLength < cfg.daemonPath.length + 1
  then pure ()
  else do
    writeColocation cfg (im .execPath) (im .serverArgs)
    let w ← get
    whenever (cfg.attfifoSup && (im .attachFifo).isSome && w.proc.symAttachFifo.isNone)
      (modifyProc fun p => { p with
        symAttachFifo := (im .attachFifo).map Symbol.relocatedAddress })

/-- `handle_mpir_variables`; no caller looks at its result. -/
def handleMpirVariables (im : Image) : EngineM Unit := catchAll () do
  ((im .launchBreakpoint).filter Symbol.isDefined).elim (pure ()) fun s =>
    registerLaunchBp cfg s.relocatedAddress
  (im .beingDebug).elim (pure ()) fun s => tracerWrite cfg true s.relocatedAddress (le32 1)
  whenever cfg.colocSup (handleColocation cfg im)

/-- `check_dependent_SOs`: the library of the launcher has been found. -/
def initRmso : Option Image → EngineM Unit
  | none => throw .symtab
  | some im => do
    handleMpirVariables cfg cfg.mainImage
    modifyProc fun p => { p with rmso := some im }
    handleMpirVariables cfg im

/-- `check_dependent_SOs`: one entry of the link map. -/
def visitSo (rmso : Option Image) : SoName → EngineM Unit
  | .libpthread => modifyProc fun p => { p with threadLibFound := true }
  | .libc => modifyProc fun p => { p with libcFound := true }
  | .launcherSo =>
    whenever (cfg.needCheckLauncherSo && rmso.isNone) (initRmso cfg cfg.rmsoImage)
  | .other => pure ()

/-- `check_dependent_SOs`: all key libraries are known. -/
def Process.allFound (p : Process) : Bool :=
  p.libcFound && p.threadLibFound && (!cfg.needCheckLauncherSo || p.rmso.isSome)

/-- `check_dependent_SOs`: the walk through the link map. -/
def walkLinkMap (entries : List (Option SoName)) : EngineM Unit :=
  each entries fun e => do
    let name ← orThrow .tracer e
    let w ← get
    visitSo cfg w.proc.rmso name

/-- `check_dependent_SOs`; no caller looks at its result. -/
def checkDependentSOs : EngineM Unit := catchAll () do
  let w ← get
  if w.proc.allFound cfg then pure ()
  else do
    let _ ← focus cfg true
    let entries ← orThrow .tracer w.target.linkMap
    whenever entries.isEmpty (throw .crash)
    walkLinkMap cfg entries

/-! ## Letting the launcher go -/

/-- A loop over the thread list that runs `x` in the context of each thread that `c` selects. -/
def eachThr (c : Thr → Bool) (x : EngineM Unit) : EngineM Unit := do
  let w ← get
  each w.proc.thrlist fun e => whenever (c e.2) do
    makeContext e.1
    x
    checkAndUndoContext e.1

/-- MPIR_being_debugged is set to 0. -/
def unsetBeingDebugged (useCxt : Bool) : EngineM Unit := do
  let w ← get
  tracerWrite cfg useCxt (w.relocatedAddress cfg .beingDebug) (le32 0)

/-- The common beginning of `handle_detach_cmd_event` and `handle_kill_cmd_event`. -/
def letGo : EngineM Unit := do
  disableAllBPs cfg false true
  eachThr (fun r => !r.master) do
    tracerOptions cfg true false
    tracerDetach cfg true
  unsetBeingDebugged cfg false
  tracerOptions cfg false false
  tracerDetach cfg false

/-- `graceful_rmkill`. -/
def gracefulRmkill (pid : Option Nat) : EngineM Unit := note (.gracefulRmkill pid)

/-- The message of `handle_detach_cmd_event` for a reason. -/
def detachReply : Reason → EngineM Unit
  | .rmBeDaemonExited => sayFetofeMsg cfg .bedmonExited
  | .rmMwDaemonExited => sayFetofeMsg cfg .mwdmonExited
  | .rmJobMpirAborting => sayFetofeMsg cfg .stopAtLaunchBpAbort
  | .feRequestedDetach => sayFetofeMsg cfg .detachDone
  | .feRequestedShutdownDmon => do
    let w ← get
    gracefulRmkill w.lmon.toollauncherpid
    sayFetofeMsg cfg .detachDone
  | .feDisconnected => do
    let w ← get
    gracefulRmkill w.lmon.toollauncherpid
  | .engineDyingWsignal => sayFetofeMsg cfg .stopTracing
  | .reservedForRent | .feRequestedKill => pure ()

/-- `handle_detach_cmd_event`. -/
def handleDetachCmdEvent : EngineM Rc := catchAll .failed do
  letGo cfg
  let w ← get
  detachReply cfg w.proc.reason
  pure .stopTrace

/-- The message of `handle_kill_cmd_event` for a reason. -/
def killReply : Reason → EngineM Unit
  | .feRequestedKill => sayFetofeMsg cfg .killDone
  | .rmBeDaemonExited | .rmMwDaemonExited | .feDisconnected | .feRequestedShutdownDmon
  | .feRequestedDetach | .engineDyingWsignal | .reservedForRent | .rmJobMpirAborting => pure ()

/-- `handle_kill_cmd_event`. -/
def handleKillCmdEvent : EngineM Rc := catchAll .failed do
  letGo cfg
  gracefulRmkill (some cfg.pid)
  let w ← get
  whenever (!cfg.colocSup) (gracefulRmkill w.lmon.toollauncherpid)
  killReply cfg w.proc.reason
  pure .stopTrace

/-! ## The launch breakpoint -/

/-- MPIR_NULL, MPIR_DEBUG_SPAWNED and MPIR_DEBUG_ABORTING. -/
def mpirNull : Int32 := 0
def mpirDebugSpawned : Int32 := 1
def mpirDebugAborting : Int32 := 2

/-- `set_engine_state`. -/
def engineStateOf (s : Int32) : EngineState :=
  if s = mpirDebugSpawned then .spawned
  else if s = mpirDebugAborting then .abort
  else if s = mpirNull then .null
  else .unknown

def setEngineState (s : Int32) : EngineM Unit :=
  modifyLmon fun lm => { lm with engineState := engineStateOf s }

/-- `validate_mpir_state_transition`. -/
def validateMpirStateTransition (st : EngineState) (s : Int32) : Bool :=
  if s = mpirDebugSpawned then st = .start ∨ st = .null
  else if s = mpirDebugAborting then st = .start ∨ st = .null ∨ st = .spawned
  else if s = mpirNull then st = .start ∨ st = .null ∨ st = .spawned
  else false

/-- `set_event_registered`, for the current thread. -/
def registerEvent : EngineM Unit := do
  let w ← get
  let t ← orThrow .crash (curThreadCtx w.proc)
  modifyProc fun p => p.mapThr t fun r => { r with eventRegistered := true }

/-- Under the front end, the thread is held until it is told to go on. -/
def holdOrContinue : EngineM Unit :=
  if cfg.apiMode then registerEvent else tracerContinue cfg true

/-- MPIR_DEBUG_SPAWNED. -/
def launchSpawned (s : Int32) : EngineM Rc := do
  announceProctable cfg .stopAtLaunchBpSpawned
  setEngineState s
  holdOrContinue cfg
  pure .ok

/-- A thread that is not stopped is not detached. -/
def detachStopped (useCxt : Bool) : EngineM Unit := do
  let st ← tracerStatus cfg useCxt
  whenever (st = .stopped) (tracerDetach cfg useCxt)

/-- MPIR_DEBUG_ABORTING.  The state is set from a local variable that is 0. -/
def launchAborting : EngineM Rc := do
  disableAllBPs cfg true true
  unsetBeingDebugged cfg true
  eachThr (fun r => !r.master) (detachStopped cfg true)
  detachStopped cfg false
  setEngineState 0
  sayFetofeMsg cfg .stopAtLaunchBpAbort
  pure .mpirDebugAbort

/-- `handle_launch_bp_event`, once the breakpoint has been stepped over. -/
def launchBody : EngineM Rc := do
  let w ← get
  let bs ← tracerRead cfg true (w.relocatedAddress cfg .debugState) 4
  let bdbg := readInt bs
  if validateMpirStateTransition w.lmon.engineState bdbg = false then do
    tracerContinue cfg true
    pure .ok
  else if bdbg = mpirDebugSpawned then launchSpawned cfg bdbg
  else if bdbg = mpirDebugAborting then launchAborting cfg
  else do
    setEngineState bdbg
    tracerContinue cfg true
    pure .ok

/-- `handle_launch_bp_event`. -/
def handleLaunchBpEvent : EngineM Rc := catchAll .failed do
  let done ← isBpPrologueDone cfg .launch
  if done then launchBody cfg else pure .ok

/-! ## The other handlers -/

/-- `handle_loader_bp_event`. -/
def handleLoaderBpEvent : EngineM Rc := catchAll .failed do
  let done ← isBpPrologueDone cfg .loader
  if done then do
    checkDependentSOs cfg
    tracerContinue cfg true
    pure .ok
  else pure .ok

/-- The relocated address of the loader breakpoint symbol. -/
def loaderBreakpoint : VA :=
  (cfg.loaderBreakpointSym.map fun a => cfg.loaderBase.getD 0 + a).getD cfg.garbage

/-- The loader breakpoint is set after the first trap. -/
def registerLoaderBp : EngineM Unit := do
  setBp .loader (some (Bp.setAt (loaderBreakpoint cfg)))
  enableBreakpoint cfg .loader

def setNeverTrapped : EngineM Unit := modifyProc fun p => { p with neverTrapped := false }

/-- `continue_on_attach`: the launcher goes on if its process table is not there yet. -/
def continueOnAttach : EngineM Bool := catchAll false do
  let w ← get
  let bs ← tracerRead cfg true (w.relocatedAddress cfg .proctableSize) 4
  if readInt bs = 0 then do
    tracerContinue cfg true
    pure true
  else pure false

/-- The length of the buffer for the path of the attach FIFO. -/
def fifoPathLength : Nat := 256

/-- `handle_trap_after_attach_event`: with the colocation service.  Without its symbol the FIFO of
    the launcher is not used, and the launcher is not continued. -/
def attachColocated (symAttachFifo : Option VA) : EngineM Unit :=
  if cfg.attfifoSup then
    symAttachFifo.elim (pure ()) fun a => do
      let _ ← tracerReadString cfg true a fifoPathLength
      tracerContinue cfg true
  else tracerContinue cfg true

/-- `handle_trap_after_attach_event`: without the colocation service. -/
def attachPlain : EngineM Unit := do
  let continued ← (if cfg.contOnAtt then continueOnAttach cfg else pure false : EngineM Bool)
  if continued then pure ()
  else do
    announceProctable cfg .stopAtFirstAttach
    tracerContinue cfg true

/-- `handle_trap_after_attach_event`: how the launcher goes on. -/
def attachRest : EngineM Unit := do
  let w ← get
  if cfg.colocSup then attachColocated cfg w.proc.symAttachFifo else attachPlain cfg

/-- `handle_trap_after_attach_event`. -/
def handleTrapAfterAttachEvent : EngineM Rc := catchAll .failed do
  handleMpirVariables cfg cfg.mainImage
  if cfg.loaderBase = none then pure .failed
  else do
    registerLoaderBp cfg
    checkDependentSOs cfg
    setNeverTrapped
    attachRest cfg
    pure .ok

/-- `handle_trap_after_exec_event`.  A symbol table exception aborts the engine. -/
def handleTrapAfterExecEvent : EngineM Rc := catching (fun e => e = .tracer ∨ e = .machine) .failed do
  handleMpirVariables cfg cfg.mainImage
  registerLoaderBp cfg
  setNeverTrapped
  tracerOptions cfg true true
  tracerContinue cfg true
  pure .ok

/-- `handle_newproc_forked_event`. -/
def handleNewprocForkedEvent : EngineM Rc := catchAll .failed do
  disableAllBPs cfg true false
  tracerDetach cfg true
  pure .ok

/-- `handle_exit_event`. -/
def handleExitEvent : EngineM Rc := catchAll .failed do
  let w ← get
  let t ← orThrow .crash (curThreadCtx w.proc)
  if t = cfg.pid then do
    sayFetofeMsg cfg .exited
    pure .mainprogExited
  else do
    modifyProc fun p => p.eraseThr t
    pure .ok

/-- `handle_term_event`. -/
def handleTermEvent : EngineM Rc := do
  sayFetofeMsg cfg .terminated
  pure .ok

/-- `handle_thrcreate_request`. -/
def handleThrcreateRequest (newlwpid : LwpId) : EngineM Rc := do
  let w ← get
  whenever (!w.proc.hasThr newlwpid) (modifyProc fun p => p.insertThr newlwpid ⟨false, false, false⟩)
  pure .ok

/-- `handle_thrcreate_trap_event`. -/
def handleThrcreateTrapEvent : EngineM Rc := catchAll .failed do
  let newlwpid ← tracerGetEventMsg cfg
  let _ ← handleThrcreateRequest newlwpid
  tracerContinue cfg true
  pure .ok

/-- `handle_newthread_trace_event`. -/
def handleNewthreadTraceEvent : EngineM Rc := catchAll .failed do
  tracerOptions cfg true true
  let w ← get
  let t ← orThrow .crash (curThreadCtx w.proc)
  modifyProc fun p => p.mapThr t fun r => { r with traced := true }
  tracerContinue cfg true
  pure .ok

/-- `handle_not_interested_event`. -/
def handleNotInterestedEvent : EngineM Rc := catchAll .failed do
  tracerContinue cfg true
  pure .ok

/-- `handle_relay_signal_event`. -/
def handleRelaySignalEvent (sig : Nat) : EngineM Rc := catchAll .failed do
  tracerOptions cfg true true
  tracerDeliverSignal cfg (if sig = sigstop then sigcont else sig)
  pure .ok

end LaunchMON.Engine
