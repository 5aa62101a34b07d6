/-
  The event loop: `decipher_an_event`, `invoke_handler` and the requests of
  `sdbg_base_launchmon_impl.hxx`, `event_manager_t` and `signal_handler_t`.

  A system state is a `World` and the mode of the engine: it polls in `drive_engine`, or, after a
  signal, in `sighandler`, or it has ended.  A label of `Sys.step` is a choice of the environment, or
  an event that the engine takes: a status of a thread, the end of the tool launcher, a message of the
  front end, a signal.  The handling of one event is one step.  The order in which `waitpid` returns
  what is there to be returned is left open, and so is the moment at which the front end is polled.
  A run ends with the engine.
-/
import LaunchMON.Engine.Handlers

namespace LaunchMON.Engine

open Effect Lmonp

variable (cfg : Config)

/-! ## Deciphering events -/

/-- `launchmon_event_e`. -/
inductive Event
  | hitABp
  | stopAtLaunchBp
  | stopAtFirstExec
  | stopAtFirstAttach
  | stopAtLoaderBp
  | stopAtThreadCreation
  | stopNewThreadTrace
  | stopNewForkedProcess
  | stopNotInterested
  | stopForDetach
  | stopForKill
  | requestNewThread
  | relaySignal
  | terminated
  | exited
  | invalid
  deriving DecidableEq, Repr

/-- `p.get_launch_hidden_bp() && p.get_launch_hidden_bp()->is_pc_part_of_bp_op(pc)`, and the same for
    the loader breakpoint. -/
def Process.pcPartOf (p : Process) (sel : BpSel) (pc : VA) : Bool :=
  (p.bp sel).any fun b => b.isPcPartOfBpOp pc

/-- `decipher_an_event`: the choice for a stop. -/
def classify (p : Process) (pid : Option LwpId) (pc : VA) (signum event : Nat) : Event :=
  if p.neverTrapped then if cfg.attach then .stopAtFirstAttach else .stopAtFirstExec
  else if p.pleaseDetach then .stopForDetach
  else if p.pleaseKill then .stopForKill
  else if p.pcPartOf .launch pc then .stopAtLaunchBp
  else if p.pcPartOf .loader pc then .stopAtLoaderBp
  else if signum = sigtrap then
    if event = eventClone then .stopAtThreadCreation else .stopNotInterested
  else if signum = sigstop then
    if (pid.bind p.thr).any fun r => !r.traced then .stopNewThreadTrace else .relaySignal
  else .relaySignal

/-- What `decipher_an_event` has found when it makes its choice. -/
inductive Chosen (p : Process) (pid : Option LwpId) (pc : VA) (signum event : Nat) : Event → Prop
  | firstAttach (hn : p.neverTrapped = true) (ha : cfg.attach = true) :
      Chosen p pid pc signum event .stopAtFirstAttach
  | firstExec (hn : p.neverTrapped = true) (ha : cfg.attach = false) :
      Chosen p pid pc signum event .stopAtFirstExec
  | detach (hn : p.neverTrapped = false) (hd : p.pleaseDetach = true) :
      Chosen p pid pc signum event .stopForDetach
  | kill (hn : p.neverTrapped = false) (hd : p.pleaseDetach = false) (hk : p.pleaseKill = true) :
      Chosen p pid pc signum event .stopForKill
  | launch (hn : p.neverTrapped = false) (hpc : p.pcPartOf .launch pc = true) :
      Chosen p pid pc signum event .stopAtLaunchBp
  | loader (hn : p.neverTrapped = false) (hlaunch : p.pcPartOf .launch pc = false)
      (hpc : p.pcPartOf .loader pc = true) : Chosen p pid pc signum event .stopAtLoaderBp
  | creation (hn : p.neverTrapped = false) (hlaunch : p.pcPartOf .launch pc = false)
      (hloader : p.pcPartOf .loader pc = false) (hsig : signum = sigtrap) (hev : event = eventClone) :
      Chosen p pid pc signum event .stopAtThreadCreation
  | notInterested (hn : p.neverTrapped = false) (hsig : signum = sigtrap) (hev : event ≠ eventClone) :
      Chosen p pid pc signum event .stopNotInterested
  | newThread (hn : p.neverTrapped = false) (hsig : signum = sigstop)
      (hthr : (pid.bind p.thr).any (fun r => !r.traced) = true) :
      Chosen p pid pc signum event .stopNewThreadTrace
  | relay (hn : p.neverTrapped = false) (hsig : signum ≠ sigtrap) :
      Chosen p pid pc signum event .relaySignal

theorem classify_chosen (p : Process) (pid : Option LwpId) (pc : VA) (signum event : Nat) :
    Chosen cfg p pid pc signum event (classify cfg p pid pc signum event) := by
  unfold classify
  cases hn : p.neverTrapped with
  | true =>
    cases ha : cfg.attach with
    | true => exact .firstAttach hn ha
    | false => exact .firstExec hn ha
  | false =>
    cases hd : p.pleaseDetach with
    | true => exact .detach hn hd
    | false =>
      cases hk : p.pleaseKill with
      | true => exact .kill hn hd hk
      | false =>
        cases hlaunch : p.pcPartOf .launch pc with
        | true => exact .launch hn hlaunch
        | false =>
          cases hloader : p.pcPartOf .loader pc with
          | true => exact .loader hn hlaunch hloader
          | false =>
            show Chosen cfg p pid pc signum event (if signum = sigtrap then _ else _)
            by_cases htrap : signum = sigtrap
            · rw [if_pos htrap]
              by_cases hev : event = eventClone
              · rw [if_pos hev]
                exact .creation hn hlaunch hloader htrap hev
              · rw [if_neg hev]
                exact .notInterested hn htrap hev
            · rw [if_neg htrap]
              by_cases hstop : signum = sigstop
              · rw [if_pos hstop]
                by_cases hthr : (pid.bind p.thr).any (fun r => !r.traced) = true
                · rw [if_pos hthr]
                  exact .newThread hn hstop hthr
                · rw [if_neg hthr]
                  exact .relay hn htrap
              · rw [if_neg hstop]
                exact .relay hn htrap

/-- `decipher_an_event`. -/
def decipherAnEvent : Report → EngineM Event
  | .stopped signum event => do
    let r ← tracerGetregs cfg
    let pid ← getPid cfg true
    let w ← get
    pure (classify cfg w.proc pid r.pc signum event)
  | .exited | .terminated => pure .exited

/-- `invoke_handler`. -/
def invokeHandler (ev : Event) (data : Nat) : EngineM Rc :=
  match ev with
  | .stopAtFirstExec => handleTrapAfterExecEvent cfg
  | .stopAtFirstAttach => handleTrapAfterAttachEvent cfg
  | .stopForDetach => handleDetachCmdEvent cfg
  | .stopForKill => handleKillCmdEvent cfg
  | .stopAtLaunchBp => handleLaunchBpEvent cfg
  | .stopAtLoaderBp => handleLoaderBpEvent cfg
  | .requestNewThread => handleThrcreateRequest data
  | .stopAtThreadCreation => handleThrcreateTrapEvent cfg
  | .stopNewThreadTrace => handleNewthreadTraceEvent cfg
  | .stopNewForkedProcess => handleNewprocForkedEvent cfg
  | .relaySignal => handleRelaySignalEvent cfg data
  | .stopNotInterested => handleNotInterestedEvent cfg
  | .terminated => handleTermEvent cfg
  | .exited => handleExitEvent cfg
  | .hitABp | .invalid => pure .failed

/-! ## Requests -/

/-- A request is pending. -/
def Process.requested (p : Process) : Bool := p.pleaseDetach || p.pleaseKill

/-- A thread that seems to run is stopped. -/
def stopRunning : EngineM Unit := do
  let st ← tracerStatus cfg true
  whenever (st = .running) (tracerStop cfg true)

def stopThreads : EngineM Unit := eachThr (fun _ => true) (stopRunning cfg)

/-- The two functions below; `mark` sets the flag. -/
def request (mark : Process → Process) (reason : Reason) : EngineM Unit := do
  let w ← get
  if w.proc.requested then pure ()
  else do
    stopThreads cfg
    modifyProc fun p => { mark p with reason := reason }

/-- `request_detach`. -/
def requestDetach (reason : Reason) : EngineM Unit :=
  request cfg (fun p => { p with pleaseDetach := true }) reason

/-- `request_kill`. -/
def requestKill (reason : Reason) : EngineM Unit :=
  request cfg (fun p => { p with pleaseKill := true }) reason

/-- A thread that has been held goes on. -/
def contHeld (t : LwpId) : EngineM Unit := do
  makeContext t
  tracerContinue cfg true
  modifyProc fun p => p.mapThr t fun r => { r with eventRegistered := false }
  checkAndUndoContext t

/-- `request_cont_launch_bp`. -/
def requestContLaunchBp : EngineM Unit := do
  let w ← get
  each w.proc.thrlist fun e => whenever e.2.eventRegistered (contHeld cfg e.1)

/-! ## Events -/

/-- What there is to read on the socket of the front end. -/
inductive FeInput
  | disconnected
  | illFormed
  | msg (type : FeToFeMsg)
  deriving DecidableEq, Repr

/-- `handle_incoming_socket_event`. -/
def handleIncomingSocketEvent (m : FeInput) : EngineM Rc := catchAll .failed do
  if cfg.apiMode = false then pure .ok
  else match m with
    | .disconnected => do
      requestDetach cfg .feDisconnected
      pure .ok
    | .msg .detach => do
      requestDetach cfg .feRequestedDetach
      pure .ok
    | .msg .kill => do
      requestKill cfg .feRequestedKill
      pure .ok
    | .msg .shutdownbe => do
      requestDetach cfg .feRequestedShutdownDmon
      pure .ok
    | .msg .contLaunchBp => do
      requestContLaunchBp cfg
      pure .ok
    | _ => pure .failed

/-- `handle_daemon_exit_event`. -/
def handleDaemonExitEvent : EngineM Rc := catchAll .failed do
  whenever cfg.failDetectSup (requestDetach cfg .rmBeDaemonExited)
  pure .ok

/-- The signal of a stop. -/
def Report.signum : Report → Nat
  | .stopped signum _ => signum
  | .exited | .terminated => 0

/-- `poll_processes`: an event of the launcher, or of a thread that is in the list. -/
def handleEvent (id : LwpId) (r : Report) : EngineM Rc := do
  makeContext id
  let ev ← decipherAnEvent cfg r
  let rc ← invokeHandler cfg ev r.signum
  checkAndUndoContext id
  pure rc

/-- `poll_processes`: an event of another process. -/
def handleChild (id : LwpId) (r : Report) : EngineM Rc :=
  match r with
  | .stopped _ _ => do
    makeContext id
    let rc ← invokeHandler cfg .stopNewForkedProcess id
    checkAndUndoContext id
    pure rc
  | .exited | .terminated => pure .ok

/-- `poll_processes`: a thread that is not in the list is entered when it stops. -/
def enterThread (id : LwpId) (r : Report) : EngineM Rc := do
  let w ← get
  match r with
  | .stopped _ _ => if w.proc.hasThr id then pure .ok else invokeHandler cfg .requestNewThread id
  | .exited | .terminated => pure .ok

/-- `poll_processes`, for an event. -/
def pollEvent (id : LwpId) (en : Entity) (r : Report) : EngineM Rc := do
  let w ← get
  match en with
  | .process =>
    if id = cfg.pid then handleEvent cfg id r
    else if some id = w.lmon.toollauncherpid then
      match r with
      | .stopped _ _ => pure .ok
      | .exited | .terminated => handleDaemonExitEvent cfg
    else handleChild cfg id r
  | .thread => do
    let rc ← enterThread cfg id r
    let w' ← get
    if w'.proc.hasThr id then handleEvent cfg id r else pure rc

/-! ## The system -/

inductive Mode
  | looping
  | dying (polls : Nat)
  | ended
  deriving DecidableEq, Repr

structure Sys where
  w : World
  mode : Mode

inductive Label
  | env (a : EnvAct)
  /-- `waitpid` returns the status of `t` -/
  | poll (t : LwpId)
  /-- `waitpid` returns the end of the tool launcher -/
  | pollTool (killed : Bool)
  /-- `waitpid` returns nothing -/
  | idle
  | fe (m : FeInput)
  | signal
  deriving DecidableEq

/-- The polls that `sighandler` makes at most. -/
def nMaxEvs : Nat := 15

/-- Each loop goes on while its body is successful. -/
def Mode.after (ok : Bool) : Mode → Mode
  | .looping => if ok then .looping else .ended
  | .dying n => if ok ∧ n + 1 < nMaxEvs then .dying (n + 1) else .ended
  | .ended => .ended

/-- The engine takes a step; an exception that nobody catches ends it. -/
def Sys.run (s : Sys) (x : EngineM Rc) : Sys :=
  match x s.w with
  | .ok rc w => ⟨w, s.mode.after (rc = .ok)⟩
  | .error _ w => ⟨w, .ended⟩

/-- `waitpid` has returned the status of `t`. -/
def World.reap (w : World) (t : LwpId) (l : Lwp) : World :=
  { w with target := w.target.setLwp t { l with report := none } }

def Sys.step (s : Sys) : Label → Option Sys
  | .env a => do
    guard (s.mode ≠ .ended)
    let T ← s.w.target.step cfg.text a
    some { s with w := { s.w with target := T } }
  | .poll t => do
    guard (s.mode ≠ .ended)
    let l ← s.w.target.lwps t
    guard (l.traced = true)
    guard (some t ≠ s.w.lmon.toollauncherpid)
    let r ← l.report
    some (Sys.run { s with w := s.w.reap t l } (pollEvent cfg t l.entity r))
  | .pollTool killed => do
    guard (s.mode ≠ .ended)
    let t ← s.w.lmon.toollauncherpid
    some (s.run (pollEvent cfg t .process (if killed then .terminated else .exited)))
  | .idle => do
    guard (s.mode ≠ .ended)
    some { s with mode := s.mode.after true }
  | .fe m => do
    guard (s.mode = .looping)
    some (s.run (handleIncomingSocketEvent cfg m))
  | .signal => do
    guard (s.mode ≠ .ended)
    match requestDetach cfg .engineDyingWsignal s.w with
      | .ok _ w => some ⟨w, .dying 0⟩
      | .error _ w => some ⟨w, .ended⟩

/-- `process_base_t` and `launchmon_base_t` when the loop begins. -/
def Process.start : Process where
  thrlist := [(cfg.pid, ⟨true, false, false⟩)]
  threadCtxStack := []
  newChildPid := none
  launchHiddenBp := none
  loaderHiddenBp := none
  neverTrapped := true
  pleaseDetach := false
  pleaseKill := false
  reason := .reservedForRent
  threadLibFound := false
  libcFound := false
  rmso := none
  symAttachFifo := none

def Lmon.start : Lmon := ⟨.start, -1, ∅, -1, none, none⟩

/-- The engine at the head of its loop. -/
def Sys.start (T : Target) : Sys := ⟨⟨T, .start cfg, .start, []⟩, .looping⟩

/-- The launcher when the loop begins: it has one thread, which is traced or has stopped for the
    tracer, and nobody has written into its text. -/
structure Launched (T : Target) : Prop where
  lwps_eq : ∃ l, T.lwps = Function.update (fun _ => none) cfg.pid (some l) ∧
    l.entity = .process ∧ l.mm = 0 ∧ l.pc = l.next ∧ l.traced = true ∧ l.delivered = [] ∧
    l.stepFrom = none ∧
    (l.run = .running ∧ l.report = none ∨ l.run = .stopped ∧ l.report ≠ none)
  mem_eq : ∀ mm a, T.mem mm a = none ∨ cfg.text a = none ∨ T.mem mm a = cfg.text a

/-- A state in which a run begins. -/
def Initial (s : Sys) : Prop := ∃ T, Launched cfg T ∧ s = Sys.start cfg T

/-- `Run G s s'`: a run from `s` to `s'` all of whose steps meet `G`. -/
inductive Run (G : Sys → Label → Prop) (s : Sys) : Sys → Prop
  | refl : Run G s s
  | step {s' s'' : Sys} {a : Label} (h : Run G s s') (ha : G s' a) (hs : s'.step cfg a = some s'') :
      Run G s s''

/-- The run of a list of labels. -/
def Sys.runAll (s : Sys) : List Label → Option Sys
  | [] => some s
  | a :: as => (s.step cfg a).bind fun s' => s'.runAll as

variable {cfg}

theorem Sys.run_w (s : Sys) (x : EngineM Rc) : (s.run x).w = final x s.w := by
  unfold Sys.run final
  cases x s.w <;> rfl

/-- Only LAUNCHMON_OK lets a loop go on. -/
theorem Sys.run_ended {s : Sys} {x : EngineM Rc} (h : ∀ w, x s.w ≠ .ok .ok w) :
    (s.run x).mode = .ended := by
  unfold Sys.run
  cases hx : x s.w with
  | error e w => rfl
  | ok rc w =>
    have hrc : rc ≠ .ok := fun hrc => h w (hrc ▸ hx)
    cases hm : s.mode <;> simp [Mode.after, hrc]

/-- An engine that goes on has handled the event successfully. -/
theorem Sys.run_alive {s : Sys} {x : EngineM Rc} (h : (s.run x).mode ≠ .ended) :
    x s.w = .ok .ok (s.run x).w := by
  by_contra hne
  refine h (Sys.run_ended fun w hw => hne ?_)
  rw [Sys.run_w, final_ok hw, hw]

/-! ## What a step is -/

theorem Sys.step_env {s s' : Sys} {a : EnvAct} (h : s.step cfg (.env a) = some s') :
    s.mode ≠ .ended ∧ ∃ T, s.w.target.step cfg.text a = some T ∧
      s' = { s with w := { s.w with target := T } } := by
  obtain ⟨hm, h⟩ := guard_bind_eq_some.mp h
  obtain ⟨T, hT, h⟩ := Option.bind_eq_some_iff.mp h
  cases h
  exact ⟨hm, T, hT, rfl⟩

theorem Sys.step_poll {s s' : Sys} {t : LwpId} (h : s.step cfg (.poll t) = some s') :
    s.mode ≠ .ended ∧ ∃ l r, s.w.target.lwps t = some l ∧ l.traced = true ∧
      some t ≠ s.w.lmon.toollauncherpid ∧ l.report = some r ∧
      s' = Sys.run { s with w := s.w.reap t l } (pollEvent cfg t l.entity r) := by
  obtain ⟨hm, h⟩ := guard_bind_eq_some.mp h
  obtain ⟨l, hl, h⟩ := Option.bind_eq_some_iff.mp h
  obtain ⟨htr, h⟩ := guard_bind_eq_some.mp h
  obtain ⟨htool, h⟩ := guard_bind_eq_some.mp h
  obtain ⟨r, hr, h⟩ := Option.bind_eq_some_iff.mp h
  cases h
  exact ⟨hm, l, r, hl, htr, htool, hr, rfl⟩

theorem Sys.step_pollTool {s s' : Sys} {killed : Bool}
    (h : s.step cfg (.pollTool killed) = some s') :
    s.mode ≠ .ended ∧ ∃ t, s.w.lmon.toollauncherpid = some t ∧
      s' = s.run (pollEvent cfg t .process (if killed then .terminated else .exited)) := by
  obtain ⟨hm, h⟩ := guard_bind_eq_some.mp h
  obtain ⟨t, ht, h⟩ := Option.bind_eq_some_iff.mp h
  cases h
  exact ⟨hm, t, ht, rfl⟩

theorem Sys.step_idle {s s' : Sys} (h : s.step cfg .idle = some s') :
    s.mode ≠ .ended ∧ s' = { s with mode := s.mode.after true } := by
  obtain ⟨hm, h⟩ := guard_bind_eq_some.mp h
  cases h
  exact ⟨hm, rfl⟩

theorem Sys.step_fe {s s' : Sys} {m : FeInput} (h : s.step cfg (.fe m) = some s') :
    s.mode = .looping ∧ s' = s.run (handleIncomingSocketEvent cfg m) := by
  obtain ⟨hm, h⟩ := guard_bind_eq_some.mp h
  cases h
  exact ⟨hm, rfl⟩

/-- A signal makes its request, and the engine goes on in `sighandler` unless that failed. -/
theorem Sys.step_signal {s s' : Sys} (h : s.step cfg .signal = some s') :
    s.mode ≠ .ended ∧ s'.w = final (requestDetach cfg .engineDyingWsignal) s.w ∧
      (s'.mode = .ended ∨ s'.mode = .dying 0 ∧
        requestDetach cfg .engineDyingWsignal s.w = .ok () s'.w) := by
  obtain ⟨hm, h⟩ := guard_bind_eq_some.mp h
  refine ⟨hm, ?_⟩
  cases hx : requestDetach cfg .engineDyingWsignal s.w with
  | ok u w =>
    rw [hx] at h
    cases h
    exact ⟨(final_ok hx).symm, Or.inr ⟨rfl, rfl⟩⟩
  | error e w =>
    rw [hx] at h
    cases h
    exact ⟨(final_error hx).symm, Or.inl rfl⟩

/-- An engine that has ended takes no step. -/
theorem Sys.step_alive {s s' : Sys} {a : Label} (h : s.step cfg a = some s') : s.mode ≠ .ended := by
  cases a with
  | env a => exact (Sys.step_env h).1
  | poll t => exact (Sys.step_poll h).1
  | pollTool killed => exact (Sys.step_pollTool h).1
  | idle => exact (Sys.step_idle h).1
  | fe m =>
    rw [(Sys.step_fe h).1]
    decide
  | signal => exact (Sys.step_signal h).1

/-! ## Runs -/

/-- An invariant of the steps is an invariant of the runs. -/
theorem Run.invariant {G : Sys → Label → Prop} {I : Sys → Prop} {s s' : Sys} (h : Run cfg G s s')
    (h0 : I s) (hstep : ∀ s s' a, I s → G s a → s.step cfg a = some s' → I s') : I s' := by
  induction h with
  | refl => exact h0
  | step h ha hs ih => exact hstep _ _ _ ih ha hs

theorem Run.trans {G : Sys → Label → Prop} {s s' s'' : Sys} (h : Run cfg G s s')
    (h' : Run cfg G s' s'') : Run cfg G s s'' := by
  induction h' with
  | refl => exact h
  | step h' ha hs ih => exact .step ih ha hs

/-- A list of labels makes a run. -/
theorem Run.of_runAll : ∀ (as : List Label) {s s' : Sys}, s.runAll cfg as = some s' →
    Run cfg (fun _ _ => True) s s'
  | [], s, s', h => by
    cases h
    exact .refl
  | a :: as, s, s', h => by
    obtain ⟨s'', hs, h⟩ := Option.bind_eq_some_iff.mp h
    exact (Run.step .refl trivial hs).trans (Run.of_runAll as h)

/-- What is computed about the last step of a list of labels holds of that step. -/
theorem Sys.runAll_step {α : Type} {s : Sys} {as : List Label} {a : Label} {f : Sys → Sys → α} {x : α}
    (h : ((s.runAll cfg as).bind fun s₁ => (s₁.step cfg a).map fun s₂ => f s₁ s₂) = some x) :
    ∃ s₁ s₂, s.runAll cfg as = some s₁ ∧ s₁.step cfg a = some s₂ ∧ f s₁ s₂ = x := by
  obtain ⟨s₁, h₁, h⟩ := Option.bind_eq_some_iff.mp h
  obtain ⟨s₂, h₂, h⟩ := Option.map_eq_some_iff.mp h
  exact ⟨s₁, s₂, h₁, h₂, h⟩

/-! ## A launcher to run -/

/-- A launcher whose text is 256 bytes of the one-byte instruction 0x90, with a launch breakpoint
    and a loader breakpoint in it. -/
def sample : Config where
  apiMode := true
  attach := false
  pid := 100
  text := fun a => if 0x1000 ≤ a ∧ a < 0x1100 then some 0x90 else none
  mainImage := fun s => match s with
    | .launchBreakpoint => some ⟨0x1000, true⟩
    | .debugState => some ⟨0x2000, true⟩
    | .beingDebug => some ⟨0x2008, true⟩
    | .proctable => some ⟨0x2010, true⟩
    | .proctableSize => some ⟨0x2018, true⟩
    | _ => none
  rmsoImage := none
  loaderBase := some 0x1000
  loaderBreakpointSym := some 0x40
  garbage := 0
  needCheckLauncherSo := false
  colocSup := false
  attfifoSup := false
  contOnAtt := false
  failDetectSup := true
  modelchecker := false
  rid := .unsupported
  rm := 0
  daemonPath := []
  serverArguments := none
  hostsFileOk := true
  toolPid := 7
  procStatT := true

/-- The launcher at `pc`, stopped by its tracer; `data` is mapped from 0x2000 on. -/
def sampleTarget (pc : VA) (data : List UInt8) : Target where
  lwps := Function.update (fun _ => none) 100 (some
    { entity := .process
      mm := 0
      pc := pc
      sp := 0x2100
      next := pc
      run := .stopped
      traced := true
      opts := false
      report := some (.stopped sigtrap 0)
      eventMsg := 0
      stopRequested := false
      stepFrom := none
      delivered := [] })
  mem := fun _ a => sample.text a <|>
    if 0x2000 ≤ a ∧ a < 0x2200 then some (data.getD (a - 0x2000).toNat 0) else none
  linkMap := none

theorem sample_launched (pc : VA) (data : List UInt8) : Launched sample (sampleTarget pc data) where
  lwps_eq := ⟨_, rfl, rfl, rfl, rfl, rfl, rfl, rfl, Or.inr ⟨rfl, Option.some_ne_none _⟩⟩
  mem_eq mm a := by
    cases h : sample.text a with
    | none => exact Or.inr (Or.inl rfl)
    | some b =>
      right
      right
      show (sample.text a <|> _) = _
      rw [h]
      rfl

end LaunchMON.Engine
