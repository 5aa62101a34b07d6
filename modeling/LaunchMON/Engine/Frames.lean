/-
  Frames of the engine: which updates its functions are made of.

  Functions that only read the target are `Within` any preorder.  `Frame R` says that `R` contains
  the updates that the engine makes of its own state while it handles an event, `TargetFrame R` those
  of the target, each at the smallest function of the source that makes it.  `ListFrame R` adds how
  threads come into the thread list and leave it, `FirstFrame R` what happens at the first trap,
  `BpFrame R` what happens at a breakpoint, and `LoopFrame R` what the loops over the thread list and the
  command handlers do.  An instance for each function above these follows its text.  So an invariant of
  the engine is proved by one instance of each class, update by update, and the handlers inherit it.

  `Returns` is the partial form for one result: a handler that returns LAUNCHMON_OK has not left
  through one of its `catch` clauses, and the engine goes on only then.
-/
import LaunchMON.Engine.Loop

namespace LaunchMON.Engine

open Effect Lmonp

set_option synthInstance.maxSize 4096

variable {cfg : Config}

/-! ## Functions that only read -/

section Reading

variable {R : World → World → Prop} [IsPreorder World R]

instance {α : Type} (e : Exn) (o : Option α) : Within R (orThrow e o) := by
  cases o with
  | none => exact inferInstanceAs (Within R (throw e))
  | some a => exact inferInstanceAs (Within R (pure a))

instance {α : Type} (r : α) (x : EngineM α) [Within R x] : Within R (catchAll r x) :=
  inferInstanceAs (Within R (catching _ r x))

instance (b : Bool) : Within R (getPid cfg b) := by unfold getPid; infer_instance

instance (b : Bool) : Within R (focus? cfg b) := by unfold focus?; infer_instance

instance (b : Bool) : Within R (focus cfg b) := by unfold focus; infer_instance

instance : Within R getGprset := by unfold getGprset; infer_instance

instance : Within R (tracerGetregs cfg) := by unfold tracerGetregs; infer_instance

instance (b : Bool) (a : VA) (n : Nat) : Within R (tracerRead cfg b a n) := by
  unfold tracerRead; infer_instance

instance (b : Bool) (a : VA) : Within R (tracerReadWord cfg b a) := by
  unfold tracerReadWord; infer_instance

instance (b : Bool) (a : VA) (n : Nat) : Within R (tracerReadString cfg b a n) := by
  unfold tracerReadString; infer_instance

instance : Within R (tracerGetEventMsg cfg) := by unfold tracerGetEventMsg; infer_instance

instance (b : Bool) : Within R (tracerStatus cfg b) := by unfold tracerStatus; infer_instance

instance (sel : BpSel) : Within R (getBp sel) := by unfold getBp; infer_instance

instance (a : VA) : Within R (readStringAt cfg a) := by unfold readStringAt; infer_instance

instance (r : Report) : Within R (decipherAnEvent cfg r) := by
  cases r with
  | stopped => unfold decipherAnEvent; infer_instance
  | exited => exact inferInstanceAs (Within R (pure _))
  | terminated => exact inferInstanceAs (Within R (pure _))

end Reading

/-! ## Frames -/

/-- The messages that complete a request. -/
def completes : FeToFeMsg → Bool
  | .detachDone | .killDone | .bedmonExited | .mwdmonExited | .stopTracing => true
  | _ => false

/-- Neither a process table nor the completion of a request. -/
def Note.Plain : Note → Prop
  | .said m => completes m = false
  | .shippedProctab .. => False
  | .shippedResourcehandle _ | .shippedRminfo .. | .gracefulRmkill _ => True

/-- An image in which the engine looks for breakpoints. -/
def Config.IsImage (cfg : Config) (im : Image) : Prop :=
  im = cfg.mainImage ∨ cfg.rmsoImage = some im

/-- `R` contains what the engine does in the context of one thread: updates of its own state. -/
class Frame (R : World → World → Prop) : Prop extends IsPreorder World R where
  lmon (f : Lmon → Lmon) : Within R (modifyLmon f)
  note (n : Note) : n.Plain → Within R (note n)
  threadLib : Within R (modifyProc fun p => { p with threadLibFound := true })
  libc : Within R (modifyProc fun p => { p with libcFound := true })
  attachFifo (o : Option VA) : Within R (modifyProc fun p => { p with symAttachFifo := o })
  neverTrapped : Within R setNeverTrapped

/-- `R` contains what the engine does in the context of one thread: updates that depend on the
    configuration, of its own state and of the target. -/
class TargetFrame (cfg : Config) (R : World → World → Prop) [Frame R] : Prop where
  acquireAndShip : Within R (acquireAndShip cfg)
  rmso (im : Image) : cfg.rmsoImage = some im →
    Within R (modifyProc fun p => { p with rmso := some im })
  continue_ : Within R (tracerContinue cfg true)
  deliver (sig : Nat) : Within R (tracerDeliverSignal cfg sig)
  options (on : Bool) : Within R (tracerOptions cfg true on)
  launchBp (im : Image) (s : Symbol) : cfg.IsImage im → im .launchBreakpoint = some s →
    Within R (registerLaunchBp cfg s.relocatedAddress)
  beingDebug (im : Image) (s : Symbol) : cfg.IsImage im → im .beingDebug = some s →
    Within R (tracerWrite cfg true s.relocatedAddress (CBytes.le32 1))
  colocation (im : Image) : cfg.IsImage im →
    Within R (writeColocation cfg (im .execPath) (im .serverArgs))

/-- `R` contains how threads come into the thread list and leave it. -/
class ListFrame (cfg : Config) (R : World → World → Prop) [Frame R] [TargetFrame cfg R] : Prop where
  thrcreate (t : LwpId) : Within R (handleThrcreateRequest t)
  traced (t : LwpId) : Within R (modifyProc fun p => p.mapThr t fun r => { r with traced := true })
  eraseThr (t : LwpId) : t ≠ cfg.pid → Within R (modifyProc fun p => p.eraseThr t)

/-- `R` contains what the engine does at the first trap only. -/
class FirstFrame (cfg : Config) (R : World → World → Prop) [Frame R] [TargetFrame cfg R] : Prop where
  loaderBp : Within R (registerLoaderBp cfg)

/-- `R` contains what the engine does when a thread is at a breakpoint. -/
class BpFrame (cfg : Config) (R : World → World → Prop) [Frame R] [TargetFrame cfg R] : Prop where
  returnAddr (sel : BpSel) (ra : VA) : Within R (setReturnAddr sel ra)
  setregs (r : Regs) : Within R (tracerSetregs cfg r)
  singlestep : Within R (tracerSinglestep cfg)
  enable (sel : BpSel) : Within R (enableBreakpoint cfg sel)
  disable (sel : BpSel) : Within R (disableBreakpoint cfg sel true true)
  register : Within R registerEvent

/-- `R` also contains the changes of context, and what the engine does for a child or when it lets
    the launcher go. -/
class LoopFrame (cfg : Config) (R : World → World → Prop) [Frame R] [TargetFrame cfg R]
    [BpFrame cfg R] : Prop where
  makeContext (t : LwpId) : Within R (makeContext t)
  undoContext (t : LwpId) : Within R (checkAndUndoContext t)
  stop : Within R (tracerStop cfg true)
  detach (b : Bool) : Within R (tracerDetach cfg b)
  unsetOptions : Within R (tracerOptions cfg false false)
  unregister (t : LwpId) :
    Within R (modifyProc fun p => p.mapThr t fun r => { r with eventRegistered := false })
  unsetBeingDebugged (b : Bool) : Within R (unsetBeingDebugged cfg b)
  disableAll (sel : BpSel) : Within R (disableBreakpoint cfg sel false true)
  disableChild (sel : BpSel) : Within R (disableBreakpoint cfg sel true false)

attribute [instance] Frame.lmon Frame.threadLib Frame.libc
  Frame.attachFifo Frame.neverTrapped TargetFrame.acquireAndShip TargetFrame.continue_
  TargetFrame.deliver TargetFrame.options FirstFrame.loaderBp BpFrame.returnAddr BpFrame.setregs
  BpFrame.singlestep BpFrame.enable BpFrame.disable BpFrame.register LoopFrame.makeContext
  LoopFrame.undoContext LoopFrame.stop LoopFrame.detach LoopFrame.unsetOptions LoopFrame.unregister
  LoopFrame.unsetBeingDebugged LoopFrame.disableAll LoopFrame.disableChild

instance : Fact (completes .stopAtLaunchBpSpawned = false) := ⟨rfl⟩
instance : Fact (completes .stopAtFirstAttach = false) := ⟨rfl⟩
instance : Fact (completes .stopAtLaunchBpAbort = false) := ⟨rfl⟩
instance : Fact (completes .exited = false) := ⟨rfl⟩
instance : Fact (completes .terminated = false) := ⟨rfl⟩

section Frame

variable {R : World → World → Prop} [Frame R]

instance (m : FeToFeMsg) [h : Fact (completes m = false)] : Within R (sayFetofeMsg cfg m) := by
  have := Frame.note (R := R) (.said m) h.out
  unfold sayFetofeMsg; infer_instance

instance : Within R (shipResourcehandle cfg) := by
  have := fun rid => Frame.note (R := R) (.shippedResourcehandle rid) trivial
  unfold shipResourcehandle; infer_instance

instance : Within R (shipRminfo cfg) := by
  have := Frame.note (R := R) (.shippedRminfo cfg.pid cfg.rm) trivial
  unfold shipRminfo; infer_instance

instance : Within R (launchToolDaemons cfg) := by unfold launchToolDaemons; infer_instance

instance (pid : Option Nat) : Within R (gracefulRmkill pid) := Frame.note (R := R) _ trivial

instance (s : Int32) : Within R (setEngineState s) := by unfold setEngineState; infer_instance

variable [TargetFrame cfg R]

instance (m : FeToFeMsg) [Fact (completes m = false)] : Within R (announceProctable cfg m) := by
  unfold announceProctable; infer_instance

theorem within_handleMpirVariables {im : Image} (him : cfg.IsImage im) :
    Within R (handleMpirVariables cfg im) := by
  have hlaunch : Within R (((im .launchBreakpoint).filter Symbol.isDefined).elim (pure ())
      fun s => registerLaunchBp cfg s.relocatedAddress) := by
    cases h : (im .launchBreakpoint).filter Symbol.isDefined with
    | none => exact inferInstanceAs (Within R (pure ()))
    | some s => exact TargetFrame.launchBp im s him (Option.filter_eq_some_iff.mp h).1
  have hdebug : Within R ((im .beingDebug).elim (pure ())
      fun s => tracerWrite cfg true s.relocatedAddress (CBytes.le32 1)) := by
    cases h : im .beingDebug with
    | none => exact inferInstanceAs (Within R (pure ()))
    | some s => exact TargetFrame.beingDebug im s him h
  have := TargetFrame.colocation (R := R) im him
  have : Within R (handleColocation cfg im) := by unfold handleColocation; infer_instance
  unfold handleMpirVariables; infer_instance

instance : Within R (handleMpirVariables cfg cfg.mainImage) :=
  within_handleMpirVariables (Or.inl rfl)

instance : Within R (initRmso cfg cfg.rmsoImage) := by
  cases h : cfg.rmsoImage with
  | none => exact inferInstanceAs (Within R (throw _))
  | some im =>
    have := within_handleMpirVariables (R := R) (Or.inr h : cfg.IsImage im)
    have := TargetFrame.rmso (R := R) im h
    unfold initRmso; infer_instance

instance (rmso : Option Image) (name : SoName) : Within R (visitSo cfg rmso name) := by
  cases name <;> unfold visitSo <;> infer_instance

instance (entries : List (Option SoName)) : Within R (walkLinkMap cfg entries) := by
  unfold walkLinkMap; infer_instance

instance : Within R (checkDependentSOs cfg) := by unfold checkDependentSOs; infer_instance

instance : Within R (continueOnAttach cfg) := by unfold continueOnAttach; infer_instance

instance (o : Option VA) : Within R (attachColocated cfg o) := by
  unfold attachColocated; infer_instance

instance : Within R (attachPlain cfg) := by unfold attachPlain; infer_instance

instance : Within R (attachRest cfg) := by unfold attachRest; infer_instance

instance : Within R (handleTermEvent cfg) := by unfold handleTermEvent; infer_instance

instance : Within R (handleNotInterestedEvent cfg) := by
  unfold handleNotInterestedEvent; infer_instance

instance (sig : Nat) : Within R (handleRelaySignalEvent cfg sig) := by
  unfold handleRelaySignalEvent; infer_instance

/-! ## The thread list -/

section List

variable [ListFrame cfg R]

instance : Within R (handleExitEvent cfg) := by
  have herase : ∀ t, Within R (if t = cfg.pid then do
        sayFetofeMsg cfg .exited
        pure Rc.mainprogExited
      else do
        modifyProc fun p => p.eraseThr t
        pure .ok : EngineM Rc) := by
    intro t
    by_cases h : t = cfg.pid
    · rw [if_pos h]; infer_instance
    · have := ListFrame.eraseThr (R := R) t h
      rw [if_neg h]; infer_instance
  unfold handleExitEvent; infer_instance

instance : Within R (handleThrcreateTrapEvent cfg) := by
  have := @ListFrame.thrcreate cfg R _ _ _
  unfold handleThrcreateTrapEvent; infer_instance

instance : Within R (handleNewthreadTraceEvent cfg) := by
  have := @ListFrame.traced cfg R _ _ _
  unfold handleNewthreadTraceEvent; infer_instance

end List

/-! ## The first trap and breakpoints -/

section First

variable [FirstFrame cfg R]

instance : Within R (handleTrapAfterAttachEvent cfg) := by
  unfold handleTrapAfterAttachEvent; infer_instance

instance : Within R (handleTrapAfterExecEvent cfg) := by
  unfold handleTrapAfterExecEvent; infer_instance

end First

section Bp

variable [BpFrame cfg R]

instance (sel : BpSel) : Within R (handleBpPrologue cfg sel) := by
  unfold handleBpPrologue; infer_instance

instance (sel : BpSel) : Within R (isBpPrologueDone cfg sel) := by
  unfold isBpPrologueDone; infer_instance

instance : Within R (holdOrContinue cfg) := by unfold holdOrContinue; infer_instance

instance (s : Int32) : Within R (launchSpawned cfg s) := by unfold launchSpawned; infer_instance

instance : Within R (handleLoaderBpEvent cfg) := by unfold handleLoaderBpEvent; infer_instance

end Bp

/-! ## Handlers that return LAUNCHMON_OK -/

theorem launchAborting_never : Never .ok (launchAborting cfg) := by
  unfold launchAborting
  repeat refine Never.bind fun _ => ?_
  exact never_pure (by decide)

theorem handleDetachCmdEvent_never : Never .ok (handleDetachCmdEvent cfg) := by
  refine Never.catching (by decide) ?_
  repeat refine Never.bind fun _ => ?_
  exact never_pure (by decide)

theorem handleKillCmdEvent_never : Never .ok (handleKillCmdEvent cfg) := by
  refine Never.catching (by decide) ?_
  repeat refine Never.bind fun _ => ?_
  exact never_pure (by decide)

/-- Only the branch that ends the engine loops over the thread list. -/
theorem handleLaunchBpEvent_returns [BpFrame cfg R] : Returns R .ok (handleLaunchBpEvent cfg) := by
  have hbody : Returns R .ok (launchBody cfg) := by
    refine Returns.bind fun w => Returns.bind fun bs => ?_
    dsimp only
    split
    · exact Returns.of_within _
    · split
      · exact Returns.of_within _
      · split
        · exact launchAborting_never.returns
        · exact Returns.of_within _
  refine Returns.catching (by decide) (Returns.bind fun done => ?_)
  cases done with
  | true => exact hbody
  | false => exact Returns.of_within (x := pure _) _

/-- The events of the first trap. -/
def Event.first : Event → Bool
  | .stopAtFirstExec | .stopAtFirstAttach => true
  | _ => false

/-- The events that enter a thread into the list, mark it there or remove it. -/
def Event.listed : Event → Bool
  | .requestNewThread | .stopAtThreadCreation | .stopNewThreadTrace | .exited => true
  | _ => false

theorem invokeHandler_returns_of_listed [ListFrame cfg R] {ev : Event} (hlist : ev.listed = true)
    (data : Nat) : Returns R .ok (invokeHandler cfg ev data) := by
  cases ev with
  | requestNewThread =>
    have := @ListFrame.thrcreate cfg R _ _ _ data
    exact Returns.of_within (x := handleThrcreateRequest data) _
  | stopAtThreadCreation => exact Returns.of_within (x := handleThrcreateTrapEvent cfg) _
  | stopNewThreadTrace => exact Returns.of_within (x := handleNewthreadTraceEvent cfg) _
  | exited => exact Returns.of_within (x := handleExitEvent cfg) _
  | _ => cases hlist

theorem invokeHandler_returns_of_first [FirstFrame cfg R] {ev : Event} (hfirst : ev.first = true)
    (data : Nat) : Returns R .ok (invokeHandler cfg ev data) := by
  cases ev with
  | stopAtFirstExec => exact Returns.of_within (x := handleTrapAfterExecEvent cfg) _
  | stopAtFirstAttach => exact Returns.of_within (x := handleTrapAfterAttachEvent cfg) _
  | _ => cases hfirst

theorem invokeHandler_returns_of_plain [BpFrame cfg R] {ev : Event} (hev : ev ≠ .stopNewForkedProcess)
    (hfirst : ev.first = false) (hlist : ev.listed = false) (data : Nat) :
    Returns R .ok (invokeHandler cfg ev data) := by
  cases ev with
  | stopAtLaunchBp => exact handleLaunchBpEvent_returns
  | stopForDetach => exact handleDetachCmdEvent_never.returns
  | stopForKill => exact handleKillCmdEvent_never.returns
  | stopNewForkedProcess => exact absurd rfl hev
  | stopAtLoaderBp => exact Returns.of_within (x := handleLoaderBpEvent cfg) _
  | relaySignal => exact Returns.of_within (x := handleRelaySignalEvent cfg data) _
  | stopNotInterested => exact Returns.of_within (x := handleNotInterestedEvent cfg) _
  | terminated => exact Returns.of_within (x := handleTermEvent cfg) _
  | hitABp => exact (never_pure (by decide)).returns
  | invalid => exact (never_pure (by decide)).returns
  | stopAtFirstExec => cases hfirst
  | stopAtFirstAttach => cases hfirst
  | requestNewThread => cases hlist
  | stopAtThreadCreation => cases hlist
  | stopNewThreadTrace => cases hlist
  | exited => cases hlist

/-- What a handler has done that leaves the thread list alone. -/
theorem invokeHandler_returns_of_unlisted [BpFrame cfg R] [FirstFrame cfg R] {ev : Event}
    (hev : ev ≠ .stopNewForkedProcess) (hlist : ev.listed = false) (data : Nat) :
    Returns R .ok (invokeHandler cfg ev data) := by
  cases hfirst : ev.first with
  | false => exact invokeHandler_returns_of_plain hev hfirst hlist data
  | true => exact invokeHandler_returns_of_first hfirst data

/-- **What a handler has done when the engine goes on.**  The handler of a child is not among them:
    it runs in a context of its own. -/
theorem invokeHandler_returns_of_later [ListFrame cfg R] [BpFrame cfg R] {ev : Event}
    (hev : ev ≠ .stopNewForkedProcess) (hfirst : ev.first = false) (data : Nat) :
    Returns R .ok (invokeHandler cfg ev data) := by
  cases hlist : ev.listed with
  | false => exact invokeHandler_returns_of_plain hev hfirst hlist data
  | true => exact invokeHandler_returns_of_listed hlist data

theorem invokeHandler_returns [ListFrame cfg R] [BpFrame cfg R] [FirstFrame cfg R] {ev : Event}
    (hev : ev ≠ .stopNewForkedProcess) (data : Nat) : Returns R .ok (invokeHandler cfg ev data) := by
  cases hfirst : ev.first with
  | false => exact invokeHandler_returns_of_later hev hfirst data
  | true => exact invokeHandler_returns_of_first hfirst data

/-! ## Loops over the thread list -/

variable [BpFrame cfg R] [LoopFrame cfg R]

theorem within_eachThr (cfg : Config) {R : World → World → Prop} [Frame R] [TargetFrame cfg R]
    [BpFrame cfg R] [LoopFrame cfg R] (c : Thr → Bool) (x : EngineM Unit) [Within R x] :
    Within R (eachThr c x) := by
  have := @LoopFrame.makeContext cfg R _ _ _ _
  have := @LoopFrame.undoContext cfg R _ _ _ _
  unfold eachThr; infer_instance

instance (b : Bool) : Within R (disableAllBPs cfg b true) := by
  cases b <;> unfold disableAllBPs <;> infer_instance

instance (b : Bool) : Within R (detachStopped cfg b) := by unfold detachStopped; infer_instance

instance : Within R (launchAborting cfg) := by
  have := within_eachThr (R := R) cfg (fun r => !r.master) (detachStopped cfg true)
  unfold launchAborting; infer_instance

instance : Within R (launchBody cfg) := by unfold launchBody; infer_instance

instance : Within R (handleLaunchBpEvent cfg) := by unfold handleLaunchBpEvent; infer_instance

instance : Within R (letGo cfg) := by
  have := within_eachThr (R := R) cfg (fun r => !r.master) do
    tracerOptions cfg true false
    tracerDetach cfg true
  unfold letGo; infer_instance

instance : Within R (disableAllBPs cfg true false) := by unfold disableAllBPs; infer_instance

instance : Within R (handleNewprocForkedEvent cfg) := by
  unfold handleNewprocForkedEvent; infer_instance

instance : Within R (stopRunning cfg) := by unfold stopRunning; infer_instance

instance : Within R (stopThreads cfg) := within_eachThr cfg _ _

instance (t : LwpId) : Within R (contHeld cfg t) := by
  have := @LoopFrame.makeContext cfg R _ _ _ _
  have := @LoopFrame.undoContext cfg R _ _ _ _
  have := @LoopFrame.unregister cfg R _ _ _ _
  unfold contHeld; infer_instance

instance : Within R (requestContLaunchBp cfg) := by unfold requestContLaunchBp; infer_instance

end Frame

end LaunchMON.Engine
