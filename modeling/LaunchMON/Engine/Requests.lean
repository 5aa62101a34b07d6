/-
  Requests to let the launcher go: they exclude each other, the first one stays, and it is answered
  at most once, with its own message.

  Six things outside of the engine ask it to stop tracing.  `Request` says what each of them is
  entitled to, and that is all the specification there is: a reason, whether the job is to be killed,
  and a message.  The engine records the reason when it accepts a request and sends the message when
  the command handler has run.

  All functions of the engine but three kinds keep flags, reason and completion messages as they are;
  that is the frame `Quiet`.  The three are `request`, which does nothing once a flag is set, and the
  two command handlers, whose reply is looked up under the recorded reason and which never let the
  loop go on.  So a run passes through three phases, no request, a pending request, and the end with
  or without the reply, and `Phase` is the invariant.
-/
import LaunchMON.Engine.Frames

namespace LaunchMON.Engine

open Effect Lmonp

set_option synthInstance.maxSize 4096

variable {cfg : Config}

/-! ## Requests and their replies -/

/-- Who can ask the engine to let the launcher go. -/
inductive Request
  | detach
  | shutdown
  | kill
  | disconnect
  | daemonExit
  | engineSignal
  deriving DecidableEq, Repr

namespace Request

def reason : Request → Reason
  | .detach => .feRequestedDetach
  | .shutdown => .feRequestedShutdownDmon
  | .kill => .feRequestedKill
  | .disconnect => .feDisconnected
  | .daemonExit => .rmBeDaemonExited
  | .engineSignal => .engineDyingWsignal

/-- The message that completes the request, if there is one. -/
def reply : Request → Option FeToFeMsg
  | .detach | .shutdown => some .detachDone
  | .kill => some .killDone
  | .disconnect => none
  | .daemonExit => some .bedmonExited
  | .engineSignal => some .stopTracing

end Request

/-- The request that a step makes. -/
def Label.request (cfg : Config) : Label → Option Request
  | .fe .disconnected => if cfg.apiMode then some .disconnect else none
  | .fe (.msg .detach) => if cfg.apiMode then some .detach else none
  | .fe (.msg .kill) => if cfg.apiMode then some .kill else none
  | .fe (.msg .shutdownbe) => if cfg.apiMode then some .shutdown else none
  | .pollTool _ => if cfg.failDetectSup then some .daemonExit else none
  | .signal => some .engineSignal
  | _ => none

/-- The request that the flags and the reason record. -/
def Process.Records (p : Process) (r : Request) : Prop :=
  p.pleaseKill = decide (r = .kill) ∧ p.pleaseDetach = decide (r ≠ .kill) ∧ p.reason = r.reason

/-- The completion messages of a log. -/
def completions (log : List Note) : List FeToFeMsg :=
  log.filterMap fun n => match n with
    | .said m => if completes m then some m else none
    | _ => none

/-- `r` is the first request of the run from `s₀` to `s` that was accepted. -/
def AcceptedFirst (cfg : Config) (s₀ s : Sys) (r : Request) : Prop :=
  ∃ s₁ a s₂, Run cfg (fun _ _ => True) s₀ s₁ ∧ s₁.w.proc.requested = false ∧
    a.request cfg = some r ∧ s₁.step cfg a = some s₂ ∧ s₂.w.proc.requested = true ∧
    Run cfg (fun _ _ => True) s₂ s

/-! ## The frame -/

/-- Flags, reason and completion messages are as before. -/
structure Quiet (w w' : World) : Prop where
  detach : w'.proc.pleaseDetach = w.proc.pleaseDetach
  kill : w'.proc.pleaseKill = w.proc.pleaseKill
  reason : w'.proc.reason = w.proc.reason
  completions : completions w'.log = completions w.log

instance : IsPreorder World Quiet where
  refl _ := ⟨rfl, rfl, rfl, rfl⟩
  trans _ _ _ h₁ h₂ :=
    ⟨h₂.detach.trans h₁.detach, h₂.kill.trans h₁.kill, h₂.reason.trans h₁.reason,
      h₂.completions.trans h₁.completions⟩

theorem Quiet.requested {w w' : World} (h : Quiet w w') :
    w'.proc.requested = w.proc.requested := by
  rw [Process.requested, Process.requested, h.detach, h.kill]

theorem Quiet.records {w w' : World} (h : Quiet w w') {r : Request} (hr : w.proc.Records r) :
    w'.proc.Records r :=
  ⟨h.kill.trans hr.1, h.detach.trans hr.2.1, h.reason.trans hr.2.2⟩

theorem completions_append (log : List Note) (n : Note) :
    completions (log ++ [n]) = completions log ++ completions [n] := List.filterMap_append

instance (f : Target → Target) : Within Quiet (modifyTarget f) :=
  within_modify fun _ => ⟨rfl, rfl, rfl, rfl⟩

instance (f : Lmon → Lmon) : Within Quiet (modifyLmon f) :=
  within_modify fun _ => ⟨rfl, rfl, rfl, rfl⟩

/-- Updates that leave flags and reason alone. -/
theorem quiet_modifyProc {f : Process → Process} (hd : ∀ p, (f p).pleaseDetach = p.pleaseDetach)
    (hk : ∀ p, (f p).pleaseKill = p.pleaseKill) (hr : ∀ p, (f p).reason = p.reason) :
    Within Quiet (modifyProc f) := within_modify fun w => ⟨hd w.proc, hk w.proc, hr w.proc, rfl⟩

theorem quiet_note {n : Note} (h : completions [n] = []) : Within Quiet (note n) :=
  within_modify fun w => ⟨rfl, rfl, rfl, by rw [completions_append, h, List.append_nil]⟩

instance (t : LwpId) (l : Lwp) : Within Quiet (setLwp t l) := by unfold setLwp; infer_instance

instance (sel : BpSel) (b : Option Bp) : Within Quiet (setBp sel b) := by
  cases sel <;> exact quiet_modifyProc (fun _ => rfl) (fun _ => rfl) (fun _ => rfl)

instance (b : Bool) (a : VA) (bs : List UInt8) : Within Quiet (tracerWrite cfg b a bs) := by
  unfold tracerWrite; infer_instance

instance (b on : Bool) : Within Quiet (tracerOptions cfg b on) := by
  unfold tracerOptions; infer_instance

instance (sel : BpSel) (b c : Bool) : Within Quiet (disableBreakpoint cfg sel b c) := by
  unfold disableBreakpoint; infer_instance

instance (sel : BpSel) : Within Quiet (enableBreakpoint cfg sel) := by
  unfold enableBreakpoint; infer_instance

instance (table : List UInt8) (i : Nat) : Within Quiet (acquireRow cfg table i) := by
  unfold acquireRow; infer_instance

instance (w : World) (rid : RidSource) : Within Quiet (acquireResid cfg w rid) := by
  cases rid <;> unfold acquireResid <;> try unfold setResid
  all_goals infer_instance

instance (w : World) (n : Nat) : Within Quiet (acquireTable cfg w n) := by
  unfold acquireTable; infer_instance

instance : Within Quiet (acquireProctable cfg) := by
  unfold acquireProctable acquireBody; infer_instance

instance (o : Option Acquisition) (tab : Proctable) (n : Int32) (s : Shipment) :
    Within Quiet (note (.shippedProctab o tab n s)) := quiet_note rfl

instance : Frame Quiet where
  lmon _ := inferInstance
  note n hn := by
    refine quiet_note ?_
    cases n with
    | said m =>
      have hm : completes m = false := hn
      simp [completions, hm]
    | shippedProctab => exact hn.elim
    | shippedResourcehandle => rfl
    | shippedRminfo => rfl
    | gracefulRmkill => rfl
  threadLib := quiet_modifyProc (fun _ => rfl) (fun _ => rfl) (fun _ => rfl)
  libc := quiet_modifyProc (fun _ => rfl) (fun _ => rfl) (fun _ => rfl)
  attachFifo _ := quiet_modifyProc (fun _ => rfl) (fun _ => rfl) (fun _ => rfl)
  neverTrapped := quiet_modifyProc (fun _ => rfl) (fun _ => rfl) (fun _ => rfl)

instance : TargetFrame cfg Quiet where
  acquireAndShip := by unfold acquireAndShip shipProctab; infer_instance
  rmso _ _ := quiet_modifyProc (fun _ => rfl) (fun _ => rfl) (fun _ => rfl)
  continue_ := by unfold tracerContinue; infer_instance
  deliver _ := by unfold tracerDeliverSignal; infer_instance
  options _ := inferInstance
  launchBp _ _ _ _ := by unfold registerLaunchBp; infer_instance
  beingDebug _ _ _ _ := inferInstance
  colocation im _ := by
    have : ∀ a o, Within Quiet (writeServerArgs cfg a o) := by
      intro a o
      cases o <;> unfold writeServerArgs <;> infer_instance
    cases im .execPath <;> cases im .serverArgs <;> unfold writeColocation <;> infer_instance

instance (t : LwpId) : Within Quiet (handleThrcreateRequest t) := by
  have := quiet_modifyProc (f := fun p => p.insertThr t ⟨false, false, false⟩)
    (fun _ => rfl) (fun _ => rfl) (fun _ => rfl)
  unfold handleThrcreateRequest; infer_instance

instance : ListFrame cfg Quiet where
  thrcreate _ := inferInstance
  traced _ := quiet_modifyProc (fun _ => rfl) (fun _ => rfl) (fun _ => rfl)
  eraseThr _ _ := quiet_modifyProc (fun _ => rfl) (fun _ => rfl) (fun _ => rfl)

instance : FirstFrame cfg Quiet where
  loaderBp := by unfold registerLoaderBp; infer_instance

instance : BpFrame cfg Quiet where
  returnAddr _ _ := by unfold setReturnAddr; infer_instance
  setregs _ := by unfold tracerSetregs; infer_instance
  singlestep := by unfold tracerSinglestep; infer_instance
  enable _ := inferInstance
  disable _ := inferInstance
  register := by
    have := fun t => quiet_modifyProc
      (f := fun p => p.mapThr t fun r => { r with eventRegistered := true })
      (fun _ => rfl) (fun _ => rfl) (fun _ => rfl)
    unfold registerEvent; infer_instance

instance (t : LwpId) : Within Quiet (makeContext t) := by
  have h₁ := quiet_modifyProc (f := fun p => { p with threadCtxStack := t :: p.threadCtxStack })
    (fun _ => rfl) (fun _ => rfl) (fun _ => rfl)
  have h₂ := quiet_modifyProc (f := fun p => { p with newChildPid := some t })
    (fun _ => rfl) (fun _ => rfl) (fun _ => rfl)
  unfold makeContext; infer_instance

instance (t : LwpId) : Within Quiet (checkAndUndoContext t) := by
  have h₁ := quiet_modifyProc (f := fun p => { p with newChildPid := none })
    (fun _ => rfl) (fun _ => rfl) (fun _ => rfl)
  have h₂ := quiet_modifyProc (f := fun p => { p with threadCtxStack := p.threadCtxStack.tail })
    (fun _ => rfl) (fun _ => rfl) (fun _ => rfl)
  unfold checkAndUndoContext; infer_instance

instance : LoopFrame cfg Quiet where
  makeContext _ := inferInstance
  undoContext _ := inferInstance
  stop := by unfold tracerStop; infer_instance
  detach _ := by unfold tracerDetach; infer_instance
  unsetOptions := inferInstance
  unregister _ := quiet_modifyProc (fun _ => rfl) (fun _ => rfl) (fun _ => rfl)
  unsetBeingDebugged _ := by unfold unsetBeingDebugged; infer_instance
  disableAll _ := inferInstance
  disableChild _ := inferInstance

/-! ## Requests are accepted once -/

/-- `request_detach` and `request_kill` do nothing if a request is pending; otherwise they set their
    flag and the reason, unless an exception stops them first. -/
theorem request_outcome (mark : Process → Process) (reason : Reason) (w : World) :
    Quiet w (final (request cfg mark reason) w) ∨
      w.proc.requested = false ∧ ∃ w₁, Quiet w w₁ ∧
        final (request cfg mark reason) w =
          { w₁ with proc := { mark w₁.proc with reason := reason } } := by
  have hget : (get : EngineM World) w = .ok w w := rfl
  unfold request
  rw [final_bind_ok hget]
  cases hr : w.proc.requested with
  | true => exact Or.inl (refl_of Quiet w)
  | false =>
    cases hs : stopThreads cfg w with
    | error e w₁ =>
      left
      rw [if_neg (by simp), final_bind_error hs]
      exact Within.of_error hs
    | ok u w₁ =>
      refine Or.inr ⟨rfl, w₁, Within.of_ok hs, ?_⟩
      rw [if_neg (by simp), final_bind_ok hs]
      rfl

theorem not_requested {p : Process} (h : p.requested = false) :
    p.pleaseDetach = false ∧ p.pleaseKill = false := by
  rwa [Process.requested, Bool.or_eq_false_iff] at h

/-- A request of kind `r` leaves everything as it is, or it was the first and is recorded. -/
def Asked (r : Request) (w w' : World) : Prop :=
  Quiet w w' ∨
    w.proc.requested = false ∧ w'.proc.Records r ∧ completions w'.log = completions w.log

theorem requestDetach_asked {r : Request} (hr : r ≠ .kill) (w : World) :
    Asked r w (final (requestDetach cfg r.reason) w) := by
  rcases @request_outcome cfg (fun p => { p with pleaseDetach := true }) r.reason w with
    h | ⟨hreq, w₁, hq, h⟩
  · exact Or.inl h
  · have hkill : w₁.proc.pleaseKill = false := hq.kill.trans (not_requested hreq).2
    unfold requestDetach
    rw [h]
    exact Or.inr ⟨hreq, ⟨by simp [hkill, hr], by simp [hr], rfl⟩, hq.completions⟩

theorem requestKill_asked (w : World) :
    Asked .kill w (final (requestKill cfg .feRequestedKill) w) := by
  rcases @request_outcome cfg (fun p => { p with pleaseKill := true }) .feRequestedKill w with
    h | ⟨hreq, w₁, hq, h⟩
  · exact Or.inl h
  · have hdetach : w₁.proc.pleaseDetach = false := hq.detach.trans (not_requested hreq).1
    unfold requestKill
    rw [h]
    exact Or.inr ⟨hreq, ⟨rfl, hdetach, rfl⟩, hq.completions⟩

/-! ## Command handlers reply once -/

/-- `say_fetofe_msg` sends a message at most once. -/
theorem final_sayFetofeMsg (m : FeToFeMsg) (w : World) :
    final (sayFetofeMsg cfg m) w = if cfg.apiMode then { w with log := w.log ++ [.said m] } else w := by
  unfold sayFetofeMsg whenever
  cases cfg.apiMode <;> rfl

/-- From `w`, with the request `r` pending, the reply may have been sent. -/
def Replied (r : Request) (w w' : World) : Prop :=
  Quiet w w' ∨ w'.proc.Records r ∧ completions w'.log = completions w.log ++ r.reply.toList

/-- Nothing happens to the reply before it is sent: a quiet function in front leaves it to the rest. -/
theorem replied_bind {α β : Type} {r : Request} {x : EngineM α} {f : α → EngineM β} [Within Quiet x]
    {w : World} (hw : w.proc.Records r)
    (h : ∀ a w₁, x w = .ok a w₁ → w₁.proc.Records r → Replied r w₁ (final (f a) w₁)) :
    Replied r w (final (x >>= f) w) := by
  cases hx : x w with
  | error e w₁ =>
    rw [final_bind_error hx]
    exact Or.inl (Within.of_error hx)
  | ok a w₁ =>
    have hq : Quiet w w₁ := Within.of_ok hx
    rw [final_bind_ok hx]
    rcases h a w₁ hx (hq.records hw) with h' | ⟨hrec, hc⟩
    · exact Or.inl (trans_of Quiet hq h')
    · exact Or.inr ⟨hrec, by rw [hc, hq.completions]⟩

/-- A reply stays the only one if nothing is said behind it. -/
theorem replied_then {α β : Type} {r : Request} {x : EngineM α} {f : α → EngineM β} {w : World}
    (h : Replied r w (final x w)) [hf : ∀ a, Within Quiet (f a)] :
    Replied r w (final (x >>= f) w) := by
  have hq : Quiet (final x w) (final (x >>= f) w) := by
    cases hx : x w with
    | error e w₁ =>
      rw [final_bind_error hx, final_error hx]
      exact refl_of Quiet w₁
    | ok a w₁ =>
      rw [final_bind_ok hx, final_ok hx]
      exact (hf a).out w₁
  rcases h with h | ⟨hrec, hc⟩
  · exact Or.inl (trans_of Quiet h hq)
  · exact Or.inr ⟨hq.records hrec, by rw [hq.completions, hc]⟩

theorem sayFetofeMsg_replied {r : Request} {m : FeToFeMsg} (hm : r.reply = some m)
    (hc : completes m = true) {w : World} (hr : w.proc.Records r) :
    Replied r w (final (sayFetofeMsg cfg m) w) := by
  rw [final_sayFetofeMsg]
  split
  · refine Or.inr ⟨hr, ?_⟩
    show completions (w.log ++ [.said m]) = _
    rw [completions_append, hm]
    simp [completions, hc]
  · exact Or.inl (refl_of Quiet w)

/-- The reply that `handle_detach_cmd_event` looks up is that of the pending request. -/
theorem detachReply_replied {r : Request} (hr : r ≠ .kill) {w : World} (hw : w.proc.Records r) :
    Replied r w (final (detachReply cfg r.reason) w) := by
  cases r with
  | detach => exact sayFetofeMsg_replied rfl rfl hw
  | shutdown =>
    exact replied_bind hw fun _ w₁ _ hw₁ => replied_bind hw₁ fun _ w₂ _ hw₂ =>
      sayFetofeMsg_replied rfl rfl hw₂
  | kill => exact absurd rfl hr
  | disconnect =>
    have hq : Within Quiet (detachReply cfg .feDisconnected) := by
      unfold detachReply; infer_instance
    exact Or.inl (hq.out w)
  | daemonExit => exact sayFetofeMsg_replied rfl rfl hw
  | engineSignal => exact sayFetofeMsg_replied rfl rfl hw

theorem handleDetachCmdEvent_replied {r : Request} (hr : r ≠ .kill) {w : World}
    (hw : w.proc.Records r) : Replied r w (final (handleDetachCmdEvent cfg) w) := by
  unfold handleDetachCmdEvent catchAll
  rw [final_catching]
  refine replied_bind hw fun _ w₁ _ hw₁ => replied_bind hw₁ fun w' w₂ hget hw₂ => ?_
  cases hget
  rw [hw₂.2.2]
  exact replied_then (detachReply_replied hr hw₂)

theorem handleKillCmdEvent_replied {w : World} (hw : w.proc.Records .kill) :
    Replied .kill w (final (handleKillCmdEvent cfg) w) := by
  unfold handleKillCmdEvent catchAll
  rw [final_catching]
  refine replied_bind hw fun _ w₁ _ hw₁ => replied_bind hw₁ fun _ w₂ _ hw₂ =>
    replied_bind hw₂ fun w' w₃ hget hw₃ => ?_
  cases hget
  refine replied_bind hw₃ fun _ w₄ _ hw₄ => ?_
  rw [hw₃.2.2]
  exact replied_then (sayFetofeMsg_replied rfl rfl hw₄)

/-! ## One event -/

/-- Without a command, a handler is quiet. -/
theorem invokeHandler_quiet {ev : Event} (hd : ev ≠ .stopForDetach) (hk : ev ≠ .stopForKill)
    (data : Nat) : Within Quiet (invokeHandler cfg ev data) := by
  cases ev with
  | stopForDetach => exact absurd rfl hd
  | stopForKill => exact absurd rfl hk
  | stopAtLaunchBp => exact inferInstanceAs (Within Quiet (handleLaunchBpEvent cfg))
  | stopNewForkedProcess => exact inferInstanceAs (Within Quiet (handleNewprocForkedEvent cfg))
  | stopAtFirstExec => exact inferInstanceAs (Within Quiet (handleTrapAfterExecEvent cfg))
  | stopAtFirstAttach => exact inferInstanceAs (Within Quiet (handleTrapAfterAttachEvent cfg))
  | stopAtLoaderBp => exact inferInstanceAs (Within Quiet (handleLoaderBpEvent cfg))
  | requestNewThread => exact inferInstanceAs (Within Quiet (handleThrcreateRequest data))
  | stopAtThreadCreation => exact inferInstanceAs (Within Quiet (handleThrcreateTrapEvent cfg))
  | stopNewThreadTrace => exact inferInstanceAs (Within Quiet (handleNewthreadTraceEvent cfg))
  | relaySignal => exact inferInstanceAs (Within Quiet (handleRelaySignalEvent cfg data))
  | stopNotInterested => exact inferInstanceAs (Within Quiet (handleNotInterestedEvent cfg))
  | terminated => exact inferInstanceAs (Within Quiet (handleTermEvent cfg))
  | exited => exact inferInstanceAs (Within Quiet (handleExitEvent cfg))
  | hitABp => exact inferInstanceAs (Within Quiet (pure _))
  | invalid => exact inferInstanceAs (Within Quiet (pure _))

/-- Command events are deciphered only when their flag is set. -/
theorem classify_command {p : Process} {pid : Option LwpId} {pc : VA} {signum event : Nat} :
    (classify cfg p pid pc signum event = .stopForDetach → p.pleaseDetach = true) ∧
      (classify cfg p pid pc signum event = .stopForKill → p.pleaseKill = true) := by
  have hchosen := classify_chosen cfg p pid pc signum event
  constructor
  · intro hev
    rw [hev] at hchosen
    cases hchosen with
    | detach hn hd => exact hd
  · intro hev
    rw [hev] at hchosen
    cases hchosen with
    | kill hn hd hk => exact hk

theorem decipherAnEvent_command {r : Report} {ev : Event} {w w' : World}
    (h : decipherAnEvent cfg r w = .ok ev w') : w' = w ∧
      (ev = .stopForDetach → w.proc.pleaseDetach = true) ∧
      (ev = .stopForKill → w.proc.pleaseKill = true) := by
  have hw : w = w' := Within.of_ok (R := Eq) h
  subst hw
  cases r with
  | stopped signum event =>
    obtain ⟨regs, w₁, -, h⟩ := bind_eq_ok h
    obtain ⟨pid, w₂, -, h⟩ := bind_eq_ok h
    obtain ⟨w₃, w₄, hget, h⟩ := bind_eq_ok h
    cases hget
    cases h
    exact ⟨rfl, classify_command⟩
  | exited => cases h; exact ⟨rfl, by simp, by simp⟩
  | terminated => cases h; exact ⟨rfl, by simp, by simp⟩

/-- A command handler answers the request that is recorded. -/
theorem invokeHandler_command {ev : Event} {r : Request} {w : World} (hr : w.proc.Records r)
    (hd : ev = .stopForDetach → w.proc.pleaseDetach = true)
    (hk : ev = .stopForKill → w.proc.pleaseKill = true)
    (hev : ev = .stopForDetach ∨ ev = .stopForKill) (data : Nat) :
    Replied r w (final (invokeHandler cfg ev data) w) := by
  rcases hev with rfl | rfl
  · have hne : r ≠ .kill := by simpa [hd rfl] using hr.2.1
    exact handleDetachCmdEvent_replied hne hr
  · have hkill : r = .kill := by simpa [hk rfl] using hr.1
    subst hkill
    exact handleKillCmdEvent_replied hr

/-- What an event does to a request: nothing, or the reply is sent and the engine does not go on. -/
def Handled (x : EngineM Rc) (w : World) : Prop :=
  Quiet w (final x w) ∨
    w.proc.requested = true ∧ (∀ r, w.proc.Records r → Replied r w (final x w)) ∧
      ∀ w', x w ≠ .ok .ok w'

theorem handleEvent_handled (id : LwpId) (rep : Report) (w : World) :
    Handled (handleEvent cfg id rep) w := by
  unfold Handled
  unfold handleEvent
  cases hm : makeContext id w with
  | error e w₁ =>
    rw [final_bind_error hm]
    exact Or.inl (Within.of_error hm)
  | ok u w₁ =>
    have hq : Quiet w w₁ := Within.of_ok hm
    cases hd : decipherAnEvent cfg rep w₁ with
    | error e w₂ =>
      rw [final_bind_ok hm, final_bind_error hd]
      exact Or.inl (trans_of Quiet hq (Within.of_error hd))
    | ok ev w₂ =>
      obtain ⟨rfl, hdetach, hkill⟩ := decipherAnEvent_command hd
      by_cases hev : ev = .stopForDetach ∨ ev = .stopForKill
      · right
        refine ⟨?_, fun r hr => ?_, ?_⟩
        · rw [← hq.requested, Process.requested]
          rcases hev with hev | hev
          · rw [hdetach hev, Bool.true_or]
          · rw [hkill hev, Bool.or_true]
        · refine replied_bind hr fun _ w₃ hm' hr' => ?_
          rw [hm] at hm'
          cases hm'
          refine replied_bind hr' fun _ w₃ hd' hr' => ?_
          rw [hd] at hd'
          cases hd'
          exact replied_then (invokeHandler_command hr' hdetach hkill hev _)
        · intro w' h
          rw [ok_bind hm, ok_bind hd] at h
          obtain ⟨rc, w₃, hrc, h⟩ := bind_eq_ok h
          obtain ⟨u, w₄, -, h⟩ := bind_eq_ok h
          cases h
          rcases hev with rfl | rfl
          · exact handleDetachCmdEvent_never _ _ hrc
          · exact handleKillCmdEvent_never _ _ hrc
      · obtain ⟨hne, hne'⟩ := not_or.mp hev
        have := @invokeHandler_quiet cfg ev hne hne'
        rw [final_bind_ok hm, final_bind_ok hd]
        exact Or.inl (trans_of Quiet hq (Within.out _))

theorem Handled.bind {α : Type} {x : EngineM α} {f : α → EngineM Rc} [Within Quiet x] {w : World}
    (h : ∀ a w₁, x w = .ok a w₁ → Handled (f a) w₁) : Handled (x >>= f) w := by
  cases hx : x w with
  | error e w₁ =>
    left
    rw [final_bind_error hx]
    exact Within.of_error hx
  | ok a w₁ =>
    have hq : Quiet w w₁ := Within.of_ok hx
    rcases h a w₁ hx with h' | ⟨hreq, hrep, hne⟩
    · left
      rw [final_bind_ok hx]
      exact trans_of Quiet hq h'
    · refine Or.inr ⟨hq.requested ▸ hreq, fun r hr => ?_, fun w' h' => ?_⟩
      · refine replied_bind hr fun a' w₂ hx' hr' => ?_
        rw [hx] at hx'
        cases hx'
        exact hrep r hr'
      · rw [ok_bind hx] at h'
        exact hne w' h'

theorem Handled.of_within {x : EngineM Rc} [h : Within Quiet x] (w : World) : Handled x w :=
  Or.inl (h.out w)

theorem pollEvent_handled {id : LwpId} {w : World} (hid : some id ≠ w.lmon.toollauncherpid)
    (en : Entity) (rep : Report) : Handled (pollEvent cfg id en rep) w := by
  unfold pollEvent
  refine Handled.bind fun w₁ w₂ hget => ?_
  cases hget
  cases en with
  | process =>
    dsimp only
    split
    · exact handleEvent_handled id rep w
    · cases rep with
      | stopped =>
        have := @invokeHandler_quiet cfg .stopNewForkedProcess (by decide) (by decide) id
        exact Handled.of_within (x := do
          makeContext id
          let rc ← invokeHandler cfg .stopNewForkedProcess id
          checkAndUndoContext id
          pure rc) w
      | exited => exact Handled.of_within (x := pure _) w
      | terminated => exact Handled.of_within (x := pure _) w
  | thread =>
    have : Within Quiet (enterThread cfg id rep) := by
      have := @invokeHandler_quiet cfg .requestNewThread (by decide) (by decide) id
      cases rep <;> unfold enterThread <;> infer_instance
    refine Handled.bind fun rc w₁ _ => Handled.bind fun w' w₂ hget => ?_
    cases hget
    split
    · exact handleEvent_handled id rep w₁
    · exact Handled.of_within (x := pure _) w₁

/-- A message of the front end makes its request, if it makes one. -/
theorem handleIncomingSocketEvent_asked (m : FeInput) (w : World) :
    Quiet w (final (handleIncomingSocketEvent cfg m) w) ∨
      ∃ r, (Label.fe m).request cfg = some r ∧
        Asked r w (final (handleIncomingSocketEvent cfg m) w) := by
  unfold handleIncomingSocketEvent catchAll
  rw [final_catching]
  cases hapi : cfg.apiMode with
  | false => exact Or.inl (refl_of Quiet w)
  | true =>
    rw [if_neg (by decide)]
    cases m with
    | disconnected =>
      refine Or.inr ⟨.disconnect, if_pos hapi, ?_⟩
      rw [final_bind_pure]
      exact requestDetach_asked (by decide) w
    | illFormed => exact Or.inl (refl_of Quiet w)
    | msg type =>
      cases type with
      | detach =>
        refine Or.inr ⟨.detach, if_pos hapi, ?_⟩
        rw [final_bind_pure]
        exact requestDetach_asked (by decide) w
      | kill =>
        refine Or.inr ⟨.kill, if_pos hapi, ?_⟩
        rw [final_bind_pure]
        exact requestKill_asked w
      | shutdownbe =>
        refine Or.inr ⟨.shutdown, if_pos hapi, ?_⟩
        rw [final_bind_pure]
        exact requestDetach_asked (by decide) w
      | contLaunchBp =>
        left
        rw [final_bind_pure]
        exact Within.out w
      | _ => exact Or.inl (refl_of Quiet w)

theorem handleDaemonExitEvent_asked (w : World) :
    Quiet w (final (handleDaemonExitEvent cfg) w) ∨
      cfg.failDetectSup = true ∧ Asked .daemonExit w (final (handleDaemonExitEvent cfg) w) := by
  unfold handleDaemonExitEvent catchAll whenever
  rw [final_catching, final_bind_pure]
  cases cfg.failDetectSup with
  | false => exact Or.inl (refl_of Quiet w)
  | true => exact Or.inr ⟨rfl, requestDetach_asked (by decide) w⟩

/-- The end of the tool launcher. -/
theorem pollEvent_tool {t : LwpId} {w : World} (ht : w.lmon.toollauncherpid = some t)
    (hne : t ≠ cfg.pid) (killed : Bool) :
    pollEvent cfg t .process (if killed then .terminated else .exited) w =
      handleDaemonExitEvent cfg w := by
  unfold pollEvent
  rw [ok_bind (show (get : EngineM World) w = .ok w w from rfl)]
  dsimp only
  rw [if_neg hne, if_pos ht.symm]
  cases killed <;> rfl

/-! ## One step -/

/-- What a step does to requests: nothing, or it makes the first one, or it answers the one that is
    pending and ends the engine. -/
def Outcome (cfg : Config) (a : Label) (s s' : Sys) : Prop :=
  Quiet s.w s'.w ∨
    (∃ r, a.request cfg = some r ∧ s.w.proc.requested = false ∧ s'.w.proc.Records r ∧
      completions s'.w.log = completions s.w.log) ∨
    (s.w.proc.requested = true ∧ s'.mode = .ended ∧ ∀ r, s.w.proc.Records r → Replied r s.w s'.w)

theorem Outcome.of_asked {a : Label} {r : Request} {s s' : Sys} (ha : a.request cfg = some r)
    (h : Asked r s.w s'.w) : Outcome cfg a s s' := by
  rcases h with h | h
  · exact Or.inl h
  · exact Or.inr (Or.inl ⟨r, ha, h⟩)

theorem Outcome.of_handled {a : Label} {s₀ s : Sys} {x : EngineM Rc} (hq : Quiet s₀.w s.w)
    (h : Handled x s.w) : Outcome cfg a s₀ (s.run x) := by
  unfold Outcome
  rw [Sys.run_w]
  rcases h with h | ⟨hreq, hrep, hne⟩
  · exact Or.inl (trans_of Quiet hq h)
  · refine Or.inr (Or.inr ⟨hq.requested ▸ hreq, Sys.run_ended hne, fun r hr => ?_⟩)
    rcases hrep r (hq.records hr) with h | ⟨hrec, hc⟩
    · exact Or.inl (trans_of Quiet hq h)
    · exact Or.inr ⟨hrec, by rw [hc, hq.completions]⟩

theorem step_outcome {s s' : Sys} {a : Label} (h : s.step cfg a = some s') :
    Outcome cfg a s s' := by
  have hrefl : Quiet s.w s.w := refl_of Quiet s.w
  cases a with
  | env a =>
    obtain ⟨-, T, -, rfl⟩ := Sys.step_env h
    exact Or.inl ⟨rfl, rfl, rfl, rfl⟩
  | poll t =>
    obtain ⟨-, l, r, -, -, hid, -, rfl⟩ := Sys.step_poll h
    have hid' : some t ≠ (s.w.reap t l).lmon.toollauncherpid := hid
    exact Outcome.of_handled ⟨rfl, rfl, rfl, rfl⟩ (pollEvent_handled hid' l.entity r)
  | pollTool killed =>
    obtain ⟨-, t, ht, rfl⟩ := Sys.step_pollTool h
    by_cases hpid : t = cfg.pid
    · subst hpid
      refine Outcome.of_handled hrefl ?_
      refine Handled.bind fun w₁ w₂ hget => ?_
      cases hget
      dsimp only
      rw [if_pos rfl]
      exact handleEvent_handled _ _ _
    · rcases @handleDaemonExitEvent_asked cfg s.w with h | ⟨hsup, h⟩
      · left
        rwa [Sys.run_w, final, pollEvent_tool ht hpid]
      · refine Outcome.of_asked (r := .daemonExit) (if_pos hsup) ?_
        rwa [Sys.run_w, final, pollEvent_tool ht hpid]
  | idle =>
    obtain ⟨-, rfl⟩ := Sys.step_idle h
    exact Or.inl hrefl
  | fe m =>
    obtain ⟨-, rfl⟩ := Sys.step_fe h
    rcases @handleIncomingSocketEvent_asked cfg m s.w with h | ⟨r, ha, h⟩
    · exact Or.inl (by rwa [Sys.run_w])
    · exact Outcome.of_asked ha (by rwa [Sys.run_w])
  | signal =>
    obtain ⟨-, hw, -⟩ := Sys.step_signal h
    refine Outcome.of_asked (r := .engineSignal) rfl ?_
    rw [hw]
    exact requestDetach_asked (by decide) s.w

theorem Process.Records.requested {p : Process} {r : Request} (h : p.Records r) :
    p.requested = true := by
  rw [Process.requested, h.1, h.2.1]
  cases r <;> rfl

/-! ## Runs -/

/-- **The phases of a run.**  There is no request yet, or the first one is pending, or it is
    answered. -/
inductive Phase (cfg : Config) (s₀ s : Sys) : Prop
  | none (h : s.w.proc.requested = false) (hc : completions s.w.log = [])
  | pending (r : Request) (h : AcceptedFirst cfg s₀ s r) (hr : s.w.proc.Records r)
      (hc : completions s.w.log = [])
  | answered (r : Request) (h : AcceptedFirst cfg s₀ s r) (hr : s.w.proc.Records r)
      (hm : s.mode = .ended) (hc : completions s.w.log = r.reply.toList)

theorem AcceptedFirst.step {s₀ s s' : Sys} {r : Request} {a : Label}
    (h : AcceptedFirst cfg s₀ s r) (hs : s.step cfg a = some s') : AcceptedFirst cfg s₀ s' r := by
  obtain ⟨s₁, b, s₂, h₁, hn, hb, h₂, hreq, hrun⟩ := h
  exact ⟨s₁, b, s₂, h₁, hn, hb, h₂, hreq, hrun.step trivial hs⟩

theorem Phase.step {s₀ s s' : Sys} {a : Label} (h₀ : Run cfg (fun _ _ => True) s₀ s)
    (h : Phase cfg s₀ s) (hs : s.step cfg a = some s') : Phase cfg s₀ s' := by
  cases h with
  | none h hc =>
    rcases step_outcome hs with hq | ⟨r, ha, -, hr, hc'⟩ | ⟨hreq, -, -⟩
    · exact .none (hq.requested.trans h) (hq.completions.trans hc)
    · exact .pending r ⟨s, a, s', h₀, h, ha, hs, hr.requested, .refl⟩ hr (hc'.trans hc)
    · exact absurd (h.symm.trans hreq) (by decide)
  | pending r h hr hc =>
    rcases step_outcome hs with hq | ⟨r', -, hreq, -⟩ | ⟨-, hm, hrep⟩
    · exact .pending r (h.step hs) (hq.records hr) (hq.completions.trans hc)
    · exact absurd (hreq.symm.trans hr.requested) (by decide)
    · rcases hrep r hr with hq | ⟨hr', hc'⟩
      · exact .pending r (h.step hs) (hq.records hr) (hq.completions.trans hc)
      · exact .answered r (h.step hs) hr' hm (by rw [hc', hc, List.nil_append])
  | answered r h hr hm hc => exact absurd hm (Sys.step_alive hs)

theorem Phase.of_run {s₀ s : Sys} (h₀ : Initial cfg s₀) (h : Run cfg (fun _ _ => True) s₀ s) :
    Phase cfg s₀ s := by
  induction h with
  | refl =>
    obtain ⟨T, -, rfl⟩ := h₀
    exact .none rfl rfl
  | step h ha hs ih => exact ih.step h hs

/-- A request that is recorded stays recorded. -/
theorem records_of_run {s s' : Sys} {r : Request} (h : Run cfg (fun _ _ => True) s s')
    (hr : s.w.proc.Records r) : s'.w.proc.Records r := by
  refine h.invariant (I := fun s => s.w.proc.Records r) hr fun s s' a hr _ hs => ?_
  rcases step_outcome hs with hq | ⟨r', -, hreq, -⟩ | ⟨-, -, hrep⟩
  · exact hq.records hr
  · exact absurd (hreq.symm.trans hr.requested) (by decide)
  · rcases hrep r hr with hq | ⟨hr', -⟩
    · exact hq.records hr
    · exact hr'

theorem Process.Records.unique {p : Process} {r r' : Request} (h : p.Records r)
    (h' : p.Records r') : r = r' := by
  have hreason := h.2.2.symm.trans h'.2.2
  cases r <;> cases r' <;> first | rfl | exact absurd hreason (by decide)

/-- The first request that was accepted is recorded. -/
theorem AcceptedFirst.records {s₀ s : Sys} {r : Request} (h : AcceptedFirst cfg s₀ s r) :
    s.w.proc.Records r := by
  obtain ⟨s₁, a, s₂, -, hn, ha, h₂, hreq, hrun⟩ := h
  refine records_of_run hrun ?_
  rcases step_outcome h₂ with hq | ⟨r', ha', -, hr, -⟩ | ⟨hreq', -, -⟩
  · exact absurd (hn.symm.trans (hq.requested.symm.trans hreq)) (by decide)
  · cases ha.symm.trans ha'
    exact hr
  · exact absurd (hn.symm.trans hreq') (by decide)

/-- **Requests exclude each other and the first one is answered at most once.**  In every run, the
    two flags are never both set; once one is set, flags and reason stay; they record the first
    request that was accepted; and the front end gets no completion message, or one, which is the
    message of that request. -/
theorem requests_exclusive {s₀ s s' : Sys} (h₀ : Initial cfg s₀)
    (h : Run cfg (fun _ _ => True) s₀ s) (h' : Run cfg (fun _ _ => True) s s') :
    ¬(s.w.proc.pleaseDetach = true ∧ s.w.proc.pleaseKill = true) ∧
    (s.w.proc.requested = true →
      s'.w.proc.pleaseDetach = s.w.proc.pleaseDetach ∧
      s'.w.proc.pleaseKill = s.w.proc.pleaseKill ∧ s'.w.proc.reason = s.w.proc.reason) ∧
    (s.w.proc.requested = true ↔ ∃ r, AcceptedFirst cfg s₀ s r) ∧
    (s.w.proc.requested = false → completions s.w.log = []) ∧
    ∀ r, AcceptedFirst cfg s₀ s r → s.w.proc.Records r ∧
      (completions s.w.log = [] ∨ completions s.w.log = r.reply.toList) := by
  have hphase := Phase.of_run h₀ h
  -- a flag is only raised by a request that was accepted first
  have hex : s.w.proc.requested = true → ∃ r, AcceptedFirst cfg s₀ s r := by
    intro hreq
    cases hphase with
    | none hn hc => exact absurd (hn.symm.trans hreq) (by decide)
    | pending r ha hr hc => exact ⟨r, ha⟩
    | answered r ha hr hm hc => exact ⟨r, ha⟩
  refine ⟨?_, ?_, ⟨hex, fun ⟨r, ha⟩ => ha.records.requested⟩, ?_, ?_⟩
  · rintro ⟨hd, hk⟩
    obtain ⟨r, ha⟩ := hex (by rw [Process.requested, hd, Bool.true_or])
    have hr := ha.records
    rw [hr.1] at hk
    rw [hr.2.1] at hd
    exact of_decide_eq_true hd (of_decide_eq_true hk)
  · intro hreq
    obtain ⟨r, ha⟩ := hex hreq
    have hr := ha.records
    have hr' := records_of_run h' hr
    exact ⟨hr'.2.1.trans hr.2.1.symm, hr'.1.trans hr.1.symm, hr'.2.2.trans hr.2.2.symm⟩
  · intro hn
    cases hphase with
    | none hn hc => exact hc
    | pending r ha hr hc => exact absurd (hn.symm.trans hr.requested) (by decide)
    | answered r ha hr hm hc => exact absurd (hn.symm.trans hr.requested) (by decide)
  · intro r ha
    refine ⟨ha.records, ?_⟩
    cases hphase with
    | none hn hc => exact Or.inl hc
    | pending r' ha' hr hc => exact Or.inl hc
    | answered r' ha' hr hm hc =>
      cases ha.records.unique hr
      exact Or.inr hc

/-- The front end detaches; a kill that comes later changes nothing. -/
def detachRun : List Label :=
  [.poll 100, .fe (.msg .detach), .fe (.msg .kill), .env (.signal 100 sigstop), .poll 100]

theorem requests_exclusive_detach : ∃ s : Sys,
    (Sys.start sample (sampleTarget 0x1010 [])).runAll sample detachRun = some s ∧
    completions s.w.log = [.detachDone] ∧ s.w.proc.requested = true ∧
    ¬(s.w.proc.pleaseDetach = true ∧ s.w.proc.pleaseKill = true) ∧
    ∀ r, AcceptedFirst sample (Sys.start sample (sampleTarget 0x1010 [])) s r →
      s.w.proc.Records r ∧ r.reply = some .detachDone := by
  have hrun : ((Sys.start sample (sampleTarget 0x1010 [])).runAll sample detachRun).map
      (fun s => (completions s.w.log, s.w.proc.requested)) = some ([.detachDone], true) := by
    decide +kernel
  obtain ⟨s, hs, hc⟩ := Option.map_eq_some_iff.mp hrun
  obtain ⟨hc, hreq⟩ := Prod.mk.inj hc
  obtain ⟨hone, -, -, -, hall⟩ :=
    requests_exclusive ⟨_, sample_launched _ _, rfl⟩ (Run.of_runAll _ hs) .refl
  refine ⟨s, hs, hc, hreq, hone, fun r ha => ⟨(hall r ha).1, ?_⟩⟩
  have hr := (hall r ha).2
  rw [hc] at hr
  cases hrep : r.reply with
  | none => simp [hrep] at hr
  | some m => simpa [hrep, eq_comm] using hr

end LaunchMON.Engine
