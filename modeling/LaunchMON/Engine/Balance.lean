/-
  The balance of `make_context` and `check_and_undo_context`.

  1. **Brackets.**  A context is set and undone by two calls with code in between that may throw.  If
     that code returns and has left the contexts alone, the second call undoes the first
     (`undo_push`), whatever lies below on the stack.

  2. **Loops.**  What the loops of the requests and of the commands run for a thread never throws: it
     asks for a status, or it makes requests whose failure is a return value.  So they keep `Level`,
     and with them all handlers do, by the frames of `Frames`.

  3. **Runs.**  An event is taken up in a state without a new child, with the launcher in the list and
     each thread in it once (`Run.ready`).

  4. **The exception.**  `request_cont_launch_bp` continues each held thread in its context, and
     `tracer_continue` does throw, for a thread that has died.  The exception is caught by
     `handle_incoming_socket_event`, and the context stays (`contHeld_dead`).

  So the contexts are as before after every event exactly if no thread that is held has died when the
  front end asks for it to go on (`contexts_balanced_iff`).
-/
import LaunchMON.Engine.ThreadList

namespace LaunchMON.Engine

open Effect Lmonp

set_option synthInstance.maxSize 4096

variable {cfg : Config}

/-! ## Brackets -/

/-- The contexts of two states are the same. -/
structure SameContexts (w w' : World) : Prop where
  stack : w'.proc.threadCtxStack = w.proc.threadCtxStack
  child : w'.proc.newChildPid = w.proc.newChildPid

theorem SameContexts.trans {w w' w'' : World} (h : SameContexts w w') (h' : SameContexts w' w'') :
    SameContexts w w'' := ⟨h'.stack.trans h.stack, h'.child.trans h.child⟩

theorem Steady.same {w w' : World} (h : Steady cfg w w') : SameContexts w w' := ⟨h.stack, h.child⟩

/-- The context of `t`, on top of what is there. -/
def World.push (w : World) (t : LwpId) : World :=
  if w.proc.hasThr t then
    { w with proc := { w.proc with threadCtxStack := t :: w.proc.threadCtxStack } }
  else { w with proc := { w.proc with newChildPid := some t } }

/-- The contexts of `w`, in the state `w₂`. -/
def World.pop (w w₂ : World) : World :=
  { w₂ with proc := { w₂.proc with
    threadCtxStack := w.proc.threadCtxStack, newChildPid := w.proc.newChildPid } }

theorem makeContext_push {w : World} (h : w.proc.newChildPid = none) (t : LwpId) :
    makeContext t w = .ok () (w.push t) := by
  have hget : (get : EngineM World) w = .ok w w := rfl
  unfold makeContext World.push
  rw [ok_bind hget]
  by_cases ht : w.proc.hasThr t = true
  · rw [if_pos ht, if_pos ht]
    rfl
  · rw [if_neg ht, if_neg ht, if_pos h]
    rfl

/-- What has left the contexts alone is undone. -/
theorem undo_push {w w₂ : World} {t : LwpId} (h : w.proc.newChildPid = none)
    (hsame : SameContexts (w.push t) w₂) : checkAndUndoContext t w₂ = .ok () (w.pop w₂) := by
  have hget : (get : EngineM World) w₂ = .ok w₂ w₂ := rfl
  obtain ⟨hs, hc⟩ := hsame
  unfold checkAndUndoContext World.pop
  rw [ok_bind hget]
  unfold World.push at hs hc
  by_cases ht : w.proc.hasThr t = true
  · rw [if_pos ht] at hs hc
    dsimp only at hs hc
    rw [hc, h, if_neg (Option.some_ne_none t).symm, hs, if_pos List.head?_cons]
    show EStateM.Result.ok _ _ = EStateM.Result.ok _ _
    simp only [hs, hc, h, List.tail_cons]
  · rw [if_neg ht] at hs hc
    dsimp only at hs hc
    rw [hc, if_pos rfl]
    show EStateM.Result.ok _ _ = EStateM.Result.ok _ _
    simp only [hs, h]

theorem SameContexts.pop (w w₂ : World) : SameContexts w (w.pop w₂) := ⟨rfl, rfl⟩

/-! ## Functions that do not throw -/

/-- `get_pid` has a context to look at. -/
def World.Contextual (w : World) : Prop :=
  w.proc.newChildPid.isSome = true ∨ w.proc.threadCtxStack ≠ []

theorem World.push_contextual (w : World) (t : LwpId) : (w.push t).Contextual := by
  unfold World.push
  split
  · exact Or.inr (List.cons_ne_nil _ _)
  · exact Or.inl rfl

theorem SameContexts.contextual {w w' : World} (h : SameContexts w w') (hc : w.Contextual) :
    w'.Contextual := by
  unfold World.Contextual
  rw [h.stack, h.child]
  exact hc

theorem focus?_contextual {w : World} (h : w.Contextual) : ∃ o, focus? cfg true w = .ok o w := by
  have hget : (get : EngineM World) w = .ok w w := rfl
  have hpid : ∃ q, getPid cfg true w = .ok q w := by
    unfold getPid
    rw [ok_bind hget, if_neg (by decide)]
    cases hc : w.proc.newChildPid with
    | some u => exact ⟨some u, rfl⟩
    | none =>
      cases hs : w.proc.threadCtxStack with
      | nil =>
        rcases h with h | h
        · rw [hc] at h
          cases h
        · exact absurd hs h
      | cons t ts => exact ⟨if w.proc.hasThr t then some t else none, rfl⟩
  obtain ⟨q, hq⟩ := hpid
  unfold focus?
  rw [ok_bind hq, ok_bind hget]
  exact ⟨_, rfl⟩

/-- In a context the program returns. -/
def Quietly (x : EngineM Unit) : Prop := ∀ w, w.Contextual → ∃ w', x w = .ok () w'

theorem tracerOptions_quietly (on : Bool) : Quietly (tracerOptions cfg true on) := by
  intro w h
  obtain ⟨o, ho⟩ := @focus?_contextual cfg w h
  unfold tracerOptions
  rw [ok_bind ho]
  cases o.filter fun p => decide p.2.Ptraceable with
  | none => exact ⟨w, rfl⟩
  | some p => exact ⟨_, rfl⟩

theorem tracerDetach_quietly : Quietly (tracerDetach cfg true) := by
  intro w h
  obtain ⟨o, ho⟩ := @focus?_contextual cfg w h
  unfold tracerDetach
  rw [ok_bind ho]
  cases o.filter fun p => decide p.2.Ptraceable with
  | none => exact ⟨w, rfl⟩
  | some p => exact ⟨_, rfl⟩

theorem tracerStop_quietly : Quietly (tracerStop cfg true) := by
  intro w h
  obtain ⟨o, ho⟩ := @focus?_contextual cfg w h
  unfold tracerStop
  rw [ok_bind ho]
  cases o with
  | none => exact ⟨w, rfl⟩
  | some p => exact ⟨_, rfl⟩

/-- A request that depends on the status of the thread. -/
theorem quietly_of_status {x : EngineM Unit} (hx : Quietly x) (c : TraceStatus → Bool) :
    Quietly (do
      let st ← tracerStatus cfg true
      whenever (c st) x) := by
  intro w h
  have hst : ∃ st, tracerStatus cfg true w = .ok st w := by
    obtain ⟨o, ho⟩ := @focus?_contextual cfg w h
    unfold tracerStatus
    rw [ok_bind ho]
    exact ⟨_, rfl⟩
  obtain ⟨st, hst⟩ := hst
  rw [ok_bind hst]
  cases c st with
  | false => exact ⟨w, rfl⟩
  | true => exact hx w h

theorem Quietly.seq (cfg : Config) {x y : EngineM Unit} [Within (Steady cfg) x] (hx : Quietly x)
    (hy : Quietly y) : Quietly (do x; y) := by
  intro w h
  obtain ⟨w₁, h₁⟩ := hx w h
  have hst : Steady cfg w w₁ := Within.of_ok h₁
  rw [ok_bind h₁]
  exact hy w₁ (hst.same.contextual h)

/-! ## Loops -/

/-- `Steady`, where there is no new child. -/
def Level (cfg : Config) (w w' : World) : Prop := w.proc.newChildPid = none → Steady cfg w w'

instance : IsPreorder World (Level cfg) where
  refl w _ := refl_of (Steady cfg) w
  trans _ _ _ h₁ h₂ hc := trans_of (Steady cfg) (h₁ hc) (h₂ ((h₁ hc).child.trans hc))

instance (priority := low) {α : Type} {x : EngineM α} [h : Within (Steady cfg) x] :
    Within (Level cfg) x := ⟨fun w _ => h.out w⟩

theorem World.push_hasThr (w : World) (t u : LwpId) :
    (w.push t).proc.hasThr u = w.proc.hasThr u := by
  unfold World.push
  split <;> rfl

/-- A context is set, something is done in it that leaves the contexts alone, and it is undone. -/
theorem steady_pop {w w₂ : World} {t : LwpId} (hst : Steady cfg (w.push t) w₂) :
    Steady cfg w (w.pop w₂) := by
  refine ⟨rfl, rfl, fun hp => hst.pid ?_⟩
  rwa [World.push_hasThr]

/-- A loop over a list of threads returns and leaves the contexts alone. -/
theorem each_level (cfg : Config) {c : Thr → Bool} {x : EngineM Unit} [Within (Steady cfg) x]
    (hx : Quietly x) :
    ∀ (es : List (LwpId × Thr)) (w : World), w.proc.newChildPid = none →
      ∃ w', each es (fun e => whenever (c e.2) do
        makeContext e.1
        x
        checkAndUndoContext e.1) w = .ok () w' ∧ Steady cfg w w' := by
  intro es
  induction es with
  | nil => exact fun w _ => ⟨w, rfl, refl_of (Steady cfg) w⟩
  | cons e es ih =>
    intro w h
    have hone : ∃ w₁, (whenever (c e.2) do
        makeContext e.1
        x
        checkAndUndoContext e.1 : EngineM Unit) w = .ok () w₁ ∧ Steady cfg w w₁ := by
      cases c e.2 with
      | false => exact ⟨w, rfl, refl_of (Steady cfg) w⟩
      | true =>
        obtain ⟨w₂, h₂⟩ := hx _ (w.push_contextual e.1)
        have hst : Steady cfg (w.push e.1) w₂ := Within.of_ok h₂
        refine ⟨w.pop w₂, ?_, steady_pop hst⟩
        exact (ok_bind (makeContext_push h e.1)).trans ((ok_bind h₂).trans (undo_push h hst.same))
    obtain ⟨w₁, h₁, hst⟩ := hone
    obtain ⟨w', h', hst'⟩ := ih w₁ (hst.child.trans h)
    exact ⟨w', (ok_bind h₁).trans h', trans_of (Steady cfg) hst hst'⟩

theorem eachThr_level (cfg : Config) {c : Thr → Bool} {x : EngineM Unit} [Within (Steady cfg) x]
    (hx : Quietly x) {w : World} (h : w.proc.newChildPid = none) :
    ∃ w', eachThr c x w = .ok () w' ∧ Steady cfg w w' := each_level cfg hx _ w h

theorem within_eachThr_level {c : Thr → Bool} {x : EngineM Unit} [Within (Steady cfg) x]
    (hx : Quietly x) : Within (Level cfg) (eachThr c x) := by
  refine ⟨fun w h => ?_⟩
  obtain ⟨w', hw', hst⟩ := eachThr_level (c := c) cfg hx h
  rwa [final_ok hw']

/-- The loops that set a context for each thread, except for that of `request_cont_launch_bp`. -/
def threadLoops (cfg : Config) : List (EngineM Unit) :=
  [eachThr (fun r => !r.master) do
      tracerOptions cfg true false
      tracerDetach cfg true,
    eachThr (fun r => !r.master) (detachStopped cfg true),
    stopThreads cfg]

theorem detachStopped_quietly : Quietly (detachStopped cfg true) :=
  quietly_of_status tracerDetach_quietly fun st => decide (st = .stopped)

theorem stopRunning_quietly : Quietly (stopRunning cfg) :=
  quietly_of_status tracerStop_quietly fun st => decide (st = .running)

instance (b : Bool) : Within (Steady cfg) (detachStopped cfg b) := by
  unfold detachStopped; infer_instance

instance : Within (Steady cfg) (stopRunning cfg) := by unfold stopRunning; infer_instance

/-- Every such loop returns and leaves the contexts alone. -/
theorem threadLoops_level {x : EngineM Unit} (hx : x ∈ threadLoops cfg) {w : World}
    (h : w.proc.newChildPid = none) : ∃ w', x w = .ok () w' ∧ Steady cfg w w' := by
  rcases List.mem_cons.mp hx with rfl | hx
  · exact eachThr_level cfg ((tracerOptions_quietly false).seq cfg tracerDetach_quietly) h
  rcases List.mem_cons.mp hx with rfl | hx
  · exact eachThr_level cfg detachStopped_quietly h
  rw [List.mem_singleton.mp hx]
  exact eachThr_level cfg stopRunning_quietly h

/-! ## Handlers -/

instance : Within (Level cfg) (letGo cfg) := by
  have : Within (Level cfg) (eachThr (fun r => !r.master) do
      tracerOptions cfg true false
      tracerDetach cfg true) :=
    within_eachThr_level ((tracerOptions_quietly false).seq cfg tracerDetach_quietly)
  have : Within (Steady cfg) (disableAllBPs cfg false true) := by
    unfold disableAllBPs; infer_instance
  have : Within (Steady cfg) (unsetBeingDebugged cfg false) := by
    unfold unsetBeingDebugged; infer_instance
  unfold letGo; infer_instance

instance (m : FeToFeMsg) : Within (Steady cfg) (sayFetofeMsg cfg m) := by
  unfold sayFetofeMsg; infer_instance

instance : Within (Level cfg) (handleDetachCmdEvent cfg) := by
  have : ∀ r, Within (Steady cfg) (detachReply cfg r) := by
    intro r
    cases r <;> dsimp only [detachReply] <;> infer_instance
  unfold handleDetachCmdEvent; infer_instance

instance : Within (Level cfg) (handleKillCmdEvent cfg) := by
  have : ∀ r, Within (Steady cfg) (killReply cfg r) := by
    intro r
    cases r <;> dsimp only [killReply] <;> infer_instance
  unfold handleKillCmdEvent; infer_instance

instance : Within (Level cfg) (launchAborting cfg) := by
  have : Within (Level cfg) (eachThr (fun r => !r.master) (detachStopped cfg true)) :=
    within_eachThr_level detachStopped_quietly
  have : Within (Steady cfg) (disableAllBPs cfg true true) := by
    unfold disableAllBPs; infer_instance
  have : Within (Steady cfg) (unsetBeingDebugged cfg true) := by
    unfold unsetBeingDebugged; infer_instance
  unfold launchAborting; infer_instance

instance : Within (Level cfg) (handleLaunchBpEvent cfg) := by
  have : Within (Level cfg) (launchBody cfg) := by unfold launchBody; infer_instance
  unfold handleLaunchBpEvent; infer_instance

/-- Every handler leaves the contexts alone, whether it returns or throws. -/
instance (ev : Event) (data : Nat) : Within (Level cfg) (invokeHandler cfg ev data) := by
  have := @ListFrame.thrcreate cfg (Steady cfg) _ _ _ data
  cases ev <;> unfold invokeHandler <;> infer_instance

instance (mark : Process → Process) (reason : Reason)
    [h : Within (Steady cfg) (modifyProc fun p => { mark p with reason := reason })] :
    Within (Level cfg) (request cfg mark reason) := by
  have : Within (Level cfg) (stopThreads cfg) := within_eachThr_level stopRunning_quietly
  unfold request; infer_instance

instance (reason : Reason) : Within (Level cfg) (requestDetach cfg reason) := by
  have := @steady_modifyProc cfg (fun p => { p with pleaseDetach := true, reason := reason })
    (fun _ => rfl) (fun _ => rfl) (fun _ => id)
  unfold requestDetach; infer_instance

instance (reason : Reason) : Within (Level cfg) (requestKill cfg reason) := by
  have := @steady_modifyProc cfg (fun p => { p with pleaseKill := true, reason := reason })
    (fun _ => rfl) (fun _ => rfl) (fun _ => id)
  unfold requestKill; infer_instance

/-! ## Exceptions -/

/-- No machine exception leaves `x`. -/
def Mild {α : Type} (x : EngineM α) : Prop := ∀ w w', x w ≠ .error .machine w'

theorem mild_pure {α : Type} (a : α) : Mild (pure a : EngineM α) := fun _ _ h => nomatch h

theorem mild_get : Mild (get : EngineM World) := fun _ _ h => nomatch h

theorem Mild.bind {α β : Type} {x : EngineM α} {f : α → EngineM β} (hx : Mild x)
    (hf : ∀ a, Mild (f a)) : Mild (x >>= f) := by
  intro w w' h
  cases hxw : x w with
  | ok a w₁ =>
    rw [ok_bind hxw] at h
    exact hf a w₁ w' h
  | error e w₁ =>
    rw [error_bind hxw] at h
    cases h
    exact hx w w' hxw

theorem mild_orThrow {α : Type} {e : Exn} (he : e ≠ .machine) (o : Option α) :
    Mild (orThrow e o) := by
  intro w w' h
  cases o with
  | none =>
    cases h
    exact he rfl
  | some a => cases h

theorem mild_catching {α : Type} {p : Exn → Bool} (hp : p .machine = true) (r : α) (x : EngineM α) :
    Mild (catching p r x) := by
  intro w w' h
  unfold catching at h
  cases hx : x w with
  | ok a w₁ =>
    rw [hx] at h
    cases h
  | error e w₁ =>
    rw [hx] at h
    dsimp only at h
    split at h
    · cases h
    · next hne =>
      cases h
      exact hne hp

theorem mild_catchAll {α : Type} (r : α) (x : EngineM α) : Mild (catchAll r x) :=
  mild_catching rfl r x

theorem getPid_mild (b : Bool) : Mild (getPid cfg b) := by
  refine mild_get.bind fun w => ?_
  split
  · exact mild_pure _
  · split
    · exact mild_pure _
    · exact (mild_orThrow (by decide) _).bind fun t => mild_pure _

theorem decipherAnEvent_mild (r : Report) : Mild (decipherAnEvent cfg r) := by
  cases r with
  | stopped signum event =>
    have hfocus : Mild (focus cfg true) :=
      ((getPid_mild true).bind fun q => mild_get.bind fun w => mild_pure _).bind fun o =>
        mild_orThrow (by decide) _
    have hregs : Mild (tracerGetregs cfg) :=
      (mild_get.bind fun w => mild_orThrow (by decide) _).bind fun u =>
        hfocus.bind fun f => mild_pure _
    exact hregs.bind fun regs => (getPid_mild true).bind fun pid => mild_get.bind fun w => mild_pure _
  | exited => exact mild_pure _
  | terminated => exact mild_pure _

theorem invokeHandler_mild (ev : Event) (data : Nat) : Mild (invokeHandler cfg ev data) := by
  have hterm : Mild (handleTermEvent cfg) := by
    refine Mild.bind (x := sayFetofeMsg cfg .terminated) ?_ fun u => mild_pure _
    unfold sayFetofeMsg
    cases cfg.apiMode with
    | true => exact fun _ _ h => nomatch h
    | false => exact mild_pure _
  cases ev with
  | stopAtFirstExec => exact mild_catching rfl _ _
  | requestNewThread =>
    intro w w' h
    have hrun : handleThrcreateRequest data w = .error .machine w' := h
    rw [handleThrcreateRequest_run] at hrun
    cases hrun
  | terminated => exact hterm
  | hitABp => exact mild_pure _
  | invalid => exact mild_pure _
  | _ => exact mild_catchAll _ _

/-! ## Balance -/

/-- When `x` returns the contexts are as before, and `check_and_undo_context` has not thrown. -/
structure Balanced {α : Type} (w : World) (x : EngineM α) : Prop where
  same : ∀ a w', x w = .ok a w' → SameContexts w w'
  undone : ∀ w', x w ≠ .error .machine w'

theorem Balanced.of_level (cfg : Config) {α : Type} {x : EngineM α} {w : World}
    [Within (Level cfg) x] (h : w.proc.newChildPid = none) (hx : Mild x) : Balanced w x :=
  ⟨fun _ _ hok => ((Within.of_ok hok : Level cfg w _) h).same, hx w⟩

theorem balanced_pure {α : Type} (a : α) (w : World) : Balanced w (pure a) := by
  refine ⟨fun b w' h => ?_, mild_pure a w⟩
  cases h
  exact ⟨rfl, rfl⟩

/-- A program between `make_context` and `check_and_undo_context`. -/
theorem balanced_bracket {α : Type} {x : EngineM α} {w : World} {t : LwpId}
    (h : w.proc.newChildPid = none) (hx : Mild x)
    (hsame : ∀ a w₂, x (w.push t) = .ok a w₂ → SameContexts (w.push t) w₂) :
    Balanced w (do
      makeContext t
      let a ← x
      checkAndUndoContext t
      pure a) := by
  have hrun : ∀ a w₂, x (w.push t) = .ok a w₂ → (do
      makeContext t
      let a ← x
      checkAndUndoContext t
      pure a) w = .ok a (w.pop w₂) := by
    intro a w₂ ha
    rw [ok_bind (makeContext_push h t), ok_bind ha, ok_bind (undo_push h (hsame a w₂ ha))]
    rfl
  cases hxw : x (w.push t) with
  | ok a w₂ =>
    constructor
    · intro b w' hb
      cases (hrun a w₂ hxw).symm.trans hb
      exact .pop w w₂
    · intro w' hw'
      cases (hrun a w₂ hxw).symm.trans hw'
  | error e w₂ =>
    have herr : (do
        makeContext t
        let a ← x
        checkAndUndoContext t
        pure a) w = .error e w₂ := by
      rw [ok_bind (makeContext_push h t), error_bind hxw]
    constructor
    · intro b w' hb
      cases herr.symm.trans hb
    · intro w' hw'
      cases herr.symm.trans hw'
      exact hx _ _ hxw

theorem World.push_child {w : World} {t : LwpId} (h : w.proc.newChildPid = none)
    (ht : w.proc.hasThr t = true) : (w.push t).proc.newChildPid = none := by
  unfold World.push
  rw [if_pos ht]
  exact h

theorem handleEvent_balanced {w : World} {t : LwpId} (h : w.proc.newChildPid = none)
    (ht : w.proc.hasThr t = true) (r : Report) : Balanced w (handleEvent cfg t r) := by
  have heq : handleEvent cfg t r = (do
      makeContext t
      let rc ← (do
        let ev ← decipherAnEvent cfg r
        invokeHandler cfg ev r.signum)
      checkAndUndoContext t
      pure rc) := by
    unfold handleEvent
    simp only [bind_assoc]
  rw [heq]
  refine balanced_bracket h ((decipherAnEvent_mild r).bind fun ev => invokeHandler_mild ev _) ?_
  intro rc w₂ hrc
  have hlevel : Level cfg (w.push t) w₂ := Within.of_ok hrc
  exact (hlevel (World.push_child h ht)).same

theorem handleChild_balanced {w : World} (h : w.proc.newChildPid = none) (t : LwpId) (r : Report) :
    Balanced w (handleChild cfg t r) := by
  cases r with
  | stopped signum event =>
    refine balanced_bracket h (invokeHandler_mild _ _) fun rc w₂ hrc => ?_
    have hst : Steady cfg (w.push t) w₂ := Within.of_ok (x := handleNewprocForkedEvent cfg) hrc
    exact hst.same
  | exited => exact balanced_pure _ w
  | terminated => exact balanced_pure _ w

theorem handleDaemonExitEvent_balanced {w : World} (h : w.proc.newChildPid = none) :
    Balanced w (handleDaemonExitEvent cfg) := by
  have : Within (Level cfg) (handleDaemonExitEvent cfg) := by
    unfold handleDaemonExitEvent; infer_instance
  exact .of_level cfg h (mild_catchAll _ _)

/-- What holds between two events. -/
structure World.Ready (cfg : Config) (w : World) : Prop where
  child : w.proc.newChildPid = none
  pid : w.proc.hasThr cfg.pid = true
  nodup : (w.proc.thrlist.map Prod.fst).Nodup

theorem World.enlist_same (w : World) (t : LwpId) : SameContexts w (w.enlist t) := by
  unfold World.enlist
  split
  · exact ⟨rfl, rfl⟩
  · exact ⟨rfl, rfl⟩

/-- `poll_processes` leaves the contexts alone. -/
theorem pollEvent_balanced {w : World} (h : w.Ready cfg) (t : LwpId) (en : Entity) (r : Report) :
    Balanced w (pollEvent cfg t en r) := by
  have hget : ∀ w : World, (get : EngineM World) w = .ok w w := fun _ => rfl
  have hat : ∀ {α : Type} {x y : EngineM α}, x w = y w → Balanced w y → Balanced w x := by
    intro α x y hxy hy
    exact ⟨fun a w' ha => hy.same a w' (hxy ▸ ha), fun w' hw' => hy.undone w' (hxy ▸ hw')⟩
  cases en with
  | process =>
    by_cases hpid : t = cfg.pid
    · have hevent : Balanced w (handleEvent cfg t r) :=
        handleEvent_balanced h.child (hpid ▸ h.pid) r
      refine hat ?_ hevent
      unfold pollEvent
      rw [ok_bind (hget w)]
      dsimp only
      rw [if_pos hpid]
    · by_cases htool : some t = w.lmon.toollauncherpid
      · have hdaemon : Balanced w (handleDaemonExitEvent cfg) := handleDaemonExitEvent_balanced h.child
        -- the tool launcher has stopped or ended
        cases r with
        | stopped sig ev =>
          refine hat ?_ (balanced_pure Rc.ok w)
          unfold pollEvent
          rw [ok_bind (hget w)]
          dsimp only
          rw [if_neg hpid, if_pos htool]
        | exited =>
          refine hat ?_ hdaemon
          unfold pollEvent
          rw [ok_bind (hget w)]
          dsimp only
          rw [if_neg hpid, if_pos htool]
        | terminated =>
          refine hat ?_ hdaemon
          unfold pollEvent
          rw [ok_bind (hget w)]
          dsimp only
          rw [if_neg hpid, if_pos htool]
      · have hchild : Balanced w (handleChild cfg t r) := handleChild_balanced h.child t r
        refine hat ?_ hchild
        unfold pollEvent
        rw [ok_bind (hget w)]
        dsimp only
        rw [if_neg hpid, if_neg htool]
  | thread =>
    obtain ⟨w₁, hw₁, hrun⟩ : ∃ w₁, SameContexts w w₁ ∧ enterThread cfg t r w = .ok .ok w₁ := by
      refine ⟨_, ?_, enterThread_run w t r⟩
      cases r with
      | stopped => exact w.enlist_same t
      | exited => exact ⟨rfl, rfl⟩
      | terminated => exact ⟨rfl, rfl⟩
    have hpoll : pollEvent cfg t .thread r w =
        (if w₁.proc.hasThr t then handleEvent cfg t r else pure .ok) w₁ := by
      unfold pollEvent
      rw [ok_bind (hget w)]
      dsimp only
      rw [ok_bind hrun, ok_bind (hget w₁)]
    have hbal : Balanced w₁ (if w₁.proc.hasThr t then handleEvent cfg t r else pure .ok) := by
      by_cases ht : w₁.proc.hasThr t = true
      · rw [if_pos ht]
        exact handleEvent_balanced (hw₁.child.trans h.child) ht r
      · rw [if_neg ht]
        exact balanced_pure _ w₁
    refine ⟨fun rc w' hrc => hw₁.trans (hbal.same rc w' (hpoll ▸ hrc)), fun w' hw' => ?_⟩
    exact hbal.undone w' (hpoll ▸ hw')

/-! ## Runs -/

/-- The keys of the thread list stay distinct. -/
def Distinct (w w' : World) : Prop :=
  (w.proc.thrlist.map Prod.fst).Nodup → (w'.proc.thrlist.map Prod.fst).Nodup

instance : IsPreorder World Distinct where
  refl _ := id
  trans _ _ _ h₁ h₂ := h₂ ∘ h₁

instance (priority := low) {α : Type} {x : EngineM α} [h : Within SameThreads x] :
    Within Distinct x :=
  h.mono fun _ _ hs hw => by rwa [hs.thrlist]

theorem distinct_modifyProc {f : Process → Process} (h : ∀ p, (f p).thrlist = p.thrlist) :
    Within Distinct (modifyProc f) := within_modify fun w hw => by
  show ((f w.proc).thrlist.map Prod.fst).Nodup
  rwa [h]

instance (f : Target → Target) : Within Distinct (modifyTarget f) := within_modify fun _ => id

instance (t : LwpId) (l : Lwp) : Within Distinct (setLwp t l) := by unfold setLwp; infer_instance

instance (t : LwpId) (f : Thr → Thr) : Within Distinct (modifyProc fun p => p.mapThr t f) := by
  refine within_modify fun w hw => ?_
  have hkeys : (w.proc.mapThr t f).thrlist.map Prod.fst = w.proc.thrlist.map Prod.fst := by
    unfold Process.mapThr
    rw [List.map_map]
    refine List.map_congr_left fun e _ => ?_
    show (if e.1 = t then (e.1, f e.2) else e).1 = e.1
    split <;> rfl
  show ((w.proc.mapThr t f).thrlist.map Prod.fst).Nodup
  rwa [hkeys]

theorem World.enlist_distinct (w : World) (t : LwpId) : Distinct w (w.enlist t) := by
  intro hw
  by_cases ht : w.proc.hasThr t = true
  · rwa [World.enlist_of_hasThr ht]
  · have hmem : t ∉ w.proc.thrlist.map Prod.fst := by
      intro hmem
      obtain ⟨e, he, rfl⟩ := List.mem_map.mp hmem
      exact ht (hasThr_iff.mpr ⟨e.2, he⟩)
    unfold World.enlist
    rw [if_neg ht]
    have hperm := keys_insertThr w.proc t ⟨false, false, false⟩
    rw [flags_keys, flags_keys] at hperm
    exact hperm.nodup_iff.mpr (List.nodup_cons.mpr ⟨hmem, hw⟩)

instance : Frame Distinct where
  lmon _ := inferInstance
  note _ _ := inferInstance
  threadLib := distinct_modifyProc fun _ => rfl
  libc := distinct_modifyProc fun _ => rfl
  attachFifo _ := distinct_modifyProc fun _ => rfl
  neverTrapped := distinct_modifyProc fun _ => rfl

instance : TargetFrame cfg Distinct where
  acquireAndShip := inferInstance
  rmso _ _ := distinct_modifyProc fun _ => rfl
  continue_ := by unfold tracerContinue; infer_instance
  deliver _ := by unfold tracerDeliverSignal; infer_instance
  options _ := by unfold tracerOptions; infer_instance
  launchBp _ _ _ _ := inferInstance
  beingDebug _ _ _ _ := inferInstance
  colocation _ _ := inferInstance

instance : ListFrame cfg Distinct where
  thrcreate t := ⟨fun w => by
    rw [final_ok (handleThrcreateRequest_run t w)]
    exact w.enlist_distinct t⟩
  traced _ := inferInstance
  eraseThr t _ := within_modify fun w hw => by
    have hsub := keys_eraseThr w.proc t
    rw [flags_keys, flags_keys] at hsub
    exact hsub.nodup hw

instance : FirstFrame cfg Distinct where
  loaderBp := inferInstance

instance : BpFrame cfg Distinct where
  returnAddr _ _ := inferInstance
  setregs _ := by unfold tracerSetregs; infer_instance
  singlestep := by unfold tracerSinglestep; infer_instance
  enable _ := inferInstance
  disable _ := inferInstance
  register := by unfold registerEvent; infer_instance

instance : Within Distinct (handleNewprocForkedEvent cfg) := by
  have : ∀ b, Within Distinct (tracerDetach cfg b) := by
    intro b
    unfold tracerDetach; infer_instance
  have : Within Distinct (tracerOptions cfg false false) := by unfold tracerOptions; infer_instance
  unfold handleNewprocForkedEvent disableAllBPs; infer_instance

theorem Goes.distinct {w w' : World} {a : Label} (hg : Goes cfg w a w') : Distinct w w' := by
  intro hw
  cases hg with
  | env => exact hw
  | nothing => exact hw
  | @event t l r ev w₂ hl htr hr hown hev hx =>
    have hstep : Distinct (w.eventOf t l) w₂ :=
      invokeHandler_returns (decipherAnEvent_eq_ok hev).2 _ _ _ hx
    refine hstep ?_
    unfold World.eventOf
    rw [World.enter_thrlist]
    exact (w.reap t l).enlist_distinct t hw
  | ignored => exact hw
  | child hl htr hr hne hent hx =>
    have hstep := (Within.of_ok (x := handleNewprocForkedEvent cfg) hx : Distinct _ _)
    refine hstep ?_
    rw [World.enter_thrlist]
    exact hw
  | @asked a r =>
    show ((r.mark w.proc).thrlist.map Prod.fst).Nodup
    unfold Request.mark
    split <;> exact hw
  | released hrel =>
    rw [← flags_keys, hrel.flags, flags_keys]
    exact hw

/-- **Every event of a run is taken up in such a state.** -/
theorem Run.ready {G : Sys → Label → Prop} {s₀ s : Sys} (h₀ : Initial cfg s₀) (h : Run cfg G s₀ s)
    (hm : s.mode ≠ .ended) : s.w.Ready cfg := by
  have hnodup₀ : (s₀.w.proc.thrlist.map Prod.fst).Nodup := by
    obtain ⟨T, -, rfl⟩ := h₀
    exact List.nodup_singleton _
  obtain ⟨ht, hnodup⟩ := h.alive (I := fun w => (w.proc.thrlist.map Prod.fst).Nodup) h₀ hnodup₀
    (fun s a w' _ hw _ _ hg => hg.distinct hw) hm
  exact ⟨ht.child, ht.pid, hnodup⟩

/-! ## Threads that are held -/

/-- PTRACE_CONT does not fail for the thread. -/
def World.Continuable (w : World) (t : LwpId) : Prop :=
  ∃ l, w.target.lwps t = some l ∧ l.Ptraceable

/-- The thread goes on and is not registered any more. -/
def World.release (w : World) (t : LwpId) (l : Lwp) : World :=
  { w with
    target := w.target.setLwp t l.resume
    proc := w.proc.mapThr t fun r => { r with eventRegistered := false } }

theorem focus?_push {w : World} {t : LwpId} (h : w.proc.newChildPid = none)
    (ht : w.proc.hasThr t = true) :
    focus? cfg true (w.push t) = .ok ((w.target.lwps t).map fun l => (t, l)) (w.push t) := by
  have hget : ∀ w : World, (get : EngineM World) w = .ok w w := fun _ => rfl
  have hpid : getPid cfg true (w.push t) = .ok (some t) (w.push t) := by
    have hchild := World.push_child h ht
    have hthr : (w.push t).proc.hasThr t = true := (w.push_hasThr t t).trans ht
    unfold getPid
    rw [ok_bind (hget _), if_neg (by decide), hchild, if_neg (by decide)]
    have hstack : (w.push t).proc.threadCtxStack = t :: w.proc.threadCtxStack := by
      unfold World.push
      rw [if_pos ht]
    rw [hstack]
    show EStateM.Result.ok (if (w.push t).proc.hasThr t then some t else none) _ = _
    rw [if_pos hthr]
  have htarget : (w.push t).target = w.target := by
    unfold World.push
    split <;> rfl
  unfold focus?
  rw [ok_bind hpid, ok_bind (hget _), htarget]
  rfl

/-- A thread that has stopped goes on. -/
theorem contHeld_live {w : World} {t : LwpId} {l : Lwp} (h : w.proc.newChildPid = none)
    (ht : w.proc.hasThr t = true) (hl : w.target.lwps t = some l) (hp : l.Ptraceable) :
    contHeld cfg t w = .ok () (w.release t l) := by
  have hfocus : focus cfg true (w.push t) = .ok (t, l) (w.push t) := by
    unfold focus
    rw [ok_bind (focus?_push h ht), hl]
    simp only [Option.map_some, Option.filter_some, hp, decide_true, if_true]
    rfl
  have hcont : tracerContinue cfg true (w.push t) =
      .ok () { w.push t with target := (w.push t).target.setLwp t l.resume } := by
    unfold tracerContinue
    rw [ok_bind hfocus]
    rfl
  have hmap : (modifyProc fun p => p.mapThr t fun r => { r with eventRegistered := false })
      { w.push t with target := (w.push t).target.setLwp t l.resume } =
      .ok () ((w.push t).release t l) := rfl
  have hpop : w.pop ((w.push t).release t l) = w.release t l := by
    unfold World.pop World.push World.release
    rw [if_pos ht]
    rfl
  unfold contHeld
  rw [ok_bind (makeContext_push h t), ok_bind hcont, ok_bind hmap, ← hpop]
  exact undo_push h ⟨rfl, rfl⟩

/-- A thread that has died leaves its context behind. -/
theorem contHeld_dead {w : World} {t : LwpId} (h : w.proc.newChildPid = none)
    (ht : w.proc.hasThr t = true) (hdead : ¬w.Continuable t) :
    contHeld cfg t w = .error .tracer (w.push t) := by
  have hfocus : focus cfg true (w.push t) = .error .tracer (w.push t) := by
    unfold focus
    rw [ok_bind (focus?_push h ht)]
    cases hl : w.target.lwps t with
    | none => rfl
    | some l =>
      have hp : ¬l.Ptraceable := fun hp => hdead ⟨l, hl, hp⟩
      simp only [Option.map_some, Option.filter_some, hp, decide_false]
      rfl
  have hcont : tracerContinue cfg true (w.push t) = .error .tracer (w.push t) := by
    unfold tracerContinue
    rw [error_bind hfocus]
  unfold contHeld
  rw [ok_bind (makeContext_push h t), error_bind hcont]

theorem World.release_continuable {w : World} {t u : LwpId} (hne : u ≠ t) (l : Lwp) :
    (w.release t l).Continuable u ↔ w.Continuable u := by
  unfold World.Continuable
  show (∃ l', (w.target.setLwp t l.resume).lwps u = some l' ∧ l'.Ptraceable) ↔ _
  rw [Target.setLwp_ne _ hne]

/-- The loop of `request_cont_launch_bp` over the entries `es`. -/
def contAll (cfg : Config) (es : List (LwpId × Thr)) : EngineM Unit :=
  each es fun e => whenever e.2.eventRegistered (contHeld cfg e.1)

/-- **The loop of `request_cont_launch_bp`.**  It stops at the first thread that has died. -/
theorem contAll_outcome : ∀ (es : List (LwpId × Thr)) (w : World), w.proc.newChildPid = none →
    (∀ e ∈ es, w.proc.hasThr e.1 = true) → (es.map Prod.fst).Nodup →
    ((∀ e ∈ es, e.2.eventRegistered = true → w.Continuable e.1) →
      ∃ w', contAll cfg es w = .ok () w' ∧ SameContexts w w') ∧
    (¬(∀ e ∈ es, e.2.eventRegistered = true → w.Continuable e.1) →
      ∃ w₁ t, contAll cfg es w = .error .tracer (w₁.push t) ∧ SameContexts w w₁ ∧
        w₁.proc.hasThr t = true) := by
  intro es
  induction es with
  | nil =>
    intro w _ _ _
    exact ⟨fun _ => ⟨w, rfl, rfl, rfl⟩, fun h => absurd (fun e he => nomatch he) h⟩
  | cons e es ih =>
    intro w h hthr hnodup
    obtain ⟨hnot, hnodup⟩ := List.nodup_cons.mp hnodup
    have hne : ∀ e' ∈ es, e'.1 ≠ e.1 := fun e' he' heq => hnot (heq ▸ List.mem_map_of_mem he')
    -- what is left of the loop, after the first entry
    have hrest : ∀ w₁, (whenever e.2.eventRegistered (contHeld cfg e.1)) w = .ok () w₁ →
        contAll cfg (e :: es) w = contAll cfg es w₁ := fun w₁ h₁ => ok_bind h₁
    cases hreg : e.2.eventRegistered with
    | false =>
      have hskip : (whenever e.2.eventRegistered (contHeld cfg e.1)) w = .ok () w := by
        rw [hreg]
        rfl
      have hiff : (∀ e' ∈ e :: es, e'.2.eventRegistered = true → w.Continuable e'.1) ↔
          ∀ e' ∈ es, e'.2.eventRegistered = true → w.Continuable e'.1 := by
        rw [List.forall_mem_cons]
        exact and_iff_right fun h => absurd (hreg.symm.trans h) (by decide)
      rw [hiff, hrest w hskip]
      exact ih w h (fun e' he' => hthr e' (List.mem_cons_of_mem _ he')) hnodup
    | true =>
      have ht := hthr e List.mem_cons_self
      by_cases hc : w.Continuable e.1
      · obtain ⟨l, hl, hp⟩ := id hc
        have hlive : (whenever e.2.eventRegistered (contHeld cfg e.1)) w =
            .ok () (w.release e.1 l) := by
          rw [hreg]
          exact contHeld_live h ht hl hp
        have hiff : (∀ e' ∈ e :: es, e'.2.eventRegistered = true → w.Continuable e'.1) ↔
            ∀ e' ∈ es, e'.2.eventRegistered = true → (w.release e.1 l).Continuable e'.1 := by
          rw [List.forall_mem_cons]
          refine (and_iff_right fun _ => hc).trans (forall₂_congr fun e' he' => ?_)
          rw [World.release_continuable (hne e' he')]
        rw [hiff, hrest _ hlive]
        obtain ⟨hlive', hdead'⟩ := ih (w.release e.1 l) h
          (fun e' he' => hasThr_mapThr (hthr e' (List.mem_cons_of_mem _ he'))) hnodup
        have hsame : ∀ w', SameContexts (w.release e.1 l) w' → SameContexts w w' :=
          fun w' h' => ⟨h'.stack, h'.child⟩
        constructor
        · intro hall
          obtain ⟨w', hok, hw'⟩ := hlive' hall
          exact ⟨w', hok, hsame w' hw'⟩
        · intro hno
          obtain ⟨w₁, t, herr, hw₁, ht₁⟩ := hdead' hno
          exact ⟨w₁, t, herr, hsame w₁ hw₁, ht₁⟩
      · refine ⟨fun hall => absurd (hall e List.mem_cons_self hreg) hc, fun _ => ?_⟩
        refine ⟨w, e.1, ?_, ⟨rfl, rfl⟩, ht⟩
        have hdead : (whenever e.2.eventRegistered (contHeld cfg e.1)) w =
            .error .tracer (w.push e.1) := by
          rw [hreg]
          exact contHeld_dead h ht hc
        exact error_bind hdead

/-- The context of a thread is one more. -/
theorem not_same_push {w w₁ : World} {t : LwpId} (h : SameContexts w w₁)
    (ht : w₁.proc.hasThr t = true) : ¬SameContexts w (w₁.push t) := by
  rintro ⟨hs, -⟩
  unfold World.push at hs
  rw [if_pos ht] at hs
  dsimp only at hs
  rw [h.stack] at hs
  exact absurd hs (List.cons_ne_self _ _)

/-! ## The events -/

/-- What the engine takes up. -/
inductive Inlet
  | poll (t : LwpId) (en : Entity) (r : Report)
  | fe (m : FeInput)

/-- `poll_processes` or `handle_incoming_socket_event`. -/
def Inlet.take (cfg : Config) : Inlet → EngineM Rc
  | .poll t en r => pollEvent cfg t en r
  | .fe m => handleIncomingSocketEvent cfg m

/-- No thread that the front end lets go on has died. -/
def Inlet.Clear (cfg : Config) (w : World) (i : Inlet) : Prop :=
  i = .fe (.msg .contLaunchBp) → cfg.apiMode = true →
    ∀ e ∈ w.proc.thrlist, e.2.eventRegistered = true → w.Continuable e.1

/-- The requests leave the contexts alone. -/
theorem handleIncomingSocketEvent_balanced {w : World} (h : w.proc.newChildPid = none) {m : FeInput}
    (hm : m ≠ .msg .contLaunchBp) : Balanced w (handleIncomingSocketEvent cfg m) := by
  have : Within (Level cfg) (handleIncomingSocketEvent cfg m) := by
    unfold handleIncomingSocketEvent
    by_cases hapi : cfg.apiMode = false
    · rw [if_pos hapi]
      infer_instance
    · rw [if_neg hapi]
      cases m with
      | disconnected => dsimp only; infer_instance
      | illFormed => dsimp only; infer_instance
      | msg type =>
        cases type with
        | contLaunchBp => exact absurd rfl hm
        | _ => dsimp only; infer_instance
  exact .of_level cfg h (mild_catchAll _ _)

/-- What `request_cont_launch_bp` does, for the threads of the list. -/
theorem requestContLaunchBp_outcome {w : World} (h : w.Ready cfg) :
    ((∀ e ∈ w.proc.thrlist, e.2.eventRegistered = true → w.Continuable e.1) →
      ∃ w', requestContLaunchBp cfg w = .ok () w' ∧ SameContexts w w') ∧
    (¬(∀ e ∈ w.proc.thrlist, e.2.eventRegistered = true → w.Continuable e.1) →
      ∃ w₁ t, requestContLaunchBp cfg w = .error .tracer (w₁.push t) ∧ SameContexts w w₁ ∧
        w₁.proc.hasThr t = true) := by
  have hget : (get : EngineM World) w = .ok w w := rfl
  have hcont : requestContLaunchBp cfg w = contAll cfg w.proc.thrlist w := ok_bind hget
  rw [hcont]
  exact contAll_outcome _ w h.child (fun e he => hasThr_iff.mpr ⟨e.2, he⟩) h.nodup

theorem requestContLaunchBp_mild {w : World} (h : w.Ready cfg) (w' : World) :
    requestContLaunchBp cfg w ≠ .error .machine w' := by
  intro hm
  obtain ⟨hlive, hdead⟩ := @requestContLaunchBp_outcome cfg w h
  by_cases hall : ∀ e ∈ w.proc.thrlist, e.2.eventRegistered = true → w.Continuable e.1
  · obtain ⟨w₁, hok, -⟩ := hlive hall
    cases hok.symm.trans hm
  · obtain ⟨w₁, t, herr, -⟩ := hdead hall
    cases herr.symm.trans hm

/-- `request_cont_launch_bp` leaves them alone exactly if no thread that is held has died. -/
theorem contLaunchBp_balanced_iff {w : World} (h : w.Ready cfg) (hapi : cfg.apiMode = true) :
    Balanced w (handleIncomingSocketEvent cfg (.msg .contLaunchBp)) ↔
      ∀ e ∈ w.proc.thrlist, e.2.eventRegistered = true → w.Continuable e.1 := by
  obtain ⟨hlive, hdead⟩ := @requestContLaunchBp_outcome cfg w h
  have hbody : handleIncomingSocketEvent cfg (.msg .contLaunchBp) = catchAll .failed (do
      requestContLaunchBp cfg
      pure .ok) := by
    unfold handleIncomingSocketEvent
    rw [if_neg (by rw [hapi]; decide)]
  rw [hbody]
  constructor
  · intro hbal
    by_contra hno
    obtain ⟨w₁, t, herr, hsame, ht⟩ := hdead hno
    have hfailed : catchAll Rc.failed (do
        requestContLaunchBp cfg
        pure .ok) w = .ok .failed (w₁.push t) :=
      catching_error (by rw [error_bind herr]) rfl
    exact not_same_push hsame ht (hbal.same _ _ hfailed)
  · intro hall
    obtain ⟨w', hok, hsame⟩ := hlive hall
    have hrun : catchAll Rc.failed (do
        requestContLaunchBp cfg
        pure .ok) w = .ok .ok w' := catching_ok (by rw [ok_bind hok]; rfl)
    refine ⟨fun rc w'' hrc => ?_, mild_catchAll _ _ w⟩
    cases hrun.symm.trans hrc
    exact hsame

/-- **The contexts are as before an event**, and `check_and_undo_context` finds the key that it is
    called with, exactly if no thread that is to go on has died.  The loops over the thread list that
    run inside of handlers and requests always return and leave the contexts alone. -/
theorem contexts_balanced_iff {w : World} (h : w.Ready cfg) (i : Inlet) :
    (Balanced w (i.take cfg) ↔ i.Clear cfg w) ∧
      (∀ w', w'.proc.newChildPid = none → ∀ x ∈ threadLoops cfg,
        ∃ w'', x w' = .ok () w'' ∧ SameContexts w' w'') ∧
      ∀ w', requestContLaunchBp cfg w ≠ .error .machine w' := by
  refine ⟨?_, ?_, requestContLaunchBp_mild h⟩
  · cases i with
    | poll t en r => exact iff_of_true (pollEvent_balanced h t en r) fun hi => nomatch hi
    | fe m =>
      by_cases hm : m = .msg .contLaunchBp
      · subst hm
        by_cases hapi : cfg.apiMode = true
        · refine (contLaunchBp_balanced_iff h hapi).trans ?_
          exact ⟨fun hall _ _ => hall, fun hclear => hclear rfl hapi⟩
        · refine iff_of_true ?_ fun _ hapi' => absurd hapi' hapi
          have : Within (Level cfg) (handleIncomingSocketEvent cfg (.msg .contLaunchBp)) := by
            unfold handleIncomingSocketEvent
            rw [if_pos (Bool.eq_false_of_not_eq_true hapi)]
            infer_instance
          show Balanced w (handleIncomingSocketEvent cfg (.msg .contLaunchBp))
          exact .of_level cfg h.child (mild_catchAll _ _)
      · refine iff_of_true (handleIncomingSocketEvent_balanced h.child hm) fun hi => ?_
        exact absurd (Inlet.fe.inj hi) hm
  · intro w' h' x hx
    obtain ⟨w'', hw'', hst⟩ := threadLoops_level hx h'
    exact ⟨w'', hw'', hst.same⟩

/-- The launcher comes to its launch breakpoint and is held there. -/
def heldRun : List Label :=
  [.poll 100, .env (.exec 100 0x1001 0x2100), .poll 100, .env (.exec 100 0x1001 0x2100), .poll 100]

theorem contexts_balanced_held : ∃ s,
    (Sys.start sample (sampleTarget 0x1000 [1])).runAll sample heldRun = some s ∧
    (∃ e ∈ s.w.proc.thrlist, e.2.eventRegistered = true) ∧
    Balanced s.w (handleIncomingSocketEvent sample (.msg .contLaunchBp)) := by
  have hrun : ((Sys.start sample (sampleTarget 0x1000 [1])).runAll sample heldRun).map (fun s =>
      decide (s.mode = .looping) && (s.w.proc.thrlist.any fun e => e.2.eventRegistered) &&
      s.w.proc.thrlist.all fun e => (s.w.target.lwps e.1).any fun l => decide l.Ptraceable) =
      some true := by decide +kernel
  obtain ⟨s, hs, hobs⟩ := Option.map_eq_some_iff.mp hrun
  simp only [Bool.and_eq_true, decide_eq_true_eq, List.any_eq_true, List.all_eq_true] at hobs
  obtain ⟨⟨hmode, hheld⟩, hlive⟩ := hobs
  have hready : s.w.Ready sample :=
    (Run.of_runAll _ hs).ready ⟨_, sample_launched _ _, rfl⟩ (by rw [hmode]; decide)
  refine ⟨s, hs, hheld, (contexts_balanced_iff hready (.fe (.msg .contLaunchBp))).1.mpr ?_⟩
  intro _ _ e he _
  obtain ⟨l, hl, hp⟩ := (Option.any_eq_true _ _).mp (hlive e he)
  exact ⟨l, hl, of_decide_eq_true hp⟩

/-- The launcher is killed while it is held.  The message of the front end is handled, and the context
    of the launcher stays. -/
theorem contexts_balanced_counterexample : ∃ s s',
    (Sys.start sample (sampleTarget 0x1000 [1])).runAll sample
      (heldRun ++ [.env (.exit 100 true)]) = some s ∧
    s.step sample (.fe (.msg .contLaunchBp)) = some s' ∧
    s.w.proc.threadCtxStack = [] ∧ s'.w.proc.threadCtxStack = [100] := by
  have hrun : ((Sys.start sample (sampleTarget 0x1000 [1])).runAll sample
      (heldRun ++ [.env (.exit 100 true)])).bind (fun s₁ =>
        (s₁.step sample (.fe (.msg .contLaunchBp))).map fun s₂ =>
          (s₁.w.proc.threadCtxStack, s₂.w.proc.threadCtxStack)) = some ([], [100]) := by
    decide +kernel
  obtain ⟨s, s', hs, hs', hf⟩ := Sys.runAll_step hrun
  exact ⟨s, s', hs, hs', congrArg Prod.fst hf, congrArg Prod.snd hf⟩

end LaunchMON.Engine
