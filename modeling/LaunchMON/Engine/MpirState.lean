/-
  What `engine_state` says of the values that MPIR_debug_state had: `handle_launch_bp_event`,
  `set_engine_state` and `validate_mpir_state_transition`.

  1. **Histories** — a stop at the launch breakpoint is a state of the engine and the four bytes that
     the handler reads.  Nothing but the handler writes `engine_state`, so in a history each stop finds
     the state that the one before it has left (`Linked`); what else the engine and the launcher do
     between two stops is left open.

  2. **The law** — `Mirrors`: a value that is accepted and handled to completion is the new state, a
     rejected one is ignored, no two tasks are spawned without MPIR_NULL in between, and an abort is
     the last value that is accepted.

  3. **The branch for MPIR_DEBUG_ABORTING** declares a second `bdbg`, the 0 that it writes to
     MPIR_being_debugged, and sets the state from this one: it is MPIR_NULL afterwards
     (`aborting_null`), and everything is accepted again.

  4. **The crux** — `Linked.stays`: MPIR_DEBUG_SPAWNED lasts until MPIR_NULL is accepted, if no abort is
     handled.  An abort that throws on the way leaves the state alone (`launchAborting_error`).
-/
import LaunchMON.Engine.Loop
import LaunchMON.Engine.Frames

namespace LaunchMON.Engine

open Effect

set_option synthInstance.maxSize 4096

variable {cfg : Config}

/-! ## Histories -/

/-- A stop at the launch breakpoint whose handler has come to MPIR_debug_state, and the bytes that it
    reads there. -/
structure LaunchStop where
  before : World
  bytes : List UInt8

namespace LaunchStop

variable (cfg) (v : LaunchStop)

/-- The handler comes to the state switch. -/
def Reached : Prop :=
  tracerRead cfg true (v.before.relocatedAddress cfg .debugState) 4 v.before = .ok v.bytes v.before

/-- The value of MPIR_debug_state. -/
def value : Int32 := readInt v.bytes

def state : EngineState := v.before.lmon.engineState

def accepted : Bool := validateMpirStateTransition v.state v.value

/-- The handler goes on to its end. -/
def completed : Bool :=
  match launchBody cfg v.before with
  | .ok _ _ => true
  | .error _ _ => false

/-- The value is accepted and handled to completion. -/
def handled : Bool := v.accepted && v.completed cfg

/-- The state that the handler leaves. -/
def next : EngineState := (final (launchBody cfg) v.before).lmon.engineState

end LaunchStop

/-- Each stop finds the state that the one before it has left. -/
def Linked (cfg : Config) : EngineState → List LaunchStop → Prop
  | _, [] => True
  | st, v :: vs => v.state = st ∧ v.Reached cfg ∧ Linked cfg (v.next cfg) vs

/-- The engine state mirrors the last accepted value. -/
structure Mirrors (cfg : Config) (vs : List LaunchStop) : Prop where
  /-- what is handled to completion is the new state -/
  image : ∀ v ∈ vs, v.handled cfg = true → v.next cfg = engineStateOf v.value
  /-- what is rejected leaves the state alone, and the thread is continued -/
  rejected : ∀ v ∈ vs, v.accepted = false → v.next cfg = v.state ∧
    launchBody cfg v.before = (do tracerContinue cfg true; pure .ok : EngineM Rc) v.before
  /-- between two spawns MPIR_NULL is accepted -/
  spawned : ∀ v m u, v :: m ++ [u] <:+: vs → v.handled cfg = true → u.handled cfg = true →
    v.value = mpirDebugSpawned → u.value = mpirDebugSpawned →
    ∃ x ∈ m, x.accepted = true ∧ x.value = mpirNull
  /-- after an abort nothing is accepted -/
  aborting : ∀ v m u, v :: m ++ [u] <:+: vs → v.handled cfg = true →
    v.value = mpirDebugAborting → u.accepted = false

/-! ## What leaves the engine state alone -/

/-- The engine state is as before. -/
def SameState (w w' : World) : Prop := w'.lmon.engineState = w.lmon.engineState

instance : IsPreorder World SameState where
  refl _ := rfl
  trans _ _ _ h₁ h₂ := h₂.trans h₁

instance (f : Target → Target) : Within SameState (modifyTarget f) := within_modify fun _ => rfl

instance (f : Process → Process) : Within SameState (modifyProc f) := within_modify fun _ => rfl

instance (n : Note) : Within SameState (note n) := within_modify fun _ => rfl

instance (m : Lmonp.FeToFeMsg) : Within SameState (sayFetofeMsg cfg m) := by
  unfold sayFetofeMsg; infer_instance

instance (t : LwpId) (l : Lwp) : Within SameState (setLwp t l) := by unfold setLwp; infer_instance

instance (b : Bool) : Within SameState (tracerContinue cfg b) := by
  unfold tracerContinue; infer_instance

instance (b : Bool) : Within SameState (tracerDetach cfg b) := by unfold tracerDetach; infer_instance

instance (b : Bool) (a : VA) (bs : List UInt8) : Within SameState (tracerWrite cfg b a bs) := by
  unfold tracerWrite; infer_instance

instance (sel : BpSel) (b : Option Bp) : Within SameState (setBp sel b) := by
  unfold setBp; infer_instance

instance (sel : BpSel) (b c : Bool) : Within SameState (disableBreakpoint cfg sel b c) := by
  unfold disableBreakpoint; infer_instance

instance (b c : Bool) : Within SameState (disableAllBPs cfg b c) := by
  unfold disableAllBPs; infer_instance

instance (b : Bool) : Within SameState (unsetBeingDebugged cfg b) := by
  unfold unsetBeingDebugged; infer_instance

instance (t : LwpId) : Within SameState (makeContext t) := by unfold makeContext; infer_instance

instance (t : LwpId) : Within SameState (checkAndUndoContext t) := by
  unfold checkAndUndoContext; infer_instance

instance (b : Bool) : Within SameState (detachStopped cfg b) := by
  unfold detachStopped; infer_instance

instance (c : Thr → Bool) (x : EngineM Unit) [Within SameState x] : Within SameState (eachThr c x) := by
  unfold eachThr; infer_instance

instance : Within SameState (holdOrContinue cfg) := by
  unfold holdOrContinue registerEvent; infer_instance

/-! ## The branches of the switch -/

theorem setEngineState_run (s : Int32) (w : World) : setEngineState s w =
    .ok () { w with lmon := { w.lmon with engineState := engineStateOf s } } := rfl

/-- What comes after `set_engine_state` keeps the state that is set. -/
theorem engineState_of_bind {α : Type} {s : Int32} {x : EngineM α} [h : Within SameState x] (w : World) :
    (final (setEngineState s >>= fun _ => x) w).lmon.engineState = engineStateOf s := by
  rw [final_bind_ok (setEngineState_run s w)]
  exact h.out _

/-- The branch for MPIR_DEBUG_SPAWNED, if it is completed. -/
theorem launchSpawned_ok {s : Int32} {w w' : World} {rc : Rc} (h : launchSpawned cfg s w = .ok rc w') :
    w'.lmon.engineState = engineStateOf s := by
  obtain ⟨_, w₁, -, h₁⟩ := bind_eq_ok h
  rw [← final_ok h₁]
  exact engineState_of_bind (x := do holdOrContinue cfg; pure Rc.ok) w₁

/-- The branch for MPIR_DEBUG_ABORTING, up to the state. -/
def abortTracing (cfg : Config) : EngineM Unit := do
  disableAllBPs cfg true true
  unsetBeingDebugged cfg true
  eachThr (fun r => !r.master) (detachStopped cfg true)
  detachStopped cfg false

instance : Within SameState (abortTracing cfg) := by unfold abortTracing; infer_instance

theorem launchAborting_eq : launchAborting cfg = (do
    abortTracing cfg
    setEngineState 0
    sayFetofeMsg cfg .stopAtLaunchBpAbort
    pure .mpirDebugAbort) := by
  simp only [launchAborting, abortTracing, bind_assoc]

/-- If the branch is completed, the state is set from the 0 for MPIR_being_debugged. -/
theorem launchAborting_ok {w w' : World} {rc : Rc} (h : launchAborting cfg w = .ok rc w') :
    w'.lmon.engineState = .null := by
  rw [launchAborting_eq] at h
  obtain ⟨_, w₁, -, h₁⟩ := bind_eq_ok h
  rw [← final_ok h₁]
  exact engineState_of_bind
    (x := do sayFetofeMsg cfg .stopAtLaunchBpAbort; pure Rc.mpirDebugAbort) w₁

/-- If it throws, the state is not set. -/
theorem launchAborting_error {w w' : World} {e : Exn} (h : launchAborting cfg w = .error e w') :
    w'.lmon.engineState = w.lmon.engineState := by
  rw [launchAborting_eq] at h
  cases hx : abortTracing cfg w with
  | error e₁ w₁ =>
    rw [error_bind hx] at h
    cases h
    exact Within.of_error (R := SameState) hx
  | ok _ w₁ =>
    rw [ok_bind hx, ok_bind (setEngineState_run 0 w₁)] at h
    unfold sayFetofeMsg whenever at h
    split at h
    · cases h
    · cases h

/-! ## One stop -/

namespace LaunchStop

variable {v : LaunchStop}

theorem body (h : v.Reached cfg) : launchBody cfg v.before =
    (if v.accepted = false then do
        tracerContinue cfg true
        pure .ok
      else if v.value = mpirDebugSpawned then launchSpawned cfg v.value
      else if v.value = mpirDebugAborting then launchAborting cfg
      else do
        setEngineState v.value
        tracerContinue cfg true
        pure .ok : EngineM Rc) v.before := by
  have hget : (get : EngineM World) v.before = .ok v.before v.before := rfl
  unfold launchBody
  rw [ok_bind hget, ok_bind h]
  rfl

theorem handled_iff : v.handled cfg = true ↔
    v.accepted = true ∧ ∃ rc w, launchBody cfg v.before = .ok rc w := by
  unfold handled completed
  rw [Bool.and_eq_true]
  refine and_congr_right fun _ => ?_
  cases launchBody cfg v.before with
  | ok rc w => exact ⟨fun _ => ⟨rc, w, rfl⟩, fun _ => rfl⟩
  | error e w =>
    constructor
    · intro h
      cases h
    · rintro ⟨_, _, h⟩
      cases h

theorem next_of_rejected (h : v.Reached cfg) (hno : v.accepted = false) : v.next cfg = v.state := by
  unfold next
  rw [final, body h, if_pos hno]
  exact Within.out (R := SameState) (x := (do tracerContinue cfg true; pure .ok : EngineM Rc)) v.before

/-- Every other value than MPIR_DEBUG_ABORTING becomes the state. -/
theorem next_of_handled (h : v.Reached cfg) (hv : v.handled cfg = true)
    (hno : v.value ≠ mpirDebugAborting) : v.next cfg = engineStateOf v.value := by
  obtain ⟨hacc, rc, w, hw⟩ := handled_iff.mp hv
  unfold next
  rw [final_ok hw]
  rw [body h, if_neg (by rw [hacc]; decide)] at hw
  by_cases hs : v.value = mpirDebugSpawned
  · rw [if_pos hs] at hw
    exact launchSpawned_ok hw
  · rw [if_neg hs, if_neg hno] at hw
    rw [← final_ok hw]
    exact engineState_of_bind (x := do tracerContinue cfg true; pure Rc.ok) v.before

/-- **MPIR_DEBUG_ABORTING becomes MPIR_NULL.** -/
theorem aborting_null (h : v.Reached cfg) (hv : v.handled cfg = true)
    (hab : v.value = mpirDebugAborting) : v.next cfg = .null := by
  obtain ⟨hacc, rc, w, hw⟩ := handled_iff.mp hv
  unfold next
  rw [final_ok hw]
  rw [body h, if_neg (by rw [hacc]; decide), if_neg (by rw [hab]; decide), if_pos hab] at hw
  exact launchAborting_ok hw

/-- An abort that is not handled to completion leaves the state alone. -/
theorem next_of_unhandled (h : v.Reached cfg) (hab : v.value = mpirDebugAborting)
    (hv : v.handled cfg = false) : v.next cfg = v.state := by
  cases hacc : v.accepted with
  | false => exact next_of_rejected h hacc
  | true =>
    unfold next
    cases hw : launchBody cfg v.before with
    | ok rc w =>
      rw [handled_iff.mpr ⟨hacc, rc, w, hw⟩] at hv
      cases hv
    | error e w =>
      rw [final_error hw]
      rw [body h, if_neg (by rw [hacc]; decide), if_neg (by rw [hab]; decide), if_pos hab] at hw
      exact launchAborting_error hw

/-- After a spawn only an abort or MPIR_NULL is accepted. -/
theorem accepted_spawned (hst : v.state = .spawned) (hacc : v.accepted = true) :
    v.value = mpirDebugAborting ∨ v.value = mpirNull := by
  unfold accepted validateMpirStateTransition at hacc
  rw [hst] at hacc
  split at hacc
  · cases of_decide_eq_true hacc with
    | inl h => cases h
    | inr h => cases h
  · split at hacc
    · next h => exact Or.inl h
    · split at hacc
      · next h => exact Or.inr h
      · cases hacc

end LaunchStop

/-! ## Whole histories -/

theorem Linked.append {vs us : List LaunchStop} : ∀ {st : EngineState}, Linked cfg st (vs ++ us) →
    Linked cfg st vs ∧ ∃ st', Linked cfg st' us := by
  induction vs with
  | nil => exact fun h => ⟨trivial, _, h⟩
  | cons v vs ih =>
    intro st h
    obtain ⟨hst, hv, hrest⟩ := h
    obtain ⟨hvs, hus⟩ := ih hrest
    exact ⟨⟨hst, hv, hvs⟩, hus⟩

theorem Linked.segment {vs us : List LaunchStop} {st : EngineState} (h : Linked cfg st vs)
    (hin : us <:+: vs) : ∃ st', Linked cfg st' us := by
  obtain ⟨l, r, rfl⟩ := hin
  obtain ⟨st', hus⟩ := h.append.1.append.2
  exact ⟨st', hus⟩

theorem Linked.reached {vs : List LaunchStop} {v : LaunchStop} (hv : v ∈ vs) :
    ∀ {st : EngineState}, Linked cfg st vs → v.Reached cfg := by
  intro st h
  obtain ⟨l, r, rfl⟩ := List.append_of_mem hv
  obtain ⟨_, -, hreached, -⟩ := h.append.2
  exact hreached

/-- **A spawn lasts** until MPIR_NULL is accepted, if no abort is handled. -/
theorem Linked.stays : ∀ {vs : List LaunchStop}, Linked cfg .spawned vs →
    (∀ v ∈ vs, v.value = mpirDebugAborting → v.handled cfg = false) →
    (∀ v ∈ vs, v.accepted = true → v.value ≠ mpirNull) → ∀ v ∈ vs, v.state = .spawned := by
  intro vs
  induction vs with
  | nil => exact fun _ _ _ v hv => absurd hv List.not_mem_nil
  | cons u us ih =>
    rintro ⟨hst, hreached, hrest⟩ habort hnull v hv
    have hnext : u.next cfg = .spawned := by
      cases hacc : u.accepted with
      | false => exact (LaunchStop.next_of_rejected hreached hacc).trans hst
      | true =>
        have hu := List.mem_cons_self (a := u) (l := us)
        rcases LaunchStop.accepted_spawned hst hacc with hab | hn
        · exact (LaunchStop.next_of_unhandled hreached hab (habort u hu hab)).trans hst
        · exact absurd hn (hnull u hu hacc)
    rcases List.mem_cons.mp hv with rfl | hv
    · exact hst
    · exact ih (hnext ▸ hrest) (fun x hx => habort x (List.mem_cons_of_mem _ hx))
        (fun x hx => hnull x (List.mem_cons_of_mem _ hx)) v hv

/-- **The engine state mirrors MPIR_debug_state** exactly in the histories in which no
    MPIR_DEBUG_ABORTING is handled. -/
theorem mirrors_iff (cfg : Config) (st : EngineState) (vs : List LaunchStop) (h : Linked cfg st vs) :
    Mirrors cfg vs ↔ ∀ v ∈ vs, v.value = mpirDebugAborting → v.handled cfg = false := by
  constructor
  · intro hm v hv hab
    cases hh : v.handled cfg with
    | false => rfl
    | true =>
      have himage := hm.image v hv hh
      rw [LaunchStop.aborting_null (h.reached hv) hh hab, hab] at himage
      cases himage
  · intro hno
    have hne : ∀ v ∈ vs, v.handled cfg = true → v.value ≠ mpirDebugAborting := by
      intro v hv hh hab
      rw [hno v hv hab] at hh
      cases hh
    constructor
    · intro v hv hh
      exact LaunchStop.next_of_handled (h.reached hv) hh (hne v hv hh)
    · intro v hv hrej
      refine ⟨LaunchStop.next_of_rejected (h.reached hv) hrej, ?_⟩
      rw [LaunchStop.body (h.reached hv), if_pos hrej]
    -- without a null between the state stays spawned, and there no second spawn is accepted
    · intro v m u hin hv hu hvs hus
      by_contra hnone
      obtain ⟨_, -, hreached, hrest⟩ := h.segment hin
      have hnext : v.next cfg = .spawned := by
        rw [LaunchStop.next_of_handled hreached hv (by rw [hvs]; decide), hvs]
        rfl
      have hmem : ∀ x ∈ m ++ [u], x ∈ vs := fun x hx => hin.subset (List.mem_cons_of_mem _ hx)
      have hst : u.state = .spawned := by
        refine Linked.stays (hnext ▸ hrest) (fun x hx => hno x (hmem x hx)) ?_ u (by simp)
        intro x hx hacc hn
        rcases List.mem_append.mp hx with hx | hx
        · exact hnone ⟨x, hx, hacc, hn⟩
        · rw [List.mem_singleton.mp hx, hus] at hn
          exact absurd hn (by decide)
      rcases LaunchStop.accepted_spawned hst (LaunchStop.handled_iff.mp hu).1 with hx | hx
      · rw [hus] at hx
        exact absurd hx (by decide)
      · rw [hus] at hx
        exact absurd hx (by decide)
    · intro v m u hin hv hab
      exact absurd hab (hne v (hin.subset List.mem_cons_self) hv)

/-! ## A launcher that spawns, and one that aborts -/

/-- The engine is at the launch breakpoint of a launcher for which MPIR_debug_state is `s`. -/
def atLaunchBp (st : EngineState) (s : UInt8) : World where
  target := sampleTarget 0x1001 [s]
  proc := { Process.start sample with threadCtxStack := [100], neverTrapped := false }
  lmon := { Lmon.start with engineState := st }
  log := []

/-- A stop at it. -/
def launchStopAt (st : EngineState) (s : UInt8) : LaunchStop := ⟨atLaunchBp st s, [s, 0, 0, 0]⟩

theorem launchStopAt_reached {st : EngineState} {s : UInt8}
    (h : peekBytes ((sampleTarget 0x1001 [s]).mem 0) 0x2000 4 = some [s, 0, 0, 0]) :
    (launchStopAt st s).Reached sample := by
  obtain ⟨l, hmm, hfocus⟩ : ∃ l : Lwp, l.mm = 0 ∧
      focus sample true (atLaunchBp st s) = .ok (100, l) (atLaunchBp st s) := ⟨_, rfl, rfl⟩
  have hget : (get : EngineM World) (atLaunchBp st s) = .ok (atLaunchBp st s) (atLaunchBp st s) := rfl
  show tracerRead sample true 0x2000 4 (atLaunchBp st s) = .ok [s, 0, 0, 0] (atLaunchBp st s)
  unfold tracerRead
  rw [ok_bind hfocus, ok_bind hget, hmm]
  show orThrow .tracer (peekBytes ((sampleTarget 0x1001 [s]).mem 0) 0x2000 4) _ = _
  rw [h]
  rfl

/-- MPIR_DEBUG_SPAWNED, then MPIR_NULL. -/
theorem mirrors_iff_spawned :
    Mirrors sample [launchStopAt .start 1, launchStopAt .spawned 0] ∧
      (launchStopAt .start 1).handled sample = true := by
  have hlinked : Linked sample .start [launchStopAt .start 1, launchStopAt .spawned 0] :=
    ⟨rfl, launchStopAt_reached (by decide +kernel), by decide +kernel, launchStopAt_reached (by decide +kernel), trivial⟩
  refine ⟨(mirrors_iff sample .start _ hlinked).mpr ?_, by decide +kernel⟩
  intro v hv hab
  rcases List.mem_cons.mp hv with rfl | hv
  · exact absurd hab (by decide)
  · rw [List.mem_singleton.mp hv] at hab
    exact absurd hab (by decide)

/-- MPIR_DEBUG_ABORTING is handled to completion and leaves the state MPIR_NULL, so that a spawn is
    accepted after it. -/
theorem mirrors_counterexample :
    Linked sample .start [launchStopAt .start 2, launchStopAt .null 1] ∧
      (launchStopAt .start 2).handled sample = true ∧ (launchStopAt .start 2).next sample = .null ∧
      engineStateOf (launchStopAt .start 2).value = .abort ∧ (launchStopAt .null 1).accepted = true ∧
      ¬ Mirrors sample [launchStopAt .start 2, launchStopAt .null 1] := by
  have hhandled : (launchStopAt .start 2).handled sample = true := by decide +kernel
  have hnext : (launchStopAt .start 2).next sample = .null :=
    LaunchStop.aborting_null (launchStopAt_reached (by decide +kernel)) hhandled rfl
  refine ⟨⟨rfl, launchStopAt_reached (by decide +kernel), hnext.symm, launchStopAt_reached (by decide +kernel), trivial⟩, hhandled,
    hnext, rfl, rfl, fun hm => ?_⟩
  have himage := hm.image _ List.mem_cons_self hhandled
  rw [hnext] at himage
  cases himage

end LaunchMON.Engine
