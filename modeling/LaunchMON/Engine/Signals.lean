/-
  Signals of the launcher.

  A stop by a signal other than SIGTRAP and SIGSTOP is to be relayed: the signal is delivered to the
  thread, once, and the thread goes on where it is.  `decipher_an_event` looks at the PC before it
  looks at the signal, so this is what happens exactly when the PC is at neither of the breakpoints
  (`relayed_iff`); `relayed_counterexample` is a run in which a signal is swallowed and the thread is
  put back to the breakpoint.
-/
import LaunchMON.Engine.Kin

namespace LaunchMON.Engine

open Effect

variable {cfg : Config}

/-! ## A stop of a thread of the launcher -/

/-- A stop is handled in the context of its thread, which is in the list by then. -/
theorem pollEvent_stop {w : World} {t : LwpId} {l : Lwp} {sig ev : Nat} (h : w.Tidy cfg)
    (hown : l.Own cfg t) : pollEvent cfg t l.entity (.stopped sig ev) (w.reap t l) =
      handleEvent cfg t (.stopped sig ev) ((w.reap t l).enlist t) := by
  have hget : ∀ w : World, (get : EngineM World) w = .ok w w := fun _ => rfl
  unfold pollEvent
  rw [ok_bind (hget _)]
  cases hent : l.entity with
  | process =>
    have hpid : t = cfg.pid := hown.resolve_right (by rw [hent]; decide)
    have hthr : (w.reap t l).proc.hasThr t = true := by
      rw [hpid]
      exact h.pid
    dsimp only
    rw [if_pos hpid, World.enlist_of_hasThr hthr]
  | thread =>
    dsimp only
    rw [ok_bind (enterThread_run _ t _), ok_bind (hget _)]
    dsimp only
    rw [if_pos (World.enlist_hasThr _ t)]

/-- The thread as it is when its stop is handled. -/
theorem World.eventOf_lwps (w : World) (t : LwpId) (l : Lwp) :
    (w.eventOf t l).target.lwps t = some { l with report := none } := by
  rw [World.eventOf_target, Target.setLwp_self]

theorem World.eventOf_at {w : World} (h : w.Tidy cfg) (t : LwpId) (l : Lwp) :
    (w.eventOf t l).At t := by
  have hreap : (w.reap t l).Tidy cfg := ⟨h.stack, h.child, h.pid⟩
  exact (hreap.enlist t).enter_at (World.enlist_hasThr _ t)

/-- A stop is deciphered from the process, the PC and the status. -/
theorem decipherAnEvent_at {w : World} {t : LwpId} {l : Lwp} {sig ev : Nat} (h : w.At t)
    (hl : w.target.lwps t = some l) (hp : l.Ptraceable) :
    decipherAnEvent cfg (.stopped sig ev) w =
      .ok (classify cfg w.proc (some t) l.pc sig ev) w := by
  have hget : (get : EngineM World) w = .ok w w := rfl
  show (do
    let r ← tracerGetregs cfg
    let pid ← getPid cfg true
    let w ← get
    pure (classify cfg w.proc pid r.pc sig ev) : EngineM Event) w = _
  rw [ok_bind (tracerGetregs_at h hl hp), ok_bind (getPid_focused h.focused), ok_bind hget]
  rfl

/-- Contexts and thread list are all that differs when an event is handled. -/
theorem World.eventOf_proc (w : World) (t : LwpId) (l : Lwp) :
    ∃ L st, (w.eventOf t l).proc = { w.proc with thrlist := L, threadCtxStack := st } := by
  unfold World.eventOf World.enter
  rw [if_pos (World.enlist_hasThr _ t)]
  unfold World.enlist
  split <;> exact ⟨_, _, rfl⟩

theorem World.At.inContext {w : World} {t : LwpId} (h : w.At t) : w.InContext t :=
  h.focused.inContext

/-- A handler has returned, and its context is undone. -/
theorem handleEvent_run {w w₂ : World} {t : LwpId} {r : Report} {ev : Event} {rc : Rc}
    (h : w.Tidy cfg) (hev : decipherAnEvent cfg r (w.enter t) = .ok ev (w.enter t))
    (hx : invokeHandler cfg ev r.signum (w.enter t) = .ok rc w₂) (hin : w₂.InContext t) :
    handleEvent cfg t r w = .ok rc w₂.leave := by
  unfold handleEvent
  rw [ok_bind (makeContext_tidy h t), ok_bind hev, ok_bind hx,
    ok_bind (checkAndUndoContext_inContext hin)]
  rfl

/-! ## Relaying -/

/-- The handler sets the trace options and delivers the signal. -/
theorem handleRelaySignalEvent_at {w : World} {t : LwpId} {l : Lwp} (sig : Nat) (h : w.At t)
    (hl : w.target.lwps t = some l) (hp : l.Ptraceable) :
    handleRelaySignalEvent cfg sig w = .ok .ok
      ((w.setLwp t { l with opts := true }).setLwp t { l.resume with
        opts := true
        delivered := l.delivered ++ [if sig = sigstop then sigcont else sig] }) := by
  have hopts := @tracerOptions_focused cfg w t l h.focused hl hp true
  have hdeliver := @tracerDeliverSignal_focused cfg (w.setLwp t { l with opts := true }) t _
    (h.setLwp _ _).focused (World.setLwp_self ..) hp (if sig = sigstop then sigcont else sig)
  refine catching_ok ?_
  rw [ok_bind hopts, ok_bind hdeliver]
  rfl

/-- A stop of `t` by `sig` is relayed: it is deciphered as a signal, the signal is delivered to the
    thread, once, and the PC stays. -/
def Relayed (cfg : Config) (s s' : Sys) (t : LwpId) (l : Lwp) (sig ev : Nat) : Prop :=
  decipherAnEvent cfg (.stopped sig ev) (s.w.eventOf t l) = .ok .relaySignal (s.w.eventOf t l) ∧
    ∃ l', s'.w.target.lwps t = some l' ∧ l'.delivered = l.delivered ++ [sig] ∧ l'.pc = l.pc

/-- The choice of `decipher_an_event` for a signal. -/
theorem classify_signal {p : Process} {pid : Option LwpId} {pc : VA} {sig ev : Nat}
    (htrap : sig ≠ sigtrap) (hstop : sig ≠ sigstop) (hn : p.neverTrapped = false)
    (hreq : p.requested = false) : classify cfg p pid pc sig ev = .relaySignal ↔
      p.pcPartOf .launch pc = false ∧ p.pcPartOf .loader pc = false := by
  obtain ⟨hd, hk⟩ := not_requested hreq
  unfold classify
  rw [hn, hd, hk, if_neg htrap, if_neg hstop]
  cases p.pcPartOf .launch pc <;> cases p.pcPartOf .loader pc <;> simp

/-- **When a signal is relayed.**  In every run, a stop by a signal other than SIGTRAP and SIGSTOP,
    after the first trap and without a request, is relayed if and only if `is_pc_part_of_bp_op`
    accepts its PC for neither breakpoint. -/
theorem relayed_iff {s₀ s s' : Sys} {t : LwpId} {l : Lwp} {sig ev : Nat} (h₀ : Initial cfg s₀)
    (h : Run cfg (fun _ _ => True) s₀ s) (hs : s.step cfg (.poll t) = some s')
    (hl : s.w.target.lwps t = some l) (hown : l.Own cfg t)
    (hr : l.report = some (.stopped sig ev)) (htrap : sig ≠ sigtrap) (hstop : sig ≠ sigstop)
    (hn : s.w.proc.neverTrapped = false) (hreq : s.w.proc.requested = false) :
    Relayed cfg s s' t l sig ev ↔
      s.w.proc.pcPartOf .launch l.pc = false ∧ s.w.proc.pcPartOf .loader l.pc = false := by
  obtain ⟨ht, hkin⟩ := h.kin h₀ (Sys.step_alive hs)
  obtain ⟨-, l₁, r, hl₁, htr, -, hr₁, rfl⟩ := Sys.step_poll hs
  cases hl.symm.trans hl₁
  cases hr.symm.trans hr₁
  have hat := World.eventOf_at ht t l
  have hlwp := s.w.eventOf_lwps t l
  have hp : ({ l with report := none } : Lwp).Ptraceable := ⟨htr, hkin.stops t l sig ev hl hr⟩
  have hdec := @decipherAnEvent_at cfg _ t _ sig ev hat hlwp hp
  have hclass : classify cfg (s.w.eventOf t l).proc (some t) l.pc sig ev = .relaySignal ↔
      s.w.proc.pcPartOf .launch l.pc = false ∧ s.w.proc.pcPartOf .loader l.pc = false := by
    obtain ⟨L, st, heq⟩ := s.w.eventOf_proc t l
    rw [heq]
    exact classify_signal htrap hstop hn hreq
  constructor
  · rintro ⟨hdec', -⟩
    rw [hdec] at hdec'
    exact hclass.mp (EStateM.Result.ok.inj hdec').1
  · intro hpc
    rw [hclass.mpr hpc] at hdec
    refine ⟨hdec, ?_⟩
    have hreap : (s.w.reap t l).Tidy cfg := ⟨ht.stack, ht.child, ht.pid⟩
    have hx := @handleRelaySignalEvent_at cfg _ t _ sig hat hlwp hp
    rw [if_neg hstop] at hx
    have hrun := (pollEvent_stop ht hown).trans (handleEvent_run (hreap.enlist t) hdec hx
      ((hat.setLwp _ _).setLwp _ _).inContext)
    rw [Sys.run_w, final_ok hrun]
    exact ⟨_, World.setLwp_self .., rfl, rfl⟩

/-- Thread 100 has stopped by signal 10, at the launch breakpoint or not, and after the stop has been
    handled it is at `pc` and the signals `sigs` have been delivered to it. -/
def stoppedBy10 (atLaunch : Bool) (pc : VA) (sigs : List Nat) (s s' : Sys) : Bool :=
  (s.w.target.lwps 100).any fun l => l.report = some (.stopped 10 0) ∧
    s.w.proc.neverTrapped = false ∧ s.w.proc.requested = false ∧ l.delivered = [] ∧
    s.w.proc.pcPartOf .launch l.pc = atLaunch ∧ s.w.proc.pcPartOf .loader l.pc = false ∧
    (s'.w.target.lwps 100).any fun l' => l'.pc = pc ∧ l'.delivered = sigs

theorem relayed_iff_away : ∃ s s' l,
    (Sys.start sample (sampleTarget 0x1010 [])).runAll sample
      [.poll 100, .env (.signal 100 10)] = some s ∧
    s.step sample (.poll 100) = some s' ∧ s.w.target.lwps 100 = some l ∧
    l.report = some (.stopped 10 0) ∧ Relayed sample s s' 100 l 10 0 := by
  have hrun : ((Sys.start sample (sampleTarget 0x1010 [])).runAll sample
      [.poll 100, .env (.signal 100 10)]).bind (fun s₁ => (s₁.step sample (.poll 100)).map
        fun s₂ => stoppedBy10 false 0x1010 [10] s₁ s₂) = some true := by decide +kernel
  obtain ⟨s, s', hs, hs', hf⟩ := Sys.runAll_step hrun
  obtain ⟨l, hl, hf⟩ := (Option.any_eq_true _ _).mp hf
  obtain ⟨hr, hn, hreq, -, hlaunch, hloader, -⟩ := of_decide_eq_true hf
  exact ⟨s, s', l, hs, hs', hl, hr, (relayed_iff ⟨_, sample_launched _ _, rfl⟩ (Run.of_runAll _ hs)
    hs' hl (Or.inl rfl) hr (by decide) (by decide) hn hreq).mpr ⟨hlaunch, hloader⟩⟩

/-- The launcher is three bytes behind the launch breakpoint when the signal arrives.  It is not
    delivered, and the thread is put back to the breakpoint. -/
theorem relayed_counterexample : ∃ s s' l,
    (Sys.start sample (sampleTarget 0x1010 [])).runAll sample
      [.poll 100, .env (.exec 100 0x1003 0x2100), .env (.signal 100 10)] = some s ∧
    s.step sample (.poll 100) = some s' ∧ s.w.target.lwps 100 = some l ∧ l.Own sample 100 ∧
    l.report = some (.stopped 10 0) ∧ s.w.proc.neverTrapped = false ∧
    s.w.proc.requested = false ∧ ¬Relayed sample s s' 100 l 10 0 := by
  have hrun : ((Sys.start sample (sampleTarget 0x1010 [])).runAll sample
      [.poll 100, .env (.exec 100 0x1003 0x2100), .env (.signal 100 10)]).bind
        (fun s₁ => (s₁.step sample (.poll 100)).map
          fun s₂ => stoppedBy10 true 0x1000 [] s₁ s₂) = some true := by decide +kernel
  obtain ⟨s, s', hs, hs', hf⟩ := Sys.runAll_step hrun
  obtain ⟨l, hl, hf⟩ := (Option.any_eq_true _ _).mp hf
  obtain ⟨hr, hn, hreq, hdel, -, -, hl'⟩ := of_decide_eq_true hf
  obtain ⟨l', hl', hf'⟩ := (Option.any_eq_true _ _).mp hl'
  refine ⟨s, s', l, hs, hs', hl, Or.inl rfl, hr, hn, hreq, ?_⟩
  rintro ⟨-, l₁, hl₁, hdel₁, -⟩
  cases hl'.symm.trans hl₁
  rw [(of_decide_eq_true hf').2, hdel] at hdel₁
  cases hdel₁

end LaunchMON.Engine
