/-
  What an engine that goes on has done.

  `Goes` inverts the step function once and for all: an engine that goes on after a step has left the
  launcher to run, or one handler has returned LAUNCHMON_OK in the context of the thread whose status
  was polled, or it has marked or released threads for the front end.  `Run.alive` makes an invariant
  of runs out of that, and what is shown of runs of the engine starts there.
-/
import LaunchMON.Engine.Contexts

namespace LaunchMON.Engine

open Effect Lmonp

set_option synthInstance.maxSize 4096

variable {cfg : Config}

/-! ## What an engine that goes on has done -/

/-- `l` is a thread of the launcher, not a process that the launcher has created. -/
def Lwp.Own (cfg : Config) (t : LwpId) (l : Lwp) : Prop := t = cfg.pid ∨ l.entity = .thread

instance (t : LwpId) (l : Lwp) : Decidable (l.Own cfg t) := inferInstanceAs (Decidable (_ ∨ _))

/-- The thread has been entered into the list. -/
def World.enlist (w : World) (t : LwpId) : World :=
  if w.proc.hasThr t then w
  else { w with proc := w.proc.insertThr t ⟨false, false, false⟩ }

/-- The state in which the status of `t` is handled. -/
def World.eventOf (w : World) (t : LwpId) (l : Lwp) : World := ((w.reap t l).enlist t).enter t

/-- Flag and reason of a request. -/
def Request.mark (r : Request) (p : Process) : Process :=
  if r = .kill then { p with pleaseKill := true, reason := r.reason }
  else { p with pleaseDetach := true, reason := r.reason }

/-- The threads of the list have been told to stop. -/
def World.stopAll (cfg : Config) (w : World) : World :=
  { w with target := (w.proc.thrlist.map Prod.fst).foldl (Target.stopThr cfg) w.target }

/-- **What an engine that goes on has done**, by the label of the step. -/
inductive Goes (cfg : Config) (w : World) : Label → World → Prop
  | env {a : EnvAct} {T : Target} (h : w.target.step cfg.text a = some T) :
      Goes cfg w (.env a) { w with target := T }
  | nothing {a : Label} (hne : ∀ b, a ≠ .env b) (hnp : ∀ t, a ≠ .poll t) : Goes cfg w a w
  /-- an event of the launcher: its handler has returned LAUNCHMON_OK -/
  | event {t : LwpId} {l : Lwp} {r : Report} {ev : Event} {w₂ : World}
      (hl : w.target.lwps t = some l) (htr : l.traced = true) (hr : l.report = some r)
      (hown : l.Own cfg t) (hev : decipherAnEvent cfg r (w.eventOf t l) = .ok ev (w.eventOf t l))
      (hx : invokeHandler cfg ev r.signum (w.eventOf t l) = .ok .ok w₂) :
      Goes cfg w (.poll t) w₂.leave
  /-- the end of a process that the launcher has created, or of a thread that is not in the list -/
  | ignored {t : LwpId} {l : Lwp} {r : Report} (hl : w.target.lwps t = some l)
      (htr : l.traced = true) (hr : l.report = some r) (hend : r = .exited ∨ r = .terminated)
      (hne : t ≠ cfg.pid) (hnot : l.entity = .process ∨ w.proc.hasThr t = false) :
      Goes cfg w (.poll t) (w.reap t l)
  /-- the first stop of a process that the launcher has created -/
  | child {t : LwpId} {l : Lwp} {signum event : Nat} {w₂ : World}
      (hl : w.target.lwps t = some l) (htr : l.traced = true)
      (hr : l.report = some (.stopped signum event)) (hne : t ≠ cfg.pid) (hent : l.entity = .process)
      (hx : handleNewprocForkedEvent cfg ((w.reap t l).enter t) = .ok .ok w₂) :
      Goes cfg w (.poll t) w₂.leave
  /-- a request has been accepted -/
  | asked {a : Label} {r : Request} (ha : a.request cfg = some r)
      (hreq : w.proc.requested = false) :
      Goes cfg w a { w.stopAll cfg with proc := r.mark w.proc }
  /-- threads that were held go on -/
  | released {w' : World} (h : Released w.proc.thrlist w w') :
      Goes cfg w (.fe (.msg .contLaunchBp)) w'

theorem requestDetach_tidy {w : World} (h : w.Tidy cfg) {r : Request} (hr : r ≠ .kill) :
    requestDetach cfg r.reason w = .ok () (if w.proc.requested then w
      else { w.stopAll cfg with proc := r.mark w.proc }) := by
  have hget : (get : EngineM World) w = .ok w w := rfl
  unfold requestDetach request
  rw [ok_bind hget]
  cases hreq : w.proc.requested with
  | true => rfl
  | false =>
    rw [if_neg (by decide), ok_bind (stopThreads_tidy h), if_neg (by decide), Request.mark, if_neg hr]
    rfl

theorem requestKill_tidy {w : World} (h : w.Tidy cfg) :
    requestKill cfg .feRequestedKill w = .ok () (if w.proc.requested then w
      else { w.stopAll cfg with proc := Request.kill.mark w.proc }) := by
  have hget : (get : EngineM World) w = .ok w w := rfl
  unfold requestKill request
  rw [ok_bind hget]
  cases hreq : w.proc.requested with
  | true => rfl
  | false =>
    rw [if_neg (by decide), ok_bind (stopThreads_tidy h), if_neg (by decide)]
    rfl

/-- A request is accepted, or nothing happens. -/
theorem Goes.of_request {w : World} {a : Label} {r : Request} (ha : a.request cfg = some r)
    (hne : ∀ b, a ≠ .env b) (hnp : ∀ t, a ≠ .poll t) :
    Goes cfg w a (if w.proc.requested then w
      else { w.stopAll cfg with proc := r.mark w.proc }) := by
  cases hreq : w.proc.requested with
  | true => exact .nothing hne hnp
  | false => exact .asked ha hreq

theorem decipherAnEvent_eq_ok {r : Report} {ev : Event} {w w' : World}
    (h : decipherAnEvent cfg r w = .ok ev w') : w' = w ∧ ev ≠ .stopNewForkedProcess := by
  obtain ⟨rfl, -⟩ := decipherAnEvent_command h
  refine ⟨rfl, ?_⟩
  cases r with
  | stopped signum event =>
    obtain ⟨regs, w₁, -, h⟩ := bind_eq_ok h
    obtain ⟨pid, w₂, -, h⟩ := bind_eq_ok h
    obtain ⟨w₃, w₄, -, h⟩ := bind_eq_ok h
    cases h
    intro hev
    have hchosen := classify_chosen cfg w₃.proc pid regs.pc signum event
    rw [hev] at hchosen
    cases hchosen
  | exited =>
    cases h
    decide
  | terminated =>
    cases h
    decide

/-- An event whose handler has returned LAUNCHMON_OK. -/
theorem handleEvent_eq_ok {w w' : World} {t : LwpId} {r : Report} (h : w.Tidy cfg)
    (heq : handleEvent cfg t r w = .ok .ok w') :
    ∃ ev w₂, decipherAnEvent cfg r (w.enter t) = .ok ev (w.enter t) ∧
      invokeHandler cfg ev r.signum (w.enter t) = .ok .ok w₂ ∧ w' = w₂.leave := by
  unfold handleEvent at heq
  rw [ok_bind (makeContext_tidy h t)] at heq
  obtain ⟨ev, w₁, hev, heq⟩ := bind_eq_ok heq
  obtain ⟨rfl, hne⟩ := decipherAnEvent_eq_ok hev
  obtain ⟨rc, w₂, hrc, heq⟩ := bind_eq_ok heq
  obtain ⟨u, w₃, hundo, heq⟩ := bind_eq_ok heq
  cases heq
  have hst : Steady cfg (w.enter t) w₂ := invokeHandler_returns hne _ _ _ hrc
  rw [checkAndUndoContext_inContext (hst.inContext (h.enter_inContext t))] at hundo
  cases hundo
  exact ⟨ev, w₂, hev, hrc, rfl⟩

/-- The handler of a child has returned LAUNCHMON_OK. -/
theorem handleChild_eq_ok {w w' : World} {t : LwpId} {signum event : Nat} (h : w.Tidy cfg)
    (heq : handleChild cfg t (.stopped signum event) w = .ok .ok w') :
    ∃ w₂, handleNewprocForkedEvent cfg (w.enter t) = .ok .ok w₂ ∧ w' = w₂.leave := by
  unfold handleChild at heq
  dsimp only at heq
  rw [ok_bind (makeContext_tidy h t)] at heq
  obtain ⟨rc, w₂, hrc, heq⟩ := bind_eq_ok heq
  obtain ⟨u, w₃, hundo, heq⟩ := bind_eq_ok heq
  cases heq
  have hst : Steady cfg (w.enter t) w₂ :=
    Within.of_ok (x := handleNewprocForkedEvent cfg) hrc
  rw [checkAndUndoContext_inContext (hst.inContext (h.enter_inContext t))] at hundo
  cases hundo
  exact ⟨w₂, hrc, rfl⟩

theorem World.enlist_hasThr (w : World) (t : LwpId) : (w.enlist t).proc.hasThr t = true := by
  unfold World.enlist
  split
  · assumption
  · exact hasThr_insertThr.mpr (Or.inl rfl)

theorem World.enlist_of_hasThr {w : World} {t : LwpId} (h : w.proc.hasThr t = true) :
    w.enlist t = w := if_pos h

theorem World.Tidy.enlist {w : World} (h : w.Tidy cfg) (t : LwpId) : (w.enlist t).Tidy cfg := by
  unfold World.enlist
  split
  · exact h
  · exact ⟨h.stack, h.child, hasThr_insertThr.mpr (Or.inr h.pid)⟩

theorem handleThrcreateRequest_run (t : LwpId) (w : World) :
    handleThrcreateRequest t w = .ok .ok (w.enlist t) := by
  have hget : (get : EngineM World) w = .ok w w := rfl
  unfold handleThrcreateRequest World.enlist
  rw [ok_bind hget]
  cases h : w.proc.hasThr t with
  | true => rfl
  | false => rfl

/-- A thread is entered into the list when it stops. -/
theorem enterThread_run (w : World) (t : LwpId) (r : Report) :
    enterThread cfg t r w = .ok .ok (match r with
      | .stopped _ _ => w.enlist t
      | .exited | .terminated => w) := by
  have hget : (get : EngineM World) w = .ok w w := rfl
  unfold enterThread
  rw [ok_bind hget]
  cases r with
  | stopped signum event =>
    dsimp only
    by_cases h : w.proc.hasThr t = true
    · rw [if_pos h, World.enlist_of_hasThr h]
      rfl
    · rw [if_neg h]
      exact handleThrcreateRequest_run t w
  | exited => rfl
  | terminated => rfl

/-- A status of a process or thread has been handled. -/
theorem goes_poll {w w' : World} {t : LwpId} {l : Lwp} {r : Report} (h : w.Tidy cfg)
    (hl : w.target.lwps t = some l) (htr : l.traced = true) (hr : l.report = some r)
    (htool : some t ≠ w.lmon.toollauncherpid)
    (heq : pollEvent cfg t l.entity r (w.reap t l) = .ok .ok w') : Goes cfg w (.poll t) w' := by
  have hreap : (w.reap t l).Tidy cfg := ⟨h.stack, h.child, h.pid⟩
  have hget : ∀ w : World, (get : EngineM World) w = .ok w w := fun _ => rfl
  unfold pollEvent at heq
  rw [ok_bind (hget _)] at heq
  cases hent : l.entity with
  | process =>
    rw [hent] at heq
    dsimp only at heq
    by_cases hpid : t = cfg.pid
    · rw [if_pos hpid] at heq
      obtain ⟨ev, w₂, hev, hx, rfl⟩ := handleEvent_eq_ok hreap heq
      have hthr : (w.reap t l).proc.hasThr t = true := by
        rw [hpid]
        exact hreap.pid
      have hof : w.eventOf t l = (w.reap t l).enter t := by
        unfold World.eventOf
        rw [World.enlist_of_hasThr hthr]
      rw [← hof] at hev hx
      exact .event hl htr hr (Or.inl hpid) hev hx
    · have htool' : some t ≠ (w.reap t l).lmon.toollauncherpid := htool
      rw [if_neg hpid, if_neg htool'] at heq
      cases r with
      | stopped signum event =>
        obtain ⟨w₂, hx, rfl⟩ := handleChild_eq_ok hreap heq
        exact .child hl htr hr hpid hent hx
      | exited =>
        cases heq
        exact .ignored hl htr hr (Or.inl rfl) hpid (Or.inl hent)
      | terminated =>
        cases heq
        exact .ignored hl htr hr (Or.inr rfl) hpid (Or.inl hent)
  | thread =>
    rw [hent] at heq
    dsimp only at heq
    rw [ok_bind (enterThread_run _ t r), ok_bind (hget _)] at heq
    -- a thread that ends and is in the list has its event; otherwise the end is ignored
    have hend : r = .exited ∨ r = .terminated → (if (w.reap t l).proc.hasThr t then
        handleEvent cfg t r else pure .ok : EngineM Rc) (w.reap t l) = .ok .ok w' →
        Goes cfg w (.poll t) w' := by
      intro hend heq
      by_cases hthr : (w.reap t l).proc.hasThr t = true
      · rw [if_pos hthr] at heq
        obtain ⟨ev, w₂, hev, hx, rfl⟩ := handleEvent_eq_ok hreap heq
        have hof : w.eventOf t l = (w.reap t l).enter t := by
          unfold World.eventOf
          rw [World.enlist_of_hasThr hthr]
        rw [← hof] at hev hx
        exact .event hl htr hr (Or.inr hent) hev hx
      · rw [if_neg hthr] at heq
        cases heq
        refine .ignored hl htr hr hend ?_ (Or.inr (Bool.eq_false_of_not_eq_true hthr))
        rintro rfl
        exact hthr hreap.pid
    cases r with
    | stopped signum event =>
      rw [if_pos (World.enlist_hasThr _ t)] at heq
      obtain ⟨ev, w₂, hev, hx, rfl⟩ := handleEvent_eq_ok (hreap.enlist t) heq
      exact .event hl htr hr (Or.inr hent) hev hx
    | exited => exact hend (Or.inl rfl) heq
    | terminated => exact hend (Or.inr rfl) heq

theorem handleExitEvent_at {w : World} {t : LwpId} (h : w.At t) (hne : t ≠ cfg.pid) :
    handleExitEvent cfg w = .ok .ok { w with proc := w.proc.eraseThr t } := by
  have hget : (get : EngineM World) w = .ok w w := rfl
  refine catching_ok ?_
  rw [ok_bind hget, ok_bind h.curThreadCtx, if_neg hne]
  rfl

/-- The end of the launcher ends the engine. -/
theorem handleExitEvent_pid {w w' : World} (h : w.At cfg.pid) :
    handleExitEvent cfg w ≠ .ok .ok w' := by
  intro hx
  have hget : (get : EngineM World) w = .ok w w := rfl
  rcases catching_eq_ok hx with hx | hx
  · rw [ok_bind hget, ok_bind h.curThreadCtx, if_pos rfl] at hx
    exact Never.bind (fun _ => never_pure (by decide)) _ _ hx
  · cases hx

theorem handleEvent_pid_ne_ok {w w' : World} {r : Report} (h : w.Tidy cfg)
    (hend : r = .exited ∨ r = .terminated) : handleEvent cfg cfg.pid r w ≠ .ok .ok w' := by
  intro heq
  obtain ⟨ev, w₂, hev, hx, -⟩ := handleEvent_eq_ok h heq
  have hexited : ev = .exited := by
    rcases hend with rfl | rfl <;> cases hev <;> rfl
  subst hexited
  exact handleExitEvent_pid (h.enter_at h.pid) hx

/-- A request that comes with a step. -/
theorem Goes.of_ask {w w' : World} {a : Label} {r : Request} {x : EngineM Unit}
    (ha : a.request cfg = some r) (hne : ∀ b, a ≠ .env b) (hnp : ∀ t, a ≠ .poll t)
    (hx : x w = .ok () (if w.proc.requested then w
      else { w.stopAll cfg with proc := r.mark w.proc }))
    (heq : catchAll Rc.failed (do x; pure .ok) w = .ok .ok w') : Goes cfg w a w' := by
  rcases catching_eq_ok heq with h | h
  · rw [ok_bind hx] at h
    cases h
    exact .of_request ha hne hnp
  · cases h

/-- A message of the front end. -/
theorem goes_fe {w w' : World} {m : FeInput} (h : w.Tidy cfg)
    (heq : handleIncomingSocketEvent cfg m w = .ok .ok w') : Goes cfg w (.fe m) w' := by
  have hne : ∀ b, Label.fe m ≠ .env b := fun b hb => nomatch hb
  have hnp : ∀ t, Label.fe m ≠ .poll t := fun t ht => nomatch ht
  unfold handleIncomingSocketEvent at heq
  cases hapi : cfg.apiMode with
  | false =>
    rw [if_pos hapi] at heq
    cases heq
    exact .nothing hne hnp
  | true =>
    rw [if_neg (by rw [hapi]; decide)] at heq
    cases m with
    | disconnected =>
      exact .of_ask (if_pos hapi) hne hnp (requestDetach_tidy h (r := .disconnect) (by decide)) heq
    | illFormed => cases heq
    | msg type =>
      cases type with
      | detach =>
        exact .of_ask (if_pos hapi) hne hnp (requestDetach_tidy h (r := .detach) (by decide)) heq
      | kill => exact .of_ask (if_pos hapi) hne hnp (requestKill_tidy h) heq
      | shutdownbe =>
        exact .of_ask (if_pos hapi) hne hnp (requestDetach_tidy h (r := .shutdown) (by decide)) heq
      | contLaunchBp =>
        rcases catching_eq_ok heq with heq | heq
        · obtain ⟨u, w₁, hx, heq⟩ := bind_eq_ok heq
          cases heq
          exact .released (requestContLaunchBp_tidy h hx)
        · cases heq
      | _ => cases heq

/-- The end of the tool launcher. -/
theorem goes_daemonExit {w w' : World} {killed : Bool} (h : w.Tidy cfg)
    (heq : handleDaemonExitEvent cfg w = .ok .ok w') : Goes cfg w (.pollTool killed) w' := by
  have hne : ∀ b, Label.pollTool killed ≠ .env b := fun b hb => nomatch hb
  have hnp : ∀ t, Label.pollTool killed ≠ .poll t := fun t ht => nomatch ht
  unfold handleDaemonExitEvent at heq
  cases hsup : cfg.failDetectSup with
  | false =>
    rw [hsup] at heq
    cases heq
    exact .nothing hne hnp
  | true =>
    rw [hsup] at heq
    exact .of_ask (if_pos hsup) hne hnp (requestDetach_tidy h (r := .daemonExit) (by decide)) heq

/-- **Every step of an engine that goes on is one of these.** -/
theorem goes {s s' : Sys} {a : Label} (h : s.w.Tidy cfg) (hs : s.step cfg a = some s')
    (hm : s'.mode ≠ .ended) : Goes cfg s.w a s'.w := by
  have hget : ∀ w : World, (get : EngineM World) w = .ok w w := fun _ => rfl
  cases a with
  | env a =>
    obtain ⟨-, T, hT, rfl⟩ := Sys.step_env hs
    exact .env hT
  | poll t =>
    obtain ⟨-, l, r, hl, htr, htool, hr, rfl⟩ := Sys.step_poll hs
    exact goes_poll h hl htr hr htool (Sys.run_alive hm)
  | pollTool killed =>
    obtain ⟨-, t, ht, rfl⟩ := Sys.step_pollTool hs
    have hx := Sys.run_alive hm
    have hend : (if killed then Report.terminated else Report.exited) = .exited ∨
        (if killed then Report.terminated else Report.exited) = .terminated := by
      cases killed
      · exact Or.inl rfl
      · exact Or.inr rfl
    by_cases hpid : t = cfg.pid
    · subst hpid
      unfold pollEvent at hx
      rw [ok_bind (hget _)] at hx
      dsimp only at hx
      rw [if_pos rfl] at hx
      exact absurd hx (handleEvent_pid_ne_ok h hend)
    · rw [pollEvent_tool ht hpid] at hx
      exact goes_daemonExit h hx
  | idle =>
    obtain ⟨-, rfl⟩ := Sys.step_idle hs
    exact .nothing (fun b hb => nomatch hb) (fun t ht => nomatch ht)
  | fe m =>
    obtain ⟨-, rfl⟩ := Sys.step_fe hs
    exact goes_fe h (Sys.run_alive hm)
  | signal =>
    obtain ⟨-, -, hs | ⟨-, hx⟩⟩ := Sys.step_signal hs
    · exact absurd hs hm
    · have heq := (requestDetach_tidy h (r := .engineSignal) (by decide)).symm.trans hx
      rw [← (EStateM.Result.ok.inj heq).2]
      exact .of_request rfl (fun b hb => nomatch hb) (fun t ht => nomatch ht)

/-! ## Invariants of runs -/

theorem World.Tidy.leave_of_steady {w w₂ : World} {t : LwpId} (h : w.Tidy cfg)
    (hst : Steady cfg (w.enter t) w₂) : w₂.leave.Tidy cfg := by
  refine ⟨rfl, rfl, hst.pid ?_⟩
  obtain ⟨r, hr⟩ := hasThr_iff.mp h.pid
  exact hasThr_iff.mpr ⟨r, by rwa [World.enter_thrlist]⟩

theorem Goes.tidy {w w' : World} {a : Label} (hg : Goes cfg w a w') (h : w.Tidy cfg) :
    w'.Tidy cfg := by
  have hreap : ∀ t l, (w.reap t l).Tidy cfg := fun t l => ⟨h.stack, h.child, h.pid⟩
  cases hg with
  | env => exact h.setTarget _
  | nothing => exact h
  | event hl htr hr hown hev hx =>
    exact ((hreap _ _).enlist _).leave_of_steady
      (invokeHandler_returns (decipherAnEvent_eq_ok hev).2 _ _ _ hx)
  | ignored => exact hreap _ _
  | child hl htr hr hne hent hx =>
    exact (hreap _ _).leave_of_steady (Within.of_ok (x := handleNewprocForkedEvent cfg) hx)
  | @asked _ r =>
    unfold Request.mark
    split <;> exact ⟨h.stack, h.child, h.pid⟩
  | released hrel => exact hrel.tidy h

/-- The rule of invariants of an engine that goes on. -/
theorem Run.alive {G : Sys → Label → Prop} {I : World → Prop} {s₀ s : Sys} (h₀ : Initial cfg s₀)
    (hI : I s₀.w) (h : Run cfg G s₀ s)
    (hstep : ∀ s a w', s.w.Tidy cfg → I s.w → s.mode ≠ .ended → G s a → Goes cfg s.w a w' → I w')
    (hm : s.mode ≠ .ended) : s.w.Tidy cfg ∧ I s.w := by
  induction h with
  | refl =>
    obtain ⟨T, -, rfl⟩ := h₀
    exact ⟨⟨rfl, rfl, hasThr_iff.mpr ⟨_, List.mem_singleton_self _⟩⟩, hI⟩
  | step h ha hs ih =>
    have hm' := Sys.step_alive hs
    obtain ⟨ht, hI'⟩ := ih hm'
    have hg := goes ht hs hm
    exact ⟨hg.tidy ht, hstep _ _ _ ht hI' hm' ha hg⟩

end LaunchMON.Engine
