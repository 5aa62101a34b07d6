/-
  The wake-up of a request: when detach or kill is pending, some thread of the launcher is going to stop.

  1. **Due.**  A request only sets a flag and stops the threads that run; its handler is called at the
     next stop of a thread.  So while it is pending a thread must be due: it runs and a stop has been
     requested, or a stop of it has not been taken.

  2. **What takes a stop away.**  The environment moves a thread that is due to a stop, unless it ends
     the thread.  Once the first trap has been taken, a stop that is taken calls the handler of the
     request, after which the loop ends; the first trap itself is for its own handler, which continues
     the thread with the stop still requested, if one was (`Wanted`).

  3. **The exception.**  The launch breakpoint holds a thread: its stop has been taken and it does not
     run.  A request that comes then finds no thread to stop, and nothing calls its handler
     (`request_wakes_counterexample`).

  So a request is never stuck in a run in which, whenever one is made, a thread runs or a stop is
  waiting (`request_wakes`).
-/
import LaunchMON.Engine.Balance

namespace LaunchMON.Engine

open Effect Lmonp

set_option synthInstance.maxSize 4096

variable {cfg : Config}

/-! ## Threads that are due -/

/-- A stop has not been taken. -/
def Lwp.Stopping (l : Lwp) : Prop := ∃ sig ev, l.report = some (.stopped sig ev)

/-- The event loop is going to see a stop. -/
def Lwp.Due (l : Lwp) : Prop :=
  l.traced = true ∧ (l.Runs ∧ l.stopRequested = true ∨ l.Stopping)

/-- The thread `u` of the launcher is due. -/
def World.DueAt (cfg : Config) (w : World) (u : LwpId) : Prop :=
  ∃ l, w.target.lwps u = some l ∧ l.Own cfg u ∧ l.Due

/-- A thread of the launcher is due. -/
def World.Wakes (cfg : Config) (w : World) : Prop := ∃ u, w.DueAt cfg u

/-- Another thread than `t` is due. -/
def World.WakesBut (cfg : Config) (w : World) (t : LwpId) : Prop := ∃ u, u ≠ t ∧ w.DueAt cfg u

/-- A request would find a thread to stop, or a stop is waiting. -/
def World.Stoppable (cfg : Config) (w : World) : Prop :=
  ∃ u l, w.target.lwps u = some l ∧ l.Own cfg u ∧ l.traced = true ∧
    (l.Stopping ∨ l.Runs ∧ (l.stopRequested = true ∨ w.proc.hasThr u = true))

/-- `u` is held at the launch breakpoint. -/
def Process.Holds (p : Process) (u : LwpId) : Prop :=
  ∃ r, (u, r) ∈ p.thrlist ∧ r.eventRegistered = true

/-- `handle_trap_after_attach_event`, as far as it looks for symbols. -/
def attachSymbols (cfg : Config) : EngineM Unit := do
  handleMpirVariables cfg cfg.mainImage
  registerLoaderBp cfg
  checkDependentSOs cfg

/-- `MPIR_attach_fifo` is found, in the launcher or in its library. -/
def World.FindsFifo (cfg : Config) (w : World) : Prop :=
  ∀ w', attachSymbols cfg w = .ok () w' → w'.proc.symAttachFifo.isSome = true

/-- The handler of the first trap continues the launcher: it does not only where it attaches, with the
    colocation service, and the FIFO that there should be is not found. -/
def Config.Continues (cfg : Config) (w : World) : Prop :=
  cfg.attach = false ∨ cfg.colocSup = false ∨ cfg.attfifoSup = false ∨ w.FindsFifo cfg

/-- The condition on a step.  A request is made when it finds a thread; and while it is pending no
    step takes away the only thread that is due: by its end, as the first trap, or from a thread that
    is held. -/
structure Wakeful (cfg : Config) (w : World) (a : Label) : Prop where
  made : w.proc.requested = false → (a.request cfg).isSome = true → w.Stoppable cfg
  ends : w.proc.requested = true → ∀ t killed, a = .env (.exit t killed) → w.WakesBut cfg t
  first : w.proc.requested = true → w.proc.neverTrapped = true → ∀ t l, a = .poll t →
    w.target.lwps t = some l → l.Own cfg t → l.Stopping →
    w.WakesBut cfg t ∨ l.stopRequested = true ∧ cfg.Continues (w.eventOf t l)
  held : w.proc.requested = true → a = .fe (.msg .contLaunchBp) →
    ∃ u l, w.target.lwps u = some l ∧ l.Own cfg u ∧ l.Due ∧
      (l.stopRequested = true ∨ ¬w.proc.Holds u)

/-! ## The environment -/

theorem Lwp.due_stop {l : Lwp} (h : l.traced = true) (sig ev : Nat) : (l.stop sig ev).Due :=
  ⟨h, Or.inr ⟨sig, ev, rfl⟩⟩

/-- A thread that is due and runs has been asked to stop. -/
theorem Lwp.Due.requested {l : Lwp} (h : l.Due)
    (hstops : ∀ sig ev, l.report = some (.stopped sig ev) → l.run = .stopped) (hr : l.Runs) :
    l.stopRequested = true := by
  rcases h.2 with ⟨-, hreq⟩ | ⟨sig, ev, hrep⟩
  · exact hreq
  · rcases hr with hr | hr <;> exact absurd ((hstops sig ev hrep).symm.trans hr) (by decide)

section Env

variable {text : Mem} {T T' : Target} {u : LwpId} {l : Lwp}

/-- A thread moves, and stays due. -/
theorem Target.due_setLwp {t : LwpId} {l₁ l₁' : Lwp} (hl₁ : T.lwps t = some l₁)
    (hent : l₁'.entity = l₁.entity) (hdue : l₁.Due → l₁'.Due) (hl : T.lwps u = some l) (h : l.Due) :
    ∃ l', (T.setLwp t l₁').lwps u = some l' ∧ l'.entity = l.entity ∧ l'.Due := by
  by_cases hu : u = t
  · subst hu
    cases hl.symm.trans hl₁
    exact ⟨l₁', Target.setLwp_self .., hent, hdue h⟩
  · exact ⟨l, (Target.setLwp_ne _ hu _).trans hl, rfl, h⟩

theorem Target.due_create {t new : LwpId} {l₁ : Lwp} {entity : Entity} {mm : Nat} {succ : VA}
    {event : Nat} (hl₁ : T.lwps t = some l₁) (htr : l₁.traced = true)
    (hreq : l₁.Due → l₁.stopRequested = true) (hr : l₁.run = .running) (hnew : T.lwps new = none)
    (hl : T.lwps u = some l) (h : l.Due) :
    ∃ l', (T.create t new l₁ entity mm succ event).lwps u = some l' ∧ l'.entity = l.entity ∧
      l'.Due := by
  unfold Target.create
  split
  · have hne : ∀ {v l₂}, T.lwps v = some l₂ → v ≠ new := by
      rintro v l₂ hv rfl
      cases hv.symm.trans hnew
    have hkeep : ∀ {v l₂}, T.lwps v = some l₂ →
        (T.setLwp new (l₁.spawn entity mm succ)).lwps v = some l₂ :=
      fun hv => (Target.setLwp_ne _ (hne hv) _).trans hv
    exact Target.due_setLwp (hkeep hl₁) rfl (fun _ => Lwp.due_stop htr _ _) (hkeep hl) h
  · exact Target.due_setLwp hl₁ rfl (fun hd => ⟨htr, Or.inl ⟨Or.inl hr, hreq hd⟩⟩) hl h

/-- **What the environment does to a thread that is due**: it stays due, or it ends. -/
theorem Moved.due {a : EnvAct} (h : Moved text T a T')
    (hstops : ∀ v l sig ev, T.lwps v = some l → l.report = some (.stopped sig ev) → l.run = .stopped)
    (hne : ∀ killed, a ≠ .exit u killed) (hl : T.lwps u = some l) (hd : l.Due) :
    ∃ l', T'.lwps u = some l' ∧ l'.entity = l.entity ∧ l'.Due := by
  have hreq : ∀ {v l₁}, T.lwps v = some l₁ → l₁.Runs → l₁.Due → l₁.stopRequested = true :=
    fun hv hr hd => hd.requested (fun sig ev => hstops _ _ sig ev hv) hr
  cases h with
  | trap hl₁ htr hr hb => exact Target.due_setLwp hl₁ rfl (fun _ => Lwp.due_stop htr _ _) hl hd
  | stepped hl₁ htr hr hb hcc => exact Target.due_setLwp hl₁ rfl (fun _ => Lwp.due_stop htr _ _) hl hd
  | exec hl₁ htr hr hb hcc =>
    have hwant := hreq hl₁ (Or.inl hr)
    exact Target.due_setLwp hl₁ rfl (fun hd => ⟨htr, Or.inl ⟨Or.inl hr, hwant hd⟩⟩) hl hd
  | jump hl₁ htr hr =>
    have hwant := hreq hl₁ (Or.inl hr)
    exact Target.due_setLwp hl₁ rfl (fun hd => ⟨htr, Or.inl ⟨Or.inl hr, hwant hd⟩⟩) hl hd
  | @signal t l₁ sig hl₁ htr hr =>
    exact Target.due_setLwp hl₁ rfl (fun _ => ⟨htr, Or.inr ⟨sig, 0, rfl⟩⟩) hl hd
  | clone hl₁ htr hr hnew =>
    exact Target.due_create hl₁ htr (hreq hl₁ (Or.inl hr)) hr hnew hl hd
  | @fork t child l₁ mm succ hl₁ htr hr hnew hmm =>
    have hmem : ∀ v, (T.setMem mm (T.mem l₁.mm)).lwps v = T.lwps v := fun _ => rfl
    exact Target.due_create ((hmem t).trans hl₁) htr (hreq hl₁ (Or.inl hr)) hr
      ((hmem child).trans hnew) ((hmem u).trans hl) hd
  | vfork hl₁ htr hr hnew =>
    exact Target.due_create hl₁ htr (hreq hl₁ (Or.inl hr)) hr hnew hl hd
  | @exit t l₁ killed hl₁ htr hr =>
    have hu : u ≠ t := by
      rintro rfl
      exact hne killed rfl
    exact ⟨l, (Target.setLwp_ne _ hu _).trans hl, rfl, hd⟩
  | store hs => exact ⟨l, hl, rfl, hd⟩
  | relink => exact ⟨l, hl, rfl, hd⟩

end Env

/-! ## The first trap -/

/-- The context of `t`, which is of the kind `e` and has been asked to stop. -/
structure Wanted (t : LwpId) (e : Entity) (w : World) : Prop where
  ctx : w.InContext t
  own : ∃ l, w.target.lwps t = some l ∧ l.entity = e ∧ l.stopRequested = true

section Wanted

variable {t : LwpId} {e : Entity}

theorem Wanted.of_same {α : Type} {x : EngineM α} (h : Within SameThreads x) :
    Within (Keeps (Wanted t e)) x :=
  h.mono fun _ _ hs hw => ⟨hs.inContext hw.ctx, hs.lwps ▸ hw.own⟩

theorem Wanted.modifyProc {f : Process → Process} (hs : ∀ p, (f p).threadCtxStack = p.threadCtxStack)
    (hc : ∀ p, (f p).newChildPid = p.newChildPid) : Within (Keeps (Wanted t e)) (modifyProc f) := by
  refine within_modify fun w h => ⟨?_, h.own⟩
  unfold World.InContext
  dsimp only
  rw [hs, hc]
  exact h.ctx

theorem Wanted.setLwp {w : World} {l l' : Lwp} (h : Wanted t e w) (hl : w.target.lwps t = some l)
    (hent : l'.entity = l.entity) (hreq : l'.stopRequested = l.stopRequested) :
    Wanted t e { w with target := w.target.setLwp t l' } := by
  obtain ⟨l₁, hl₁, hent₁, hreq₁⟩ := h.own
  cases hl.symm.trans hl₁
  exact ⟨h.ctx, l', Target.setLwp_self .., hent.trans hent₁, hreq.trans hreq₁⟩

instance : Frame (Keeps (Wanted t e)) where
  lmon _ := Wanted.of_same inferInstance
  note _ _ := Wanted.of_same inferInstance
  threadLib := Wanted.modifyProc (fun _ => rfl) (fun _ => rfl)
  libc := Wanted.modifyProc (fun _ => rfl) (fun _ => rfl)
  attachFifo _ := Wanted.modifyProc (fun _ => rfl) (fun _ => rfl)
  neverTrapped := Wanted.modifyProc (fun _ => rfl) (fun _ => rfl)

instance : TargetFrame cfg (Keeps (Wanted t e)) where
  acquireAndShip := Wanted.of_same inferInstance
  rmso _ _ := Wanted.modifyProc (fun _ => rfl) (fun _ => rfl)
  continue_ := within_focus Lwp.resume (fun _ h => h.ctx) fun _ _ h hl _ => h.setLwp hl rfl rfl
  deliver sig := within_focus (fun l => { l.resume with delivered := l.delivered ++ [sig] })
    (fun _ h => h.ctx) fun _ _ h hl _ => h.setLwp hl rfl rfl
  options on := within_focus? (fun l => { l with opts := on }) (fun _ h => h.ctx)
    fun _ _ h hl _ => h.setLwp hl rfl rfl
  launchBp _ _ _ _ := Wanted.of_same inferInstance
  beingDebug _ _ _ _ := Wanted.of_same inferInstance
  colocation _ _ := Wanted.of_same inferInstance

instance : FirstFrame cfg (Keeps (Wanted t e)) where
  loaderBp := Wanted.of_same inferInstance

/-- `t` runs, and has been asked to stop. -/
def Runner (t : LwpId) (e : Entity) (w : World) : Prop :=
  ∃ l, w.target.lwps t = some l ∧ l.entity = e ∧ l.Due

theorem tracerContinue_wanted {w w' : World} (h : Wanted t e w)
    (hx : tracerContinue cfg true w = .ok () w') : Runner t e w' := by
  obtain ⟨l, hl, hp, rfl⟩ := tracerContinue_eq_ok h.ctx hx
  obtain ⟨l₁, hl₁, hent, hreq⟩ := h.own
  cases hl.symm.trans hl₁
  exact ⟨l.resume, Target.setLwp_self .., hent, hp.1, Or.inl ⟨Or.inl rfl, hreq⟩⟩

theorem handleTrapAfterExecEvent_wanted {w w' : World} (h : Wanted t e w)
    (hx : handleTrapAfterExecEvent cfg w = .ok .ok w') : Runner t e w' := by
  rcases catching_eq_ok hx with hx | hx
  · obtain ⟨_, w₁, h₁, hx⟩ := bind_eq_ok hx
    obtain ⟨_, w₂, h₂, hx⟩ := bind_eq_ok hx
    obtain ⟨_, w₃, h₃, hx⟩ := bind_eq_ok hx
    obtain ⟨_, w₄, h₄, hx⟩ := bind_eq_ok hx
    obtain ⟨u, w₅, h₅, hx⟩ := bind_eq_ok hx
    cases hx
    have hw₁ := Within.of_ok (R := Keeps (Wanted t e)) h₁ h
    have hw₂ := Within.of_ok (R := Keeps (Wanted t e)) h₂ hw₁
    have hw₃ := Within.of_ok (R := Keeps (Wanted t e)) h₃ hw₂
    exact tracerContinue_wanted (Within.of_ok (R := Keeps (Wanted t e)) h₄ hw₃) h₅
  · cases hx

/-- Without the colocation service the launcher is continued once its table has been shipped, or
    before. -/
theorem attachPlain_wanted {w w' : World} (h : Wanted t e w)
    (hx : attachPlain cfg w = .ok () w') : Runner t e w' := by
  obtain ⟨continued, w₁, h₁, hx⟩ := bind_eq_ok hx
  cases continued with
  | true =>
    cases hx
    cases hon : cfg.contOnAtt with
    | false =>
      rw [hon, if_neg (by decide)] at h₁
      cases h₁
    | true =>
      rw [hon, if_pos rfl] at h₁
      rcases catching_eq_ok h₁ with h₁ | h₁
      · obtain ⟨w₀, w₂, h₂, h₁⟩ := bind_eq_ok h₁
        cases h₂
        obtain ⟨bs, w₃, h₃, h₁⟩ := bind_eq_ok h₁
        have hw₃ := Within.of_ok (R := Keeps (Wanted t e)) h₃ h
        by_cases hz : readInt bs = 0
        · rw [if_pos hz] at h₁
          obtain ⟨u, w₄, h₄, h₁⟩ := bind_eq_ok h₁
          cases h₁
          exact tracerContinue_wanted hw₃ h₄
        · rw [if_neg hz] at h₁
          cases h₁
      · cases h₁
  | false =>
    have hw₁ : Wanted t e w₁ := Within.of_ok (R := Keeps (Wanted t e)) h₁ h
    obtain ⟨u, w₂, h₂, hx⟩ := bind_eq_ok (show (do
      announceProctable cfg .stopAtFirstAttach
      tracerContinue cfg true) w₁ = _ from hx)
    exact tracerContinue_wanted (Within.of_ok (R := Keeps (Wanted t e)) h₂ hw₁) hx

theorem handleTrapAfterAttachEvent_wanted {w w' : World} (h : Wanted t e w)
    (hc : cfg.colocSup = false ∨ cfg.attfifoSup = false ∨ w.FindsFifo cfg)
    (hx : handleTrapAfterAttachEvent cfg w = .ok .ok w') : Runner t e w' := by
  rcases catching_eq_ok hx with hx | hx
  · obtain ⟨_, w₁, h₁, hx⟩ := bind_eq_ok hx
    by_cases hbase : cfg.loaderBase = none
    · rw [if_pos hbase] at hx
      cases hx
    · rw [if_neg hbase] at hx
      obtain ⟨_, w₂, h₂, hx⟩ := bind_eq_ok hx
      obtain ⟨_, w₃, h₃, hx⟩ := bind_eq_ok hx
      obtain ⟨_, w₄, h₄, hx⟩ := bind_eq_ok hx
      obtain ⟨u, w₅, h₅, hx⟩ := bind_eq_ok hx
      cases hx
      have hw₁ := Within.of_ok (R := Keeps (Wanted t e)) h₁ h
      have hw₂ := Within.of_ok (R := Keeps (Wanted t e)) h₂ hw₁
      have hw₃ := Within.of_ok (R := Keeps (Wanted t e)) h₃ hw₂
      have hw₄ : Wanted t e w₄ := Within.of_ok (R := Keeps (Wanted t e)) h₄ hw₃
      obtain ⟨w₀, w₆, h₆, h₅⟩ := bind_eq_ok h₅
      cases h₆
      cases hcoloc : cfg.colocSup with
      | false =>
        rw [hcoloc, if_neg (by decide)] at h₅
        exact attachPlain_wanted hw₄ h₅
      | true =>
        rw [hcoloc, if_pos rfl] at h₅
        unfold attachColocated at h₅
        cases hfifo : cfg.attfifoSup with
        | false =>
          rw [hfifo, if_neg (by decide)] at h₅
          exact tracerContinue_wanted hw₄ h₅
        | true =>
          -- the symbol has been found, and the launcher goes on once its path has been read
          have hfinds : w.FindsFifo cfg :=
            (hc.resolve_left (by rw [hcoloc]; decide)).resolve_left (by rw [hfifo]; decide)
          have hsome := hfinds w₃ (by rw [attachSymbols, ok_bind h₁, ok_bind h₂, h₃])
          cases h₄
          obtain ⟨a, ha⟩ := Option.isSome_iff_exists.mp hsome
          rw [hfifo, if_pos rfl, ha] at h₅
          obtain ⟨path, w₆, h₆, h₅⟩ := bind_eq_ok h₅
          exact tracerContinue_wanted (Within.of_ok (R := Keeps (Wanted t e)) h₆ hw₄) h₅
  · cases hx

end Wanted

/-! ## One step -/

theorem Lwp.Own.congr {t : LwpId} {l l' : Lwp} (h : l.Own cfg t) (hent : l'.entity = l.entity) :
    l'.Own cfg t := by
  unfold Lwp.Own
  rw [hent]
  exact h

/-- The other threads are as before. -/
theorem World.WakesBut.stays {w w' : World} {t : LwpId} (h : w.WakesBut cfg t)
    (hothers : ∀ u, u ≠ t → w'.target.lwps u = w.target.lwps u) : w'.Wakes cfg := by
  obtain ⟨u, hu, l, hl, hown, hdue⟩ := h
  exact ⟨u, l, (hothers u hu).trans hl, hown, hdue⟩

/-- The status of `t` has been taken, and it was no stop. -/
theorem World.Wakes.reap {w w' : World} {t : LwpId} {l : Lwp} (h : w.Wakes cfg)
    (hl : w.target.lwps t = some l) (hnot : ¬l.Stopping)
    (hw' : w'.target.lwps = (w.reap t l).target.lwps) : w'.Wakes cfg := by
  have hother : ∀ u, u ≠ t → w'.target.lwps u = w.target.lwps u := by
    intro u hu
    rw [hw']
    exact Target.setLwp_ne _ hu _
  have hself : w'.target.lwps t = some { l with report := none } := by
    rw [hw']
    exact Target.setLwp_self ..
  obtain ⟨u, l₁, hl₁, hown, htr, hdue⟩ := h
  by_cases hu : u = t
  · subst hu
    cases hl₁.symm.trans hl
    exact ⟨u, _, hself, hown, htr, Or.inl (hdue.resolve_right hnot)⟩
  · exact ⟨u, l₁, (hother u hu).trans hl₁, hown, htr, hdue⟩

theorem not_stopping {l : Lwp} {r : Report} (hr : l.report = some r)
    (hend : r = .exited ∨ r = .terminated) : ¬l.Stopping := by
  rintro ⟨sig, ev, hstop⟩
  rw [hr] at hstop
  cases hstop
  rcases hend with hend | hend <;> cases hend

/-- **A stop is taken while a request is pending.**  It is the first trap, or the loop ends. -/
theorem wakes_of_stop {w w₂ : World} {t : LwpId} {l : Lwp} {sig e : Nat} {ev : Event}
    (ht : w.Tidy cfg) (hk : Kin cfg w) (hG : Wakeful cfg w (.poll t)) (hreq : w.proc.requested = true)
    (hl : w.target.lwps t = some l) (htr : l.traced = true) (hr : l.report = some (.stopped sig e))
    (hown : l.Own cfg t)
    (hev : decipherAnEvent cfg (.stopped sig e) (w.eventOf t l) = .ok ev (w.eventOf t l))
    (hx : invokeHandler cfg ev sig (w.eventOf t l) = .ok .ok w₂) : w₂.Wakes cfg := by
  have he : ev = classify cfg (w.eventOf t l).proc (some t) l.pc sig e :=
    (EStateM.Result.ok.inj (hev.symm.trans (decipher_stop ht hk hl htr hr))).1
  obtain ⟨hn', hreq', -⟩ := w.eventOf_same t l
  cases hn : w.proc.neverTrapped with
  | false =>
    rcases @classify_requested cfg (w.eventOf t l).proc t l.pc sig e (hn'.trans hn)
      (hreq'.trans hreq) with hc | hc
    · rw [he, hc] at hx
      exact absurd hx (handleDetachCmdEvent_never _ _)
    · rw [he, hc] at hx
      exact absurd hx (handleKillCmdEvent_never _ _)
  | true =>
    have haside := aside_of_event (r := .stopped sig e) ht hev hx
    rcases hG.first hreq hn t l rfl hl hown ⟨sig, e, hr⟩ with hbut | ⟨hwant, hcont⟩
    · refine hbut.stays fun u hu => (haside.others u hu).trans ?_
      rw [World.eventOf_target]
      exact Target.setLwp_ne _ hu _
    · -- the handler of the first trap continues the thread
      have hw : Wanted t l.entity (w.eventOf t l) :=
        ⟨(World.eventOf_at ht t l).inContext, _, w.eventOf_lwps t l, rfl, hwant⟩
      have hrunner : Runner t l.entity w₂ := by
        unfold classify at he
        rw [if_pos (hn'.trans hn)] at he
        cases hatt : cfg.attach with
        | false =>
          rw [hatt, if_neg (by decide)] at he
          rw [he] at hx
          exact handleTrapAfterExecEvent_wanted hw hx
        | true =>
          rw [hatt, if_pos rfl] at he
          rw [he] at hx
          exact handleTrapAfterAttachEvent_wanted hw (hcont.resolve_left (by rw [hatt]; decide)) hx
      obtain ⟨l', hl', hent, hdue⟩ := hrunner
      exact ⟨t, l', hl', hown.congr hent, hdue⟩

/-- The end of a thread is taken. -/
theorem wakes_of_exit {w w₂ : World} {t : LwpId} {l : Lwp} {r : Report} {ev : Event}
    (h : w.Wakes cfg) (ht : w.Tidy cfg) (hl : w.target.lwps t = some l) (hr : l.report = some r)
    (hend : r = .exited ∨ r = .terminated)
    (hev : decipherAnEvent cfg r (w.eventOf t l) = .ok ev (w.eventOf t l))
    (hx : invokeHandler cfg ev r.signum (w.eventOf t l) = .ok .ok w₂) : w₂.Wakes cfg := by
  have hexited : ev = .exited := by
    rcases hend with rfl | rfl <;> cases hev <;> rfl
  subst hexited
  have hat := World.eventOf_at ht t l
  by_cases hpid : t = cfg.pid
  · subst hpid
    exact absurd hx (handleExitEvent_pid hat)
  · cases hx.symm.trans (handleExitEvent_at hat hpid)
    refine h.reap hl (not_stopping hr hend) ?_
    show (w.eventOf t l).target.lwps = _
    rw [World.eventOf_target]
    rfl

/-- A handler leaves the flags as they are, unless it ends the loop. -/
theorem requested_of_event {w w₂ : World} {t : LwpId} {l : Lwp} {r : Report} {ev : Event}
    (hx : invokeHandler cfg ev r.signum (w.eventOf t l) = .ok .ok w₂) :
    w₂.proc.requested = w.proc.requested := by
  have hd : ev ≠ .stopForDetach := by
    rintro rfl
    exact handleDetachCmdEvent_never _ _ hx
  have hk : ev ≠ .stopForKill := by
    rintro rfl
    exact handleKillCmdEvent_never _ _ hx
  have hq : Quiet (w.eventOf t l) w₂ := (invokeHandler_quiet hd hk r.signum).of_ok hx
  exact hq.requested.trans (w.eventOf_same t l).2.1

/-- A request that is accepted stops the threads of the list. -/
theorem World.Stoppable.wakes {w : World} (h : w.Stoppable cfg) (p : Process) :
    World.Wakes cfg { w.stopAll cfg with proc := p } := by
  obtain ⟨u, l, hl, hown, htr, hdue⟩ := h
  have hkeep : l.Due → World.Wakes cfg { w.stopAll cfg with proc := p } := by
    intro hd
    rcases @stopThrs_lwps cfg (w.proc.thrlist.map Prod.fst) w.target u with heq | ⟨l₁, hl₁, heq⟩
    · exact ⟨u, l, heq.trans hl, hown, hd⟩
    · cases hl.symm.trans hl₁
      exact ⟨u, { l with stopRequested := true }, heq, hown, hd.1, hd.2.imp_left fun hr => ⟨hr.1, rfl⟩⟩
  rcases hdue with hstop | ⟨hruns, hreq | hthr⟩
  · exact hkeep ⟨htr, Or.inr hstop⟩
  · exact hkeep ⟨htr, Or.inl ⟨hruns, hreq⟩⟩
  · obtain ⟨r, hr⟩ := hasThr_iff.mp hthr
    have hmem : u ∈ w.proc.thrlist.map Prod.fst := List.mem_map.mpr ⟨(u, r), hr, rfl⟩
    have heq := @stopThrs_of_runs cfg _ _ _ _ hmem hl hruns
    exact ⟨u, { l with stopRequested := true }, heq, hown, htr, Or.inl ⟨hruns, rfl⟩⟩

/-- **What one step preserves.** -/
theorem Goes.wakes {w w' : World} {a : Label} (hg : Goes cfg w a w') (ht : w.Tidy cfg) (hk : Kin cfg w)
    (h : w.proc.requested = true → w.Wakes cfg) (hG : Wakeful cfg w a)
    (hreq : w'.proc.requested = true) : w'.Wakes cfg := by
  cases hg with
  | @env b T hT =>
    have hreq₀ : w.proc.requested = true := hreq
    have hmove : ∀ u, (∀ killed, b ≠ .exit u killed) → w.DueAt cfg u →
        World.Wakes cfg { w with target := T } := by
      rintro u hne ⟨l, hl, hown, hdue⟩
      obtain ⟨l', hl', hent, hdue'⟩ := (Target.step_moved hT).due hk.stops hne hl hdue
      exact ⟨u, l', hl', hown.congr hent, hdue'⟩
    obtain ⟨u, hdue⟩ := h hreq₀
    by_cases hexit : ∃ killed, b = .exit u killed
    · -- the thread ends, and another one is due
      obtain ⟨killed, rfl⟩ := hexit
      obtain ⟨v, hv, hdue'⟩ := hG.ends hreq₀ u killed rfl
      refine hmove v ?_ hdue'
      rintro killed' heq
      cases heq
      exact hv rfl
    · exact hmove u (fun killed hb => hexit ⟨killed, hb⟩) hdue
  | nothing => exact h hreq
  | @event t l r ev w₂ hl htr hr hown hev hx =>
    have hreq₀ : w.proc.requested = true := (requested_of_event hx).symm.trans hreq
    show w₂.Wakes cfg
    cases r with
    | stopped sig e => exact wakes_of_stop ht hk hG hreq₀ hl htr hr hown hev hx
    | exited => exact wakes_of_exit (h hreq₀) ht hl hr (Or.inl rfl) hev hx
    | terminated => exact wakes_of_exit (h hreq₀) ht hl hr (Or.inr rfl) hev hx
  | ignored hl htr hr hend => exact (h hreq).reap hl (not_stopping hr hend) rfl
  | @child t l sig e w₂ hl htr hr hne hent hx =>
    have hquiet : Within Quiet (handleNewprocForkedEvent cfg) :=
      @invokeHandler_quiet cfg .stopNewForkedProcess (by decide) (by decide) 0
    have hq : Quiet ((w.reap t l).enter t) w₂ := hquiet.of_ok hx
    have henter : ((w.reap t l).enter t).proc.requested = w.proc.requested := by
      unfold World.enter
      split <;> rfl
    have hreq₀ : w.proc.requested = true := henter.symm.trans (hq.requested.symm.trans hreq)
    have haside := aside_of_child ht hx
    obtain ⟨u, l₁, hl₁, hown, hdue⟩ := h hreq₀
    -- a thread of the launcher is no process that it has created
    have hu : u ≠ t := by
      rintro rfl
      cases hl.symm.trans hl₁
      rw [hown.resolve_left hne] at hent
      cases hent
    refine ⟨u, l₁, ((haside.others u hu).trans ?_).trans hl₁, hown, hdue⟩
    rw [World.enter_target]
    exact Target.setLwp_ne _ hu _
  | @asked a r ha hnot => exact (hG.made hnot (by rw [ha]; rfl)).wakes _
  | released hrel =>
    have hreq₀ : w.proc.requested = true := by
      rw [hrel.proc] at hreq
      exact hreq
    obtain ⟨u, l, hl, hown, hdue, hor⟩ := hG.held hreq₀ rfl
    rcases hrel.lwps u with heq | ⟨hheld, -, l₁, hl₁, hp, heq⟩
    · exact ⟨u, l, heq.trans hl, hown, hdue⟩
    · -- a thread that was held goes on, and stops again
      cases hl.symm.trans hl₁
      have hwant : l.stopRequested = true := hor.resolve_right fun hno => hno hheld
      exact ⟨u, l.resume, heq, hown, hdue.1, Or.inl ⟨Or.inl rfl, hwant⟩⟩

/-! ## Runs -/

/-- **A request is not stuck.**  In every run in which a request finds a thread to stop and no step takes
    away the only stop that is to come, a thread of the launcher is due whenever a request is pending. -/
theorem request_wakes {s₀ s : Sys} (h₀ : Initial cfg s₀)
    (h : Run cfg (fun s a => Wakeful cfg s.w a) s₀ s) (hm : s.mode ≠ .ended)
    (hreq : s.w.proc.requested = true) : s.w.Wakes cfg := by
  obtain ⟨T, hT, rfl⟩ := id h₀
  have hstart : Kin cfg (Sys.start cfg T).w ∧
      ((Sys.start cfg T).w.proc.requested = true → (Sys.start cfg T).w.Wakes cfg) :=
    ⟨hT.kin, fun hf => by cases hf⟩
  obtain ⟨-, -, hwakes⟩ := h.alive (I := fun w => Kin cfg w ∧ (w.proc.requested = true → w.Wakes cfg))
    h₀ hstart (fun s a w' ht hI _ hG hg =>
      ⟨hg.kin ht hI.1, fun hreq => hg.wakes ht hI.1 hI.2 hG hreq⟩) hm
  exact hwakes hreq

/-- As long as no request is pending or made, nothing is asked of a step. -/
theorem Wakeful.of_idle {w : World} {a : Label} (hreq : w.proc.requested = false)
    (hno : a.request cfg = none) : Wakeful cfg w a := by
  have hnot : ¬w.proc.requested = true := by
    rw [hreq]
    decide
  refine ⟨fun _ hs => ?_, fun h => absurd h hnot, fun h => absurd h hnot, fun h => absurd h hnot⟩
  rw [hno] at hs
  cases hs

theorem Wakeful.of_made {w : World} {a : Label} (hreq : w.proc.requested = false)
    (h : w.Stoppable cfg) : Wakeful cfg w a := by
  have hnot : ¬w.proc.requested = true := by
    rw [hreq]
    decide
  exact ⟨fun _ _ => h, fun h => absurd h hnot, fun h => absurd h hnot, fun h => absurd h hnot⟩

/-- The front end detaches while the launcher runs. -/
theorem request_wakes_running : ∃ s₁ s₂ : Sys,
    (Sys.start sample (sampleTarget 0x1000 [1])).step sample (.poll 100) = some s₁ ∧
    s₁.step sample (.fe (.msg .detach)) = some s₂ ∧ s₂.mode ≠ .ended ∧
    s₂.w.proc.requested = true ∧ s₂.w.Wakes sample := by
  have hrun : ((Sys.start sample (sampleTarget 0x1000 [1])).step sample (.poll 100)).bind (fun s₁ =>
      (s₁.step sample (.fe (.msg .detach))).map fun s₂ =>
        ((s₁.w.proc.requested, s₁.w.proc.hasThr 100,
          (s₁.w.target.lwps 100).any fun l => decide (l.traced = true ∧ l.Runs)),
        decide (s₂.mode ≠ .ended), s₂.w.proc.requested)) =
      some ((false, true, true), true, true) := by decide +kernel
  obtain ⟨s₁, h₁, hrun⟩ := Option.bind_eq_some_iff.mp hrun
  obtain ⟨s₂, h₂, hobs⟩ := Option.map_eq_some_iff.mp hrun
  obtain ⟨hobs₁, hobs₂⟩ := Prod.mk.inj hobs
  obtain ⟨hno, hobs₁⟩ := Prod.mk.inj hobs₁
  obtain ⟨hthr, hany⟩ := Prod.mk.inj hobs₁
  obtain ⟨hm, hreq⟩ := Prod.mk.inj hobs₂
  obtain ⟨l, hl, hruns⟩ := (Option.any_eq_true _ _).mp hany
  obtain ⟨htr, hruns⟩ := of_decide_eq_true hruns
  have hm := of_decide_eq_true hm
  refine ⟨s₁, s₂, h₁, h₂, hm, hreq, ?_⟩
  refine request_wakes ⟨_, sample_launched _ _, rfl⟩ (.step (.step .refl ?_ h₁) ?_ h₂) hm hreq
  · exact .of_idle rfl rfl
  · exact .of_made hno ⟨100, l, hl, Or.inl rfl, htr, Or.inr ⟨hruns, Or.inr hthr⟩⟩

/-- A list of labels of one kind makes a run of steps of that kind. -/
theorem Run.of_labels {p : Label → Prop} : ∀ (as : List Label) {s s' : Sys}, (∀ a ∈ as, p a) →
    s.runAll cfg as = some s' → Run cfg (fun _ a => p a) s s' := by
  intro as
  induction as with
  | nil =>
    intro s s' _ h
    cases h
    exact .refl
  | cons a as ih =>
    intro s s' hp h
    obtain ⟨s₁, hs, h⟩ := Option.bind_eq_some_iff.mp h
    obtain ⟨ha, hp⟩ := List.forall_mem_cons.mp hp
    exact (Run.step .refl ha hs).trans (ih hp h)

/-- A launcher that creates nothing has one thread. -/
theorem Run.alone {s₀ s : Sys} (h₀ : Initial cfg s₀) (h : Run cfg (fun _ a => a.creates = none) s₀ s)
    (hm : s.mode ≠ .ended) : ∀ u l, s.w.target.lwps u = some l → u = cfg.pid := by
  obtain ⟨T, hT, rfl⟩ := id h₀
  refine (h.alive (I := fun w => ∀ u l, w.target.lwps u = some l → u = cfg.pid) h₀ ?_ ?_ hm).2
  · intro u l hl
    obtain ⟨l₀, hlwps, -⟩ := hT.lwps_eq
    by_contra hne
    have hnone : T.lwps u = none := by rw [hlwps, Function.update_of_ne hne]
    cases hnone.symm.trans hl
  · intro s a w' ht hI _ ha hg u l' hl'
    rcases hg.born ht hl' with ⟨l, hl⟩ | hc
    · exact hI u l hl
    · rw [ha] at hc
      cases hc

/-- The front end goes away while the launcher is held at the launch breakpoint: the request to detach is
    accepted, and no thread is going to stop. -/
theorem request_wakes_counterexample : ∃ s : Sys,
    (Sys.start sample (sampleTarget 0x1000 [1])).runAll sample (heldRun ++ [.fe .disconnected]) = some s ∧
    s.mode = .looping ∧ s.w.proc.pleaseDetach = true ∧
    ∀ t l, s.w.target.lwps t = some l → ¬l.Due := by
  have hrun : ((Sys.start sample (sampleTarget 0x1000 [1])).runAll sample
      (heldRun ++ [.fe .disconnected])).map (fun s => (s.mode, s.w.proc.pleaseDetach,
        (s.w.target.lwps 100).map fun l => (l.run, l.report))) =
      some (.looping, true, some (.stopped, none)) := by decide +kernel
  obtain ⟨s, hs, hobs⟩ := Option.map_eq_some_iff.mp hrun
  obtain ⟨hm, hobs⟩ := Prod.mk.inj hobs
  obtain ⟨hreq, hlwp⟩ := Prod.mk.inj hobs
  refine ⟨s, hs, hm, hreq, fun t l hl hdue => ?_⟩
  have hlabels : ∀ a ∈ heldRun ++ [.fe .disconnected], a.creates = none := by decide
  have ht := (Run.of_labels _ hlabels hs).alone ⟨_, sample_launched _ _, rfl⟩
    (by rw [hm]; decide) t l hl
  subst ht
  have hl' : s.w.target.lwps 100 = some l := hl
  rw [hl'] at hlwp
  obtain ⟨hstopped, hnone⟩ := Prod.mk.inj (Option.some.inj hlwp)
  rcases hdue.2 with ⟨hr, -⟩ | ⟨sig, ev, hrep⟩
  · rcases hr with hr | hr <;> cases hstopped.symm.trans hr
  · cases hnone.symm.trans hrep

end LaunchMON.Engine
