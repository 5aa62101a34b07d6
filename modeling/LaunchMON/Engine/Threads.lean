/-
  What a step does to the threads.

  A step of program and kernel moves one thread or creates one (`Moved.turn`).  A step of the engine takes
  the report of one thread, may let go the threads that are held, and leaves the others alone
  (`Goes.handled`): the handler of an event acts in the context of its thread (`Aside`), and on the thread
  list only as far as `Entries` does not forbid it.  `Reports` says what can be read off a report.
-/
import LaunchMON.Engine.Signals

namespace LaunchMON.Engine

open Effect Lmonp

set_option synthInstance.maxSize 4096

variable {cfg : Config}

/-! ## Program and kernel -/

/-- The thread or process that a step creates. -/
def EnvAct.creates : EnvAct → Option LwpId
  | .clone _ new _ => some new
  | .fork _ child _ _ => some child
  | .vfork _ child _ => some child
  | _ => none

def Label.creates : Label → Option LwpId
  | .env b => b.creates
  | _ => none

/-- What a step makes of the thread that moves: it has run and goes on or stops, or it ends. -/
inductive Lwp.Turn (T' : Target) (l l' : Lwp) : Prop
  | runs (hent : l'.entity = l.entity) (hr : l.Runs) (hr' : l'.run ≠ .gone)
      (hrep : l'.report = l.report ∨ ∃ sig ev, l'.report = some (.stopped sig ev) ∧
        (ev = eventClone → ∃ n, T'.lwps l'.eventMsg = some n ∧ n.entity = .thread))
  | ends (hent : l'.entity = l.entity) (hr : l.run ≠ .gone) (hg : l'.run = .gone)
      (hrep : l'.report = some .exited ∨ l'.report = some .terminated)

/-- A step that moves one thread. -/
theorem Target.setLwp_turn {T : Target} {t u : LwpId} {l l₁ l' : Lwp} (hl : T.lwps t = some l)
    (ht : l.Turn (T.setLwp t l₁) l₁) (hu : (T.setLwp t l₁).lwps u = some l') :
    T.lwps u = some l' ∨ ∃ l, T.lwps u = some l ∧ l.Turn (T.setLwp t l₁) l' := by
  rcases Target.setLwp_eq_some hu with ⟨rfl, rfl⟩ | ⟨-, hu⟩
  · exact Or.inr ⟨l, hl, ht⟩
  · exact Or.inl hu

theorem Target.create_turn {T : Target} {t new u : LwpId} {l l' : Lwp} {entity : Entity} {mm : Nat}
    {succ : VA} {event : Nat} (hl : T.lwps t = some l) (hr : l.run = .running)
    (hnew : T.lwps new = none) (hclone : event = eventClone → entity = .thread)
    (hu : (T.create t new l entity mm succ event).lwps u = some l') :
    T.lwps u = some l' ∨
      (∃ l₀, T.lwps u = some l₀ ∧ l₀.Turn (T.create t new l entity mm succ event) l') ∨
      u = new ∧ l' = l.spawn entity mm succ := by
  have hruns : l.Runs := Or.inl hr
  by_cases hopts : l.opts = true
  · have hcreate : T.create t new l entity mm succ event =
        (T.setLwp new (l.spawn entity mm succ)).setLwp t (l.reportChild succ event new) := if_pos hopts
    rw [hcreate] at hu ⊢
    have hne : new ≠ t := by
      rintro rfl
      rw [hl] at hnew
      cases hnew
    rcases Target.setLwp_eq_some hu with ⟨rfl, rfl⟩ | ⟨-, hu⟩
    · refine Or.inr (Or.inl ⟨l, hl, .runs rfl hruns nofun (Or.inr ⟨_, _, rfl, fun he => ?_⟩)⟩)
      refine ⟨l.spawn entity mm succ, ?_, hclone he⟩
      show (Target.setLwp _ u _).lwps new = _
      rw [Target.setLwp_ne _ hne, Target.setLwp_self]
    · rcases Target.setLwp_eq_some hu with h | ⟨-, hu⟩
      · exact Or.inr (Or.inr h)
      · exact Or.inl hu
  · have hcreate : T.create t new l entity mm succ event = T.setLwp t (l.advance succ l.sp) :=
      if_neg hopts
    rw [hcreate] at hu ⊢
    have hturn : l.Turn (T.setLwp t (l.advance succ l.sp)) (l.advance succ l.sp) :=
      .runs rfl hruns (show l.run ≠ _ from hr ▸ nofun) (Or.inl rfl)
    rcases Target.setLwp_turn hl hturn hu with h | h
    · exact Or.inl h
    · exact Or.inr (Or.inl h)

/-- **Threads after a step**: as before, or the one that has moved, or a new one. -/
theorem Moved.turn {text : Mem} {T T' : Target} {a : EnvAct} (h : Moved text T a T') {u : LwpId}
    {l' : Lwp} (hu : T'.lwps u = some l') :
    T.lwps u = some l' ∨ (∃ l, T.lwps u = some l ∧ l.Turn T' l') ∨
      T.lwps u = none ∧ a.creates = some u ∧
        ∃ (l : Lwp) (entity : Entity) (mm : Nat) (succ : VA), l' = l.spawn entity mm succ := by
  have hrunning : ∀ {l : Lwp}, l.run = .running → l.run ≠ .gone := fun h => h ▸ nofun
  have hone : ∀ {P Q R : Prop}, P ∨ Q → P ∨ Q ∨ R := fun h => h.imp_right Or.inl
  cases h with
  | trap hl htr hr hb =>
    exact hone (Target.setLwp_turn hl (.runs rfl hr nofun (Or.inr ⟨_, _, rfl, nofun⟩)) hu)
  | stepped hl htr hr hb hne =>
    exact hone (Target.setLwp_turn hl (.runs rfl (Or.inr hr) nofun (Or.inr ⟨_, _, rfl, nofun⟩)) hu)
  | exec hl htr hr hb hne =>
    exact hone (Target.setLwp_turn hl (.runs rfl (Or.inl hr) (hrunning hr) (Or.inl rfl)) hu)
  | jump hl htr hr =>
    exact hone (Target.setLwp_turn hl (.runs rfl (Or.inl hr) (hrunning hr) (Or.inl rfl)) hu)
  | signal hl htr hr =>
    exact hone (Target.setLwp_turn hl (.runs rfl hr nofun (Or.inr ⟨_, _, rfl, nofun⟩)) hu)
  | clone hl htr hr hnew =>
    rcases Target.create_turn hl hr hnew (fun _ => rfl) hu with h | h | ⟨rfl, h⟩
    · exact Or.inl h
    · exact Or.inr (Or.inl h)
    · exact Or.inr (Or.inr ⟨hnew, rfl, _, _, _, _, h⟩)
  | @fork t child l mm succ hl htr hr hnew hmm =>
    have hl' : (T.setMem mm (T.mem l.mm)).lwps t = some l := hl
    rcases Target.create_turn hl' hr hnew (fun he => absurd he (by decide)) hu with h | h | ⟨rfl, h⟩
    · exact Or.inl h
    · exact Or.inr (Or.inl h)
    · exact Or.inr (Or.inr ⟨hnew, rfl, _, _, _, _, h⟩)
  | vfork hl htr hr hnew =>
    rcases Target.create_turn hl hr hnew (fun he => absurd he (by decide)) hu with h | h | ⟨rfl, h⟩
    · exact Or.inl h
    · exact Or.inr (Or.inl h)
    · exact Or.inr (Or.inr ⟨hnew, rfl, _, _, _, _, h⟩)
  | @exit t l killed hl htr hr =>
    refine hone (Target.setLwp_turn hl (.ends rfl hr rfl ?_) hu)
    cases killed
    · exact Or.inl rfl
    · exact Or.inr rfl
  | store h => exact Or.inl hu
  | relink => exact Or.inl hu

/-! ## What a handler leaves alone -/

/-- The context of `t`, in which nothing has happened to the other threads of `w₀`. -/
structure Aside (t : LwpId) (w₀ w : World) : Prop where
  ctx : w.InContext t
  others : ∀ u, u ≠ t → w.target.lwps u = w₀.target.lwps u
  own : ∀ l₀, w₀.target.lwps t = some l₀ → ∃ l, w.target.lwps t = some l ∧ l.entity = l₀.entity ∧
    (l.run = .gone → l₀.run = .gone) ∧ (l.report = l₀.report ∨ l.report = none)

/-- The context of `t`, in which the thread list is that of `w₀`, except that `t` may be held. -/
structure Entries (t : LwpId) (w₀ w : World) : Prop where
  ctx : w.InContext t
  flags : w.proc.flags = w₀.proc.flags
  held : ∀ u r, (u, r) ∈ w.proc.thrlist → r.eventRegistered = true →
    u = t ∨ ∃ r₀, (u, r₀) ∈ w₀.proc.thrlist ∧ r₀.eventRegistered = true

theorem SameThreads.inContext {w w' : World} (h : SameThreads w w') {t : LwpId}
    (hc : w.InContext t) : w'.InContext t := by
  unfold World.InContext
  rw [h.stack, h.child]
  exact hc

section Handlers

variable {t : LwpId} {w₀ : World}

namespace Aside

theorem refl {w : World} (h : w.InContext t) : Aside t w w :=
  ⟨h, fun _ _ => rfl, fun l hl => ⟨l, hl, rfl, id, Or.inl rfl⟩⟩

theorem of_same {α : Type} {x : EngineM α} (h : Within SameThreads x) :
    Within (Keeps (Aside t w₀)) x :=
  h.mono fun _ _ hs hw => ⟨hs.inContext hw.ctx, hs.lwps ▸ hw.others, hs.lwps ▸ hw.own⟩

theorem modifyProc {f : Process → Process} (hs : ∀ p, (f p).threadCtxStack = p.threadCtxStack)
    (hc : ∀ p, (f p).newChildPid = p.newChildPid) :
    Within (Keeps (Aside t w₀)) (modifyProc f) := by
  refine within_modify fun w h => ⟨?_, h.others, h.own⟩
  unfold World.InContext
  dsimp only
  rw [hs, hc]
  exact h.ctx

/-- Something happens to the thread of the context. -/
theorem setLwp {w : World} {l l' : Lwp} (h : Aside t w₀ w) (hl : w.target.lwps t = some l)
    (hent : l'.entity = l.entity) (hgone : l'.run = .gone → l.run = .gone)
    (hrep : l'.report = l.report ∨ l'.report = none) :
    Aside t w₀ { w with target := w.target.setLwp t l' } := by
  refine ⟨h.ctx, fun u hu => ?_, fun l₀ hl₀ => ?_⟩
  · exact (Target.setLwp_ne _ hu _).trans (h.others u hu)
  · obtain ⟨l₁, hl₁, hent₁, hgone₁, hrep₁⟩ := h.own l₀ hl₀
    cases hl.symm.trans hl₁
    refine ⟨l', Target.setLwp_self .., hent.trans hent₁, hgone₁ ∘ hgone, ?_⟩
    rcases hrep with hrep | hrep
    · rw [hrep]
      exact hrep₁
    · exact Or.inr hrep

end Aside

instance : Frame (Keeps (Aside t w₀)) where
  lmon _ := Aside.of_same inferInstance
  note _ _ := Aside.of_same inferInstance
  threadLib := Aside.modifyProc (fun _ => rfl) (fun _ => rfl)
  libc := Aside.modifyProc (fun _ => rfl) (fun _ => rfl)
  attachFifo _ := Aside.modifyProc (fun _ => rfl) (fun _ => rfl)
  neverTrapped := Aside.modifyProc (fun _ => rfl) (fun _ => rfl)

instance : TargetFrame cfg (Keeps (Aside t w₀)) where
  acquireAndShip := Aside.of_same inferInstance
  rmso _ _ := Aside.modifyProc (fun _ => rfl) (fun _ => rfl)
  continue_ := within_focus Lwp.resume (fun _ h => h.ctx) fun _ _ h hl _ =>
    h.setLwp hl rfl nofun (Or.inr rfl)
  deliver sig := within_focus (fun l => { l.resume with delivered := l.delivered ++ [sig] })
    (fun _ h => h.ctx) fun _ _ h hl _ => h.setLwp hl rfl nofun (Or.inr rfl)
  options on := within_focus? (fun l => { l with opts := on }) (fun _ h => h.ctx)
    fun _ _ h hl _ => h.setLwp hl rfl id (Or.inl rfl)
  launchBp _ _ _ _ := Aside.of_same inferInstance
  beingDebug _ _ _ _ := Aside.of_same inferInstance
  colocation _ _ := Aside.of_same inferInstance

instance : ListFrame cfg (Keeps (Aside t w₀)) where
  thrcreate n := by
    have := @Aside.modifyProc t w₀ (fun p => p.insertThr n ⟨false, false, false⟩) (fun _ => rfl)
      (fun _ => rfl)
    unfold handleThrcreateRequest; infer_instance
  traced _ := Aside.modifyProc (fun _ => rfl) (fun _ => rfl)
  eraseThr _ _ := Aside.modifyProc (fun _ => rfl) (fun _ => rfl)

instance : FirstFrame cfg (Keeps (Aside t w₀)) where
  loaderBp := Aside.of_same inferInstance

instance : BpFrame cfg (Keeps (Aside t w₀)) where
  returnAddr _ _ := Aside.of_same inferInstance
  setregs r := by
    have := @within_focus cfg (Aside t w₀) t (fun l => { l with pc := r.pc, sp := r.sp })
      (fun _ h => h.ctx) fun _ _ h hl _ => h.setLwp hl rfl id (Or.inl rfl)
    unfold tracerSetregs; infer_instance
  singlestep := within_focus
    (fun l => { l with run := .stepping, report := none, stepFrom := some l.pc })
    (fun _ h => h.ctx) fun _ _ h hl _ => h.setLwp hl rfl nofun (Or.inr rfl)
  enable _ := Aside.of_same inferInstance
  disable _ := Aside.of_same inferInstance
  register := by
    have := fun u => @Aside.modifyProc t w₀ (fun p => p.mapThr u fun r =>
      { r with eventRegistered := true }) (fun _ => rfl) (fun _ => rfl)
    unfold registerEvent; infer_instance

namespace Entries

theorem refl {w : World} (h : w.InContext t) : Entries t w w :=
  ⟨h, rfl, fun _ r hr hreg => Or.inr ⟨r, hr, hreg⟩⟩

theorem of_same {α : Type} {x : EngineM α} (h : Within SameThreads x) :
    Within (Keeps (Entries t w₀)) x := by
  refine h.mono fun w w' hs hw => ⟨hs.inContext hw.ctx, ?_, hs.thrlist ▸ hw.held⟩
  rw [← hw.flags]
  unfold Process.flags
  rw [hs.thrlist]

theorem focus (cfg : Config) {x : EngineM Unit} {g : Lwp → Lwp}
    (hx : x = do let f ← LaunchMON.Engine.focus cfg true; setLwp f.1 (g f.2)) :
    Within (Keeps (Entries t w₀)) x := by
  rw [hx]
  exact within_focus g (fun _ h => h.ctx) fun _ _ h _ _ => ⟨h.ctx, h.flags, h.held⟩

end Entries

instance : Frame (Keeps (Entries t w₀)) where
  lmon _ := Entries.of_same inferInstance
  note _ _ := Entries.of_same inferInstance
  threadLib := Entries.of_same (sameThreads_modifyProc (fun _ => rfl) (fun _ => rfl) (fun _ => rfl))
  libc := Entries.of_same (sameThreads_modifyProc (fun _ => rfl) (fun _ => rfl) (fun _ => rfl))
  attachFifo _ :=
    Entries.of_same (sameThreads_modifyProc (fun _ => rfl) (fun _ => rfl) (fun _ => rfl))
  neverTrapped :=
    Entries.of_same (sameThreads_modifyProc (fun _ => rfl) (fun _ => rfl) (fun _ => rfl))

instance : TargetFrame cfg (Keeps (Entries t w₀)) where
  acquireAndShip := Entries.of_same inferInstance
  rmso _ _ := Entries.of_same (sameThreads_modifyProc (fun _ => rfl) (fun _ => rfl) (fun _ => rfl))
  continue_ := Entries.focus cfg rfl
  deliver sig := Entries.focus cfg
    (g := fun l => { l.resume with delivered := l.delivered ++ [sig] }) rfl
  options on := within_focus? (fun l => { l with opts := on }) (fun _ h => h.ctx)
    fun _ _ h _ _ => ⟨h.ctx, h.flags, h.held⟩
  launchBp _ _ _ _ := Entries.of_same inferInstance
  beingDebug _ _ _ _ := Entries.of_same inferInstance
  colocation _ _ := Entries.of_same inferInstance

instance : FirstFrame cfg (Keeps (Entries t w₀)) where
  loaderBp := Entries.of_same inferInstance

instance : BpFrame cfg (Keeps (Entries t w₀)) where
  returnAddr _ _ := Entries.of_same inferInstance
  setregs r := by
    have := @Entries.focus t w₀ cfg _ (fun l => { l with pc := r.pc, sp := r.sp }) rfl
    unfold tracerSetregs; infer_instance
  singlestep := Entries.focus cfg
    (g := fun l => { l with run := .stepping, report := none, stepFrom := some l.pc }) rfl
  enable _ := Entries.of_same inferInstance
  disable _ := Entries.of_same inferInstance
  register := by
    refine ⟨fun w h => ?_⟩
    rcases final_registerEvent h.ctx with heq | heq
    · rw [heq]
      exact h
    · rw [heq]
      have hflags : (w.proc.mapThr t fun r => { r with eventRegistered := true }).flags =
          w.proc.flags := flags_mapThr _ _ fun _ => rfl
      refine ⟨h.ctx, hflags.trans h.flags, fun u r' hr' hreg => ?_⟩
      obtain ⟨r, hr, he⟩ := mem_mapThr.mp hr'
      dsimp only at he
      by_cases hu : u = t
      · exact Or.inl hu
      · rw [if_neg hu] at he
        exact h.held u r hr (he ▸ hreg)

/-- The handler of a child does nothing to other threads. -/
instance : Within (Keeps (Aside t w₀)) (handleNewprocForkedEvent cfg) := by
  have hbps : Within (Keeps (Aside t w₀)) (disableAllBPs cfg true false) :=
    Aside.of_same inferInstance
  have hdetach : Within (Keeps (Aside t w₀)) (tracerDetach cfg true) :=
    within_focus? (fun l => { l.resume with traced := false }) (fun _ h => h.ctx)
      fun _ _ h hl _ => h.setLwp hl rfl nofun (Or.inr rfl)
  unfold handleNewprocForkedEvent
  infer_instance

instance : Within (Keeps (Entries t w₀)) (handleNewprocForkedEvent cfg) := by
  have hbps : Within (Keeps (Entries t w₀)) (disableAllBPs cfg true false) :=
    Entries.of_same inferInstance
  have hdetach : Within (Keeps (Entries t w₀)) (tracerDetach cfg true) :=
    within_focus? (fun l => { l.resume with traced := false }) (fun _ h => h.ctx)
      fun _ _ h _ _ => ⟨h.ctx, h.flags, h.held⟩
  unfold handleNewprocForkedEvent
  infer_instance

end Handlers

/-! ## Reports -/

/-- The end of the thread has been taken. -/
def Lwp.Reaped (l : Lwp) : Prop := l.run = .gone ∧ l.report = none

instance (l : Lwp) : Decidable l.Reaped := inferInstanceAs (Decidable (_ ∧ _))

/-- What the engine can make of a thread: its report is taken, or nothing has happened to it that
    matters here. -/
def Lwp.Handled (l l' : Lwp) : Prop :=
  l'.entity = l.entity ∧ (l'.report = none ∧ (l'.run = .gone → l.run = .gone) ∨
    l'.report = l.report ∧ l'.eventMsg = l.eventMsg ∧ l'.run = l.run)

theorem Lwp.Handled.refl (l : Lwp) : l.Handled l := ⟨rfl, Or.inr ⟨rfl, rfl, rfl⟩⟩

/-- The thread whose status has been taken, and the others. -/
theorem Aside.handled {w w₂ : World} {t : LwpId} {l : Lwp} {w₀ : World} (h : Aside t w₀ w₂)
    (hw₀ : w₀.target = w.target.setLwp t { l with report := none }) (u : LwpId) :
    (u ≠ t ∧ w₂.target.lwps u = w.target.lwps u) ∨ u = t ∧ ∃ l', w₂.target.lwps t = some l' ∧
      l'.entity = l.entity ∧ l'.report = none ∧ (l'.run = .gone → l.run = .gone) := by
  by_cases hu : u = t
  · have hself : w₀.target.lwps t = some { l with report := none } := by
      rw [hw₀, Target.setLwp_self]
    obtain ⟨l', hl', hent, hgone, hrep⟩ := h.own _ hself
    exact Or.inr ⟨hu, l', hl', hent, hrep.elim id id, hgone⟩
  · refine Or.inl ⟨hu, (h.others u hu).trans ?_⟩
    rw [hw₀, Target.setLwp_ne _ hu]

/-- The context of a child. -/
theorem World.Tidy.enterChild {w : World} (h : w.Tidy cfg) (t : LwpId) (l : Lwp) :
    ((w.reap t l).enter t).InContext t := by
  have hreap : (w.reap t l).Tidy cfg := ⟨h.stack, h.child, h.pid⟩
  exact hreap.enter_inContext t

/-- The handler of an event leaves the other threads alone. -/
theorem aside_of_event {w w₂ : World} {t : LwpId} {l : Lwp} {r : Report} {ev : Event}
    (h : w.Tidy cfg) (hev : decipherAnEvent cfg r (w.eventOf t l) = .ok ev (w.eventOf t l))
    (hx : invokeHandler cfg ev r.signum (w.eventOf t l) = .ok .ok w₂) :
    Aside t (w.eventOf t l) w₂ :=
  invokeHandler_returns (R := Keeps (Aside t (w.eventOf t l))) (decipherAnEvent_eq_ok hev).2 _ _ _ hx
    (Aside.refl (World.eventOf_at h t l).inContext)

theorem aside_of_child {w w₂ : World} {t : LwpId} {l : Lwp} (h : w.Tidy cfg)
    (hx : handleNewprocForkedEvent cfg ((w.reap t l).enter t) = .ok .ok w₂) :
    Aside t ((w.reap t l).enter t) w₂ :=
  Within.of_ok (R := Keeps (Aside t ((w.reap t l).enter t))) (x := handleNewprocForkedEvent cfg) hx
    (Aside.refl (h.enterChild t l))

/-- **Threads after a step of the engine.** -/
theorem Goes.handled {w w' : World} {a : Label} (hg : Goes cfg w a w') (ht : w.Tidy cfg)
    (hne : ∀ b, a ≠ .env b) (u : LwpId) : (w.target.lwps u = none ∧ w'.target.lwps u = none) ∨
      ∃ l l', w.target.lwps u = some l ∧ w'.target.lwps u = some l' ∧ l.Handled l' := by
  have hsame : ∀ {o : Option Lwp}, o = w.target.lwps u → (w.target.lwps u = none ∧ o = none) ∨
      ∃ l l', w.target.lwps u = some l ∧ o = some l' ∧ l.Handled l' := by
    rintro o rfl
    cases hu : w.target.lwps u with
    | none => exact Or.inl ⟨rfl, rfl⟩
    | some l => exact Or.inr ⟨l, l, rfl, rfl, .refl l⟩
  cases hg with
  | env h => exact absurd rfl (hne _)
  | nothing => exact hsame rfl
  | event hl htr hr hown hev hx =>
    rcases (aside_of_event ht hev hx).handled (World.eventOf_target ..) u with
      ⟨-, h⟩ | ⟨rfl, l', hl', hent, hrep, hgone⟩
    · exact hsame h
    · exact Or.inr ⟨_, l', hl, hl', hent, Or.inl ⟨hrep, hgone⟩⟩
  | @ignored t l r hl htr hr hend hne' hnot =>
    by_cases hu : u = t
    · subst hu
      exact Or.inr ⟨l, { l with report := none }, hl, Target.setLwp_self .., rfl, Or.inl ⟨rfl, id⟩⟩
    · exact hsame (Target.setLwp_ne _ hu _)
  | child hl htr hr hne' hent hx =>
    rcases (aside_of_child ht hx).handled (World.enter_target ..) u with
      ⟨-, h⟩ | ⟨rfl, l', hl', hent', hrep, hgone⟩
    · exact hsame h
    · exact Or.inr ⟨_, l', hl, hl', hent', Or.inl ⟨hrep, hgone⟩⟩
  | asked ha hreq =>
    rcases @stopThrs_lwps cfg (w.proc.thrlist.map Prod.fst) w.target u with h | ⟨l, hl, h⟩
    · exact hsame h
    · exact Or.inr ⟨l, _, hl, h, rfl, Or.inr ⟨rfl, rfl, rfl⟩⟩
  | released hrel =>
    rcases hrel.lwps u with h | ⟨-, -, l, hl, hp, h⟩
    · exact hsame h
    · exact Or.inr ⟨l, l.resume, hl, h, rfl, Or.inl ⟨rfl, nofun⟩⟩

/-- What is there stays there. -/
theorem Goes.stays {w w' : World} {a : Label} (hg : Goes cfg w a w') (ht : w.Tidy cfg) {u : LwpId}
    {l : Lwp} (hl : w.target.lwps u = some l) :
    ∃ l', w'.target.lwps u = some l' ∧ l'.entity = l.entity := by
  by_cases hne : ∀ b, a ≠ .env b
  · rcases hg.handled ht hne u with ⟨hn, -⟩ | ⟨l₁, l', hl₁, hl', hh⟩
    · rw [hl] at hn
      cases hn
    · cases hl.symm.trans hl₁
      exact ⟨l', hl', hh.1⟩
  · push Not at hne
    obtain ⟨b, rfl⟩ := hne
    cases hg with
    | env h => exact (Target.step_moved h).keeps hl
    | nothing hne => exact absurd rfl (hne b)
    | asked ha => cases ha

/-- Nothing appears but what a step creates. -/
theorem Goes.born {w w' : World} {a : Label} (hg : Goes cfg w a w') (ht : w.Tidy cfg) {u : LwpId}
    {l' : Lwp} (hl' : w'.target.lwps u = some l') :
    (∃ l, w.target.lwps u = some l) ∨ a.creates = some u := by
  by_cases hne : ∀ b, a ≠ .env b
  · rcases hg.handled ht hne u with ⟨-, hn⟩ | ⟨l, l₁, hl, -, -⟩
    · rw [hl'] at hn
      cases hn
    · exact Or.inl ⟨l, hl⟩
  · push Not at hne
    obtain ⟨b, rfl⟩ := hne
    cases hg with
    | env h =>
      rcases (Target.step_moved h).turn hl' with h | ⟨l, hl, -⟩ | ⟨-, hc, -⟩
      · exact Or.inl ⟨l', h⟩
      · exact Or.inl ⟨l, hl⟩
      · exact Or.inr hc
    | nothing hne => exact absurd rfl (hne b)
    | asked ha => cases ha

/-- What the reports of threads say. -/
structure Reports (cfg : Config) (w : World) : Prop where
  ended : ∀ t l, t ≠ cfg.pid → w.target.lwps t = some l →
    l.report = some .exited ∨ l.report = some .terminated → l.run = .gone
  /-- the thread that a trap reports is there; before the first trap there are no others -/
  told : (∀ t l sig, w.target.lwps t = some l → l.report = some (.stopped sig eventClone) →
      ∃ n, w.target.lwps l.eventMsg = some n ∧ n.entity = .thread) ∨
    w.proc.neverTrapped = true ∧ ∀ u, u ≠ cfg.pid → w.target.lwps u = none

theorem Goes.ended {w w' : World} {a : Label} (hg : Goes cfg w a w') (ht : w.Tidy cfg)
    (h : Reports cfg w) {t : LwpId} {l' : Lwp} (hne : t ≠ cfg.pid) (hl' : w'.target.lwps t = some l')
    (hrep : l'.report = some .exited ∨ l'.report = some .terminated) : l'.run = .gone := by
  by_cases hstep : ∀ b, a ≠ .env b
  · rcases hg.handled ht hstep t with ⟨-, hn⟩ | ⟨l, l₁, hl, hl₁, -, ⟨hnone, -⟩ | ⟨hsame, -, hrun⟩⟩
    · rw [hl'] at hn
      cases hn
    · cases hl'.symm.trans hl₁
      rw [hnone] at hrep
      rcases hrep with hrep | hrep <;> cases hrep
    · cases hl'.symm.trans hl₁
      exact hrun.trans (h.ended t l hne hl (hsame ▸ hrep))
  · push Not at hstep
    obtain ⟨b, rfl⟩ := hstep
    cases hg with
    | env hT =>
      rcases (Target.step_moved hT).turn hl' with hl | ⟨l, hl, hturn⟩ | ⟨-, -, l, en, mm, succ, rfl⟩
      · exact h.ended t l' hne hl hrep
      · cases hturn with
        | runs hent hr hr' hor =>
          rcases hor with hsame | ⟨sig, ev, hs, -⟩
          · have hgone := h.ended t l hne hl (hsame ▸ hrep)
            rcases hr with hr | hr <;> rw [hgone] at hr <;> cases hr
          · rw [hs] at hrep
            rcases hrep with hrep | hrep <;> cases hrep
        | ends hent hr hg hor => exact hg
      · rcases hrep with hrep | hrep <;> cases hrep
    | nothing hnot => exact absurd rfl (hnot b)
    | asked ha => cases ha

theorem Goes.told {w w' : World} {a : Label} (hg : Goes cfg w a w') (ht : w.Tidy cfg) (hk : Kin cfg w)
    (h : ∀ t l sig, w.target.lwps t = some l → l.report = some (.stopped sig eventClone) →
      ∃ n, w.target.lwps l.eventMsg = some n ∧ n.entity = .thread)
    {t : LwpId} {l' : Lwp} {sig : Nat} (hl' : w'.target.lwps t = some l')
    (hrep : l'.report = some (.stopped sig eventClone)) :
    ∃ n, w'.target.lwps l'.eventMsg = some n ∧ n.entity = .thread := by
  have hold : ∀ {l}, w.target.lwps t = some l → l'.report = l.report → l'.eventMsg = l.eventMsg →
      ∃ n, w'.target.lwps l'.eventMsg = some n ∧ n.entity = .thread := by
    intro l hl hsame hmsg
    obtain ⟨n, hn, hent⟩ := h t l sig hl (hsame ▸ hrep)
    obtain ⟨n', hn', hent'⟩ := hg.stays ht hn
    exact ⟨n', hmsg ▸ hn', hent'.trans hent⟩
  by_cases hstep : ∀ b, a ≠ .env b
  · rcases hg.handled ht hstep t with ⟨-, hn⟩ | ⟨l, l₁, hl, hl₁, -, ⟨hnone, -⟩ | ⟨hsame, hmsg, -⟩⟩
    · rw [hl'] at hn
      cases hn
    · cases hl'.symm.trans hl₁
      rw [hnone] at hrep
      cases hrep
    · cases hl'.symm.trans hl₁
      exact hold hl hsame hmsg
  · push Not at hstep
    obtain ⟨b, rfl⟩ := hstep
    cases hg with
    | env hT =>
      rcases (Target.step_moved hT).turn hl' with hl | ⟨l, hl, hturn⟩ | ⟨-, -, l, en, mm, succ, rfl⟩
      · exact hold hl rfl rfl
      · cases hturn with
        | runs hent hr hr' hor =>
          rcases hor with hsame | ⟨sig', ev, hs, hnew⟩
          · have hstop := hk.stops t l sig eventClone hl (hsame ▸ hrep)
            rcases hr with hr | hr <;> rw [hstop] at hr <;> cases hr
          · rw [hs] at hrep
            cases hrep
            exact hnew rfl
        | ends hent hr hg hor =>
          rw [hrep] at hor
          rcases hor with hor | hor <;> cases hor
      · cases hrep
    | nothing hnot => exact absurd rfl (hnot b)
    | asked ha => cases ha

/-- What one step preserves. -/
theorem Goes.reports {w w' : World} {a : Label} (hg : Goes cfg w a w') (ht : w.Tidy cfg)
    (hk : Kin cfg w) (h : Reports cfg w) : Reports cfg w' := by
  refine ⟨fun t l hne hl hrep => hg.ended ht h hne hl hrep, ?_⟩
  rcases h.told with htold | ⟨hnever, hnone⟩
  · exact Or.inl fun t l sig hl hrep => hg.told ht hk htold hl hrep
  · -- before the first trap the launcher is alone
    have halone : ∀ {t l}, w.target.lwps t = some l → t = cfg.pid := by
      intro t l hl
      by_contra hne
      rw [hnone t hne] at hl
      cases hl
    have hstill : (∀ b, a ≠ .env b) → ∀ u, u ≠ cfg.pid → w'.target.lwps u = none := by
      intro hstep u hu
      rcases hg.handled ht hstep u with ⟨-, hn⟩ | ⟨l, l', hl, -, -⟩
      · exact hn
      · exact absurd (halone hl) hu
    cases hg with
    | @env b T hT =>
      by_cases hall : ∀ u, u ≠ cfg.pid → T.lwps u = none
      · exact Or.inr ⟨hnever, hall⟩
      · push Not at hall
        obtain ⟨u, hu, hsome⟩ := hall
        obtain ⟨l', hl'⟩ := Option.ne_none_iff_exists'.mp hsome
        refine Or.inl fun t l sig hl hrep => Goes.told (.env hT) ht hk ?_ hl hrep
        -- the launcher runs, so it has no stop to report
        intro t₁ l₁ sig₁ hl₁ hrep₁
        rcases (Target.step_moved hT).lwps hl' with h' | ⟨l₂, h', -⟩ |
          ⟨-, t₂, l₂, en, mm, succ, hl₂, -, hr, -⟩
        · exact absurd (halone h') hu
        · exact absurd (halone h') hu
        · have hpid := halone hl₁
          cases halone hl₂
          cases hpid
          cases hl₁.symm.trans hl₂
          rw [hk.stops _ _ _ _ hl₁ hrep₁] at hr
          cases hr
    | nothing hnb hnp => exact Or.inr ⟨hnever, hnone⟩
    | @event t l r ev w₂ hl htr hr hown hev hx =>
      refine Or.inl fun u l' sig hl' hrep => ?_
      rcases (aside_of_event ht hev hx).handled (World.eventOf_target ..) u with
        ⟨hu, h'⟩ | ⟨rfl, l₁, hl₁, -, hnil, -⟩
      · have hold : w.target.lwps u = some l' := h'.symm.trans hl'
        exact absurd ((halone hold).trans (halone hl).symm) hu
      · cases hl'.symm.trans hl₁
        rw [hnil] at hrep
        cases hrep
    | ignored hl htr hr hend hne hnot => exact absurd (halone hl) hne
    | child hl htr hr hne hent hx => exact absurd (halone hl) hne
    | @asked a r ha hreq =>
      refine Or.inr ⟨?_, hstill fun b hb => by cases hb; cases ha⟩
      show (r.mark w.proc).neverTrapped = true
      unfold Request.mark
      split <;> exact hnever
    | released hrel =>
      refine Or.inr ⟨?_, hstill nofun⟩
      rw [hrel.proc]
      exact hnever

theorem Launched.reports {T : Target} (h : Launched cfg T) : Reports cfg (Sys.start cfg T).w := by
  obtain ⟨l, hlwps, -⟩ := h.lwps_eq
  have hnone : ∀ u, u ≠ cfg.pid → T.lwps u = none := fun u hu => by
    rw [hlwps, Function.update_of_ne hu]
  refine ⟨fun t l hne hl => ?_, Or.inr ⟨rfl, hnone⟩⟩
  cases (hnone t hne).symm.trans hl

end LaunchMON.Engine
