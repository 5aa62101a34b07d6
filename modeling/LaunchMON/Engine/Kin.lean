/-
  Threads of the launcher and processes it has created.

  `Kin` says what the engine can rely on without knowing it: the threads of the launcher share one
  memory, a process that the launcher has created does not run while it is traced, and a stop that is
  reported is a stop.  It is an invariant of every run that goes on.  What handlers do to memory and
  breakpoints leaves the threads alone (`SameThreads`), and what they do to a thread they do in its own
  context (`within_focus`).
-/
import LaunchMON.Engine.Alive

namespace LaunchMON.Engine

open Effect Lmonp

set_option synthInstance.maxSize 4096

variable {cfg : Config}

/-! ## What leaves the threads alone -/

structure SameThreads (w w' : World) : Prop where
  lwps : w'.target.lwps = w.target.lwps
  thrlist : w'.proc.thrlist = w.proc.thrlist
  stack : w'.proc.threadCtxStack = w.proc.threadCtxStack
  child : w'.proc.newChildPid = w.proc.newChildPid

instance : IsPreorder World SameThreads where
  refl _ := ⟨rfl, rfl, rfl, rfl⟩
  trans _ _ _ h₁ h₂ := ⟨h₂.lwps.trans h₁.lwps, h₂.thrlist.trans h₁.thrlist,
    h₂.stack.trans h₁.stack, h₂.child.trans h₁.child⟩

instance (f : Lmon → Lmon) : Within SameThreads (modifyLmon f) :=
  within_modify fun _ => ⟨rfl, rfl, rfl, rfl⟩

instance (n : Note) : Within SameThreads (note n) := within_modify fun _ => ⟨rfl, rfl, rfl, rfl⟩

theorem sameThreads_modifyProc {f : Process → Process} (hl : ∀ p, (f p).thrlist = p.thrlist)
    (hs : ∀ p, (f p).threadCtxStack = p.threadCtxStack)
    (hc : ∀ p, (f p).newChildPid = p.newChildPid) : Within SameThreads (modifyProc f) :=
  within_modify fun w => ⟨rfl, hl w.proc, hs w.proc, hc w.proc⟩

instance (sel : BpSel) (b : Option Bp) : Within SameThreads (setBp sel b) := by
  cases sel <;> exact sameThreads_modifyProc (fun _ => rfl) (fun _ => rfl) (fun _ => rfl)

instance (mm : Nat) (m : Mem) : Within SameThreads (modifyTarget fun T => T.setMem mm m) :=
  within_modify fun _ => ⟨rfl, rfl, rfl, rfl⟩

instance (b : Bool) (a : VA) (bs : List UInt8) : Within SameThreads (tracerWrite cfg b a bs) := by
  unfold tracerWrite; infer_instance

instance (sel : BpSel) (b c : Bool) : Within SameThreads (disableBreakpoint cfg sel b c) := by
  unfold disableBreakpoint; infer_instance

instance (sel : BpSel) : Within SameThreads (enableBreakpoint cfg sel) := by
  unfold enableBreakpoint; infer_instance

instance (sel : BpSel) (ra : VA) : Within SameThreads (setReturnAddr sel ra) := by
  unfold setReturnAddr; infer_instance

instance (addr : VA) : Within SameThreads (registerLaunchBp cfg addr) := by
  unfold registerLaunchBp; infer_instance

instance : Within SameThreads (registerLoaderBp cfg) := by unfold registerLoaderBp; infer_instance

instance (b c : Bool) : Within SameThreads (disableAllBPs cfg b c) := by
  unfold disableAllBPs; infer_instance

instance (a : VA) (o : Option (List UInt8)) : Within SameThreads (writeServerArgs cfg a o) := by
  cases o <;> unfold writeServerArgs <;> infer_instance

instance (o o' : Option Symbol) : Within SameThreads (writeColocation cfg o o') := by
  cases o <;> cases o' <;> unfold writeColocation <;> infer_instance

instance (table : List UInt8) (i : Nat) : Within SameThreads (acquireRow cfg table i) := by
  unfold acquireRow; infer_instance

instance (w : World) (rid : RidSource) : Within SameThreads (acquireResid cfg w rid) := by
  cases rid <;> unfold acquireResid <;> try unfold setResid
  all_goals infer_instance

instance (w : World) (n : Nat) : Within SameThreads (acquireTable cfg w n) := by
  unfold acquireTable; infer_instance

instance : Within SameThreads (acquireAndShip cfg) := by
  unfold acquireAndShip acquireProctable acquireBody shipProctab; infer_instance

/-! ## What happens to the thread of the context -/

/-- A PTRACE request on the thread of the context. -/
theorem within_focus {I : World → Prop} {t : LwpId} (g : Lwp → Lwp)
    (hctx : ∀ w, I w → w.InContext t)
    (h : ∀ w l, I w → w.target.lwps t = some l → l.Ptraceable →
      I { w with target := w.target.setLwp t (g l) }) :
    Within (Keeps I) (do let f ← focus cfg true; setLwp f.1 (g f.2)) where
  out w hw := by
    rcases @focus_inContext cfg w t (hctx w hw) with ⟨l, hl, hp, hf⟩ | hf
    · rw [final_bind_ok hf]
      exact h w l hw hl hp
    · rw [final_bind_error hf]
      exact hw

/-- The same, where a failure is passed over in silence. -/
theorem within_focus? {I : World → Prop} {t : LwpId} (g : Lwp → Lwp)
    (hctx : ∀ w, I w → w.InContext t)
    (h : ∀ w l, I w → w.target.lwps t = some l → l.Ptraceable →
      I { w with target := w.target.setLwp t (g l) }) :
    Within (Keeps I) (do
      let o ← focus? cfg true
      (o.filter fun p => p.2.Ptraceable).elim (pure ()) fun p => setLwp p.1 (g p.2)) where
  out w hw := by
    obtain ⟨o, ho, hot⟩ := @focus?_inContext cfg w t (hctx w hw)
    rw [final_bind_ok ho]
    cases hf : o.filter fun p => decide p.2.Ptraceable with
    | none => exact hw
    | some p =>
      obtain ⟨hp, hpt⟩ := Option.filter_eq_some_iff.mp hf
      obtain ⟨rfl, hl⟩ := hot p hp
      exact h w p.2 hw hl (of_decide_eq_true hpt)

/-! ## Kin -/

/-- What holds of the threads of every run. -/
structure Kin (cfg : Config) (w : World) : Prop where
  launcher : ∃ l, w.target.lwps cfg.pid = some l
  mm : ∀ u l, w.target.lwps u = some l → l.Own cfg u → l.mm = 0
  child : ∀ u l, w.target.lwps u = some l → ¬l.Own cfg u → l.traced = true → ¬l.Runs
  stops : ∀ u l sig ev, w.target.lwps u = some l → l.report = some (.stopped sig ev) →
    l.run = .stopped
  held : ∀ u r, (u, r) ∈ w.proc.thrlist → r.eventRegistered = true →
    ∃ l, w.target.lwps u = some l ∧ l.Own cfg u
  master : ∀ u r, (u, r) ∈ w.proc.thrlist → r.master = true → u = cfg.pid

theorem Kin.congr {w w' : World} (h : Kin cfg w) (hl : w'.target.lwps = w.target.lwps)
    (ht : w'.proc.thrlist = w.proc.thrlist) : Kin cfg w' := by
  obtain ⟨h₁, h₂, h₃, h₄, h₅, h₆⟩ := h
  exact ⟨hl ▸ h₁, hl ▸ h₂, hl ▸ h₃, hl ▸ h₄, ht ▸ hl ▸ h₅, ht ▸ h₆⟩

/-- A thread is replaced by one of the same kind. -/
theorem Kin.setLwp {w : World} (h : Kin cfg w) {t : LwpId} {l l' : Lwp}
    (hl : w.target.lwps t = some l) (hent : l'.entity = l.entity) (hmm : l'.mm = l.mm)
    (hruns : l'.traced = true → l'.Runs → l.traced = true ∧ l.Runs ∨ l.Own cfg t)
    (hstops : ∀ sig ev, l'.report = some (.stopped sig ev) → l'.run = .stopped) :
    Kin cfg { w with target := w.target.setLwp t l' } := by
  have hown : l'.Own cfg t ↔ l.Own cfg t := by
    unfold Lwp.Own
    rw [hent]
  refine ⟨?_, fun u l₁ hu ho => ?_, fun u l₁ hu ho htr hr => ?_, fun u l₁ sig ev hu hrep => ?_,
    fun u r hr hreg => ?_, h.master⟩
  · by_cases hp : cfg.pid = t
    · exact ⟨l', by rw [hp]; exact Target.setLwp_self ..⟩
    · obtain ⟨lp, hlp⟩ := h.launcher
      exact ⟨lp, by rw [← hlp]; exact Target.setLwp_ne _ hp _⟩
  · rcases Target.setLwp_eq_some hu with ⟨rfl, rfl⟩ | ⟨-, hu⟩
    · exact hmm.trans (h.mm u l hl (hown.mp ho))
    · exact h.mm u l₁ hu ho
  · rcases Target.setLwp_eq_some hu with ⟨rfl, rfl⟩ | ⟨-, hu⟩
    · rcases hruns htr hr with ⟨htr', hr'⟩ | ho'
      · exact h.child u l hl (fun ho' => ho (hown.mpr ho')) htr' hr'
      · exact ho (hown.mpr ho')
    · exact h.child u l₁ hu ho htr hr
  · rcases Target.setLwp_eq_some hu with ⟨rfl, rfl⟩ | ⟨-, hu⟩
    · exact hstops sig ev hrep
    · exact h.stops u l₁ sig ev hu hrep
  · obtain ⟨l₁, hl₁, ho⟩ := h.held u r hr hreg
    by_cases hu : u = t
    · subst hu
      rw [hl] at hl₁
      cases hl₁
      exact ⟨l', Target.setLwp_self .., hown.mpr ho⟩
    · exact ⟨l₁, by rw [← hl₁]; exact Target.setLwp_ne _ hu _, ho⟩

/-! ## Kin in the context of a thread -/

/-- The context of `t`, which is a thread of the launcher. -/
structure Kin.In (cfg : Config) (t : LwpId) (w : World) : Prop where
  ctx : w.InContext t
  own : ∃ l, w.target.lwps t = some l ∧ l.Own cfg t
  kin : Kin cfg w

theorem Kin.In.congr {w w' : World} {t : LwpId} (h : Kin.In cfg t w) (hs : SameThreads w w') :
    Kin.In cfg t w' := by
  refine ⟨?_, hs.lwps ▸ h.own, h.kin.congr hs.lwps hs.thrlist⟩
  unfold World.InContext
  rw [hs.stack, hs.child]
  exact h.ctx

theorem Kin.In.of_same {t : LwpId} {α : Type} {x : EngineM α} (h : Within SameThreads x) :
    Within (Keeps (Kin.In cfg t)) x := h.mono fun _ _ hs hw => hw.congr hs

theorem Kin.In.setLwp {w : World} {t : LwpId} {l l' : Lwp} (h : Kin.In cfg t w)
    (hl : w.target.lwps t = some l) (hent : l'.entity = l.entity) (hmm : l'.mm = l.mm)
    (hstops : ∀ sig ev, l'.report = some (.stopped sig ev) → l'.run = .stopped) :
    Kin.In cfg t { w with target := w.target.setLwp t l' } := by
  obtain ⟨l₀, hl₀, ho⟩ := h.own
  rw [hl] at hl₀
  cases hl₀
  refine ⟨h.ctx, ⟨l', Target.setLwp_self .., ?_⟩, h.kin.setLwp hl hent hmm (fun _ _ => Or.inr ho)
    hstops⟩
  unfold Lwp.Own
  rw [hent]
  exact ho

/-- The thread list may be changed if no thread is registered or made the master by it. -/
theorem Kin.In.modifyProc {t : LwpId} {f : Process → Process}
    (hs : ∀ p, (f p).threadCtxStack = p.threadCtxStack)
    (hc : ∀ p, (f p).newChildPid = p.newChildPid)
    (hm : ∀ p u r', (u, r') ∈ (f p).thrlist → r'.eventRegistered = true ∨ r'.master = true →
      ∃ r, (u, r) ∈ p.thrlist ∧ (r'.eventRegistered = true → r.eventRegistered = true) ∧
        (r'.master = true → r.master = true)) :
    Within (Keeps (Kin.In cfg t)) (modifyProc f) := by
  refine within_modify fun w h => ⟨?_, h.own, h.kin.launcher, h.kin.mm, h.kin.child, h.kin.stops,
    fun u r' hr' hreg => ?_, fun u r' hr' hmaster => ?_⟩
  · unfold World.InContext
    dsimp only
    rw [hs, hc]
    exact h.ctx
  · obtain ⟨r, hr, himp, -⟩ := hm w.proc u r' hr' (Or.inl hreg)
    exact h.kin.held u r hr (himp hreg)
  · obtain ⟨r, hr, -, himp⟩ := hm w.proc u r' hr' (Or.inr hmaster)
    exact h.kin.master u r hr (himp hmaster)

instance (t : LwpId) : Frame (Keeps (Kin.In cfg t)) where
  lmon _ := Kin.In.of_same inferInstance
  note _ _ := Kin.In.of_same inferInstance
  threadLib := Kin.In.of_same (sameThreads_modifyProc (fun _ => rfl) (fun _ => rfl) (fun _ => rfl))
  libc := Kin.In.of_same (sameThreads_modifyProc (fun _ => rfl) (fun _ => rfl) (fun _ => rfl))
  attachFifo _ :=
    Kin.In.of_same (sameThreads_modifyProc (fun _ => rfl) (fun _ => rfl) (fun _ => rfl))
  neverTrapped :=
    Kin.In.of_same (sameThreads_modifyProc (fun _ => rfl) (fun _ => rfl) (fun _ => rfl))

instance (t : LwpId) : TargetFrame cfg (Keeps (Kin.In cfg t)) where
  acquireAndShip := Kin.In.of_same inferInstance
  rmso _ _ := Kin.In.of_same (sameThreads_modifyProc (fun _ => rfl) (fun _ => rfl) (fun _ => rfl))
  continue_ := within_focus Lwp.resume (fun _ h => h.ctx) fun _ _ h hl _ =>
    h.setLwp hl rfl rfl fun _ _ h => nomatch h
  deliver sig := within_focus (fun l => { l.resume with delivered := l.delivered ++ [sig] })
    (fun _ h => h.ctx) fun _ _ h hl _ => h.setLwp hl rfl rfl fun _ _ h => nomatch h
  options on := within_focus? (fun l => { l with opts := on }) (fun _ h => h.ctx)
    fun _ _ h hl hp => h.setLwp hl rfl rfl fun _ _ _ => hp.2
  launchBp _ _ _ _ := Kin.In.of_same inferInstance
  beingDebug _ _ _ _ := Kin.In.of_same inferInstance
  colocation _ _ := Kin.In.of_same inferInstance

instance (t : LwpId) : ListFrame cfg (Keeps (Kin.In cfg t)) where
  thrcreate n := by
    have : Within (Keeps (Kin.In cfg t)) (modifyProc fun p => p.insertThr n ⟨false, false, false⟩) := by
      refine Kin.In.modifyProc (fun _ => rfl) (fun _ => rfl) fun p u r' hr' h => ?_
      rcases mem_insertThr.mp hr' with he | hr
      · cases he
        rcases h with h | h <;> cases h
      · exact ⟨r', hr, id, id⟩
    unfold handleThrcreateRequest; infer_instance
  traced n := by
    refine Kin.In.modifyProc (fun _ => rfl) (fun _ => rfl) fun p u r' hr' _ => ?_
    obtain ⟨r, hr, he⟩ := mem_mapThr.mp hr'
    dsimp only at he
    refine ⟨r, hr, ?_, ?_⟩ <;> (rw [he]; split <;> exact id)
  eraseThr _ _ := Kin.In.modifyProc (fun _ => rfl) (fun _ => rfl)
    fun _ _ r' hr' _ => ⟨r', (mem_eraseThr.mp hr').1, id, id⟩

instance (t : LwpId) : FirstFrame cfg (Keeps (Kin.In cfg t)) where
  loaderBp := Kin.In.of_same inferInstance

instance (t : LwpId) : BpFrame cfg (Keeps (Kin.In cfg t)) where
  returnAddr _ _ := Kin.In.of_same inferInstance
  setregs r := by
    have := @within_focus cfg (Kin.In cfg t) t
      (fun l => { l with pc := r.pc, sp := r.sp }) (fun _ h => h.ctx)
      fun _ _ h hl hp => h.setLwp hl rfl rfl fun _ _ _ => hp.2
    unfold tracerSetregs; infer_instance
  singlestep := within_focus
    (fun l => { l with run := .stepping, report := none, stepFrom := some l.pc })
    (fun _ h => h.ctx) fun _ _ h hl _ => h.setLwp hl rfl rfl fun _ _ h => nomatch h
  enable _ := Kin.In.of_same inferInstance
  disable _ := Kin.In.of_same inferInstance
  register := by
    refine ⟨fun w h => ?_⟩
    rcases final_registerEvent h.ctx with heq | heq
    · rw [heq]
      exact h
    · rw [heq]
      refine ⟨h.ctx, h.own, h.kin.launcher, h.kin.mm, h.kin.child, h.kin.stops,
        fun u r' hr' hreg => ?_, fun u r' hr' hmaster => ?_⟩
      · obtain ⟨r, hr, he⟩ := mem_mapThr.mp hr'
        dsimp only at he
        by_cases hu : u = t
        · exact hu ▸ h.own
        · rw [if_neg hu] at he
          exact h.kin.held u r hr (he ▸ hreg)
      · obtain ⟨r, hr, he⟩ := mem_mapThr.mp hr'
        dsimp only at he
        refine h.kin.master u r hr ?_
        rw [he] at hmaster
        split at hmaster <;> exact hmaster

/-! ## Kin in runs -/

/-- Processes that the launcher has created do not move, so everything new is created by one of its
    threads. -/
theorem Kin.env {w : World} {a : EnvAct} {T : Target} (h : Kin cfg w)
    (hT : w.target.step cfg.text a = some T) : Kin cfg { w with target := T } := by
  have hm := Target.step_moved hT
  have hown : ∀ {u} {l l' : Lwp}, l'.entity = l.entity → (l'.Own cfg u ↔ l.Own cfg u) := by
    intro u l l' he
    unfold Lwp.Own
    rw [he]
  have hmover : ∀ {t l}, w.target.lwps t = some l → l.traced = true → l.run = .running →
      l.Own cfg t := by
    intro t l hl htr hr
    by_contra hno
    exact h.child t l hl hno htr (Or.inl hr)
  refine ⟨?_, fun u l' hu ho => ?_, fun u l' hu ho htr hr => ?_, fun u l' sig ev hu hrep => ?_,
    fun u r hr hreg => ?_, h.master⟩
  · obtain ⟨l, hl⟩ := h.launcher
    obtain ⟨l', hl', -⟩ := hm.keeps hl
    exact ⟨l', hl'⟩
  · rcases hm.lwps hu with hu | ⟨l, hl, hb⟩ | ⟨hnone, t, l, en, mm, succ, hl, htr, hr, hmm, rfl⟩
    · exact h.mm u l' hu ho
    · exact hb.mm.trans (h.mm u l hl ((hown hb.entity).mp ho))
    · rcases ho with rfl | hent
      · obtain ⟨lp, hlp⟩ := h.launcher
        rw [hnone] at hlp
        cases hlp
      · exact (hmm hent).trans (h.mm t l hl (hmover hl htr hr))
  · rcases hm.lwps hu with hu | ⟨l, hl, hb⟩ | ⟨-, t, l, en, mm, succ, -, -, -, -, rfl⟩
    · exact h.child u l' hu ho htr hr
    · exact h.child u l hl (fun ho' => ho ((hown hb.entity).mpr ho')) hb.traced (hb.runs hr)
    · rcases hr with hr | hr <;> cases hr
  · rcases hm.lwps hu with hu | ⟨l, hl, hb⟩ | ⟨-, t, l, en, mm, succ, -, -, -, -, rfl⟩
    · exact h.stops u l' sig ev hu hrep
    · rcases hb.stops sig ev hrep with hs | ⟨hs, hr⟩
      · exact hs
      · exact hs.trans (h.stops u l sig ev hl (hr ▸ hrep))
    · rfl
  · obtain ⟨l, hl, ho⟩ := h.held u r hr hreg
    obtain ⟨l', hl', he⟩ := hm.keeps hl
    exact ⟨l', hl', (hown he).mpr ho⟩

theorem Kin.reap {w : World} {t : LwpId} {l : Lwp} (h : Kin cfg w) (hl : w.target.lwps t = some l) :
    Kin cfg (w.reap t l) :=
  h.setLwp hl rfl rfl (fun htr hr => Or.inl ⟨htr, hr⟩) fun _ _ hr => nomatch hr

theorem Kin.enlist {w : World} (h : Kin cfg w) (t : LwpId) : Kin cfg (w.enlist t) := by
  unfold World.enlist
  split
  · exact h
  · refine ⟨h.launcher, h.mm, h.child, h.stops, fun u r hr hreg => ?_, fun u r hr hmaster => ?_⟩
    · rcases mem_insertThr.mp hr with he | hr
      · cases he
        cases hreg
      · exact h.held u r hr hreg
    · rcases mem_insertThr.mp hr with he | hr
      · cases he
        cases hmaster
      · exact h.master u r hr hmaster

theorem World.enlist_target (w : World) (t : LwpId) : (w.enlist t).target = w.target := by
  unfold World.enlist
  split <;> rfl

theorem World.eventOf_target (w : World) (t : LwpId) (l : Lwp) :
    (w.eventOf t l).target = w.target.setLwp t { l with report := none } := by
  unfold World.eventOf
  rw [World.enter_target, World.enlist_target]
  rfl

/-- The context in which the status of a thread of the launcher is handled. -/
theorem Kin.eventOf {w : World} {t : LwpId} {l : Lwp} (h : Kin cfg w) (ht : w.Tidy cfg)
    (hl : w.target.lwps t = some l) (hown : l.Own cfg t) : Kin.In cfg t (w.eventOf t l) := by
  have hreap : (w.reap t l).Tidy cfg := ⟨ht.stack, ht.child, ht.pid⟩
  have htidy := hreap.enlist t
  refine ⟨htidy.enter_inContext t, ⟨{ l with report := none }, ?_, hown⟩, ?_⟩
  · rw [World.eventOf_target, Target.setLwp_self]
  · exact ((h.reap hl).enlist t).congr (by rw [World.eventOf, World.enter_target])
      (by rw [World.eventOf, World.enter_thrlist])

/-- The handler of a child lets the child go. -/
theorem Kin.child_within (t : LwpId) :
    Within (Keeps fun w => w.InContext t ∧ Kin cfg w) (handleNewprocForkedEvent cfg) := by
  have hbps : Within (Keeps fun w => w.InContext t ∧ Kin cfg w) (disableAllBPs cfg true false) := by
    refine Within.mono (inferInstance : Within SameThreads (disableAllBPs cfg true false)) fun w w' hs hw => ⟨?_, ?_⟩
    · unfold World.InContext
      rw [hs.stack, hs.child]
      exact hw.1
    · exact hw.2.congr hs.lwps hs.thrlist
  have hdetach : Within (Keeps fun w => w.InContext t ∧ Kin cfg w) (tracerDetach cfg true) :=
    within_focus? (fun l => { l.resume with traced := false }) (fun _ h => h.1)
      fun _ _ h hl _ => ⟨h.1, h.2.setLwp hl rfl rfl nofun fun _ _ h => nomatch h⟩
  unfold handleNewprocForkedEvent
  infer_instance

theorem Kin.stopAll {w : World} (h : Kin cfg w) {p : Process} (hp : p.thrlist = w.proc.thrlist) :
    Kin cfg { w.stopAll cfg with proc := p } := by
  have hlwps := @stopThrs_lwps cfg (w.proc.thrlist.map Prod.fst) w.target
  -- each thread has a companion before the request that differs in nothing that `Kin` reads
  have hback : ∀ {u l'}, (w.stopAll cfg).target.lwps u = some l' → ∃ l, w.target.lwps u = some l ∧
      (l' = l ∨ l' = { l with stopRequested := true }) := by
    intro u l' hu
    rcases hlwps u with heq | ⟨l, hl, heq⟩
    · exact ⟨l', heq.symm.trans hu, Or.inl rfl⟩
    · exact ⟨l, hl, Or.inr (Option.some.inj (hu.symm.trans heq))⟩
  have hforth : ∀ {u l}, w.target.lwps u = some l → ∃ l', (w.stopAll cfg).target.lwps u = some l' ∧
      (l.Own cfg u → l'.Own cfg u) := by
    intro u l hl
    rcases hlwps u with heq | ⟨l₁, hl₁, heq⟩
    · exact ⟨l, heq.trans hl, id⟩
    · rw [hl] at hl₁
      cases hl₁
      exact ⟨_, heq, id⟩
  refine ⟨?_, fun u l' hu ho => ?_, fun u l' hu ho htr hr => ?_, fun u l' sig ev hu hrep => ?_,
    fun u r hr hreg => ?_, fun u r hr hmaster => h.master u r (hp ▸ hr) hmaster⟩
  · obtain ⟨l, hl⟩ := h.launcher
    obtain ⟨l', hl', -⟩ := hforth hl
    exact ⟨l', hl'⟩
  · obtain ⟨l, hl, hor⟩ := hback hu
    have hmm := h.mm u l hl
    rcases hor with rfl | rfl <;> exact hmm ho
  · obtain ⟨l, hl, hor⟩ := hback hu
    have hchild := h.child u l hl
    rcases hor with rfl | rfl <;> exact hchild ho htr hr
  · obtain ⟨l, hl, hor⟩ := hback hu
    have hstops := h.stops u l sig ev hl
    rcases hor with rfl | rfl <;> exact hstops hrep
  · obtain ⟨l, hl, ho⟩ := h.held u r (hp ▸ hr) hreg
    obtain ⟨l', hl', ho'⟩ := hforth hl
    exact ⟨l', hl', ho' ho⟩

theorem Kin.released {w w' : World} (h : Kin cfg w) (hrel : Released w.proc.thrlist w w') :
    Kin cfg w' := by
  have hback : ∀ {u l'}, w'.target.lwps u = some l' → w.target.lwps u = some l' ∨
      ∃ l, w.target.lwps u = some l ∧ l.Own cfg u ∧ l' = l.resume := by
    intro u l' hu
    rcases hrel.lwps u with heq | ⟨⟨r, hr, hreg⟩, -, l, hl, -, heq⟩
    · exact Or.inl (heq.symm.trans hu)
    · obtain ⟨l₁, hl₁, ho⟩ := h.held u r hr hreg
      rw [hl] at hl₁
      cases hl₁
      exact Or.inr ⟨l, hl, ho, Option.some.inj (hu.symm.trans heq)⟩
  have hforth : ∀ {u l}, w.target.lwps u = some l → ∃ l', w'.target.lwps u = some l' ∧
      (l.Own cfg u → l'.Own cfg u) := by
    intro u l hl
    rcases hrel.lwps u with heq | ⟨-, -, l₁, hl₁, -, heq⟩
    · exact ⟨l, heq.trans hl, id⟩
    · rw [hl] at hl₁
      cases hl₁
      exact ⟨_, heq, id⟩
  refine ⟨?_, fun u l' hu ho => ?_, fun u l' hu ho htr hr => ?_, fun u l' sig ev hu hrep => ?_,
    fun u r' hr' hreg => ?_, fun u r' hr' hmaster => ?_⟩
  · obtain ⟨l, hl⟩ := h.launcher
    obtain ⟨l', hl', -⟩ := hforth hl
    exact ⟨l', hl'⟩
  · rcases hback hu with hu | ⟨l, hl, ho', rfl⟩
    · exact h.mm u l' hu ho
    · exact h.mm u l hl ho'
  · rcases hback hu with hu | ⟨l, hl, ho', rfl⟩
    · exact h.child u l' hu ho htr hr
    · exact ho ho'
  · rcases hback hu with hu | ⟨l, hl, ho', rfl⟩
    · exact h.stops u l' sig ev hu hrep
    · cases hrep
  · obtain ⟨r, hr, -, himp⟩ := hrel.thr u r' hr'
    obtain ⟨l, hl, ho⟩ := h.held u r hr (himp hreg)
    obtain ⟨l', hl', ho'⟩ := hforth hl
    exact ⟨l', hl', ho' ho⟩
  · obtain ⟨r, hr, hm, -⟩ := hrel.thr u r' hr'
    exact h.master u r hr (hm ▸ hmaster)

theorem Request.mark_thrlist (r : Request) (p : Process) : (r.mark p).thrlist = p.thrlist := by
  unfold Request.mark
  split <;> rfl

/-- What one step preserves. -/
theorem Goes.kin {w w' : World} {a : Label} (hg : Goes cfg w a w') (ht : w.Tidy cfg)
    (h : Kin cfg w) : Kin cfg w' := by
  cases hg with
  | env hT => exact h.env hT
  | nothing => exact h
  | event hl htr hr hown hev hx =>
    have hw₂ := invokeHandler_returns (R := Keeps (Kin.In cfg _)) (decipherAnEvent_eq_ok hev).2 _
      _ _ hx (h.eventOf ht hl hown)
    exact hw₂.kin.congr rfl rfl
  | ignored hl htr hr hend hne hnot => exact h.reap hl
  | @child t l signum event w₂ hl htr hr hne hent hx =>
    have htidy : (w.reap t l).Tidy cfg := ⟨ht.stack, ht.child, ht.pid⟩
    have hin : ((w.reap t l).enter t).InContext t ∧ Kin cfg ((w.reap t l).enter t) :=
      ⟨htidy.enter_inContext t,
        (h.reap hl).congr (by rw [World.enter_target]) (World.enter_thrlist _ _)⟩
    have hw₂ := @Within.of_ok _ _ _ _ _ (Kin.child_within t) _ _ _ hx hin
    exact hw₂.2.congr rfl rfl
  | asked ha hreq => exact h.stopAll (Request.mark_thrlist _ _)
  | released hrel => exact h.released hrel

theorem Launched.kin {T : Target} (h : Launched cfg T) : Kin cfg (Sys.start cfg T).w := by
  obtain ⟨l, hlwps, hent, hmm, -, -, -, -, hrun⟩ := h.lwps_eq
  have hl : ∀ {u l'}, T.lwps u = some l' → u = cfg.pid ∧ l' = l := by
    intro u l' hu
    rw [hlwps] at hu
    by_cases hp : u = cfg.pid
    · subst hp
      rw [Function.update_self] at hu
      exact ⟨rfl, (Option.some.inj hu).symm⟩
    · rw [Function.update_of_ne hp] at hu
      cases hu
  refine ⟨⟨l, ?_⟩, fun u l' hu _ => ?_, fun u l' hu ho => ?_, fun u l' sig ev hu hrep => ?_,
    fun u r hr hreg => ?_, fun u r hr _ => ?_⟩
  · show T.lwps cfg.pid = some l
    rw [hlwps, Function.update_self]
  · obtain ⟨-, rfl⟩ := hl hu
    exact hmm
  · exact absurd (Or.inl (hl hu).1) ho
  · obtain ⟨-, rfl⟩ := hl hu
    rcases hrun with ⟨-, hnone⟩ | ⟨hs, -⟩
    · rw [hnone] at hrep
      cases hrep
    · exact hs
  · cases List.mem_singleton.mp hr
    cases hreg
  · cases List.mem_singleton.mp hr
    rfl

/-- **Kin is an invariant of runs.** -/
theorem Run.kin {G : Sys → Label → Prop} {s₀ s : Sys} (h₀ : Initial cfg s₀) (h : Run cfg G s₀ s)
    (hm : s.mode ≠ .ended) : s.w.Tidy cfg ∧ Kin cfg s.w := by
  obtain ⟨T, hT, rfl⟩ := h₀
  exact h.alive ⟨T, hT, rfl⟩ hT.kin (fun _ _ _ ht hI _ _ hg => hg.kin ht hI) hm

end LaunchMON.Engine
