/-
  Contexts, and the loops over the thread list.

  Between two events no context is set: the stack is empty and there is no new child.  An event is
  handled in the context of one thread, and `get_pid` names that thread until the context is undone.
  `Steady` is the frame of everything that happens inside of a context.  The loops of the requests set
  and undo a context for each thread of the list, so what they do is told without contexts, by
  `stopThreads_tidy` and `Released`.
-/
import LaunchMON.Engine.Requests

namespace LaunchMON.Engine

open Effect Lmonp

set_option synthInstance.maxSize 4096

variable {cfg : Config}

/-! ## Contexts -/

/-- No context is set, and the launcher is in the thread list. -/
structure World.Tidy (cfg : Config) (w : World) : Prop where
  stack : w.proc.threadCtxStack = []
  child : w.proc.newChildPid = none
  pid : w.proc.hasThr cfg.pid = true

/-- The context of `t` is set, and no other. -/
def World.InContext (w : World) (t : LwpId) : Prop :=
  w.proc.threadCtxStack = [t] ∧ w.proc.newChildPid = none ∨
    w.proc.threadCtxStack = [] ∧ w.proc.newChildPid = some t

/-- The context of `t` is set, and `t` is in the thread list. -/
structure World.At (w : World) (t : LwpId) : Prop where
  stack : w.proc.threadCtxStack = [t]
  child : w.proc.newChildPid = none
  thr : w.proc.hasThr t = true

/-- The context of `t` is set, and `get_pid` finds `t`. -/
def World.Focused (w : World) (t : LwpId) : Prop :=
  w.At t ∨ w.proc.threadCtxStack = [] ∧ w.proc.newChildPid = some t

/-- The context of `t`, from a state without one. -/
def World.enter (w : World) (t : LwpId) : World :=
  if w.proc.hasThr t then { w with proc := { w.proc with threadCtxStack := [t] } }
  else { w with proc := { w.proc with newChildPid := some t } }

def World.leave (w : World) : World :=
  { w with proc := { w.proc with threadCtxStack := [], newChildPid := none } }

@[simp] theorem World.enter_target (w : World) (t : LwpId) : (w.enter t).target = w.target := by
  unfold World.enter; split <;> rfl

@[simp] theorem World.enter_lmon (w : World) (t : LwpId) : (w.enter t).lmon = w.lmon := by
  unfold World.enter; split <;> rfl

@[simp] theorem World.enter_log (w : World) (t : LwpId) : (w.enter t).log = w.log := by
  unfold World.enter; split <;> rfl

@[simp] theorem World.enter_thrlist (w : World) (t : LwpId) :
    (w.enter t).proc.thrlist = w.proc.thrlist := by
  unfold World.enter; split <;> rfl

theorem World.Tidy.enter_focused {w : World} (h : w.Tidy cfg) (t : LwpId) :
    (w.enter t).Focused t := by
  unfold World.enter
  split
  · next ht => exact Or.inl ⟨rfl, h.child, ht⟩
  · exact Or.inr ⟨h.stack, rfl⟩

theorem World.At.focused {w : World} {t : LwpId} (h : w.At t) : w.Focused t := Or.inl h

theorem World.Tidy.enter_at {w : World} (h : w.Tidy cfg) {t : LwpId}
    (ht : w.proc.hasThr t = true) : (w.enter t).At t := by
  unfold World.enter
  rw [if_pos ht]
  exact ⟨rfl, h.child, ht⟩

theorem World.Focused.inContext {w : World} {t : LwpId} (h : w.Focused t) : w.InContext t := by
  rcases h with ⟨hs, hc, -⟩ | h
  · exact Or.inl ⟨hs, hc⟩
  · exact Or.inr h

theorem World.Tidy.enter_inContext {w : World} (h : w.Tidy cfg) (t : LwpId) :
    (w.enter t).InContext t := (h.enter_focused t).inContext

theorem makeContext_tidy {w : World} (h : w.Tidy cfg) (t : LwpId) :
    makeContext t w = .ok () (w.enter t) := by
  have hget : (get : EngineM World) w = .ok w w := rfl
  unfold makeContext
  rw [ok_bind hget]
  unfold World.enter
  by_cases ht : w.proc.hasThr t = true
  · rw [if_pos ht, if_pos ht]
    show EStateM.Result.ok ()
      { w with proc := { w.proc with threadCtxStack := t :: w.proc.threadCtxStack } } = _
    rw [h.stack]
  · rw [if_neg ht, if_neg ht, if_pos h.child]
    rfl

theorem checkAndUndoContext_inContext {w : World} {t : LwpId} (h : w.InContext t) :
    checkAndUndoContext t w = .ok () w.leave := by
  have hget : (get : EngineM World) w = .ok w w := rfl
  unfold checkAndUndoContext
  rw [ok_bind hget]
  rcases h with ⟨hs, hc⟩ | ⟨hs, hc⟩
  · rw [if_neg (by rw [hc]; exact (Option.some_ne_none t).symm), if_pos (by rw [hs]; rfl)]
    show EStateM.Result.ok _ _ = EStateM.Result.ok _ _
    simp only [World.leave, hs, hc, List.tail_cons]
  · rw [if_pos hc]
    show EStateM.Result.ok _ _ = EStateM.Result.ok _ _
    simp only [World.leave, hs]

/-- `get_pid` names the thread of the context, or no thread at all. -/
theorem focus?_inContext {w : World} {t : LwpId} (h : w.InContext t) :
    ∃ o, focus? cfg true w = .ok o w ∧ ∀ p ∈ o, p.1 = t ∧ w.target.lwps t = some p.2 := by
  have hget : (get : EngineM World) w = .ok w w := rfl
  have hpid : ∃ q : Option LwpId, getPid cfg true w = .ok q w ∧ ∀ u ∈ q, u = t := by
    unfold getPid
    rw [ok_bind hget, if_neg (by decide)]
    rcases h with ⟨hs, hc⟩ | ⟨hs, hc⟩
    · rw [if_neg (by rw [hc]; decide), hs]
      refine ⟨if w.proc.hasThr t then some t else none, rfl, fun u hu => ?_⟩
      split at hu
      · exact (Option.some.inj hu).symm
      · cases hu
    · rw [if_pos (by rw [hc]; rfl), hc]
      exact ⟨some t, rfl, fun u hu => (Option.some.inj hu).symm⟩
  obtain ⟨q, hq, hqt⟩ := hpid
  refine ⟨q.bind fun t => (w.target.lwps t).map fun l => (t, l), ?_, fun p hp => ?_⟩
  · unfold focus?
    rw [ok_bind hq, ok_bind hget]
    rfl
  · obtain ⟨u, hu, hp⟩ := Option.bind_eq_some_iff.mp hp
    obtain ⟨l, hl, hp⟩ := Option.map_eq_some_iff.mp hp
    cases hqt u hu
    cases hp
    exact ⟨rfl, hl⟩

/-- A PTRACE request acts on the thread of the context, which has stopped. -/
theorem focus_inContext {w : World} {t : LwpId} (h : w.InContext t) :
    (∃ l, w.target.lwps t = some l ∧ l.Ptraceable ∧ focus cfg true w = .ok (t, l) w) ∨
      focus cfg true w = .error .tracer w := by
  obtain ⟨o, ho, hot⟩ := @focus?_inContext cfg w t h
  unfold focus
  rw [ok_bind ho]
  cases hf : o.filter fun p => decide p.2.Ptraceable with
  | none => exact Or.inr rfl
  | some p =>
    obtain ⟨hp, hpt⟩ := Option.filter_eq_some_iff.mp hf
    obtain ⟨rfl, hl⟩ := hot p hp
    exact Or.inl ⟨p.2, hl, of_decide_eq_true hpt, rfl⟩

theorem getPid_focused {w : World} {t : LwpId} (h : w.Focused t) :
    getPid cfg true w = .ok (some t) w := by
  have hget : (get : EngineM World) w = .ok w w := rfl
  unfold getPid
  rw [ok_bind hget, if_neg (by decide)]
  rcases h with ⟨hs, hc, ht⟩ | ⟨hs, hc⟩
  · rw [if_neg (by rw [hc]; decide), hs]
    show EStateM.Result.ok (if w.proc.hasThr t then some t else none) w = _
    rw [if_pos ht]
  · rw [if_pos (by rw [hc]; rfl), hc]
    rfl

theorem focus?_focused {w : World} {t : LwpId} (h : w.Focused t) :
    focus? cfg true w = .ok ((w.target.lwps t).map fun l => (t, l)) w := by
  have hget : (get : EngineM World) w = .ok w w := rfl
  unfold focus?
  rw [ok_bind (getPid_focused h), ok_bind hget]
  rfl

theorem focus_focused {w : World} {t : LwpId} {l : Lwp} (h : w.Focused t)
    (hl : w.target.lwps t = some l) (hp : l.Ptraceable) : focus cfg true w = .ok (t, l) w := by
  unfold focus
  rw [ok_bind (focus?_focused h), hl]
  simp only [Option.map_some, Option.filter_some, hp, decide_true, if_true]
  rfl

/-! ## Requests in a context -/

def World.setLwp (w : World) (t : LwpId) (l : Lwp) : World :=
  { w with target := w.target.setLwp t l }

@[simp] theorem World.setLwp_self (w : World) (t : LwpId) (l : Lwp) :
    (w.setLwp t l).target.lwps t = some l := Target.setLwp_self ..

theorem World.At.setLwp {w : World} {t : LwpId} (h : w.At t) (u : LwpId) (l : Lwp) :
    (w.setLwp u l).At t := ⟨h.stack, h.child, h.thr⟩

theorem tracerContinue_focused {w : World} {t : LwpId} {l : Lwp} (h : w.Focused t)
    (hl : w.target.lwps t = some l) (hp : l.Ptraceable) :
    tracerContinue cfg true w = .ok () (w.setLwp t l.resume) := by
  unfold tracerContinue
  rw [ok_bind (focus_focused h hl hp)]
  rfl

theorem tracerDeliverSignal_focused {w : World} {t : LwpId} {l : Lwp} (h : w.Focused t)
    (hl : w.target.lwps t = some l) (hp : l.Ptraceable) (sig : Nat) :
    tracerDeliverSignal cfg sig w =
      .ok () (w.setLwp t { l.resume with delivered := l.delivered ++ [sig] }) := by
  unfold tracerDeliverSignal
  rw [ok_bind (focus_focused h hl hp)]
  rfl

theorem tracerOptions_focused {w : World} {t : LwpId} {l : Lwp} (h : w.Focused t)
    (hl : w.target.lwps t = some l) (hp : l.Ptraceable) (on : Bool) :
    tracerOptions cfg true on w = .ok () (w.setLwp t { l with opts := on }) := by
  unfold tracerOptions
  rw [ok_bind (focus?_focused h), hl]
  simp only [Option.map_some, Option.filter_some, hp, decide_true, if_true, Option.elim_some]
  rfl

theorem tracerGetregs_at {w : World} {t : LwpId} {l : Lwp} (h : w.At t)
    (hl : w.target.lwps t = some l) (hp : l.Ptraceable) :
    tracerGetregs cfg w = .ok ⟨l.pc, l.sp⟩ w := by
  have hget : (get : EngineM World) w = .ok w w := rfl
  have hset : getGprset w = .ok () w := by
    obtain ⟨r, hr⟩ := Option.isSome_iff_exists.mp h.thr
    unfold getGprset
    rw [ok_bind hget, h.stack]
    show orThrow .tracer ((w.proc.thr t).map fun _ => ()) w = _
    rw [hr]
    rfl
  unfold tracerGetregs
  rw [ok_bind hset, ok_bind (focus_focused h.focused hl hp)]
  rfl

theorem focus_eq_ok {w w' : World} {t : LwpId} {f : LwpId × Lwp} (h : w.InContext t)
    (hf : focus cfg true w = .ok f w') :
    w' = w ∧ f.1 = t ∧ w.target.lwps t = some f.2 ∧ f.2.Ptraceable := by
  rcases @focus_inContext cfg w t h with ⟨l, hl, hp, h'⟩ | h'
  · rw [h'] at hf
    cases hf
    exact ⟨rfl, rfl, hl, hp⟩
  · rw [h'] at hf
    cases hf

theorem tracerContinue_eq_ok {w w' : World} {t : LwpId} (h : w.InContext t)
    (hx : tracerContinue cfg true w = .ok () w') : ∃ l, w.target.lwps t = some l ∧ l.Ptraceable ∧
      w' = { w with target := w.target.setLwp t l.resume } := by
  obtain ⟨f, w₁, hf, hset⟩ := bind_eq_ok hx
  obtain ⟨rfl, rfl, hl, hp⟩ := focus_eq_ok h hf
  cases hset
  exact ⟨f.2, hl, hp, rfl⟩

theorem World.At.curThreadCtx {w : World} {t : LwpId} (h : w.At t) :
    orThrow (α := LwpId) .crash (LaunchMON.Engine.curThreadCtx w.proc) w = .ok t w := by
  unfold LaunchMON.Engine.curThreadCtx
  rw [h.stack]
  rfl

/-- `set_event_registered` is for the thread of the context, if its context is on the stack. -/
theorem final_registerEvent {w : World} {t : LwpId} (h : w.InContext t) :
    final registerEvent w = w ∨ final registerEvent w =
      { w with proc := w.proc.mapThr t fun r => { r with eventRegistered := true } } := by
  have hget : (get : EngineM World) w = .ok w w := rfl
  unfold registerEvent
  rw [final_bind_ok hget]
  rcases h with ⟨hs, -⟩ | ⟨hs, -⟩
  · right
    have hcur : orThrow (α := LwpId) .crash (curThreadCtx w.proc) w = .ok t w := by
      unfold curThreadCtx
      rw [hs]
      rfl
    rw [final_bind_ok hcur]
    rfl
  · left
    have hcur : orThrow (α := LwpId) .crash (curThreadCtx w.proc) w = .error .crash w := by
      unfold curThreadCtx
      rw [hs]
      rfl
    exact final_bind_error hcur

/-! ## What happens inside of a context -/

/-- The contexts are as before, and the launcher stays in the list. -/
structure Steady (cfg : Config) (w w' : World) : Prop where
  stack : w'.proc.threadCtxStack = w.proc.threadCtxStack
  child : w'.proc.newChildPid = w.proc.newChildPid
  pid : w.proc.hasThr cfg.pid = true → w'.proc.hasThr cfg.pid = true

instance : IsPreorder World (Steady cfg) where
  refl _ := ⟨rfl, rfl, id⟩
  trans _ _ _ h₁ h₂ := ⟨h₂.stack.trans h₁.stack, h₂.child.trans h₁.child, h₂.pid ∘ h₁.pid⟩

theorem Steady.inContext {w w' : World} (h : Steady cfg w w') {t : LwpId} (hc : w.InContext t) :
    w'.InContext t := by
  unfold World.InContext
  rw [h.stack, h.child]
  exact hc

theorem hasThr_iff {p : Process} {t : LwpId} : p.hasThr t = true ↔ ∃ r, (t, r) ∈ p.thrlist := by
  unfold Process.hasThr Process.thr
  rw [List.lookup_isSome_iff]
  constructor
  · rintro ⟨e, he, h⟩
    obtain rfl := beq_iff_eq.mp h
    exact ⟨e.2, he⟩
  · rintro ⟨r, hr⟩
    exact ⟨(t, r), hr, beq_self_eq_true t⟩

theorem mem_insertThr {p : Process} {t : LwpId} {r : Thr} {e : LwpId × Thr} :
    e ∈ (p.insertThr t r).thrlist ↔ e = (t, r) ∨ e ∈ p.thrlist := List.mem_orderedInsert _

theorem mem_eraseThr {p : Process} {t : LwpId} {e : LwpId × Thr} :
    e ∈ (p.eraseThr t).thrlist ↔ e ∈ p.thrlist ∧ e.1 ≠ t := by
  simp [Process.eraseThr]

theorem mem_mapThr {p : Process} {t : LwpId} {f : Thr → Thr} {e : LwpId × Thr} :
    e ∈ (p.mapThr t f).thrlist ↔ ∃ r, (e.1, r) ∈ p.thrlist ∧ e.2 = if e.1 = t then f r else r := by
  unfold Process.mapThr
  simp only [List.mem_map]
  constructor
  · rintro ⟨e', he', rfl⟩
    by_cases h : e'.1 = t
    · exact ⟨e'.2, by rwa [if_pos h], by rw [if_pos h, if_pos h]⟩
    · exact ⟨e'.2, by rwa [if_neg h], by rw [if_neg h, if_neg h]⟩
  · rintro ⟨r, hr, he⟩
    refine ⟨(e.1, r), hr, ?_⟩
    by_cases h : e.1 = t
    · rw [if_pos h] at he ⊢
      exact Prod.ext rfl he.symm
    · rw [if_neg h] at he ⊢
      exact Prod.ext rfl he.symm

/-- The thread list, without the marks of threads that are held. -/
def Process.flags (p : Process) : List (LwpId × Bool) := p.thrlist.map fun e => (e.1, e.2.traced)

theorem flags_mapThr (p : Process) (t : LwpId) {f : Thr → Thr} (hf : ∀ r, (f r).traced = r.traced) :
    (p.mapThr t f).flags = p.flags := by
  unfold Process.flags Process.mapThr
  rw [List.map_map]
  refine List.map_congr_left fun e _ => ?_
  show ((if e.1 = t then (e.1, f e.2) else e).1, (if e.1 = t then (e.1, f e.2) else e).2.traced) = _
  split
  · rw [hf]
  · rfl

theorem hasThr_insertThr {p : Process} {t u : LwpId} {r : Thr} :
    (p.insertThr t r).hasThr u = true ↔ u = t ∨ p.hasThr u = true := by
  rw [hasThr_iff, hasThr_iff]
  constructor
  · rintro ⟨r', hr⟩
    rcases mem_insertThr.mp hr with h | h
    · exact Or.inl (Prod.mk.inj h).1
    · exact Or.inr ⟨r', h⟩
  · rintro (rfl | ⟨r', hr⟩)
    · exact ⟨r, mem_insertThr.mpr (Or.inl rfl)⟩
    · exact ⟨r', mem_insertThr.mpr (Or.inr hr)⟩

theorem hasThr_eraseThr {p : Process} {t u : LwpId} :
    (p.eraseThr t).hasThr u = true ↔ p.hasThr u = true ∧ u ≠ t := by
  rw [hasThr_iff, hasThr_iff]
  constructor
  · rintro ⟨r, hr⟩
    exact ⟨⟨r, (mem_eraseThr.mp hr).1⟩, (mem_eraseThr.mp hr).2⟩
  · rintro ⟨⟨r, hr⟩, h⟩
    exact ⟨r, mem_eraseThr.mpr ⟨hr, h⟩⟩

theorem hasThr_mapThr {p : Process} {t u : LwpId} {f : Thr → Thr} (h : p.hasThr u = true) :
    (p.mapThr t f).hasThr u = true := by
  obtain ⟨r, hr⟩ := hasThr_iff.mp h
  refine hasThr_iff.mpr ⟨if u = t then f r else r, mem_mapThr.mpr ⟨r, hr, rfl⟩⟩

/-- Updates of the process that keep contexts and thread list. -/
theorem steady_modifyProc {f : Process → Process}
    (hs : ∀ p, (f p).threadCtxStack = p.threadCtxStack) (hc : ∀ p, (f p).newChildPid = p.newChildPid)
    (hp : ∀ p, p.hasThr cfg.pid = true → (f p).hasThr cfg.pid = true) :
    Within (Steady cfg) (modifyProc f) := within_modify fun w => ⟨hs w.proc, hc w.proc, hp w.proc⟩

instance (f : Target → Target) : Within (Steady cfg) (modifyTarget f) :=
  within_modify fun _ => ⟨rfl, rfl, id⟩

instance (f : Lmon → Lmon) : Within (Steady cfg) (modifyLmon f) :=
  within_modify fun _ => ⟨rfl, rfl, id⟩

instance (n : Note) : Within (Steady cfg) (note n) := within_modify fun _ => ⟨rfl, rfl, id⟩

instance (t : LwpId) (l : Lwp) : Within (Steady cfg) (setLwp t l) := by
  unfold setLwp; infer_instance

instance (sel : BpSel) (b : Option Bp) : Within (Steady cfg) (setBp sel b) := by
  cases sel <;> exact steady_modifyProc (fun _ => rfl) (fun _ => rfl) (fun _ => id)

instance (t : LwpId) (f : Thr → Thr) : Within (Steady cfg) (modifyProc fun p => p.mapThr t f) :=
  steady_modifyProc (fun _ => rfl) (fun _ => rfl) (fun _ => hasThr_mapThr)

instance (b : Bool) (a : VA) (bs : List UInt8) : Within (Steady cfg) (tracerWrite cfg b a bs) := by
  unfold tracerWrite; infer_instance

instance (b on : Bool) : Within (Steady cfg) (tracerOptions cfg b on) := by
  unfold tracerOptions; infer_instance

instance (b : Bool) : Within (Steady cfg) (tracerDetach cfg b) := by
  unfold tracerDetach; infer_instance

instance (sel : BpSel) (b c : Bool) : Within (Steady cfg) (disableBreakpoint cfg sel b c) := by
  unfold disableBreakpoint; infer_instance

instance (sel : BpSel) : Within (Steady cfg) (enableBreakpoint cfg sel) := by
  unfold enableBreakpoint; infer_instance

instance (b : Bool) : Within (Steady cfg) (tracerStop cfg b) := by unfold tracerStop; infer_instance

instance : Within (Steady cfg) (tracerContinue cfg true) := by unfold tracerContinue; infer_instance

instance (table : List UInt8) (i : Nat) : Within (Steady cfg) (acquireRow cfg table i) := by
  unfold acquireRow; infer_instance

instance (w : World) (rid : RidSource) : Within (Steady cfg) (acquireResid cfg w rid) := by
  cases rid <;> unfold acquireResid <;> try unfold setResid
  all_goals infer_instance

instance (w : World) (n : Nat) : Within (Steady cfg) (acquireTable cfg w n) := by
  unfold acquireTable; infer_instance

instance : Within (Steady cfg) (acquireProctable cfg) := by
  unfold acquireProctable acquireBody; infer_instance

instance : Frame (Steady cfg) where
  lmon _ := inferInstance
  note _ _ := inferInstance
  threadLib := steady_modifyProc (fun _ => rfl) (fun _ => rfl) (fun _ => id)
  libc := steady_modifyProc (fun _ => rfl) (fun _ => rfl) (fun _ => id)
  attachFifo _ := steady_modifyProc (fun _ => rfl) (fun _ => rfl) (fun _ => id)
  neverTrapped := steady_modifyProc (fun _ => rfl) (fun _ => rfl) (fun _ => id)

instance : TargetFrame cfg (Steady cfg) where
  acquireAndShip := by unfold acquireAndShip shipProctab; infer_instance
  rmso _ _ := steady_modifyProc (fun _ => rfl) (fun _ => rfl) (fun _ => id)
  continue_ := inferInstance
  deliver _ := by unfold tracerDeliverSignal; infer_instance
  options _ := inferInstance
  launchBp _ _ _ _ := by unfold registerLaunchBp; infer_instance
  beingDebug _ _ _ _ := inferInstance
  colocation im _ := by
    have : ∀ a o, Within (Steady cfg) (writeServerArgs cfg a o) := by
      intro a o
      cases o <;> unfold writeServerArgs <;> infer_instance
    cases im .execPath <;> cases im .serverArgs <;> unfold writeColocation <;> infer_instance

instance : ListFrame cfg (Steady cfg) where
  thrcreate t := by
    have := @steady_modifyProc cfg (fun p => p.insertThr t ⟨false, false, false⟩) (fun _ => rfl)
      (fun _ => rfl) (fun _ h => hasThr_insertThr.mpr (Or.inr h))
    unfold handleThrcreateRequest; infer_instance
  traced _ := inferInstance
  eraseThr _ ht := steady_modifyProc (fun _ => rfl) (fun _ => rfl)
    fun _ h => hasThr_eraseThr.mpr ⟨h, ht.symm⟩

instance : FirstFrame cfg (Steady cfg) where
  loaderBp := by unfold registerLoaderBp; infer_instance

instance : BpFrame cfg (Steady cfg) where
  returnAddr _ _ := by unfold setReturnAddr; infer_instance
  setregs _ := by unfold tracerSetregs; infer_instance
  singlestep := by unfold tracerSinglestep; infer_instance
  enable _ := inferInstance
  disable _ := inferInstance
  register := by unfold registerEvent; infer_instance

instance : Within (Steady cfg) (handleNewprocForkedEvent cfg) := by
  unfold handleNewprocForkedEvent disableAllBPs; infer_instance

/-! ## Loops over the thread list -/

/-- `status` is SDBG_TRACE_RUNNING. -/
def Lwp.seemsRunning (cfg : Config) (l : Lwp) : Prop :=
  ¬(l.run = .gone ∧ l.report = none) ∧ l.statT cfg.procStatT = false

instance (l : Lwp) : Decidable (l.seemsRunning cfg) := inferInstanceAs (Decidable (_ ∧ _))

/-- What a request does to one thread. -/
def Target.stopThr (cfg : Config) (T : Target) (t : LwpId) : Target :=
  (T.lwps t).elim T fun l =>
    if l.seemsRunning cfg then T.setLwp t { l with stopRequested := true } else T

theorem stopRunning_focused {w : World} {t : LwpId} (h : w.Focused t) :
    stopRunning cfg w = .ok () { w with target := w.target.stopThr cfg t } := by
  have hst : tracerStatus cfg true w = .ok (((w.target.lwps t).map fun l => (t, l)).elim .esrch
      fun p => if p.2.run = .gone ∧ p.2.report = none then .esrch
        else if p.2.statT cfg.procStatT then .stopped else .running) w := by
    unfold tracerStatus
    rw [ok_bind (focus?_focused h)]
    rfl
  unfold stopRunning
  rw [ok_bind hst]
  unfold Target.stopThr
  cases hl : w.target.lwps t with
  | none => rfl
  | some l =>
    have hstop : tracerStop cfg true w =
        .ok () { w with target := w.target.setLwp t { l with stopRequested := true } } := by
      unfold tracerStop
      rw [ok_bind (focus?_focused h), hl]
      rfl
    by_cases hgone : l.run = .gone ∧ l.report = none
    · have hnot : ¬l.seemsRunning cfg := fun hs => hs.1 hgone
      simp only [Option.map_some, Option.elim_some, if_pos hgone, if_neg hnot]
      rfl
    · cases hT : l.statT cfg.procStatT with
      | true =>
        have hnot : ¬l.seemsRunning cfg := fun hs => absurd (hT.symm.trans hs.2) (by decide)
        simp only [Option.map_some, Option.elim_some, if_neg hgone, if_neg hnot, hT]
        rfl
      | false =>
        simp only [Option.map_some, Option.elim_some, if_neg hgone,
          if_pos (show l.seemsRunning cfg from ⟨hgone, hT⟩), hT]
        exact hstop

/-- A program that leaves the contexts alone is run in a context and does what it does. -/
theorem inContext_run {x : EngineM Unit} {t : LwpId} {w w₂ : World} (h : w.Tidy cfg)
    (hx : x (w.enter t) = .ok () w₂) (hst : Steady cfg (w.enter t) w₂) :
    (do makeContext t; x; checkAndUndoContext t) w = .ok () w₂.leave := by
  rw [ok_bind (makeContext_tidy h t), ok_bind hx]
  exact checkAndUndoContext_inContext (hst.inContext (h.enter_inContext t))

/-- A context is undone in which only the thread list may have been changed. -/
theorem World.Tidy.leave_of_thrlist {w w₂ : World} (h : w.Tidy cfg) {t : LwpId}
    {L : List (LwpId × Thr)} (hp : w₂.proc = { (w.enter t).proc with thrlist := L }) :
    w₂.leave = { w₂ with proc := { w.proc with thrlist := L } } := by
  have hproc : ({ (w.enter t).proc with
        thrlist := L, threadCtxStack := [], newChildPid := none } : Process) =
      { w.proc with
        thrlist := L
        threadCtxStack := w.proc.threadCtxStack
        newChildPid := w.proc.newChildPid } := by
    rw [h.stack, h.child]
    unfold World.enter
    split <;> rfl
  unfold World.leave
  rw [hp]
  exact congrArg (fun p => ({ w₂ with proc := p } : World)) hproc

theorem World.Tidy.leave_setTarget {w : World} (h : w.Tidy cfg) (t : LwpId) (T : Target) :
    ({ w.enter t with target := T } : World).leave = { w with target := T } := by
  have hproc : (w.enter t).proc = { (w.enter t).proc with thrlist := w.proc.thrlist } := by
    rw [← World.enter_thrlist w t]
  have hleave : ({ w.enter t with target := T } : World).leave =
      { { w.enter t with target := T } with proc := w.proc } := h.leave_of_thrlist hproc
  rw [hleave]
  dsimp only
  rw [World.enter_lmon, World.enter_log]

theorem World.Tidy.setTarget {w : World} (h : w.Tidy cfg) (T : Target) :
    ({ w with target := T } : World).Tidy cfg := ⟨h.stack, h.child, h.pid⟩

/-- What a request does to the threads of the list. -/
theorem stopThreads_tidy {w : World} (h : w.Tidy cfg) : stopThreads cfg w = .ok ()
    { w with target := (w.proc.thrlist.map Prod.fst).foldl (Target.stopThr cfg) w.target } := by
  have hloop : ∀ (es : List (LwpId × Thr)) (w : World), w.Tidy cfg →
      each es (fun e => whenever true do
        makeContext e.1
        stopRunning cfg
        checkAndUndoContext e.1) w =
      .ok () { w with target := (es.map Prod.fst).foldl (Target.stopThr cfg) w.target } := by
    intro es
    induction es with
    | nil => exact fun w _ => rfl
    | cons e es ih =>
      intro w h
      have hrun := inContext_run h (@stopRunning_focused cfg _ _ (h.enter_focused e.1))
        ⟨rfl, rfl, id⟩
      rw [World.enter_target, h.leave_setTarget] at hrun
      exact (ok_bind hrun).trans (ih _ (h.setTarget _))
  exact hloop _ w h

theorem stopThr_mem (T : Target) (t : LwpId) : (T.stopThr cfg t).mem = T.mem := by
  unfold Target.stopThr
  cases T.lwps t with
  | none => rfl
  | some l =>
    dsimp only [Option.elim_some]
    split <;> rfl

/-- The thread as it was, or with a stop requested. -/
theorem stopThr_lwps (T : Target) (t u : LwpId) : (T.stopThr cfg t).lwps u = T.lwps u ∨
    ∃ l, T.lwps u = some l ∧ (T.stopThr cfg t).lwps u = some { l with stopRequested := true } := by
  unfold Target.stopThr
  cases hl : T.lwps t with
  | none => exact Or.inl rfl
  | some l =>
    by_cases hs : l.seemsRunning cfg
    · simp only [Option.elim_some, if_pos hs]
      by_cases hu : u = t
      · subst hu
        exact Or.inr ⟨l, hl, Target.setLwp_self ..⟩
      · exact Or.inl (Target.setLwp_ne _ hu _)
    · simp only [Option.elim_some, if_neg hs]
      exact Or.inl trivial

theorem stopThr_of_runs {T : Target} {t : LwpId} {l : Lwp} (hl : T.lwps t = some l) (h : l.Runs) :
    (T.stopThr cfg t).lwps t = some { l with stopRequested := true } := by
  have hs : l.seemsRunning cfg := by
    constructor
    · rintro ⟨hg, -⟩
      rcases h with h | h <;> rw [h] at hg <;> cases hg
    · rcases h with h | h <;> simp [Lwp.statT, h]
  unfold Target.stopThr
  rw [hl, Option.elim_some, if_pos hs, Target.setLwp_self]

theorem stopThrs_mem (ts : List LwpId) (T : Target) : (ts.foldl (Target.stopThr cfg) T).mem = T.mem := by
  induction ts generalizing T with
  | nil => rfl
  | cons t ts ih => exact (ih _).trans (stopThr_mem T t)

theorem stopThrs_lwps (ts : List LwpId) (T : Target) (u : LwpId) :
    (ts.foldl (Target.stopThr cfg) T).lwps u = T.lwps u ∨ ∃ l, T.lwps u = some l ∧
      (ts.foldl (Target.stopThr cfg) T).lwps u = some { l with stopRequested := true } := by
  induction ts generalizing T with
  | nil => exact Or.inl rfl
  | cons t ts ih =>
    rw [List.foldl_cons]
    rcases @stopThr_lwps cfg T t u with h | ⟨l, hl, h⟩
    · have := ih (T.stopThr cfg t)
      rwa [h] at this
    · right
      rcases ih (T.stopThr cfg t) with h' | ⟨l', hl', h'⟩
      · exact ⟨l, hl, h'.trans h⟩
      · rw [h] at hl'
        cases hl'
        exact ⟨l, hl, h'⟩

/-- A thread of the list that runs is going to stop. -/
theorem stopThrs_of_runs {ts : List LwpId} {T : Target} {u : LwpId} {l : Lwp} (hu : u ∈ ts)
    (hl : T.lwps u = some l) (h : l.Runs) :
    (ts.foldl (Target.stopThr cfg) T).lwps u = some { l with stopRequested := true } := by
  induction ts generalizing T l with
  | nil => cases hu
  | cons t ts ih =>
    rw [List.foldl_cons]
    by_cases hut : u = t
    · subst hut
      have hself := @stopThr_of_runs cfg _ _ _ hl h
      rcases @stopThrs_lwps cfg ts (T.stopThr cfg u) u with h' | ⟨l', hl', h'⟩
      · exact h'.trans hself
      · rw [hself] at hl'
        cases hl'
        exact h'
    · have hu' : u ∈ ts := (List.mem_cons.mp hu).resolve_left hut
      rcases @stopThr_lwps cfg T t u with h' | ⟨l', hl', h'⟩
      · exact ih hu' (h'.trans hl) h
      · rw [hl] at hl'
        cases hl'
        exact @ih _ { l with stopRequested := true } hu' h' h

/-- What `request_cont_launch_bp` does for the entries `es` of the thread list: threads that are
    registered go on and are not registered any more. -/
structure Released (es : List (LwpId × Thr)) (w w' : World) : Prop where
  lwps : ∀ u, w'.target.lwps u = w.target.lwps u ∨
    (∃ r, (u, r) ∈ es ∧ r.eventRegistered = true) ∧
    (∀ r, (u, r) ∈ w'.proc.thrlist → r.eventRegistered = false) ∧
    ∃ l, w.target.lwps u = some l ∧ l.Ptraceable ∧ w'.target.lwps u = some l.resume
  mem : w'.target.mem = w.target.mem
  proc : w'.proc = { w.proc with thrlist := w'.proc.thrlist }
  thr : ∀ u r', (u, r') ∈ w'.proc.thrlist → ∃ r, (u, r) ∈ w.proc.thrlist ∧ r'.master = r.master ∧
    (r'.eventRegistered = true → r.eventRegistered = true)
  hasThr : ∀ u, w.proc.hasThr u = true → w'.proc.hasThr u = true
  flags : w'.proc.flags = w.proc.flags
  rest : w'.lmon = w.lmon ∧ w'.log = w.log

theorem Released.refl (es : List (LwpId × Thr)) (w : World) : Released es w w :=
  ⟨fun _ => Or.inl rfl, rfl, rfl, fun _ r h => ⟨r, h, rfl, id⟩, fun _ => id, rfl, rfl, rfl⟩

theorem Released.cons {e : LwpId × Thr} {es : List (LwpId × Thr)} {w w₁ w₂ : World}
    (h₁ : Released [e] w w₁) (h₂ : Released es w₁ w₂) : Released (e :: es) w w₂ where
  lwps u := by
    rcases h₁.lwps u with h | ⟨⟨r, hr, hreg⟩, hun, l, hl, hp, h⟩
    · rcases h₂.lwps u with h' | ⟨⟨r, hr, hreg⟩, hun, l, hl, hp, h'⟩
      · exact Or.inl (h'.trans h)
      · exact Or.inr ⟨⟨r, List.mem_cons_of_mem e hr, hreg⟩, hun, l, h ▸ hl, hp, h'⟩
    · rcases h₂.lwps u with h' | ⟨-, -, l', hl', hp', -⟩
      · refine Or.inr ⟨⟨r, List.mem_cons.mpr (Or.inl (List.mem_singleton.mp hr)), hreg⟩, ?_, l, hl,
          hp, h'.trans h⟩
        intro r' hr'
        obtain ⟨r₁, hr₁, -, himp⟩ := h₂.thr u r' hr'
        cases hreg' : r'.eventRegistered with
        | false => rfl
        | true => exact absurd ((hun r₁ hr₁).symm.trans (himp hreg')) (by decide)
      · rw [h] at hl'
        cases hl'
        cases hp'.2
  mem := h₂.mem.trans h₁.mem
  proc := by
    rw [h₂.proc, h₁.proc]
  thr u r'' h := by
    obtain ⟨r', hr', hm', hi'⟩ := h₂.thr u r'' h
    obtain ⟨r, hr, hm, hi⟩ := h₁.thr u r' hr'
    exact ⟨r, hr, hm'.trans hm, hi ∘ hi'⟩
  hasThr u h := h₂.hasThr u (h₁.hasThr u h)
  flags := h₂.flags.trans h₁.flags
  rest := ⟨h₂.rest.1.trans h₁.rest.1, h₂.rest.2.trans h₁.rest.2⟩

theorem Released.tidy {es : List (LwpId × Thr)} {w w' : World} (h : Released es w w')
    (ht : w.Tidy cfg) : w'.Tidy cfg := by
  refine ⟨?_, ?_, h.hasThr _ ht.pid⟩
  · rw [h.proc]
    exact ht.stack
  · rw [h.proc]
    exact ht.child

/-- The thread list after a thread has been released. -/
theorem mem_unregister {p : Process} {t u : LwpId} {r' : Thr}
    (h : (u, r') ∈ (p.mapThr t fun r => { r with eventRegistered := false }).thrlist) :
    (∃ r, (u, r) ∈ p.thrlist ∧ r'.master = r.master ∧
      (r'.eventRegistered = true → r.eventRegistered = true)) ∧
    (u = t → r'.eventRegistered = false) := by
  obtain ⟨r, hr, h'⟩ := mem_mapThr.mp h
  dsimp only at hr h'
  by_cases hu : u = t
  · rw [if_pos hu] at h'
    subst h'
    exact ⟨⟨r, hr, rfl, fun hf => nomatch hf⟩, fun _ => rfl⟩
  · rw [if_neg hu] at h'
    subst h'
    exact ⟨⟨r', hr, rfl, id⟩, fun h => absurd h hu⟩

/-- One thread is released. -/
theorem contHeld_eq_ok {w w' : World} {e : LwpId × Thr} (h : w.Tidy cfg)
    (hreg : e.2.eventRegistered = true) (heq : contHeld cfg e.1 w = .ok () w') :
    Released [e] w w' := by
  unfold contHeld at heq
  rw [ok_bind (makeContext_tidy h e.1)] at heq
  obtain ⟨u, w₁, hcont, heq⟩ := bind_eq_ok heq
  obtain ⟨l, hl, hp, rfl⟩ := tracerContinue_eq_ok (h.enter_inContext e.1) hcont
  obtain ⟨u, w₂, hmap, hundo⟩ := bind_eq_ok heq
  have hw₂ : w₂ = { w.enter e.1 with
      target := (w.enter e.1).target.setLwp e.1 l.resume
      proc := (w.enter e.1).proc.mapThr e.1 fun r => { r with eventRegistered := false } } :=
    (EStateM.Result.ok.inj hmap).2.symm
  have hproc : w₂.proc = { (w.enter e.1).proc with
      thrlist := (w.proc.mapThr e.1 fun r => { r with eventRegistered := false }).thrlist } := by
    rw [hw₂]
    simp only [Process.mapThr, World.enter_thrlist]
  have hin : w₂.InContext e.1 := by
    rw [hw₂]
    exact h.enter_inContext e.1
  rw [checkAndUndoContext_inContext hin] at hundo
  cases hundo
  have hleave : w₂.leave = { w with
      target := w.target.setLwp e.1 l.resume
      proc := w.proc.mapThr e.1 fun r => { r with eventRegistered := false } } := by
    rw [h.leave_of_thrlist hproc, hw₂]
    dsimp only
    rw [World.enter_lmon, World.enter_log, World.enter_target]
    rfl
  rw [World.enter_target] at hl
  rw [hleave]
  refine ⟨fun u => ?_, rfl, rfl, fun u r' hr' => (mem_unregister hr').1, fun u => hasThr_mapThr,
    flags_mapThr _ _ fun _ => rfl, rfl, rfl⟩
  by_cases hu : u = e.1
  · subst hu
    exact Or.inr ⟨⟨e.2, List.mem_singleton_self e, hreg⟩,
      fun r' hr' => (mem_unregister hr').2 rfl, l, hl, hp, Target.setLwp_self ..⟩
  · exact Or.inl (Target.setLwp_ne _ hu _)

theorem requestContLaunchBp_tidy {w w' : World} (h : w.Tidy cfg)
    (heq : requestContLaunchBp cfg w = .ok () w') : Released w.proc.thrlist w w' := by
  refine each_eq_ok (P := fun es w w' => w.Tidy cfg → Released es w w')
    (fun w _ => Released.refl [] w) (fun e es w w₁ w₂ hone ih h => ?_) _ w w' heq h
  have h₁ : Released [e] w w₁ := by
    cases hreg : e.2.eventRegistered with
    | false =>
      rw [hreg] at hone
      cases hone
      exact Released.refl [e] w
    | true =>
      rw [hreg] at hone
      exact contHeld_eq_ok h hreg hone
  exact h₁.cons (ih (h₁.tidy h))

end LaunchMON.Engine
