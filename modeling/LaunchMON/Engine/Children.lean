/-
  The memory of a process that the launcher has created: `handle_newproc_forked_event`, and the
  breakpoints that a child takes along.

  1. **The child.**  The handler asks the launcher's breakpoints which words to restore, and writes into
     the memory of the child (`disableAllBPs_child`).  A breakpoint that is not enabled is passed over,
     and an exception at the launch breakpoint ends `disable_all_BPs`, but not the handler.

  2. **The condition.**  That is right for a memory of its own in which each trap belongs to a breakpoint
     that is come to, and for the launcher's memory while no breakpoint is enabled (`Removable`).

  3. **Runs.**  With that condition on the stops of children, `Texts` is an invariant of runs, whatever
     else happens in between (`Run.texts`).  So the children are let go with the original text, and the
     launcher keeps its breakpoints with their traps (`children_let_go`).

  4. **Without it** a child of `vfork` takes the traps out of the launcher's memory, and a child of
     `fork` keeps the trap that a thread of the launcher has just been sent over
     (`children_let_go_counterexample`).
-/
import LaunchMON.Engine.Copies
import LaunchMON.Engine.Wakeups

namespace LaunchMON.Engine

open Effect Lmonp LinkMap

set_option synthInstance.maxSize 4096

variable {cfg : Config}

variable {early mark : Prop} {w w' : World}

/-! ## A child is let go -/

/-- `disable_all_BPs` comes to the breakpoint `sel` in `m` and puts the original word there. -/
structure Reaches (bps : BpSel → Option Bp) (m : Mem) (sel : BpSel) (b : Bp) : Prop where
  bp : bps sel = some b
  enabled : b.status = .enabled
  mapped : Mapped m b.addressAt
  /-- an exception at the launch breakpoint ends the function -/
  before : sel = .loader → ∀ c, bps .launch = some c → c.status = .enabled → Mapped m c.addressAt

/-- What `disable_breakpoint` does to the memory of a child. -/
theorem disableBreakpoint_child {t : LwpId} {l : Lwp} (hf : focus cfg true w = .ok (t, l) w)
    {sel : BpSel} {b : Bp} (hb : w.proc.bp sel = some b) : disableBreakpoint cfg sel true false w =
      if b.status = .enabled then
        if Mapped (w.target.mem l.mm) b.addressAt then .ok () { w with
          target := w.target.setMem l.mm
            (overwrite (w.target.mem l.mm) b.addressAt (List.ofFn b.origInstruction)) }
        else .error .tracer w
      else .ok () w := by
  unfold disableBreakpoint
  rw [ok_bind (getBp_run hb)]
  by_cases hst : b.status = .enabled
  · rw [if_pos hst, if_pos hst]
    by_cases hm : Mapped (w.target.mem l.mm) b.addressAt
    · have hw := tracerWrite_focus hf b.addressAt b.origInstruction
      rw [if_pos hm] at hw
      rw [if_pos hm, ok_bind hw]
      rfl
    · have hw := tracerWrite_focus hf b.addressAt b.origInstruction
      rw [if_neg hm] at hw
      rw [if_neg hm, error_bind hw]
  · rw [if_neg hst, if_neg hst]
    rfl

/-- The bytes of `m'` are those of `m`, except for original words at enabled breakpoints, and no byte at
    a breakpoint in `p` is left. -/
structure Cleared (bps : BpSel → Option Bp) (p : BpSel → Bp → Prop) (m m' : Mem) : Prop where
  mapped : ∀ a, Mapped m a → Mapped m' a
  byte : ∀ x v, m' x = some v → (m x = some v ∧ ∀ sel b, p sel b → x ≠ b.addressAt) ∨
    ∃ sel b, bps sel = some b ∧ b.status = .enabled ∧
      ∃ i : Fin 8, x = off b.addressAt i ∧ v = b.origInstruction i
  idle : (∀ sel b, bps sel = some b → b.status ≠ .enabled) → m' = m

namespace Cleared

variable {bps : BpSel → Option Bp} {p q r : BpSel → Bp → Prop} {m m' m'' : Mem}

theorem refl (hp : ∀ sel b, ¬p sel b) : Cleared bps p m m :=
  ⟨fun _ => id, fun _ _ hv => Or.inl ⟨hv, fun sel b h => absurd h (hp sel b)⟩, fun _ => rfl⟩

theorem trans (h : Cleared bps p m m') (h' : Cleared bps q m' m'')
    (hr : ∀ sel b, r sel b → p sel b ∨ q sel b) : Cleared bps r m m'' := by
  refine ⟨fun a => h'.mapped a ∘ h.mapped a, fun x v hv => ?_,
    fun hidle => (h'.idle hidle).trans (h.idle hidle)⟩
  rcases h'.byte x v hv with ⟨hm', hq⟩ | hword
  · rcases h.byte x v hm' with ⟨hm, hp⟩ | hword
    · exact Or.inl ⟨hm, fun sel b hb => (hr sel b hb).elim (hp sel b) (hq sel b)⟩
    · exact Or.inr hword
  · exact Or.inr hword

/-- The original word is written. -/
theorem word {sel : BpSel} {b : Bp} (hb : bps sel = some b) (hst : b.status = .enabled) :
    Cleared bps (fun sel' c => sel' = sel ∧ c = b) m
      (overwrite m b.addressAt (List.ofFn b.origInstruction)) := by
  refine ⟨fun a => mapped_overwrite, fun x v hv => ?_, fun hidle => absurd hst (hidle sel b hb)⟩
  rcases Under.overwrite_word m b.addressAt x b.origInstruction with ⟨i, hx, hw⟩ | ⟨hout, hw⟩
  · rw [hw] at hv
    exact Or.inr ⟨sel, b, hb, hst, i, hx, (Option.some.inj hv).symm⟩
  · rw [hw] at hv
    refine Or.inl ⟨hv, ?_⟩
    rintro sel' c ⟨-, rfl⟩ hx
    exact hout 0 (hx.trans (off_zero _).symm)

end Cleared

theorem World.Focused.setTarget {t : LwpId} (h : w.Focused t) (T : Target) :
    World.Focused { w with target := T } t := h.imp (fun h => ⟨h.stack, h.child, h.thr⟩) id

/-- One breakpoint in a child: it is gone from the child's memory, or its word is not mapped there. -/
theorem disable_child {t : LwpId} {l : Lwp} (h : w.Focused t) (hl : w.target.lwps t = some l)
    (hp : l.Ptraceable) (sel : BpSel) :
    (∃ b, w.proc.bp sel = some b ∧ b.status = .enabled ∧ ¬Mapped (w.target.mem l.mm) b.addressAt ∧
      whenever (w.proc.bp sel).isSome (disableBreakpoint cfg sel true false) w = .error .tracer w) ∨
    ∃ m, whenever (w.proc.bp sel).isSome (disableBreakpoint cfg sel true false) w =
        .ok () { w with target := w.target.setMem l.mm m } ∧
      Cleared w.proc.bp (fun sel' b => sel' = sel ∧ w.proc.bp sel = some b ∧ b.status = .enabled)
        (w.target.mem l.mm) m := by
  have hself : { w with target := w.target.setMem l.mm (w.target.mem l.mm) } = w := by
    unfold Target.setMem
    rw [Function.update_eq_self]
  cases hb : w.proc.bp sel with
  | none =>
    refine Or.inr ⟨w.target.mem l.mm, ?_, .refl fun _ _ hr => nomatch hr.2.1⟩
    rw [hself]
    rfl
  | some b =>
    have hrun := @disableBreakpoint_child cfg w t l (focus_focused h hl hp) sel b hb
    have hwhen : whenever (some b).isSome (disableBreakpoint cfg sel true false) w = _ := hrun
    rw [hwhen]
    by_cases hst : b.status = .enabled
    · rw [if_pos hst]
      by_cases hm : Mapped (w.target.mem l.mm) b.addressAt
      · rw [if_pos hm]
        refine Or.inr ⟨_, rfl, (Cleared.refl fun _ _ => id).trans (.word hb hst) ?_⟩
        rintro sel' c ⟨hsel, hc, -⟩
        exact Or.inr ⟨hsel, (Option.some.inj hc).symm⟩
      · rw [if_neg hm]
        exact Or.inl ⟨b, rfl, hst, hm, rfl⟩
    · rw [if_neg hst]
      refine Or.inr ⟨w.target.mem l.mm, by rw [hself], .refl fun _ c hr => ?_⟩
      cases hr.2.1
      exact hst hr.2.2

/-- **`disable_all_BPs` in a child**: the breakpoints it comes to are gone from the child's memory. -/
theorem disableAllBPs_child {t : LwpId} {l : Lwp} (h : w.Focused t) (hl : w.target.lwps t = some l)
    (hp : l.Ptraceable) : ∃ m, disableAllBPs cfg true false w =
      .ok () { w with target := w.target.setMem l.mm m } ∧
        Cleared w.proc.bp (Reaches w.proc.bp (w.target.mem l.mm)) (w.target.mem l.mm) m := by
  have hget : (get : EngineM World) w = .ok w w := rfl
  have hself : { w with target := w.target.setMem l.mm (w.target.mem l.mm) } = w := by
    unfold Target.setMem
    rw [Function.update_eq_self]
  have hcatch : (fun e : Exn => decide (e ≠ .crash)) .tracer = true := rfl
  unfold disableAllBPs
  rcases @disable_child cfg w t l h hl hp .launch with ⟨b, hb, hst, hm, hrun⟩ | ⟨m, hrun, hclear⟩
  · -- nothing is mapped at the launch breakpoint, so the loader breakpoint is not come to either
    refine ⟨w.target.mem l.mm, ?_, .refl fun sel c hr => ?_⟩
    · rw [hself]
      refine catching_error ?_ hcatch
      rw [ok_bind hget]
      exact error_bind hrun
    · cases sel with
      | launch =>
        cases hb.symm.trans hr.bp
        exact hm hr.mapped
      | loader => exact hm (hr.before rfl b hb hst)
  · have hmem : (w.target.setMem l.mm m).mem l.mm = m := Target.setMem_self ..
    rcases @disable_child cfg { w with target := w.target.setMem l.mm m } t l
      (h.setTarget _) hl hp .loader with
      ⟨b, hb, hst, hm, hrun'⟩ | ⟨m', hrun', hclear'⟩
    · refine ⟨m, ?_, hclear.trans (.refl fun _ _ => id) fun sel c hr => ?_⟩
      · refine catching_error ?_ hcatch
        rw [ok_bind hget]
        exact (ok_bind hrun).trans hrun'
      · cases sel with
        | launch => exact Or.inl ⟨rfl, hr.bp, hr.enabled⟩
        | loader =>
          have hsame : w.proc.bp .loader = some b := hb
          cases hsame.symm.trans hr.bp
          refine absurd (hclear.mapped _ hr.mapped) ?_
          rwa [hmem] at hm
    · rw [hmem] at hclear'
      refine ⟨m', catching_ok ?_, hclear.trans hclear' fun sel c hr => ?_⟩
      · rw [ok_bind hget]
        refine ((ok_bind hrun).trans hrun').trans ?_
        show EStateM.Result.ok _ { w with target := (w.target.setMem l.mm m).setMem l.mm m' } = _
        unfold Target.setMem
        rw [Function.update_idem]
      · cases sel with
        | launch => exact Or.inl ⟨rfl, hr.bp, hr.enabled⟩
        | loader => exact Or.inr ⟨rfl, hr.bp, hr.enabled⟩

theorem tracerDetach_focused {t : LwpId} {l : Lwp} (h : w.Focused t) (hl : w.target.lwps t = some l)
    (hp : l.Ptraceable) :
    tracerDetach cfg true w = .ok () (w.setLwp t { l.resume with traced := false }) := by
  unfold tracerDetach
  rw [ok_bind (focus?_focused h), hl]
  simp only [Option.map_some, Option.filter_some, hp, decide_true, if_true]
  rfl

/-- The process `l` has been let go, and its memory has become `m`. -/
def World.detached (w : World) (t : LwpId) (l : Lwp) (m : Mem) : World :=
  { w with target := (w.target.setMem l.mm m).setLwp t { l.resume with traced := false } }

/-- **`handle_newproc_forked_event`** lets the child go. -/
theorem handleNewprocForkedEvent_run {t : LwpId} {l : Lwp} (ht : w.Tidy cfg) (hp : l.Ptraceable) :
    ∃ m w₂,
      handleNewprocForkedEvent cfg ((w.reap t l).enter t) = .ok .ok w₂ ∧ w₂.InContext t ∧
        w₂.leave = w.detached t l m ∧
        Cleared w.proc.bp (Reaches w.proc.bp (w.target.mem l.mm)) (w.target.mem l.mm) m := by
  have hreap : (w.reap t l).Tidy cfg := ⟨ht.stack, ht.child, ht.pid⟩
  have hfoc := hreap.enter_focused t
  have hl₀ : ((w.reap t l).enter t).target.lwps t = some { l with report := none } := by
    rw [World.enter_target]
    exact Target.setLwp_self ..
  have hmem : ((w.reap t l).enter t).target.mem = w.target.mem := by
    rw [World.enter_target]
    rfl
  have hbps : ((w.reap t l).enter t).proc.bp = w.proc.bp := by
    funext sel
    unfold World.enter
    split <;> (cases sel <;> rfl)
  obtain ⟨m, hrun, hclear⟩ := @disableAllBPs_child cfg _ t _ hfoc hl₀ hp
  rw [hmem, hbps] at hclear
  have hdetach := @tracerDetach_focused cfg _ t { l with report := none }
    (hfoc.setTarget (((w.reap t l).enter t).target.setMem l.mm m)) hl₀ hp
  refine ⟨m, _, catching_ok (ok_bind hrun |>.trans (ok_bind hdetach)), ?_, ?_, hclear⟩
  · exact (hfoc.setTarget _).inContext
  · have hleave := hreap.leave_setTarget t (World.detached w t l m).target
    refine Eq.trans ?_ hleave
    unfold World.detached World.setLwp
    dsimp only
    rw [World.enter_target]
    unfold World.reap Target.setMem Target.setLwp
    dsimp only
    rw [Function.update_idem]
    rfl

/-- The breakpoints can be taken out of the memory of the child `l`, and not out of the launcher's. -/
structure Removable (cfg : Config) (w : World) (l : Lwp) : Prop where
  shared : l.mm = 0 → ∀ sel b, w.proc.bp sel = some b → b.status ≠ .enabled
  traps : l.mm ≠ 0 → ∀ a, w.target.mem l.mm a = some 0xcc → cfg.text a ≠ none → cfg.text a ≠ some 0xcc →
    ∃ sel b, Reaches w.proc.bp (w.target.mem l.mm) sel b ∧ a = b.addressAt

/-- No trap of an enabled breakpoint is left in the memory of a child. -/
theorem Texts.cleared (h : Texts cfg early mark w) {l : Lwp} {m : Mem} (hr : Removable cfg w l)
    (hclear : Cleared w.proc.bp (Reaches w.proc.bp (w.target.mem l.mm)) (w.target.mem l.mm) m)
    (hmm : l.mm ≠ 0) {a : VA} {v : UInt8} (hv : m a = some v) (ha : cfg.text a ≠ none) :
    cfg.text a = some v := by
  rcases hclear.byte a v hv with ⟨hv, hne⟩ | ⟨sel, b, hb, hst, i, rfl, rfl⟩
  · rcases h.copies l.mm a v hv ha with htext | ⟨rfl, -⟩
    · exact htext
    · by_contra hno
      obtain ⟨sel, b, hreach, hx⟩ := hr.traps hmm a hv ha hno
      exact hne sel b hreach hx
  · exact (h.text.kept hb (Or.inl hst)).2 i

theorem Texts.detached [Layout cfg] (h : Texts cfg early mark w) {t : LwpId} {l : Lwp} {m : Mem}
    (hr : Removable cfg w l)
    (hclear : Cleared w.proc.bp (Reaches w.proc.bp (w.target.mem l.mm)) (w.target.mem l.mm) m) :
    Texts cfg early mark (w.detached t l m) := by
  by_cases hmm : l.mm = 0
  · refine h.setTarget ?_
    rw [hclear.idle (hr.shared hmm)]
    unfold Target.setMem
    rw [Function.update_eq_self]
    rfl
  · have hmem : ∀ mm, mm ≠ l.mm → (w.detached t l m).target.mem mm = w.target.mem mm :=
      fun mm hne => Target.setMem_ne _ hne m
    refine ⟨h.text.congr (fun a _ => ?_) (fun _ => rfl) h.text.rmso, fun mm a v hv ha => ?_, h.first,
      h.never⟩
    · rw [hmem 0 (Ne.symm hmm)]
    · by_cases heq : mm = l.mm
      · have hv' : m a = some v := by
          rw [← hv, heq]
          exact (congrFun (Target.setMem_self w.target l.mm m) a).symm
        exact Or.inl (h.cleared hr hclear hmm hv' ha)
      · rw [hmem mm heq] at hv
        exact h.copies mm a v hv ha

/-! ## Steps of program and kernel -/

theorem Target.create_mem (T : Target) (t new : LwpId) (l : Lwp) (entity : Entity) (mm : ℕ) (succ : VA)
    (event : ℕ) : (T.create t new l entity mm succ event).mem = T.mem := by
  unfold Target.create
  split <;> rfl

/-- Memory after a step: as before, or there is a copy of a running thread's, or a byte is stored. -/
theorem Moved.mem {text : Mem} {T T' : Target} {a : EnvAct} (h : Moved text T a T') : T'.mem = T.mem ∨
    (∃ t l mm, T.lwps t = some l ∧ l.traced = true ∧ l.run = .running ∧ mm ≠ l.mm ∧
      T'.mem = (T.setMem mm (T.mem l.mm)).mem) ∨
    ∃ mm x v, (text x = none ∨ T.mem mm x = none ∧ v = text x) ∧
      T'.mem = (T.setMem mm (Function.update (T.mem mm) x v)).mem := by
  cases h with
  | @fork t child l mm succ hl htr hr hnew hmm =>
    exact Or.inr (Or.inl ⟨t, l, mm, hl, htr, hr, hmm, Target.create_mem ..⟩)
  | @store mm x v h => exact Or.inr (Or.inr ⟨mm, x, v, h, rfl⟩)
  | clone => exact Or.inl (Target.create_mem ..)
  | vfork => exact Or.inl (Target.create_mem ..)
  | _ => exact Or.inl rfl

/-- A byte of the text is only stored where it has not been mapped. -/
theorem stored {text m : Mem} {x a : VA} {v : Option UInt8} (h : text x = none ∨ m x = none ∧ v = text x)
    (ha : text a ≠ none) :
    Function.update m x v a = m a ∨ m a = none ∧ Function.update m x v a = text a := by
  by_cases hx : a = x
  · subst hx
    obtain ⟨hm, hv⟩ := h.resolve_left ha
    rw [Function.update_self]
    exact Or.inr ⟨hm, hv⟩
  · rw [Function.update_of_ne hx]
    exact Or.inl rfl

theorem Texts.env [Layout cfg] (h : Texts cfg early mark w) (hk : Kin cfg w) {a : EnvAct} {T : Target}
    (hT : w.target.step cfg.text a = some T) : Texts cfg early mark { w with target := T } := by
  rcases (Target.step_moved hT).mem with hm | ⟨t, l, mm, hl, htr, hr, hmm, hm⟩ | ⟨mm, x, v, hstore, hm⟩
  · exact h.setTarget hm
  · -- processes that the launcher has created do not run, so the copy is one of the launcher's memory
    have hown : l.Own cfg t := by
      by_contra hno
      exact hk.child t l hl hno htr (Or.inl hr)
    rw [hk.mm t l hl hown] at hmm hm
    refine ⟨h.text.congr (fun c _ => ?_) (fun _ => rfl) h.text.rmso, fun mm' c v hv hc => ?_, h.first,
      h.never⟩
    · show T.mem 0 c = _
      rw [hm, Target.setMem_ne _ hmm.symm]
    · have hv' : T.mem mm' c = some v := hv
      by_cases heq : mm' = mm
      · rw [hm, heq, Target.setMem_self] at hv'
        exact h.copies 0 c v hv' hc
      · rw [hm, Target.setMem_ne _ heq] at hv'
        exact h.copies mm' c v hv' hc
  · have hother : ∀ mm', mm' ≠ mm → T.mem mm' = w.target.mem mm' := fun mm' hne => by
      rw [hm, Target.setMem_ne _ hne]
    have hbyte : ∀ c, cfg.text c ≠ none → T.mem mm c = w.target.mem mm c ∨
        w.target.mem mm c = none ∧ T.mem mm c = cfg.text c := fun c hc => by
      rw [hm, Target.setMem_self]
      exact stored hstore hc
    refine ⟨?_, fun mm' c v hv hc => ?_, h.first, h.never⟩
    · by_cases hmm : mm = 0
      · subst hmm
        refine Text.of_under (h.text.under.env (fun _ => rfl) (fun sel b hb hst => ?_) fun c hc => ?_)
          (fun sel b hb => h.text.slots hb) h.text.rmso fun sel b hb hst => ?_
        · rcases hbyte _ (Layout.text_slot (h.text.slot hb)) with hsame | ⟨hnone, -⟩
          · exact hsame
          · cases hnone.symm.trans (h.text.traps trivial sel b hb hst)
        · exact (hbyte c hc).imp_right fun hmap => Or.inr hmap.2
        · obtain ⟨hmap, htext⟩ := h.text.kept hb hst
          refine ⟨fun i => ?_, htext⟩
          have hi := hmap i
          rcases hbyte _ (Layout.slot _ (h.text.slot hb) i) with hsame | ⟨hnone, -⟩
          · show (T.mem 0 _).isSome
            rw [hsame]
            exact hi
          · rw [hnone] at hi
            cases hi
      · refine h.text.congr (fun c _ => ?_) (fun _ => rfl) h.text.rmso
        show T.mem 0 c = _
        rw [hother 0 (Ne.symm hmm)]
    · have hv' : T.mem mm' c = some v := hv
      by_cases heq : mm' = mm
      · subst heq
        rcases hbyte c hc with hsame | ⟨-, htext⟩
        · exact h.copies mm' c v (hsame ▸ hv') hc
        · exact Or.inl (htext ▸ hv')
      · rw [hother mm' heq] at hv'
        exact h.copies mm' c v hv' hc

/-! ## Runs -/

/-- Between two events: there is no loader breakpoint until the first trap has been handled. -/
def Texts.Now (cfg : Config) (w : World) : Prop :=
  Texts cfg (w.proc.neverTrapped = true) (w.proc.neverTrapped = true) w

theorem Texts.now {P : Prop} (h : Texts cfg P P w) : Texts.Now cfg w :=
  ⟨h.text, h.copies, fun hn => h.first (h.never hn), id⟩

theorem Texts.same [Layout cfg] (h : Texts cfg early mark w) (hs : SameText w w') :
    Texts cfg early mark w' :=
  h.congr hs.mem hs.bp (fun im him => h.text.rmso im (hs.rmso ▸ him)) hs.never

theorem sameText_reap (w : World) (t : LwpId) (l : Lwp) : SameText w (w.reap t l) :=
  ⟨rfl, fun _ => rfl, rfl, id⟩

theorem sameText_leave (w : World) : SameText w w.leave :=
  ⟨rfl, fun sel => by cases sel <;> rfl, rfl, id⟩

theorem sameText_eventOf (w : World) (t : LwpId) (l : Lwp) : SameText w (w.eventOf t l) := by
  have henlist : SameText (w.reap t l) ((w.reap t l).enlist t) := by
    unfold World.enlist
    split
    · exact refl_of SameText _
    · exact ⟨rfl, fun sel => by cases sel <;> rfl, rfl, id⟩
  have henter : SameText ((w.reap t l).enlist t) (w.eventOf t l) := by
    unfold World.eventOf World.enter
    split <;> exact ⟨rfl, fun sel => by cases sel <;> rfl, rfl, id⟩
  exact trans_of SameText (trans_of SameText (sameText_reap w t l) henlist) henter

/-- The events of the first trap come first. -/
theorem classify_first {p : Process} {pid : Option LwpId} {pc : VA} {signum event : ℕ}
    (h : (classify cfg p pid pc signum event).first = true) : p.neverTrapped = true := by
  have hchosen := classify_chosen cfg p pid pc signum event
  generalize classify cfg p pid pc signum event = ev at h hchosen
  cases hchosen with
  | firstAttach hn ha => exact hn
  | firstExec hn ha => exact hn
  | _ => cases h

theorem decipherAnEvent_first {r : Report} {ev : Event} (h : decipherAnEvent cfg r w = .ok ev w)
    (hfirst : ev.first = true) : w.proc.neverTrapped = true := by
  cases r with
  | stopped signum event =>
    obtain ⟨regs, w₁, -, h⟩ := bind_eq_ok h
    obtain ⟨pid, w₂, -, h⟩ := bind_eq_ok h
    obtain ⟨w₃, w₄, hget, h⟩ := bind_eq_ok h
    cases hget
    obtain ⟨rfl, rfl⟩ := EStateM.Result.ok.inj h
    exact classify_first hfirst
  | exited =>
    cases h
    cases hfirst
  | terminated =>
    cases h
    cases hfirst

theorem Run.mono {G G' : Sys → Label → Prop} {s s' : Sys} (h : Run cfg G s s')
    (hG : ∀ s a, G s a → G' s a) : Run cfg G' s s' := by
  induction h with
  | refl => exact .refl
  | step h ha hs ih => exact .step ih (hG _ _ ha) hs

/-- What has to hold when the engine is told that a child has stopped. -/
def Untangled (cfg : Config) (s : Sys) (a : Label) : Prop :=
  ∀ t l signum event, a = .poll t → s.w.target.lwps t = some l → ¬l.Own cfg t →
    l.report = some (.stopped signum event) → Removable cfg s.w l

/-- What one step preserves. -/
theorem Goes.texts [Layout cfg] {s : Sys} {a : Label} (hg : Goes cfg s.w a w') (ht : s.w.Tidy cfg)
    (hk : Kin cfg s.w) (ha : Untangled cfg s a) (h : Texts.Now cfg s.w) : Texts.Now cfg w' := by
  cases hg with
  | env hT => exact (h.env hk hT).now
  | nothing => exact h
  | @event t l r ev w₂ hl htr hr hown hev hx =>
    have hin : Texts.In cfg _ _ t (s.w.eventOf t l) :=
      ⟨hk.eventOf ht hl hown, Texts.same h (sameText_eventOf s.w t l)⟩
    cases hfirst : ev.first with
    | true =>
      have hnever := (sameText_eventOf s.w t l).never (decipherAnEvent_first hev hfirst)
      have hin' : Texts.In cfg True True t (s.w.eventOf t l) :=
        ⟨hin.1, hin.2.mono (fun _ => hnever) fun _ => trivial⟩
      exact ((hin'.of_first hfirst hx).2.same (sameText_leave w₂)).now
    | false =>
      have hw₂ := invokeHandler_returns_of_later (R := Keeps (Texts.In cfg _ _ t))
        (decipherAnEvent_eq_ok hev).2 hfirst _ _ _ hx hin
      exact (hw₂.2.same (sameText_leave w₂)).now
  | ignored => exact (h.same (sameText_reap _ _ _)).now
  | @child t l signum event w₂ hl htr hr hne hent hx =>
    have hown : ¬l.Own cfg t := by
      rintro (hpid | hthr)
      · exact hne hpid
      · cases hent.symm.trans hthr
    obtain ⟨m, w₃, hrun, -, hleave, hclear⟩ :=
      @handleNewprocForkedEvent_run cfg s.w t l ht ⟨htr, hk.stops t l signum event hl hr⟩
    rw [(EStateM.Result.ok.inj (hx.symm.trans hrun)).2, hleave]
    exact (h.detached (ha t l signum event rfl hl hown hr) hclear).now
  | @asked _ r _ _ =>
    refine (h.same ⟨stopThrs_mem _ _, fun sel => ?_, ?_, ?_⟩).now
    all_goals dsimp only
    · unfold Request.mark
      split <;> (cases sel <;> rfl)
    · unfold Request.mark
      split <;> rfl
    · unfold Request.mark
      split <;> exact id
  | released hrel =>
    refine (h.same ⟨hrel.mem, fun sel => ?_, ?_, ?_⟩).now
    · rw [hrel.proc]
      cases sel <;> rfl
    · rw [hrel.proc]
    · rw [hrel.proc]
      exact id

theorem Launched.texts {T : Target} (h : Launched cfg T) : Texts.Now cfg (Sys.start cfg T).w := by
  have hbyte : ∀ mm a v, T.mem mm a = some v → cfg.text a ≠ none → cfg.text a = some v := by
    intro mm a v hv ha
    rcases h.mem_eq mm a with hnone | hnone | heq
    · cases hnone.symm.trans hv
    · exact absurd hnone ha
    · exact heq.symm.trans hv
  have hbps : ∀ sel, (Sys.start cfg T).w.proc.bp sel = none := fun sel => by cases sel <;> rfl
  refine ⟨⟨nofun, nofun, nofun, fun sel b hb => ?_, fun a v hv ha => Or.inl (hbyte 0 a v hv ha),
    fun _ sel b hb => ?_⟩, fun mm a v hv ha => Or.inl (hbyte mm a v hv ha), fun _ => rfl, id⟩
  · cases (hbps sel).symm.trans hb
  · cases (hbps sel).symm.trans hb

/-- **The text is an invariant of runs** in which children can be told apart. -/
theorem Run.texts [Layout cfg] {s₀ s : Sys} (h₀ : Initial cfg s₀) (h : Run cfg (Untangled cfg) s₀ s)
    (hm : s.mode ≠ .ended) : s.w.Tidy cfg ∧ Kin cfg s.w ∧ Texts.Now cfg s.w := by
  obtain ⟨T, hT, rfl⟩ := h₀
  have hstart : Kin cfg (Sys.start cfg T).w ∧ Texts.Now cfg (Sys.start cfg T).w := ⟨hT.kin, hT.texts⟩
  refine @Run.alive cfg _ (fun w => Kin cfg w ∧ Texts.Now cfg w) _ s ⟨T, hT, rfl⟩ hstart h ?_ hm
  intro s a w' ht hI _ ha hg
  exact ⟨hg.kin ht hI.1, hg.texts ht hI.1 ha hI.2⟩

/-- What is expected of the engine when it has been told that the child `l` has stopped. -/
structure LetGo (cfg : Config) (s s' : Sys) (t : LwpId) (l : Lwp) : Prop where
  detached : ∃ l', s'.w.target.lwps t = some l' ∧ l'.traced = false
  /-- a memory of its own has the original text -/
  original : l.mm ≠ 0 → ∀ a v, s'.w.target.mem l.mm a = some v → cfg.text a ≠ none → cfg.text a = some v
  /-- the launcher keeps its breakpoints -/
  kept : ∀ sel, s'.w.proc.bp sel = s.w.proc.bp sel
  traps : ∀ sel b, s'.w.proc.bp sel = some b → b.status = .enabled →
    s'.w.target.mem 0 b.addressAt = some 0xcc

/-- **Children carry no breakpoints, and the launcher loses none**, in every run in which the engine
    could tell its breakpoints in the memory of each child that has stopped. -/
theorem children_let_go [Layout cfg] {s₀ s s' : Sys} {t : LwpId} {l : Lwp} {signum event : ℕ}
    (h₀ : Initial cfg s₀) (h : Run cfg (Untangled cfg) s₀ s) (ha : Untangled cfg s (.poll t))
    (hl : s.w.target.lwps t = some l) (hown : ¬l.Own cfg t)
    (hr : l.report = some (.stopped signum event)) (hs : s.step cfg (.poll t) = some s') :
    LetGo cfg s s' t l := by
  obtain ⟨ht, hk, htexts⟩ := h.texts h₀ (Sys.step_alive hs)
  obtain ⟨-, l₁, r, hl₁, htr, htool, hr₁, rfl⟩ := Sys.step_poll hs
  cases hl.symm.trans hl₁
  cases hr.symm.trans hr₁
  have hget : ∀ w : World, (get : EngineM World) w = .ok w w := fun _ => rfl
  have hreap : (s.w.reap t l).Tidy cfg := ⟨ht.stack, ht.child, ht.pid⟩
  have hremovable := ha t l signum event rfl hl hown hr
  have hent : l.entity = .process := by
    cases hent : l.entity with
    | process => rfl
    | thread => exact absurd (Or.inr hent) hown
  obtain ⟨m, w₂, hrun, hin, hleave, hclear⟩ :=
    @handleNewprocForkedEvent_run cfg s.w t l ht ⟨htr, hk.stops t l signum event hl hr⟩
  -- the event goes to the handler
  have hpoll : pollEvent cfg t l.entity (.stopped signum event) (s.w.reap t l) =
      .ok .ok (s.w.detached t l m) := by
    have hne : t ≠ cfg.pid := fun hpid => hown (Or.inl hpid)
    have htool' : some t ≠ (s.w.reap t l).lmon.toollauncherpid := htool
    unfold pollEvent
    rw [ok_bind (hget _), hent]
    dsimp only
    rw [if_neg hne, if_neg htool']
    unfold handleChild
    dsimp only
    rw [ok_bind (makeContext_tidy hreap t)]
    have hinvoke : invokeHandler cfg .stopNewForkedProcess t ((s.w.reap t l).enter t) = .ok .ok w₂ :=
      hrun
    rw [ok_bind hinvoke, ok_bind (checkAndUndoContext_inContext hin), hleave]
    rfl
  have hw : (Sys.run { s with w := s.w.reap t l } (pollEvent cfg t l.entity (.stopped signum event))).w =
      s.w.detached t l m := by
    rw [Sys.run_w]
    exact final_ok hpoll
  have hafter := htexts.detached (t := t) hremovable hclear
  refine ⟨?_, fun hmm a v hv hx => ?_, fun sel => ?_, ?_⟩
  · rw [hw]
    exact ⟨_, Target.setLwp_self .., rfl⟩
  · rw [hw] at hv
    refine htexts.cleared hremovable hclear hmm ?_ hx
    rw [← hv]
    exact (congrFun (Target.setMem_self s.w.target l.mm m) a).symm
  · rw [hw]
    rfl
  · rw [hw]
    exact hafter.text.traps trivial

/-! ## Children of the sample -/

theorem sample_slot {a : VA} (h : sample.Slot a) : a = 0x1000 ∨ a = 0x1040 := by
  rcases h with ⟨im, s, rfl | him, hs, rfl⟩ | rfl
  · cases hs
    exact Or.inl rfl
  · cases him
  · exact Or.inr rfl

instance : Layout sample where
  slot a h := by rcases sample_slot h with rfl | rfl <;> decide
  apart a b ha hb hne := by
    rcases sample_slot ha with rfl | rfl <;> rcases sample_slot hb with rfl | rfl
    · exact absurd rfl hne
    · decide
    · decide
    · exact absurd rfl hne
  distinct a h heq := by
    obtain ⟨im, s, rfl | him, hs, ha⟩ := h
    · cases hs
      exact absurd (ha.trans heq) (by decide)
    · cases him
  data a n h := by
    cases h with
    | beingDebug him hs =>
      rcases him with rfl | him
      · cases hs
        decide
      · cases him
    | execPath him hs =>
      rcases him with rfl | him
      · cases hs
      · cases him
    | serverArgs him hs =>
      rcases him with rfl | him
      · cases hs
      · cases him
    | garbage => decide

/-- The status of a thread of the launcher is no matter. -/
theorem untangled_pid (s : Sys) {a : Label} (ha : ∀ t, a = .poll t → t = cfg.pid) : Untangled cfg s a :=
  fun t _ _ _ hpoll _ hown => absurd (Or.inl (ha t hpoll)) hown

/-- The sample runs, and the process 101 that it has created stops. -/
theorem sample_child {as : List Label} {p : Sys → Sys → Lwp → Bool}
    (h : (((Sys.start sample (sampleTarget 0x1020 [])).runAll sample as).bind fun s =>
      (s.step sample (.poll 101)).map fun s' => (s.w.target.lwps 101).any fun l =>
        l.entity = .process ∧ l.report = some (.stopped sigstop 0) ∧ p s s' l) = some true) :
    ∃ s s' l, (Sys.start sample (sampleTarget 0x1020 [])).runAll sample as = some s ∧
      s.step sample (.poll 101) = some s' ∧ s.w.target.lwps 101 = some l ∧ ¬l.Own sample 101 ∧
      l.report = some (.stopped sigstop 0) ∧ p s s' l = true := by
  obtain ⟨s, s', hrun, hs, hany⟩ := Sys.runAll_step h
  obtain ⟨l, hl, hobs⟩ := (Option.any_eq_true _ _).mp hany
  obtain ⟨hent, hr, hp⟩ := of_decide_eq_true hobs
  refine ⟨s, s', l, hrun, hs, hl, ?_, hr, hp⟩
  rintro (hpid | hthr)
  · cases hpid
  · cases hent.symm.trans hthr

/-- Both breakpoints are enabled when the launcher forks, and nothing happens until the child stops. -/
def forkRun : List Label := [.poll 100, .env (.fork 100 101 1 0x1000)]

theorem children_let_go_fork : ∃ s s' l,
    (Sys.start sample (sampleTarget 0x1020 [])).runAll sample forkRun = some s ∧
    s.step sample (.poll 101) = some s' ∧ s.w.target.lwps 101 = some l ∧
    s.w.target.mem l.mm 0x1000 = some 0xcc ∧ s'.w.target.mem l.mm 0x1000 = some 0x90 ∧
    LetGo sample s s' 101 l := by
  obtain ⟨s, s', l, hrun, hs, hl, hown, hr, hobs⟩ := @sample_child forkRun
    (fun s s' l => l.mm = 1 ∧
      s.w.target.mem 1 0x1000 = some 0xcc ∧ s'.w.target.mem 1 0x1000 = some 0x90 ∧
      (s.w.proc.bp .launch).any (fun b => b.status = .enabled ∧ b.addressAt = 0x1000) ∧
      (s.w.proc.bp .loader).any (fun b => b.status = .enabled ∧ b.addressAt = 0x1040) ∧
      Mapped (s.w.target.mem 1) 0x1000 ∧ Mapped (s.w.target.mem 1) 0x1040) (by decide +kernel)
  obtain ⟨hmm, htrap, horig, hlaunch, hloader, hmap, hmap'⟩ := of_decide_eq_true hobs
  obtain ⟨b, hb, hst⟩ := (Option.any_eq_true _ _).mp hlaunch
  obtain ⟨hst, haddr⟩ := of_decide_eq_true hst
  obtain ⟨b', hb', hst'⟩ := (Option.any_eq_true _ _).mp hloader
  obtain ⟨hst', haddr'⟩ := of_decide_eq_true hst'
  have hinit : Initial sample (Sys.start sample (sampleTarget 0x1020 [])) :=
    ⟨_, sample_launched _ _, rfl⟩
  -- only the launcher is polled on the way, so no child could be entangled
  have hlabels : ∀ a ∈ forkRun, ∀ t, a = .poll t → t = sample.pid := by
    intro a ha t hpoll
    subst hpoll
    rcases List.mem_cons.mp ha with heq | ha
    · cases heq
      rfl
    · cases List.mem_singleton.mp ha
  have hruns : Run sample (Untangled sample) (Sys.start sample (sampleTarget 0x1020 [])) s :=
    (Run.of_labels forkRun hlabels hrun).mono fun s a ha => untangled_pid s ha
  have htexts := (hruns.texts hinit (Sys.step_alive hs)).2.2
  have hremovable : Removable sample s.w l := by
    refine ⟨fun hzero => absurd (hmm.symm.trans hzero) (by decide), fun _ a ha htext hcc => ?_⟩
    -- a trap in the child's copy of the text stands at one of the two breakpoints
    rcases htexts.copies l.mm a 0xcc ha htext with heq | ⟨-, hslot⟩
    · exact absurd heq hcc
    · rw [hmm]
      rcases sample_slot hslot with rfl | rfl
      · exact ⟨.launch, b, ⟨hb, hst, haddr ▸ hmap, nofun⟩, haddr.symm⟩
      · refine ⟨.loader, b', ⟨hb', hst', haddr' ▸ hmap', fun _ c hc _ => ?_⟩, haddr'.symm⟩
        cases hb.symm.trans hc
        exact haddr ▸ hmap
  have huntangled : Untangled sample s (.poll 101) := by
    intro t l₁ signum event hpoll hl₁ _ _
    cases hpoll
    cases hl.symm.trans hl₁
    exact hremovable
  refine ⟨s, s', l, hrun, hs, hl, ?_, ?_, children_let_go hinit hruns huntangled hl hown hr hs⟩
  · rw [hmm]
    exact htrap
  · rw [hmm]
    exact horig

/-- The launcher forks by `vfork`. -/
def vforkRun : List Label := [.poll 100, .env (.vfork 100 101 0x1020)]

/-- Between `fork` and the stop of the child, the launcher comes to the launch breakpoint. -/
def tangledRun : List Label :=
  [.poll 100, .env (.fork 100 101 1 0x1000), .poll 100, .env (.exec 100 0x1001 0x2100), .poll 100]

/-- The launcher loses its launch breakpoint to a child of `vfork`, and a child of `fork` takes one along
    that the engine has disabled for a single step. -/
theorem children_let_go_counterexample :
    (∃ s s' l, (Sys.start sample (sampleTarget 0x1020 [])).runAll sample vforkRun = some s ∧
      s.step sample (.poll 101) = some s' ∧ s.w.target.lwps 101 = some l ∧ ¬l.Own sample 101 ∧
      l.report = some (.stopped sigstop 0) ∧ ¬LetGo sample s s' 101 l) ∧
    ∃ s s' l, (Sys.start sample (sampleTarget 0x1020 [])).runAll sample tangledRun = some s ∧
      s.step sample (.poll 101) = some s' ∧ s.w.target.lwps 101 = some l ∧ ¬l.Own sample 101 ∧
      l.report = some (.stopped sigstop 0) ∧ ¬LetGo sample s s' 101 l := by
  constructor
  · obtain ⟨s, s', l, hrun, hs, hl, hown, hr, hobs⟩ := @sample_child vforkRun
      (fun _ s' _ => (s'.w.proc.bp .launch).any fun b =>
        b.status = .enabled ∧ s'.w.target.mem 0 b.addressAt = some 0x90) (by decide +kernel)
    refine ⟨s, s', l, hrun, hs, hl, hown, hr, fun hgo => ?_⟩
    obtain ⟨b, hb, hst⟩ := (Option.any_eq_true _ _).mp hobs
    obtain ⟨hst, hmem⟩ := of_decide_eq_true hst
    exact absurd (hmem.symm.trans (hgo.traps .launch b hb hst)) (by decide)
  · obtain ⟨s, s', l, hrun, hs, hl, hown, hr, hobs⟩ := @sample_child tangledRun
      (fun _ s' l => l.mm = 1 ∧ s'.w.target.mem 1 0x1000 = some 0xcc) (by decide +kernel)
    refine ⟨s, s', l, hrun, hs, hl, hown, hr, fun hgo => ?_⟩
    obtain ⟨hmm, hmem⟩ := of_decide_eq_true hobs
    rw [← hmm] at hmem
    have hne : l.mm ≠ 0 := by
      rw [hmm]
      decide
    exact absurd (hgo.original hne 0x1000 0xcc hmem (by decide)) (by decide)

end LaunchMON.Engine
