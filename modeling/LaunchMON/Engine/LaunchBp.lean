/-
  The launch breakpoint: `enable_breakpoint`, `disable_breakpoint` and `handle_mpir_variables` on a
  launcher that has stopped, and the loader breakpoint beside it.

  1. **The text.**  In memory it is original except for the traps of enabled breakpoints, and an enabled
     breakpoint has saved the original word (`Under`).  The words of the breakpoints do not overlap.

  2. **The tracer.**  A thread of the launcher has stopped and its context is set (`Ready`), and what is
     touched is mapped.  Then no call fails, and the threads stay as they are (`Onward`).

  3. **The crux** (`registerLaunchBp_ready`): to register the launch breakpoint again removes it first,
     so its old place is original when the new one is written.

  4. **The loader breakpoint** is taken out for one step and put back: `isBpPrologueDone_ready`.
-/
import LaunchMON.Engine.Shipping

namespace LaunchMON.Engine.LinkMap

open Effect CBytes

/-! ## The text under breakpoints -/

/-- Breakpoints on words of the text that do not overlap. -/
structure Slots (text : Mem) (bps : BpSel → Option Bp) : Prop where
  slots : ∀ sel b, bps sel = some b → ∀ i : Fin 8, text (off b.addressAt i) ≠ none
  apart : ∀ sel sel' b b', bps sel = some b → bps sel' = some b' → sel ≠ sel' →
    ∀ i j : Fin 8, off b.addressAt i ≠ off b'.addressAt j

/-- The memory `m` under the breakpoints `bps`, where `text` is the original text. -/
structure Under (text m : Mem) (bps : BpSel → Option Bp) : Prop extends Slots text bps where
  saved : ∀ sel b, bps sel = some b → b.status = .enabled →
    ∀ i : Fin 8, text (off b.addressAt i) = some (b.origInstruction i)
  trap : ∀ sel b, bps sel = some b → b.status = .enabled → m b.addressAt = some 0xcc
  /-- what is mapped is original, or the trap of an enabled breakpoint -/
  byte : ∀ x v, m x = some v → text x ≠ none → text x = some v ∨
    ∃ sel b, bps sel = some b ∧ b.status = .enabled ∧ x = b.addressAt

theorem update_eq_some {bps : BpSel → Option Bp} {sel sel' : BpSel} {b c : Bp}
    (h : Function.update bps sel (some b) sel' = some c) :
    sel' = sel ∧ c = b ∨ sel' ≠ sel ∧ bps sel' = some c := by
  by_cases hsel : sel' = sel
  · subst hsel
    rw [Function.update_self] at h
    exact Or.inl ⟨rfl, (Option.some.inj h).symm⟩
  · rw [Function.update_of_ne hsel] at h
    exact Or.inr ⟨hsel, h⟩

theorem Slots.set {text : Mem} {bps : BpSel → Option Bp} (h : Slots text bps) {sel : BpSel} {b : Bp}
    (hslot : ∀ i : Fin 8, text (off b.addressAt i) ≠ none)
    (hap : ∀ sel' c, sel' ≠ sel → bps sel' = some c →
      ∀ i j : Fin 8, off b.addressAt i ≠ off c.addressAt j) :
    Slots text (Function.update bps sel (some b)) := by
  constructor
  · intro sel' c hc
    rcases update_eq_some hc with ⟨-, rfl⟩ | ⟨-, hc⟩
    · exact hslot
    · exact h.slots sel' c hc
  · intro sel₁ sel₂ c₁ c₂ h₁ h₂ hne i j
    rcases update_eq_some h₁ with ⟨hs₁, hc₁⟩ | ⟨hne₁, hb₁⟩
    · rcases update_eq_some h₂ with ⟨hs₂, -⟩ | ⟨hne₂, hb₂⟩
      · exact absurd (hs₁.trans hs₂.symm) hne
      · rw [hc₁]
        exact hap sel₂ c₂ hne₂ hb₂ i j
    · rcases update_eq_some h₂ with ⟨-, hc₂⟩ | ⟨-, hb₂⟩
      · rw [hc₂]
        exact (hap sel₁ c₁ hne₁ hb₁ j i).symm
      · exact h.apart sel₁ sel₂ c₁ c₂ hb₁ hb₂ hne i j

/-- A breakpoint changes, but not its address. -/
theorem Slots.keep {text : Mem} {bps : BpSel → Option Bp} (h : Slots text bps) {sel : BpSel}
    {b b' : Bp} (hb : bps sel = some b) (haddr : b'.addressAt = b.addressAt) :
    Slots text (Function.update bps sel (some b')) := by
  refine h.set (fun i => ?_) fun sel' c hne hc i j => ?_
  · rw [haddr]
    exact h.slots sel b hb i
  · rw [haddr]
    exact h.apart sel sel' b c hb hc hne.symm i j

namespace Under

variable {text m m' : Mem} {bps bps' : BpSel → Option Bp}

/-- The word at a breakpoint that is not enabled is original. -/
theorem original (h : Under text m bps) {sel : BpSel} {b : Bp} (hb : bps sel = some b)
    (hst : b.status ≠ .enabled) (i : Fin 8) {v : UInt8} (hv : m (off b.addressAt i) = some v) :
    text (off b.addressAt i) = some v := by
  rcases h.byte _ v hv (h.slots sel b hb i) with hv | ⟨sel', b', hb', hst', hx⟩
  · exact hv
  · have hsel : sel ≠ sel' := by
      rintro rfl
      cases hb.symm.trans hb'
      exact hst hst'
    exact absurd (hx.trans (off_zero _).symm) (h.apart sel sel' b b' hb hb' hsel i 0)

theorem overwrite_first (m : Mem) (a : VA) (r : Word) : overwrite m a (List.ofFn r) a = some (r 0) := by
  have hlen : (List.ofFn r).length = 8 := List.length_ofFn
  have h := overwrite_inside (i := 0) m a (List.ofFn r) (by rw [hlen]; decide) (by rw [hlen]; decide)
  rwa [off_zero, List.getElem_ofFn] at h

/-- The byte of an enabled breakpoint lies in no slot of another. -/
theorem outside (h : Under text m bps) {sel sel' : BpSel} {b b' : Bp} (hb : bps sel = some b)
    (hb' : bps sel' = some b') (hne : sel' ≠ sel) (bs : List UInt8) (hlen : bs.length ≤ 8) :
    overwrite m b.addressAt bs b'.addressAt = m b'.addressAt := by
  refine overwrite_outside fun i hi => ?_
  have hap := h.apart sel' sel b' b hb' hb hne 0 ⟨i, Nat.lt_of_lt_of_le hi hlen⟩
  rwa [show off b'.addressAt ((0 : Fin 8) : Nat) = b'.addressAt from off_zero _] at hap

/-- A word is written: the byte of an address is one of the word, or it stays. -/
theorem overwrite_word (m : Mem) (a x : VA) (r : Word) :
    (∃ i : Fin 8, x = off a i ∧ overwrite m a (List.ofFn r) x = some (r i)) ∨
      (∀ i : Fin 8, x ≠ off a i) ∧ overwrite m a (List.ofFn r) x = m x := by
  by_cases hin : ∃ i : Fin 8, x = off a i
  · obtain ⟨i, rfl⟩ := hin
    have hi : (i : Nat) < (List.ofFn r).length := by
      rw [List.length_ofFn]
      exact i.isLt
    refine Or.inl ⟨i, rfl, ?_⟩
    rw [overwrite_inside m a _ hi (by rw [List.length_ofFn]; decide), List.getElem_ofFn]
  · have hout : ∀ i : Fin 8, x ≠ off a i := fun i hi => hin ⟨i, hi⟩
    refine Or.inr ⟨hout, overwrite_outside fun i hi => ?_⟩
    rw [List.length_ofFn] at hi
    exact hout ⟨i, hi⟩

/-- `enable_breakpoint`. -/
theorem enable (h : Under text m bps) {sel : BpSel} {b : Bp} {orig : Word} (hb : bps sel = some b)
    (hst : b.status ≠ .enabled) (horig : ∀ i : Fin 8, m (off b.addressAt i) = some (orig i)) :
    Under text (overwrite m b.addressAt (List.ofFn (blend orig)))
      (Function.update bps sel (some { b with origInstruction := orig, status := .enabled })) := by
  have htext : ∀ i : Fin 8, text (off b.addressAt i) = some (orig i) :=
    fun i => h.original hb hst i (horig i)
  refine ⟨h.toSlots.keep hb rfl, fun sel' c hc hen i => ?_, fun sel' c hc hen => ?_,
    fun x v hv hx => ?_⟩
  · rcases update_eq_some hc with ⟨-, rfl⟩ | ⟨-, hc⟩
    · exact htext i
    · exact h.saved sel' c hc hen i
  · rcases update_eq_some hc with ⟨-, rfl⟩ | ⟨hne, hc⟩
    · rw [overwrite_first, blend_zero]
    · rw [h.outside hb hc hne _ (by rw [List.length_ofFn])]
      exact h.trap sel' c hc hen
  · rcases overwrite_word m b.addressAt x (blend orig) with ⟨i, rfl, hw⟩ | ⟨-, hw⟩
    · by_cases hi : i = 0
      · subst hi
        exact Or.inr ⟨sel, _, Function.update_self .., rfl, off_zero _⟩
      · rw [hw, blend_of_ne hi] at hv
        exact Or.inl ((htext i).trans hv)
    · rw [hw] at hv
      rcases h.byte x v hv hx with hv | ⟨sel', c, hc, hen, rfl⟩
      · exact Or.inl hv
      · have hsel : sel' ≠ sel := by
          rintro rfl
          cases hb.symm.trans hc
          exact hst hen
        exact Or.inr ⟨sel', c, (Function.update_of_ne hsel ..).trans hc, hen, rfl⟩

/-- `disable_breakpoint`. -/
theorem disable (h : Under text m bps) {sel : BpSel} {b : Bp} (hb : bps sel = some b)
    (hst : b.status = .enabled) :
    Under text (overwrite m b.addressAt (List.ofFn b.origInstruction))
      (Function.update bps sel (some { b with status := .disabled })) := by
  refine ⟨h.toSlots.keep hb rfl, fun sel' c hc hen i => ?_, fun sel' c hc hen => ?_,
    fun x v hv hx => ?_⟩
  · rcases update_eq_some hc with ⟨-, rfl⟩ | ⟨-, hc⟩
    · cases hen
    · exact h.saved sel' c hc hen i
  · rcases update_eq_some hc with ⟨-, rfl⟩ | ⟨hne, hc⟩
    · cases hen
    · rw [h.outside hb hc hne _ (by rw [List.length_ofFn])]
      exact h.trap sel' c hc hen
  · rcases overwrite_word m b.addressAt x b.origInstruction with ⟨i, rfl, hw⟩ | ⟨hout, hw⟩
    · rw [hw] at hv
      exact Or.inl ((h.saved sel b hb hst i).trans hv)
    · rw [hw] at hv
      rcases h.byte x v hv hx with hv | ⟨sel', c, hc, hen, rfl⟩
      · exact Or.inl hv
      · have hsel : sel' ≠ sel := by
          rintro rfl
          cases hb.symm.trans hc
          exact hout 0 (off_zero _).symm
        exact Or.inr ⟨sel', c, (Function.update_of_ne hsel ..).trans hc, hen, rfl⟩

/-- A breakpoint that is not enabled is replaced by a new one. -/
theorem replace (h : Under text m bps) {sel : BpSel} {b : Bp}
    (hold : ∀ c, bps sel = some c → c.status ≠ .enabled) (hst : b.status ≠ .enabled)
    (hslot : ∀ i : Fin 8, text (off b.addressAt i) ≠ none)
    (hap : ∀ sel' c, sel' ≠ sel → bps sel' = some c →
      ∀ i j : Fin 8, off b.addressAt i ≠ off c.addressAt j) :
    Under text m (Function.update bps sel (some b)) := by
  refine ⟨h.toSlots.set hslot hap, fun sel' c hc hen => ?_, fun sel' c hc hen => ?_,
    fun x v hv hx => ?_⟩
  · rcases update_eq_some hc with ⟨-, rfl⟩ | ⟨-, hc⟩
    · exact absurd hen hst
    · exact h.saved sel' c hc hen
  · rcases update_eq_some hc with ⟨-, rfl⟩ | ⟨-, hc⟩
    · exact absurd hen hst
    · exact h.trap sel' c hc hen
  · rcases h.byte x v hv hx with hv | ⟨sel', c, hc, hen, rfl⟩
    · exact Or.inl hv
    · have hsel : sel' ≠ sel := by
        rintro rfl
        exact hold c hc hen
      exact Or.inr ⟨sel', c, (Function.update_of_ne hsel ..).trans hc, hen, rfl⟩

/-- The fields of a breakpoint that matter here. -/
def core (b : Bp) : VA × Word × BpStatus := (b.addressAt, b.origInstruction, b.status)

/-- The program runs: it does not write over a trap, and it maps the text or takes it away. -/
theorem env (h : Under text m bps) (hbps : ∀ sel, (bps' sel).map core = (bps sel).map core)
    (htrap : ∀ sel b, bps sel = some b → b.status = .enabled → m' b.addressAt = m b.addressAt)
    (hmem : ∀ x, text x ≠ none → m' x = m x ∨ m' x = none ∨ m' x = text x) :
    Under text m' bps' := by
  have hback : ∀ sel c, bps' sel = some c → ∃ b, bps sel = some b ∧ c.addressAt = b.addressAt ∧
      c.origInstruction = b.origInstruction ∧ c.status = b.status := by
    intro sel c hc
    have hmap := hbps sel
    rw [hc] at hmap
    obtain ⟨b, hb, hcore⟩ := Option.map_eq_some_iff.mp hmap.symm
    obtain ⟨haddr, hcore⟩ := Prod.mk.inj hcore
    obtain ⟨horig, hst⟩ := Prod.mk.inj hcore
    exact ⟨b, hb, haddr.symm, horig.symm, hst.symm⟩
  refine ⟨⟨fun sel c hc i => ?_, fun sel₁ sel₂ c₁ c₂ h₁ h₂ hne i j => ?_⟩, fun sel c hc hen i => ?_,
    fun sel c hc hen => ?_, fun x v hv hx => ?_⟩
  · obtain ⟨b, hb, haddr, -⟩ := hback sel c hc
    rw [haddr]
    exact h.slots sel b hb i
  · obtain ⟨b₁, hb₁, ha₁, -⟩ := hback sel₁ c₁ h₁
    obtain ⟨b₂, hb₂, ha₂, -⟩ := hback sel₂ c₂ h₂
    rw [ha₁, ha₂]
    exact h.apart sel₁ sel₂ b₁ b₂ hb₁ hb₂ hne i j
  · obtain ⟨b, hb, haddr, horig, hst⟩ := hback sel c hc
    rw [haddr, horig]
    exact h.saved sel b hb (hst.symm.trans hen) i
  · obtain ⟨b, hb, haddr, -, hst⟩ := hback sel c hc
    have hen' := hst.symm.trans hen
    rw [haddr, htrap sel b hb hen']
    exact h.trap sel b hb hen'
  · rcases hmem x hx with hm | hm | hm
    · rw [hm] at hv
      rcases h.byte x v hv hx with hv | ⟨sel, b, hb, hen, rfl⟩
      · exact Or.inl hv
      · have hmap := hbps sel
        rw [hb] at hmap
        obtain ⟨c, hc, hcore⟩ := Option.map_eq_some_iff.mp hmap
        obtain ⟨haddr, hcore⟩ := Prod.mk.inj hcore
        exact Or.inr ⟨sel, c, hc, (Prod.mk.inj hcore).2.trans hen, haddr.symm⟩
    · rw [hm] at hv
      cases hv
    · exact Or.inl (hm.symm.trans hv)

/-- The engine writes outside of the text. -/
theorem write (h : Under text m bps) (hmem : ∀ x, text x ≠ none → m' x = m x) :
    Under text m' bps := by
  refine h.env (fun _ => rfl) (fun sel b hb _ => hmem _ ?_) fun x hx => Or.inl (hmem x hx)
  have hslot := h.slots sel b hb 0
  rwa [show off b.addressAt ((0 : Fin 8) : Nat) = b.addressAt from off_zero _] at hslot

end Under

/-! ## Tracer calls that succeed -/

/-- The threads stay as they are, and what is mapped in the launcher stays mapped. -/
structure Onward (w w' : World) : Prop where
  threads : SameThreads w w'
  mapped : ∀ c, Mapped (w.target.mem 0) c → Mapped (w'.target.mem 0) c

theorem Onward.refl (w : World) : Onward w w := ⟨refl_of SameThreads w, fun _ => id⟩

theorem Onward.trans {w w' w'' : World} (h : Onward w w') (h' : Onward w' w'') : Onward w w'' :=
  ⟨trans_of SameThreads h.threads h'.threads, fun c => h'.mapped c ∘ h.mapped c⟩

/-- A thread of the launcher has stopped, and its context is set. -/
structure Ready (w : World) (t : LwpId) (l : Lwp) : Prop extends w.Halted t l where
  mm : l.mm = 0

theorem Ready.onward {w w' : World} {t : LwpId} {l : Lwp} (h : Ready w t l) (ho : Onward w w') :
    Ready w' t l := ⟨h.toHalted.same ho.threads, h.mm⟩

/-- The memory of the launcher becomes `m`. -/
def setMem (w : World) (m : Mem) : World := { w with target := w.target.setMem 0 m }

theorem setMem_mem (w : World) (m : Mem) : (setMem w m).target.mem 0 = m := Target.setMem_self ..

section Calls

variable {cfg : Config} {w : World} {t : LwpId} {l : Lwp}

theorem tracerWrite_ready (h : Ready w t l) {a : VA} {bs : List UInt8}
    (hmap : ∀ i < words bs.length, Mapped (w.target.mem 0) (off a (8 * i))) :
    ∃ w', tracerWrite cfg true a bs w = .ok () w' ∧ Onward w w' ∧ w'.proc = w.proc ∧
      w'.target.mem 0 = (pokeLoop (w.target.mem 0) a (words bs.length) bs).1 := by
  have hget : (get : EngineM World) w = .ok w w := rfl
  have hrun : tracerWrite cfg true a bs w =
      .ok () (setMem w (pokeLoop (w.target.mem 0) a (words bs.length) bs).1) := by
    unfold tracerWrite
    rw [ok_bind h.focus, ok_bind hget]
    dsimp only
    rw [h.mm, pokeLoop_ok _ _ _ _ hmap]
    rfl
  refine ⟨_, hrun, ⟨Within.of_ok hrun, fun c hc => ?_⟩, rfl, setMem_mem ..⟩
  rw [setMem_mem]
  exact pokeLoop_mapped _ _ _ _ hc

theorem tracerWrite_word (h : Ready w t l) {a : VA} (hmap : Mapped (w.target.mem 0) a) (r : Word) :
    ∃ w', tracerWrite cfg true a (List.ofFn r) w = .ok () w' ∧ Onward w w' ∧ w'.proc = w.proc ∧
      w'.target.mem 0 = overwrite (w.target.mem 0) a (List.ofFn r) := by
  have hlen : words (List.ofFn r).length = 1 := by rw [List.length_ofFn]; rfl
  have hword : ∀ i < words (List.ofFn r).length, Mapped (w.target.mem 0) (off a (8 * i)) := by
    intro i hi
    rw [hlen] at hi
    obtain rfl := Nat.lt_one_iff.mp hi
    rwa [Nat.mul_zero, off_zero]
  obtain ⟨w', hrun, ho, hproc, hmem⟩ := @tracerWrite_ready cfg w t l h _ _ hword
  refine ⟨w', hrun, ho, hproc, ?_⟩
  rw [hmem, pokeLoop_word, if_pos hmap]

theorem bp_setBp (p : Process) (o : Option Bp) (sel : BpSel) :
    (p.setBp o sel).bp = Function.update p.bp sel o := by
  funext sel'
  cases sel <;> cases sel' <;> rfl

/-- The breakpoint `sel` is replaced in the engine. -/
def putBp (w : World) (sel : BpSel) (o : Option Bp) : World := { w with proc := w.proc.setBp o sel }

theorem setBp_run (sel : BpSel) (o : Option Bp) (w : World) :
    setBp sel o w = .ok () (putBp w sel o) ∧ Onward w (putBp w sel o) := by
  have hrun : setBp sel o w = .ok () (putBp w sel o) := rfl
  exact ⟨hrun, Within.of_ok hrun, fun _ => id⟩

theorem getBp_run {sel : BpSel} {b : Bp} (hb : w.proc.bp sel = some b) :
    getBp sel w = .ok b w := by
  have hget : (get : EngineM World) w = .ok w w := rfl
  unfold getBp
  rw [ok_bind hget, hb]
  rfl

/-- `enable_breakpoint` succeeds. -/
theorem enableBreakpoint_ready (h : Ready w t l) {sel : BpSel} {b : Bp} {text : Mem}
    (hu : Under text (w.target.mem 0) w.proc.bp) (hb : w.proc.bp sel = some b)
    (hst : b.status = .set ∨ b.status = .disabled) (hmap : Mapped (w.target.mem 0) b.addressAt) :
    ∃ w' b', enableBreakpoint cfg sel w = .ok () w' ∧ Onward w w' ∧
      Under text (w'.target.mem 0) w'.proc.bp ∧
      w'.proc.bp = Function.update w.proc.bp sel (some b') ∧ b'.addressAt = b.addressAt ∧
      b'.status = .enabled := by
  have hne : b.status ≠ .enabled := by
    rcases hst with hst | hst <;> (rw [hst]; decide)
  obtain ⟨orig, horig⟩ : ∃ r, peek (w.target.mem 0) b.addressAt = some r :=
    ⟨_, if_pos hmap⟩
  have hread : tracerReadWord cfg true b.addressAt w = .ok orig w := by
    rw [tracerReadWord_halted h.toHalted, h.contextMem, h.mm, horig]
    rfl
  -- the word is saved, the trap is written, and the status changes
  obtain ⟨hset, ho₁⟩ := setBp_run sel (some { b with origInstruction := orig }) w
  have hmap₁ := ho₁.mapped _ hmap
  obtain ⟨w₂, hwrite, ho₂, hproc₂, hmem₂⟩ :=
    @tracerWrite_word cfg _ t l (h.onward ho₁) b.addressAt hmap₁ (blend orig)
  have hen : Bp.enable { b with origInstruction := orig } =
      { b with origInstruction := orig, status := .enabled } := if_pos hst
  obtain ⟨hset', ho₃⟩ := setBp_run sel (some (Bp.enable { b with origInstruction := orig })) w₂
  have hbps : (putBp w₂ sel (some (Bp.enable { b with origInstruction := orig }))).proc.bp =
      Function.update w.proc.bp sel
        (some { b with origInstruction := orig, status := .enabled }) := by
    show (w₂.proc.setBp _ sel).bp = _
    rw [bp_setBp, hproc₂, hen]
    show Function.update (w.proc.setBp _ sel).bp sel _ = _
    rw [bp_setBp, Function.update_idem]
  refine ⟨_, { b with origInstruction := orig, status := .enabled }, ?_,
    (ho₁.trans ho₂).trans ho₃, ?_, hbps, rfl, rfl⟩
  · unfold enableBreakpoint
    rw [ok_bind (getBp_run hb), if_pos hst, ok_bind hread]
    dsimp only
    rw [ok_bind hset, ok_bind hwrite]
    exact hset'
  · rw [hbps]
    show Under text (w₂.target.mem 0) _
    rw [hmem₂]
    exact hu.enable hb hne (peek_eq_some horig).2

/-- `disable_breakpoint` succeeds. -/
theorem disableBreakpoint_ready (h : Ready w t l) {sel : BpSel} {b : Bp} {text : Mem}
    (hu : Under text (w.target.mem 0) w.proc.bp) (hb : w.proc.bp sel = some b)
    (hst : b.status = .enabled) (hmap : Mapped (w.target.mem 0) b.addressAt) :
    ∃ w', disableBreakpoint cfg sel true true w = .ok () w' ∧ Onward w w' ∧
      Under text (w'.target.mem 0) w'.proc.bp ∧
      w'.proc.bp = Function.update w.proc.bp sel (some { b with status := .disabled }) := by
  obtain ⟨w₁, hwrite, ho₁, hproc₁, hmem₁⟩ := @tracerWrite_word cfg w t l h _ hmap b.origInstruction
  have hdis : b.disable = { b with status := .disabled } := if_pos hst
  obtain ⟨hset, ho₂⟩ := setBp_run sel (some b.disable) w₁
  have hbps : (putBp w₁ sel (some b.disable)).proc.bp =
      Function.update w.proc.bp sel (some { b with status := .disabled }) := by
    show (w₁.proc.setBp _ sel).bp = _
    rw [bp_setBp, hproc₁, hdis]
  refine ⟨_, ?_, ho₁.trans ho₂, ?_, hbps⟩
  · unfold disableBreakpoint
    rw [ok_bind (getBp_run hb), if_pos hst, ok_bind hwrite]
    exact hset
  · rw [hbps]
    show Under text (w₁.target.mem 0) _
    rw [hmem₁]
    exact hu.disable hb hst

end Calls

/-! ## The launch breakpoint -/

/-- Where an image has the launch breakpoint. -/
def launchOf (im : Image) : Option VA :=
  ((im .launchBreakpoint).filter Symbol.isDefined).map Symbol.relocatedAddress

/-- `n` bytes from `a` on are a variable of an image that the engine writes. -/
inductive Variable (cfg : Config) (im : Image) : VA → Nat → Prop
  | beingDebug {s : Symbol} (hs : im .beingDebug = some s) : Variable cfg im s.relocatedAddress 4
  | execPath {s : Symbol} (hc : cfg.colocSup = true) (hs : im .execPath = some s) :
      Variable cfg im s.relocatedAddress (cfg.daemonPath.length + 1)
  | serverArgs {s : Symbol} (hc : cfg.colocSup = true) (hs : im .serverArgs = some s) :
      Variable cfg im s.relocatedAddress bgServerargLength

/-- The launch breakpoint of an image is a word of the text beside the loader breakpoint, and the
    variables are not in the text. -/
structure Laid (cfg : Config) (im : Image) : Prop where
  slot : ∀ a, launchOf im = some a → ∀ i : Fin 8, cfg.text (off a i) ≠ none
  apart : ∀ a, launchOf im = some a → ∀ i j : Fin 8, off a i ≠ off (loaderBreakpoint cfg) j
  data : ∀ a n, Variable cfg im a n → ∀ i < n, cfg.text (off a i) = none

/-- All that `handle_mpir_variables` touches for an image is mapped. -/
structure Open (cfg : Config) (im : Image) (m : Mem) : Prop where
  slot : ∀ a, launchOf im = some a → Mapped m a
  data : ∀ a n, Variable cfg im a n → ∀ i < words n, Mapped m (off a (8 * i))

theorem Open.onward {cfg : Config} {im : Image} {w w' : World} (h : Open cfg im (w.target.mem 0))
    (ho : Onward w w') : Open cfg im (w'.target.mem 0) :=
  ⟨fun a ha => ho.mapped a (h.slot a ha), fun a n ha i hi => ho.mapped _ (h.data a n ha i hi)⟩

/-- The launch breakpoint is inserted at `o`, or nowhere, and there is a loader breakpoint. -/
structure Inserted (cfg : Config) (o : Option VA) (w : World) : Prop where
  under : Under cfg.text (w.target.mem 0) w.proc.bp
  launch : (w.proc.bp .launch).map (fun b => (b.addressAt, b.status)) =
    o.map fun a => (a, BpStatus.enabled)
  loader : ∃ b, w.proc.bp .loader = some b ∧ b.addressAt = loaderBreakpoint cfg ∧
    (b.status = .enabled ∨ b.status = .disabled)

section Launch

variable {cfg : Config} {w : World} {t : LwpId} {l : Lwp} {o : Option VA}

/-- `handle_mpir_variables` moves the launch breakpoint. -/
theorem registerLaunchBp_ready (h : Ready w t l) (hi : Inserted cfg o w) {a : VA}
    (hslot : ∀ i : Fin 8, cfg.text (off a i) ≠ none)
    (hap : ∀ i j : Fin 8, off a i ≠ off (loaderBreakpoint cfg) j)
    (hmap : Mapped (w.target.mem 0) a) (hold : ∀ a₀ ∈ o, Mapped (w.target.mem 0) a₀) :
    ∃ w', registerLaunchBp cfg a w = .ok () w' ∧ Onward w w' ∧ Inserted cfg (some a) w' := by
  have hget : (get : EngineM World) w = .ok w w := rfl
  obtain ⟨bL, hbL, haddrL, hstL⟩ := hi.loader
  -- the old one is removed
  have hremoved : ∃ w₁, whenever (w.proc.launchHiddenBp.any fun b => b.status = .enabled)
      (disableBreakpoint cfg .launch true true) w = .ok () w₁ ∧ Onward w w₁ ∧
      Under cfg.text (w₁.target.mem 0) w₁.proc.bp ∧ w₁.proc.bp .loader = some bL ∧
      ∀ c, w₁.proc.bp .launch = some c → c.status ≠ .enabled := by
    cases hb : w.proc.bp .launch with
    | none =>
      have hnone : w.proc.launchHiddenBp = none := hb
      rw [hnone]
      refine ⟨w, rfl, .refl w, hi.under, hbL, fun c hc => ?_⟩
      rw [hb] at hc
      cases hc
    | some b =>
      obtain ⟨a₀, rfl, hcore⟩ : ∃ a₀, o = some a₀ ∧ (b.addressAt, b.status) = (a₀, .enabled) := by
        have hl := hi.launch
        rw [hb] at hl
        obtain ⟨a₀, ho, hcore⟩ := Option.map_eq_some_iff.mp hl.symm
        exact ⟨a₀, ho, hcore.symm⟩
      obtain ⟨haddr, hen⟩ := Prod.mk.inj hcore
      obtain ⟨w₁, hrun, ho₁, hu₁, hbps₁⟩ :=
        @disableBreakpoint_ready cfg w t l h _ _ _ hi.under hb hen (haddr ▸ hold a₀ rfl)
      have hsome : w.proc.launchHiddenBp = some b := hb
      refine ⟨w₁, ?_, ho₁, hu₁, ?_, fun c hc => ?_⟩
      · rw [hsome]
        show whenever (decide (b.status = .enabled)) _ w = _
        rw [decide_eq_true hen]
        exact hrun
      · rw [hbps₁, Function.update_of_ne (by decide)]
        exact hbL
      · rw [hbps₁, Function.update_self] at hc
        cases hc
        exact fun hf => nomatch hf
  obtain ⟨w₁, hrun₁, ho₁, hu₁, hbL₁, hnot₁⟩ := hremoved
  -- a new one is made
  obtain ⟨hset₂, ho₂⟩ := setBp_run .launch none w₁
  obtain ⟨hset₃, ho₃⟩ := setBp_run .launch (some (Bp.setAt a)) (putBp w₁ .launch none)
  have ho := (ho₁.trans ho₂).trans ho₃
  have hbps₃ : (putBp (putBp w₁ .launch none) .launch (some (Bp.setAt a))).proc.bp =
      Function.update w₁.proc.bp .launch (some (Bp.setAt a)) := by
    show ((w₁.proc.setBp none .launch).setBp _ .launch).bp = _
    rw [bp_setBp, bp_setBp, Function.update_idem]
  have hu₃ : Under cfg.text (w₁.target.mem 0)
      (Function.update w₁.proc.bp .launch (some (Bp.setAt a))) := by
    refine hu₁.replace hnot₁ (fun hf => nomatch hf) hslot fun sel' c hne hc i j => ?_
    cases sel' with
    | launch => exact absurd rfl hne
    | loader =>
      cases hbL₁.symm.trans hc
      rw [haddrL]
      exact hap i j
  rw [← hbps₃] at hu₃
  obtain ⟨w₄, b', hrun₄, ho₄, hu₄, hbps₄, haddr₄, hst₄⟩ := @enableBreakpoint_ready cfg _ t l
    (h.onward ho) .launch (Bp.setAt a) _ hu₃ (by rw [hbps₃]; exact Function.update_self ..)
    (Or.inl rfl) (ho.mapped a hmap)
  refine ⟨w₄, ?_, ho.trans ho₄, hu₄, ?_, bL, ?_, haddrL, hstL⟩
  · unfold registerLaunchBp
    rw [ok_bind hget, ok_bind hrun₁, ok_bind hset₂, ok_bind hset₃]
    exact hrun₄
  · rw [hbps₄, Function.update_self]
    show some (b'.addressAt, b'.status) = some (a, .enabled)
    rw [haddr₄, hst₄]
    rfl
  · rw [hbps₄, Function.update_of_ne (by decide), hbps₃, Function.update_of_ne (by decide)]
    exact hbL₁

/-- The engine writes a variable. -/
theorem Inserted.write {w' : World} (hi : Inserted cfg o w) (hproc : w'.proc.bp = w.proc.bp)
    (hmem : ∀ x, cfg.text x ≠ none → w'.target.mem 0 x = w.target.mem 0 x) : Inserted cfg o w' := by
  refine ⟨?_, ?_, ?_⟩
  · rw [hproc]
    exact hi.under.write hmem
  · rw [hproc]
    exact hi.launch
  · rw [hproc]
    exact hi.loader

theorem tracerWrite_inserted (h : Ready w t l) (hi : Inserted cfg o w) {a : VA} {bs : List UInt8}
    (hmap : ∀ i < words bs.length, Mapped (w.target.mem 0) (off a (8 * i)))
    (hdata : ∀ i < bs.length, cfg.text (off a i) = none) :
    ∃ w', tracerWrite cfg true a bs w = .ok () w' ∧ Onward w w' ∧ Inserted cfg o w' := by
  obtain ⟨w', hrun, ho, hproc, hmem⟩ := @tracerWrite_ready cfg w t l h a bs hmap
  refine ⟨w', hrun, ho, hi.write (by rw [hproc]) fun x hx => ?_⟩
  rw [hmem]
  refine pokeLoop_outside fun i hlt heq => hx ?_
  rw [heq]
  exact hdata i hlt

/-- The colocation service succeeds. -/
theorem handleColocation_ready (h : Ready w t l) (hi : Inserted cfg o w) {im : Image}
    (hc : cfg.colocSup = true) (hlaid : Laid cfg im) (hopen : Open cfg im (w.target.mem 0)) :
    ∃ w', handleColocation cfg im w = .ok () w' ∧ Onward w w' ∧ Inserted cfg o w' := by
  have hget : ∀ w : World, (get : EngineM World) w = .ok w w := fun _ => rfl
  unfold handleColocation
  split
  · exact ⟨w, rfl, .refl w, hi⟩
  · -- the path and the arguments are written, if there is a place for both
    have hwrite : ∃ w₁, writeColocation cfg (im .execPath) (im .serverArgs) w = .ok () w₁ ∧
        Onward w w₁ ∧ Inserted cfg o w₁ := by
      cases hep : im .execPath with
      | none => exact ⟨w, rfl, .refl w, hi⟩
      | some ep =>
        cases hsa : im .serverArgs with
        | none => exact ⟨w, rfl, .refl w, hi⟩
        | some sa =>
          have hlen : (cfg.daemonPath ++ [0]).length = cfg.daemonPath.length + 1 :=
            List.length_append
          obtain ⟨w₁, hrun₁, ho₁, hi₁⟩ := @tracerWrite_inserted cfg w t l o h hi ep.relocatedAddress
            (cfg.daemonPath ++ [0]) (by rw [hlen]; exact hopen.data _ _ (.execPath hc hep))
            (by rw [hlen]; exact hlaid.data _ _ (.execPath hc hep))
          cases hargs : cfg.serverArguments with
          | none =>
            refine ⟨w₁, ?_, ho₁, hi₁⟩
            unfold writeColocation
            dsimp only
            rw [ok_bind hrun₁, hargs]
            rfl
          | some args =>
            have hlen' : ((args ++ List.replicate bgServerargLength 0).take
                bgServerargLength).length = bgServerargLength := by
              rw [List.length_take, List.length_append, List.length_replicate]
              omega
            obtain ⟨w₂, hrun₂, ho₂, hi₂⟩ := @tracerWrite_inserted cfg w₁ t l o (h.onward ho₁) hi₁
              sa.relocatedAddress ((args ++ List.replicate bgServerargLength 0).take
                bgServerargLength)
              (by rw [hlen']; exact (hopen.onward ho₁).data _ _ (.serverArgs hc hsa))
              (by rw [hlen']; exact hlaid.data _ _ (.serverArgs hc hsa))
            refine ⟨w₂, ?_, ho₁.trans ho₂, hi₂⟩
            unfold writeColocation
            dsimp only
            rw [ok_bind hrun₁, hargs]
            exact hrun₂
    obtain ⟨w₁, hrun₁, ho₁, hi₁⟩ := hwrite
    rw [ok_bind hrun₁, ok_bind (hget w₁)]
    cases hfifo : (cfg.attfifoSup && (im .attachFifo).isSome && w₁.proc.symAttachFifo.isNone) with
    | false => exact ⟨w₁, rfl, ho₁, hi₁⟩
    | true =>
      refine ⟨_, rfl, ho₁.trans ⟨⟨rfl, rfl, rfl, rfl⟩, fun _ => id⟩, hi₁.write ?_ fun _ _ => rfl⟩
      funext sel
      cases sel <;> rfl

/-- **`handle_mpir_variables`**: the launch breakpoint is where the image has it, if it has it. -/
theorem handleMpirVariables_ready (h : Ready w t l) (hi : Inserted cfg o w) {im : Image}
    (hlaid : Laid cfg im) (hopen : Open cfg im (w.target.mem 0))
    (hold : ∀ a₀ ∈ o, Mapped (w.target.mem 0) a₀) :
    ∃ w', handleMpirVariables cfg im w = .ok () w' ∧ Onward w w' ∧
      Inserted cfg (launchOf im <|> o) w' := by
  have hregister : ∃ w₁, ((im .launchBreakpoint).filter Symbol.isDefined).elim (pure ())
      (fun s => registerLaunchBp cfg s.relocatedAddress) w = .ok () w₁ ∧ Onward w w₁ ∧
      Inserted cfg (launchOf im <|> o) w₁ := by
    cases hs : (im .launchBreakpoint).filter Symbol.isDefined with
    | none =>
      have hnone : launchOf im = none := by
        unfold launchOf
        rw [hs]
        rfl
      rw [hnone]
      refine ⟨w, rfl, .refl w, ?_⟩
      cases o <;> exact hi
    | some s =>
      have hsome : launchOf im = some s.relocatedAddress := by
        unfold launchOf
        rw [hs]
        rfl
      obtain ⟨w₁, hrun, ho, hi₁⟩ := registerLaunchBp_ready h hi (hlaid.slot _ hsome)
        (hlaid.apart _ hsome) (hopen.slot _ hsome) hold
      rw [hsome]
      exact ⟨w₁, hrun, ho, hi₁⟩
  obtain ⟨w₁, hrun₁, ho₁, hi₁⟩ := hregister
  have hdebug : ∃ w₂, (im .beingDebug).elim (pure ())
      (fun s => tracerWrite cfg true s.relocatedAddress (le32 1)) w₁ = .ok () w₂ ∧ Onward w₁ w₂ ∧
      Inserted cfg (launchOf im <|> o) w₂ := by
    cases hs : im .beingDebug with
    | none => exact ⟨w₁, rfl, .refl w₁, hi₁⟩
    | some s =>
      exact tracerWrite_inserted (h.onward ho₁) hi₁
        ((hopen.onward ho₁).data _ _ (.beingDebug hs)) (hlaid.data _ _ (.beingDebug hs))
  obtain ⟨w₂, hrun₂, ho₂, hi₂⟩ := hdebug
  have hcoloc : ∃ w₃, whenever cfg.colocSup (handleColocation cfg im) w₂ = .ok () w₃ ∧
      Onward w₂ w₃ ∧ Inserted cfg (launchOf im <|> o) w₃ := by
    cases hc : cfg.colocSup with
    | false => exact ⟨w₂, rfl, .refl w₂, hi₂⟩
    | true =>
      exact handleColocation_ready ((h.onward ho₁).onward ho₂) hi₂ hc hlaid
        ((hopen.onward ho₁).onward ho₂)
  obtain ⟨w₃, hrun₃, ho₃, hi₃⟩ := hcoloc
  refine ⟨w₃, catching_ok ?_, (ho₁.trans ho₂).trans ho₃, hi₃⟩
  rw [ok_bind hrun₁, ok_bind hrun₂]
  exact hrun₃

end Launch

/-! ## The loader breakpoint -/

section Loader

variable {cfg : Config} {w : World} {t : LwpId} {l : Lwp} {o : Option VA}

/-- Only the loader breakpoint has changed. -/
theorem Inserted.setLoader {w' : World} {b : Bp} (hi : Inserted cfg o w)
    (hu : Under cfg.text (w'.target.mem 0) w'.proc.bp)
    (hbps : w'.proc.bp = Function.update w.proc.bp .loader (some b))
    (haddr : b.addressAt = loaderBreakpoint cfg) (hst : b.status = .enabled ∨ b.status = .disabled) :
    Inserted cfg o w' := by
  refine ⟨hu, ?_, b, ?_, haddr, hst⟩
  · rw [hbps, Function.update_of_ne (by decide)]
    exact hi.launch
  · rw [hbps, Function.update_self]

theorem getGprset_ready (h : Ready w t l) : getGprset w = .ok () w := by
  have hget : (get : EngineM World) w = .ok w w := rfl
  obtain ⟨r, hr⟩ := Option.isSome_iff_exists.mp h.thr
  unfold getGprset
  rw [ok_bind hget, h.stack]
  show orThrow .tracer ((w.proc.thr t).map fun _ => ()) w = _
  rw [hr]
  rfl

theorem tracerGetregs_ready (h : Ready w t l) : tracerGetregs cfg w = .ok ⟨l.pc, l.sp⟩ w :=
  tracerGetregs_at h.toAt h.lwp h.stopped

theorem Ready.setLwp (h : Ready w t l) {l' : Lwp} (hp : l'.Ptraceable) (hmm : l'.mm = 0) :
    Ready (w.setLwp t l') t l' := ⟨⟨h.toAt.setLwp t l', World.setLwp_self .., hp⟩, hmm⟩

theorem Inserted.setLwp (hi : Inserted cfg o w) (u : LwpId) (l' : Lwp) :
    Inserted cfg o (w.setLwp u l') := hi.write rfl fun _ _ => rfl

/-- The thread `l` is sent on over the instruction at `a`, and nothing happens to the other threads. -/
structure SentOn (t : LwpId) (l : Lwp) (a : VA) (w w' : World) : Prop where
  lwps : w'.target.lwps = Function.update w.target.lwps t
    (some { l with pc := a, run := .stepping, report := none, stepFrom := some a })
  thrlist : w'.proc.thrlist = w.proc.thrlist
  stack : w'.proc.threadCtxStack = w.proc.threadCtxStack
  child : w'.proc.newChildPid = w.proc.newChildPid
  mapped : ∀ c, Mapped (w.target.mem 0) c → Mapped (w'.target.mem 0) c

/-- A thread that comes to a breakpoint is sent on over the original instruction. -/
theorem handleBpPrologue_under (h : Ready w t l) {text : Mem}
    (hu : Under text (w.target.mem 0) w.proc.bp) {sel : BpSel} {b : Bp} (hb : w.proc.bp sel = some b)
    (hst : b.status = .enabled) (hmap : Mapped (w.target.mem 0) b.addressAt)
    (hsp : Mapped (w.target.mem 0) l.sp) :
    ∃ w' ra, handleBpPrologue cfg sel w = .ok .bpPrologue w' ∧ SentOn t l b.addressAt w w' ∧
      Under text (w'.target.mem 0) w'.proc.bp ∧ w'.proc.bp =
        Function.update w.proc.bp sel (some { b with returnAddr := ra, status := .disabled }) := by
  obtain ⟨ra, hra⟩ : ∃ r, peek (w.target.mem 0) l.sp = some r := ⟨_, if_pos hsp⟩
  have hread : tracerReadWord cfg true l.sp w = .ok ra w := by
    rw [tracerReadWord_halted h.toHalted, h.contextMem, h.mm, hra]
    rfl
  -- the return address is kept
  let b₁ : Bp := { b with returnAddr := wordVA ra }
  obtain ⟨hset₁, ho₁⟩ := setBp_run sel (some b₁) w
  have hreturn : setReturnAddr sel (wordVA ra) w = .ok () (putBp w sel (some b₁)) := by
    unfold setReturnAddr
    rw [ok_bind (getBp_run hb)]
    exact hset₁
  have hbps₁ : (putBp w sel (some b₁)).proc.bp = Function.update w.proc.bp sel (some b₁) :=
    bp_setBp ..
  have hb₁ : (putBp w sel (some b₁)).proc.bp sel = some b₁ := by
    rw [hbps₁, Function.update_self]
  have hu₁ : Under text ((putBp w sel (some b₁)).target.mem 0) (putBp w sel (some b₁)).proc.bp := by
    refine hu.env (fun sel' => ?_) (fun _ _ _ _ => rfl) fun x _ => Or.inl rfl
    rw [hbps₁]
    by_cases hsel : sel' = sel
    · subst hsel
      rw [Function.update_self, hb]
      rfl
    · rw [Function.update_of_ne hsel]
  -- the original instruction is put back
  obtain ⟨w₂, hdis, ho₂, hu₂, hbps₂⟩ :=
    @disableBreakpoint_ready cfg _ t l (h.onward ho₁) _ _ _ hu₁ hb₁ hst (ho₁.mapped _ hmap)
  have hbps : w₂.proc.bp = Function.update w.proc.bp sel (some { b₁ with status := .disabled }) := by
    rw [hbps₂, hbps₁, Function.update_idem]
  have hb₂ : w₂.proc.bp sel = some { b₁ with status := .disabled } := by
    rw [hbps, Function.update_self]
  have h₂ : Ready w₂ t l := (h.onward ho₁).onward ho₂
  have hthreads : SameThreads w w₂ := trans_of SameThreads ho₁.threads ho₂.threads
  -- and the thread executes it
  let l₃ : Lwp := { l with pc := b.addressAt, sp := l.sp }
  let l₄ : Lwp := { l₃ with run := .stepping, report := none, stepFrom := some b.addressAt }
  have h₃ : Ready (w₂.setLwp t l₃) t l₃ := h₂.setLwp h.stopped h.mm
  have hsetregs : tracerSetregs cfg ⟨b.addressAt, l.sp⟩ w₂ = .ok () (w₂.setLwp t l₃) := by
    unfold tracerSetregs
    rw [ok_bind (getGprset_ready h₂), ok_bind h₂.focus]
    rfl
  have hstep : tracerSinglestep cfg (w₂.setLwp t l₃) = .ok () ((w₂.setLwp t l₃).setLwp t l₄) := by
    unfold tracerSinglestep
    rw [ok_bind h₃.focus]
    rfl
  have hlwps : ((w₂.setLwp t l₃).setLwp t l₄).target.lwps =
      Function.update w₂.target.lwps t (some l₄) := Function.update_idem ..
  refine ⟨(w₂.setLwp t l₃).setLwp t l₄, wordVA ra, catching_ok ?_, ?_, hu₂, hbps⟩
  · rw [ok_bind (tracerGetregs_ready h)]
    dsimp only
    rw [ok_bind hread, ok_bind hreturn, ok_bind hdis, ok_bind (getBp_run hb₂)]
    dsimp only
    rw [ok_bind hsetregs, ok_bind hstep]
    rfl
  · refine ⟨?_, hthreads.thrlist, hthreads.stack, hthreads.child, fun c hc => ?_⟩
    · rw [hlwps, hthreads.lwps]
    · exact ho₂.mapped c (ho₁.mapped c hc)

/-- The prologue: the breakpoint has been enabled. -/
theorem isBpPrologueDone_enabled (h : Ready w t l) {text : Mem}
    (hu : Under text (w.target.mem 0) w.proc.bp) {sel : BpSel} {b : Bp} (hb : w.proc.bp sel = some b)
    (hst : b.status = .enabled) (hmap : Mapped (w.target.mem 0) b.addressAt)
    (hsp : Mapped (w.target.mem 0) l.sp) :
    ∃ w' ra, isBpPrologueDone cfg sel w = .ok false w' ∧ SentOn t l b.addressAt w w' ∧
      Under text (w'.target.mem 0) w'.proc.bp ∧ w'.proc.bp =
        Function.update w.proc.bp sel (some { b with returnAddr := ra, status := .disabled }) := by
  obtain ⟨w', ra, hrun, hend⟩ := @handleBpPrologue_under cfg w t l h text hu sel b hb hst hmap hsp
  refine ⟨w', ra, catching_ok ?_, hend⟩
  rw [ok_bind (tracerGetregs_ready h), ok_bind (getBp_run hb), if_neg (by rw [hst]; decide),
    ok_bind hrun]
  rfl

/-- Its completion: the breakpoint has been disabled. -/
theorem isBpPrologueDone_disabled (h : Ready w t l) {text : Mem}
    (hu : Under text (w.target.mem 0) w.proc.bp) {sel : BpSel} {b : Bp} (hb : w.proc.bp sel = some b)
    (hst : b.status = .disabled) (hmap : Mapped (w.target.mem 0) b.addressAt) :
    ∃ w' b', isBpPrologueDone cfg sel w = .ok true w' ∧ Onward w w' ∧
      Under text (w'.target.mem 0) w'.proc.bp ∧
      w'.proc.bp = Function.update w.proc.bp sel (some b') ∧ b'.addressAt = b.addressAt ∧
      b'.status = .enabled := by
  obtain ⟨w', b', hrun, hend⟩ :=
    @enableBreakpoint_ready cfg w t l h _ _ _ hu hb (Or.inr hst) hmap
  refine ⟨w', b', catching_ok ?_, hend⟩
  rw [ok_bind (tracerGetregs_ready h), ok_bind (getBp_run hb), if_pos hst, ok_bind hrun]
  rfl

/-- The prologue, or its completion, at the loader breakpoint. -/
theorem isBpPrologueDone_ready (h : Ready w t l) (hi : Inserted cfg o w)
    (hmap : Mapped (w.target.mem 0) (loaderBreakpoint cfg)) (hsp : Mapped (w.target.mem 0) l.sp) :
    (∃ w', isBpPrologueDone cfg .loader w = .ok false w' ∧ Inserted cfg o w' ∧
      (∃ b, w'.proc.bp .loader = some b ∧ b.status = .disabled) ∧
      ∀ c, Mapped (w.target.mem 0) c → Mapped (w'.target.mem 0) c) ∧
        ¬(∃ b, w.proc.bp .loader = some b ∧ b.status = .disabled) ∨
    (∃ w', isBpPrologueDone cfg .loader w = .ok true w' ∧ Inserted cfg o w' ∧ Onward w w') ∧
      ∃ b, w.proc.bp .loader = some b ∧ b.status = .disabled := by
  obtain ⟨b, hb, haddr, hst | hst⟩ := hi.loader
  · left
    obtain ⟨w', ra, hrun, hsent, hu, hbps⟩ :=
      @isBpPrologueDone_enabled cfg w t l h _ hi.under _ b hb hst (haddr.symm ▸ hmap) hsp
    have hb' : w'.proc.bp .loader = some { b with returnAddr := ra, status := .disabled } := by
      rw [hbps, Function.update_self]
    refine ⟨⟨w', hrun, hi.setLoader hu hbps haddr (Or.inr rfl), ⟨_, hb', rfl⟩, hsent.mapped⟩, ?_⟩
    rintro ⟨c, hc, hst'⟩
    cases hb.symm.trans hc
    cases hst.symm.trans hst'
  · right
    obtain ⟨w', b', hrun, ho, hu, hbps, haddr', hst'⟩ :=
      @isBpPrologueDone_disabled cfg w t l h _ hi.under _ b hb hst (haddr.symm ▸ hmap)
    exact ⟨⟨w', hrun, hi.setLoader hu hbps (haddr'.trans haddr) (Or.inl hst'), ho⟩, b, hb, hst⟩

end Loader

end LaunchMON.Engine.LinkMap
