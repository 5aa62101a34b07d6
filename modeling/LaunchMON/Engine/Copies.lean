/-
  The text in all memories of a run.

  1. **The writes.**  Under `Layout`, each write of the engine keeps the invariant `Text` of the
     launcher's memory: the text is original but for the traps of enabled breakpoints, and these are
     there.  In all other memories the text is original but for traps at locations of breakpoints
     (`Texts`).

  2. **The calls.**  What `enable_breakpoint` and `disable_breakpoint` do in a context is said once, with
     all their ends (`enableBreakpoint_ends`, `disableBreakpoint_ends`), so the invariant goes through
     the handlers by their frames.

  3. **The first trap.**  The loader breakpoint is made there, when there is none (`Texts.In.of_first`).
-/
import LaunchMON.Engine.LaunchBp
import LaunchMON.Engine.Text

namespace LaunchMON.Engine

open Effect Lmonp LinkMap

set_option synthInstance.maxSize 4096

variable {cfg : Config}

/-! ## The invariant -/

/-- The text in all memories.  There is no loader breakpoint while `early` holds, and the first trap has
    been handled unless `mark` holds. -/
structure Texts (cfg : Config) (early mark : Prop) (w : World) : Prop where
  text : Text cfg True w
  copies : ∀ mm a v, w.target.mem mm a = some v → cfg.text a ≠ none →
    cfg.text a = some v ∨ v = 0xcc ∧ cfg.Slot a
  first : early → w.proc.loaderHiddenBp = none
  never : w.proc.neverTrapped = true → mark

/-- In the context of a thread of the launcher. -/
def Texts.In (cfg : Config) (early mark : Prop) (t : LwpId) (w : World) : Prop :=
  Kin.In cfg t w ∧ Texts cfg early mark w

variable {early mark : Prop} {w w' : World}

/-- The text of a launcher, from what `Under` says of its memory. -/
theorem Text.of_under (h : Under cfg.text (w.target.mem 0) w.proc.bp)
    (hslot : ∀ sel b, w.proc.bp sel = some b → (sel = .launch → cfg.LaunchSlot b.addressAt) ∧
      (sel = .loader → b.addressAt = loaderBreakpoint cfg))
    (hr : ∀ im, w.proc.rmso = some im → cfg.rmsoImage = some im)
    (hsaved : ∀ sel b, w.proc.bp sel = some b → b.status = .enabled ∨ b.status = .disabled →
      Mapped (w.target.mem 0) b.addressAt ∧
        ∀ i : Fin 8, cfg.text (off b.addressAt i) = some (b.origInstruction i)) : Text cfg True w where
  launch b hb := (hslot .launch b hb).1 rfl
  loader b hb := (hslot .loader b hb).2 rfl
  rmso := hr
  saved sel b hb hst i := by
    obtain ⟨hmap, htext⟩ := hsaved sel b hb hst
    exact ⟨Option.isSome_iff_ne_none.mp (hmap i), htext i⟩
  byte x v hv hx := by
    rcases h.byte x v hv hx with hv | ⟨sel, b, hb, hst, rfl⟩
    · exact Or.inl hv
    · exact Or.inr ⟨Option.some.inj (hv.symm.trans (h.trap sel b hb hst)), sel, b, hb, hst, rfl⟩
  traps _ := h.trap

theorem Text.slots (h : Text cfg True w) {sel : BpSel} {b : Bp} (hb : w.proc.bp sel = some b) :
    (sel = .launch → cfg.LaunchSlot b.addressAt) ∧
      (sel = .loader → b.addressAt = loaderBreakpoint cfg) :=
  ⟨by rintro rfl; exact h.launch b hb, by rintro rfl; exact h.loader b hb⟩

/-- What an enabled or disabled breakpoint has saved. -/
theorem Text.kept (h : Text cfg True w) {sel : BpSel} {b : Bp} (hb : w.proc.bp sel = some b)
    (hst : b.status = .enabled ∨ b.status = .disabled) : Mapped (w.target.mem 0) b.addressAt ∧
      ∀ i : Fin 8, cfg.text (off b.addressAt i) = some (b.origInstruction i) :=
  ⟨fun i => Option.isSome_iff_ne_none.mpr (h.saved sel b hb hst i).1,
    fun i => (h.saved sel b hb hst i).2⟩

theorem setMem_self (w : World) : setMem w (w.target.mem 0) = w := by
  unfold setMem Target.setMem
  rw [Function.update_eq_self]

/-- The launcher's memory, as `Under` has it. -/
theorem Text.under [Layout cfg] (h : Text cfg True w) : Under cfg.text (w.target.mem 0) w.proc.bp where
  slots _ _ hb := Layout.slot _ (h.slot hb)
  apart _ _ _ _ hb hb' hne := h.apart hb hb' hne
  saved sel b hb hst i := (h.saved sel b hb (Or.inl hst) i).2
  trap := h.traps trivial
  byte x v hv hx := by
    rcases h.byte x v hv hx with hv | ⟨-, sel, b, hb, hst, hx⟩
    · exact Or.inl hv
    · exact Or.inr ⟨sel, b, hb, hst, hx⟩

namespace Texts

/-- The engine writes a word of the launcher's text and notes it with its breakpoint. -/
theorem put (h : Texts cfg early mark w) {sel : BpSel} {b b' : Bp} {m : Mem}
    (hb : w.proc.bp sel = some b) (haddr : b'.addressAt = b.addressAt)
    (hu : Under cfg.text m (Function.update w.proc.bp sel (some b')))
    (hsaved : b'.status = .enabled ∨ b'.status = .disabled → Mapped m b.addressAt ∧
      ∀ i : Fin 8, cfg.text (off b.addressAt i) = some (b'.origInstruction i))
    (hmap : ∀ a, Mapped (w.target.mem 0) a → Mapped m a) :
    Texts cfg early mark (putBp (setMem w m) sel (some b')) := by
  have hmem : (putBp (setMem w m) sel (some b')).target.mem 0 = m := setMem_mem w m
  have hbps : (putBp (setMem w m) sel (some b')).proc.bp = Function.update w.proc.bp sel (some b') :=
    bp_setBp w.proc _ sel
  refine ⟨Text.of_under ?_ ?_ ?_ ?_, ?_, ?_, ?_⟩
  · rw [hmem, hbps]
    exact hu
  · intro sel' c hc
    rw [hbps] at hc
    rcases update_eq_some hc with ⟨rfl, rfl⟩ | ⟨-, hc⟩
    · rw [haddr]
      exact h.text.slots hb
    · exact h.text.slots hc
  · intro im him
    refine h.text.rmso im ?_
    cases sel <;> exact him
  · intro sel' c hc hst
    rw [hbps] at hc
    rw [hmem]
    rcases update_eq_some hc with ⟨rfl, rfl⟩ | ⟨-, hc⟩
    · rw [haddr]
      exact hsaved hst
    · obtain ⟨hmapped, htext⟩ := h.text.kept hc hst
      exact ⟨hmap _ hmapped, htext⟩
  · intro mm a v hv ha
    by_cases hmm : mm = 0
    · subst hmm
      rw [hmem] at hv
      rcases hu.byte a v hv ha with hv' | ⟨sel', c, hc, hst, rfl⟩
      · exact Or.inl hv'
      · refine Or.inr ⟨Option.some.inj (hv.symm.trans (hu.trap sel' c hc hst)), ?_⟩
        rcases update_eq_some hc with ⟨rfl, rfl⟩ | ⟨-, hc⟩
        · rw [haddr]
          exact h.text.slot hb
        · exact h.text.slot hc
    · refine h.copies mm a v ?_ ha
      rw [← hv]
      exact (congrFun (Target.setMem_ne _ hmm m) a).symm
  · intro he
    have hnone := h.first he
    cases sel with
    | launch => exact hnone
    | loader => cases hnone.symm.trans hb
  · intro hn
    refine h.never ?_
    cases sel <;> exact hn

/-- The launch breakpoint is taken away when it is not enabled. -/
theorem clear (h : Texts cfg early mark w)
    (hold : ∀ c, w.proc.bp .launch = some c → c.status ≠ .enabled) :
    Texts cfg early mark (putBp w .launch none) := by
  have hbps : (putBp w .launch none).proc.bp = Function.update w.proc.bp .launch none := bp_setBp ..
  have hback : ∀ sel c, (putBp w .launch none).proc.bp sel = some c → w.proc.bp sel = some c := by
    intro sel c hc
    cases sel with
    | launch => cases hc
    | loader => exact hc
  refine ⟨⟨nofun, h.text.loader, h.text.rmso, fun sel c hc => h.text.saved sel c (hback sel c hc),
    fun a v hv ha => ?_, fun _ sel c hc => h.text.traps trivial sel c (hback sel c hc)⟩, h.copies,
    h.first, h.never⟩
  rcases h.text.byte a v hv ha with hv | ⟨hcc, sel, c, hc, hst, ha⟩
  · exact Or.inl hv
  · refine Or.inr ⟨hcc, sel, c, ?_, hst, ha⟩
    cases sel with
    | launch => exact absurd hst (hold c hc)
    | loader => exact hc

theorem setAt_status (a : VA) : (Bp.setAt a).status = .set := rfl

/-- A new breakpoint where there was none. -/
theorem fresh (h : Texts cfg early mark w) {sel : BpSel} {a : VA} (hnone : w.proc.bp sel = none)
    (hslot : (sel = .launch → cfg.LaunchSlot a) ∧ (sel = .loader → a = loaderBreakpoint cfg ∧ ¬early)) :
    Texts cfg early mark (putBp w sel (some (Bp.setAt a))) := by
  have hbps : (putBp w sel (some (Bp.setAt a))).proc.bp =
      Function.update w.proc.bp sel (some (Bp.setAt a)) := bp_setBp ..
  have hset : (Bp.setAt a).status ≠ .enabled := by
    rw [setAt_status]
    decide
  have hback : ∀ sel' c, (putBp w sel (some (Bp.setAt a))).proc.bp sel' = some c →
      sel' = sel ∧ c = Bp.setAt a ∨ w.proc.bp sel' = some c := by
    intro sel' c hc
    rw [hbps] at hc
    exact (update_eq_some hc).imp_right And.right
  refine ⟨⟨fun c hc => ?_, fun c hc => ?_, fun im him => h.text.rmso im ?_, fun sel' c hc hst => ?_,
    fun x v hv hx => ?_, fun _ sel' c hc hst => ?_⟩, h.copies, fun he => ?_, fun hn => h.never ?_⟩
  · rcases hback .launch c hc with ⟨rfl, rfl⟩ | hc
    · exact hslot.1 rfl
    · exact h.text.launch c hc
  · rcases hback .loader c hc with ⟨rfl, rfl⟩ | hc
    · exact (hslot.2 rfl).1
    · exact h.text.loader c hc
  · cases sel <;> exact him
  · rcases hback sel' c hc with ⟨rfl, rfl⟩ | hc
    · rw [setAt_status] at hst
      rcases hst with hst | hst <;> cases hst
    · exact h.text.saved sel' c hc hst
  · rcases h.text.byte x v hv hx with hv | ⟨hcc, sel', c, hc, hst, hx⟩
    · exact Or.inl hv
    · refine Or.inr ⟨hcc, sel', c, ?_, hst, hx⟩
      have hne : sel' ≠ sel := by
        rintro rfl
        cases hnone.symm.trans hc
      rw [hbps, Function.update_of_ne hne]
      exact hc
  · rcases hback sel' c hc with ⟨rfl, rfl⟩ | hc
    · exact absurd hst hset
    · exact h.text.traps trivial sel' c hc hst
  · cases sel with
    | launch => exact h.first he
    | loader => exact absurd he (hslot.2 rfl).2
  · cases sel <;> exact hn

section Layout

variable [Layout cfg]

/-- Nothing that matters has changed. -/
theorem congr (h : Texts cfg early mark w) (hm : w'.target.mem = w.target.mem)
    (hb : ∀ sel, w'.proc.bp sel = w.proc.bp sel)
    (hr : ∀ im, w'.proc.rmso = some im → cfg.rmsoImage = some im)
    (hn : w'.proc.neverTrapped = true → w.proc.neverTrapped = true) : Texts cfg early mark w' where
  text := h.text.congr (fun a _ => by rw [hm]) hb hr
  copies mm a v hv ha := h.copies mm a v (hm ▸ hv) ha
  first he := (hb .loader).trans (h.first he)
  never hn' := h.never (hn hn')

/-- Another thread. -/
theorem setTarget (h : Texts cfg early mark w) {T : Target} (hm : T.mem = w.target.mem) :
    Texts cfg early mark { w with target := T } := h.congr hm (fun _ => rfl) h.text.rmso id

/-- A write outside of the text. -/
theorem data (h : Texts cfg early mark w) {m : Mem}
    (hm : ∀ a, cfg.text a ≠ none → m a = w.target.mem 0 a) : Texts cfg early mark (setMem w m) where
  text := by
    refine h.text.congr (fun a ha => ?_) (fun _ => rfl) h.text.rmso
    rw [setMem_mem]
    exact hm a ha
  copies mm a v hv ha := by
    by_cases hmm : mm = 0
    · subst hmm
      rw [setMem_mem, hm a ha] at hv
      exact h.copies 0 a v hv ha
    · exact h.copies mm a v ((congrFun (Target.setMem_ne _ hmm m) a).symm.trans hv) ha
  first := h.first
  never := h.never

/-- `enable_breakpoint`, when it has come to its end. -/
theorem enable (h : Texts cfg early mark w) {sel : BpSel} {b : Bp} {orig : Word}
    (hb : w.proc.bp sel = some b) (hst : b.status ≠ .enabled)
    (horig : peek (w.target.mem 0) b.addressAt = some orig) :
    Texts cfg early mark (putBp (setMem w (overwrite (w.target.mem 0) b.addressAt
      (List.ofFn (blend orig)))) sel (some { b with origInstruction := orig, status := .enabled })) := by
  obtain ⟨hmap, hword⟩ := peek_eq_some horig
  refine h.put hb rfl (h.text.under.enable hb hst hword) (fun _ => ⟨mapped_overwrite hmap, fun i => ?_⟩)
    fun a => mapped_overwrite
  exact h.text.under.original hb hst i (hword i)

/-- `disable_breakpoint`, when it has come to its end. -/
theorem disable (h : Texts cfg early mark w) {sel : BpSel} {b : Bp} (hb : w.proc.bp sel = some b)
    (hst : b.status = .enabled) : Texts cfg early mark
      (putBp (setMem w (overwrite (w.target.mem 0) b.addressAt (List.ofFn b.origInstruction))) sel
        (some { b with status := .disabled })) := by
  obtain ⟨hmap, htext⟩ := h.text.kept hb (Or.inl hst)
  exact h.put hb rfl (h.text.under.disable hb hst) (fun _ => ⟨mapped_overwrite hmap, htext⟩)
    fun a => mapped_overwrite

/-- `enable_breakpoint`, when it has come no further than to the word it replaces. -/
theorem noted (h : Texts cfg early mark w) {sel : BpSel} {b : Bp} {orig : Word}
    (hb : w.proc.bp sel = some b) (hst : b.status ≠ .enabled)
    (horig : peek (w.target.mem 0) b.addressAt = some orig) :
    Texts cfg early mark (putBp w sel (some { b with origInstruction := orig })) := by
  obtain ⟨hmap, hword⟩ := peek_eq_some horig
  have hunder := h.text.under
  have hu : Under cfg.text (w.target.mem 0)
      (Function.update w.proc.bp sel (some { b with origInstruction := orig })) := by
    refine hunder.replace (fun c hc => ?_) hst (hunder.slots sel b hb) fun sel' c hne hc i j => ?_
    · cases hb.symm.trans hc
      exact hst
    · exact hunder.apart sel sel' b c hb hc hne.symm i j
  have hput := @put cfg early mark w h sel b { b with origInstruction := orig } (w.target.mem 0) hb rfl
    hu (fun _ => ⟨hmap, fun i => hunder.original hb hst i (hword i)⟩) fun _ => id
  rwa [setMem_self] at hput

/-- `set_return_addr`. -/
theorem returnAddr (h : Texts cfg early mark w) {sel : BpSel} {b : Bp} (hb : w.proc.bp sel = some b)
    (ra : VA) : Texts cfg early mark (putBp w sel (some { b with returnAddr := ra })) := by
  have hcore : ∀ sel', (Function.update w.proc.bp sel (some { b with returnAddr := ra }) sel').map
      Under.core = (w.proc.bp sel').map Under.core := by
    intro sel'
    by_cases hsel : sel' = sel
    · rw [hsel, Function.update_self, hb]
      rfl
    · rw [Function.update_of_ne hsel]
  have hput := @put cfg early mark w h sel b { b with returnAddr := ra } (w.target.mem 0) hb rfl
    (h.text.under.env hcore (fun _ _ _ _ => rfl) fun _ _ => Or.inl rfl)
    (fun hst => h.text.kept hb hst) fun _ => id
  rwa [setMem_self] at hput

end Layout

end Texts

/-! ## Calls of the tracer -/

theorem getBp_none {sel : BpSel} (hb : w.proc.bp sel = none) : getBp sel w = .error .crash w := by
  have hget : (get : EngineM World) w = .ok w w := rfl
  unfold getBp
  rw [ok_bind hget, hb]
  rfl

/-- The memory of the thread of the context takes what is written, or nothing happens. -/
theorem tracerWrite_final {t : LwpId} {l : Lwp} (h : w.InContext t) (hl : w.target.lwps t = some l)
    (a : VA) (bs : List UInt8) : final (tracerWrite cfg true a bs) w = w ∨
      final (tracerWrite cfg true a bs) w = { w with
        target := w.target.setMem l.mm (pokeLoop (w.target.mem l.mm) a (words bs.length) bs).1 } := by
  have hget : (get : EngineM World) w = .ok w w := rfl
  unfold tracerWrite
  rcases @focus_inContext cfg w t h with ⟨l', hl', -, hf⟩ | hf
  · cases hl.symm.trans hl'
    rw [final_bind_ok hf, final_bind_ok hget]
    right
    dsimp only
    split <;> rfl
  · rw [final_bind_error hf]
    exact Or.inl rfl

/-- A word is written through PTRACE. -/
theorem tracerWrite_focus {t : LwpId} {l : Lwp} (hf : focus cfg true w = .ok (t, l) w) (a : VA)
    (r : Word) : tracerWrite cfg true a (List.ofFn r) w = if Mapped (w.target.mem l.mm) a then
      .ok () { w with
        target := w.target.setMem l.mm (overwrite (w.target.mem l.mm) a (List.ofFn r)) }
      else .error .tracer w := by
  have hget : (get : EngineM World) w = .ok w w := rfl
  unfold tracerWrite
  rw [ok_bind hf, ok_bind hget]
  dsimp only
  rw [pokeLoop_word]
  by_cases hm : Mapped (w.target.mem l.mm) a
  · rw [if_pos hm, if_pos hm]
    rfl
  · rw [if_neg hm, if_neg hm]
    have hself : w.target.setMem l.mm (w.target.mem l.mm) = w.target := by
      unfold Target.setMem
      rw [Function.update_eq_self]
    show EStateM.Result.error Exn.tracer { w with target := w.target.setMem l.mm _ } = _
    rw [hself]

/-- A word is written in a context: the memory of its thread takes it, or nothing happens. -/
theorem tracerWrite_ends {t : LwpId} {l : Lwp} (h : w.InContext t) (hl : w.target.lwps t = some l)
    (a : VA) (r : Word) : tracerWrite cfg true a (List.ofFn r) w = .error .tracer w ∨
      tracerWrite cfg true a (List.ofFn r) w = .ok () { w with
        target := w.target.setMem l.mm (overwrite (w.target.mem l.mm) a (List.ofFn r)) } := by
  rcases @focus_inContext cfg w t h with ⟨l', hl', hp, hf⟩ | hf
  · cases hl.symm.trans hl'
    rw [tracerWrite_focus hf]
    by_cases hm : Mapped (w.target.mem l.mm) a
    · rw [if_pos hm]
      exact Or.inr rfl
    · rw [if_neg hm]
      exact Or.inl rfl
  · exact Or.inl (error_bind hf)

/-- `disable_breakpoint` in a context. -/
theorem disableBreakpoint_ends {t : LwpId} {l : Lwp} (h : w.InContext t)
    (hl : w.target.lwps t = some l) {sel : BpSel} {b : Bp} (hb : w.proc.bp sel = some b) :
    (b.status ≠ .enabled ∧ disableBreakpoint cfg sel true true w = .ok () w) ∨
      b.status = .enabled ∧ (disableBreakpoint cfg sel true true w = .error .tracer w ∨
        disableBreakpoint cfg sel true true w = .ok () (putBp { w with
          target := w.target.setMem l.mm
            (overwrite (w.target.mem l.mm) b.addressAt (List.ofFn b.origInstruction)) } sel
          (some { b with status := .disabled }))) := by
  unfold disableBreakpoint
  rw [ok_bind (getBp_run hb)]
  by_cases hst : b.status = .enabled
  · have hdis : b.disable = { b with status := .disabled } := if_pos hst
    rw [if_pos hst]
    refine Or.inr ⟨hst, ?_⟩
    rcases @tracerWrite_ends cfg w t l h hl b.addressAt b.origInstruction with hw | hw
    · exact Or.inl (error_bind hw)
    · rw [ok_bind hw, hdis]
      exact Or.inr rfl
  · rw [if_neg hst]
    exact Or.inl ⟨hst, rfl⟩

/-- `enable_breakpoint` in a context: nothing happens, or the word has been noted, or the trap has been
    written as well. -/
theorem enableBreakpoint_ends {t : LwpId} {l : Lwp} (h : w.InContext t)
    (hl : w.target.lwps t = some l) {sel : BpSel} {b : Bp} (hb : w.proc.bp sel = some b) :
    final (enableBreakpoint cfg sel) w = w ∨ b.status ≠ .enabled ∧
      ∃ orig, peek (w.target.mem l.mm) b.addressAt = some orig ∧
        (final (enableBreakpoint cfg sel) w = putBp w sel (some { b with origInstruction := orig }) ∨
          final (enableBreakpoint cfg sel) w = putBp { w with
            target := w.target.setMem l.mm
              (overwrite (w.target.mem l.mm) b.addressAt (List.ofFn (blend orig))) } sel
            (some { b with origInstruction := orig, status := .enabled })) := by
  have hget : (get : EngineM World) w = .ok w w := rfl
  unfold enableBreakpoint
  rw [final_bind_ok (getBp_run hb)]
  by_cases hst : b.status = .set ∨ b.status = .disabled
  swap
  · rw [if_neg hst]
    exact Or.inl rfl
  rw [if_pos hst]
  have hne : b.status ≠ .enabled := by
    rcases hst with hst | hst <;> (rw [hst]; decide)
  rcases @focus_inContext cfg w t h with ⟨l', hl', hp, hf⟩ | hf
  swap
  · have hread : tracerReadWord cfg true b.addressAt w = .error .tracer w := error_bind hf
    rw [final_bind_error hread]
    exact Or.inl rfl
  cases hl.symm.trans hl'
  have hread : tracerReadWord cfg true b.addressAt w =
      orThrow .tracer (peek (w.target.mem l.mm) b.addressAt) w := by
    unfold tracerReadWord
    rw [ok_bind hf, ok_bind hget]
  cases hpeek : peek (w.target.mem l.mm) b.addressAt with
  | none =>
    rw [hpeek] at hread
    rw [final_bind_error (hread.trans rfl)]
    exact Or.inl rfl
  | some orig =>
    rw [hpeek] at hread
    rw [final_bind_ok (hread.trans rfl)]
    refine Or.inr ⟨hne, orig, rfl, ?_⟩
    obtain ⟨hset, -⟩ := setBp_run sel (some { b with origInstruction := orig }) w
    rw [final_bind_ok hset]
    have hctx : (putBp w sel (some { b with origInstruction := orig })).InContext t := by
      cases sel <;> exact h
    rcases @tracerWrite_ends cfg _ t l hctx hl b.addressAt (blend orig) with hw | hw
    · rw [final_bind_error hw]
      exact Or.inl rfl
    · have hen : Bp.enable { b with origInstruction := orig } =
          { b with origInstruction := orig, status := .enabled } := if_pos hst
      rw [final_bind_ok hw, hen]
      refine Or.inr ?_
      cases sel <;> rfl

/-! ## Frames -/

/-- What the text depends on is as before. -/
structure SameText (w w' : World) : Prop where
  mem : w'.target.mem = w.target.mem
  bp : ∀ sel, w'.proc.bp sel = w.proc.bp sel
  rmso : w'.proc.rmso = w.proc.rmso
  never : w'.proc.neverTrapped = true → w.proc.neverTrapped = true

instance : IsPreorder World SameText where
  refl _ := ⟨rfl, fun _ => rfl, rfl, id⟩
  trans _ _ _ h₁ h₂ := ⟨h₂.mem.trans h₁.mem, fun sel => (h₂.bp sel).trans (h₁.bp sel),
    h₂.rmso.trans h₁.rmso, h₁.never ∘ h₂.never⟩

theorem sameText_modifyProc {f : Process → Process} (hb : ∀ p sel, (f p).bp sel = p.bp sel)
    (hr : ∀ p, (f p).rmso = p.rmso) (hn : ∀ p, (f p).neverTrapped = true → p.neverTrapped = true) :
    Within SameText (modifyProc f) := within_modify fun w => ⟨rfl, hb w.proc, hr w.proc, hn w.proc⟩

/-- Neither a breakpoint nor the library nor the flag of the first trap. -/
theorem sameText_other {f : Process → Process} (hb : ∀ p sel, (f p).bp sel = p.bp sel)
    (hr : ∀ p, (f p).rmso = p.rmso) (hn : ∀ p, (f p).neverTrapped = p.neverTrapped) :
    Within SameText (modifyProc f) := sameText_modifyProc hb hr fun p h => (hn p).symm.trans h

theorem sameText_mapThr (t : LwpId) (f : Thr → Thr) :
    Within SameText (modifyProc fun p => p.mapThr t f) :=
  sameText_other (fun _ sel => by cases sel <;> rfl) (fun _ => rfl) fun _ => rfl

instance (f : Lmon → Lmon) : Within SameText (modifyLmon f) :=
  within_modify fun _ => ⟨rfl, fun _ => rfl, rfl, id⟩

instance (n : Note) : Within SameText (note n) := within_modify fun _ => ⟨rfl, fun _ => rfl, rfl, id⟩

instance (t : LwpId) (l : Lwp) : Within SameText (setLwp t l) :=
  within_modify fun _ => ⟨rfl, fun _ => rfl, rfl, id⟩

instance (b : Bool) : Within SameText (tracerContinue cfg b) := by unfold tracerContinue; infer_instance

instance (sig : Nat) : Within SameText (tracerDeliverSignal cfg sig) := by
  unfold tracerDeliverSignal; infer_instance

instance (b on : Bool) : Within SameText (tracerOptions cfg b on) := by
  unfold tracerOptions; infer_instance

instance (b : Bool) : Within SameText (tracerDetach cfg b) := by unfold tracerDetach; infer_instance

instance (r : Regs) : Within SameText (tracerSetregs cfg r) := by unfold tracerSetregs; infer_instance

instance : Within SameText (tracerSinglestep cfg) := by unfold tracerSinglestep; infer_instance

instance : Within SameText registerEvent := by
  have := sameText_mapThr
  unfold registerEvent; infer_instance

instance (t : LwpId) : Within SameText (handleThrcreateRequest t) := by
  have : Within SameText (modifyProc fun p => p.insertThr t ⟨false, false, false⟩) :=
    sameText_other (fun _ sel => by cases sel <;> rfl) (fun _ => rfl) fun _ => rfl
  unfold handleThrcreateRequest; infer_instance

instance (table : List UInt8) (i : Nat) : Within SameText (acquireRow cfg table i) := by
  unfold acquireRow; infer_instance

instance (w : World) (rid : RidSource) : Within SameText (acquireResid cfg w rid) := by
  cases rid <;> unfold acquireResid <;> try unfold setResid
  all_goals infer_instance

instance (w : World) (n : Nat) : Within SameText (acquireTable cfg w n) := by
  unfold acquireTable; infer_instance

instance : Within SameText (acquireAndShip cfg) := by
  unfold acquireAndShip acquireProctable acquireBody shipProctab; infer_instance

namespace Texts.In

variable {t : LwpId}

/-- The thread of the context uses the launcher's memory. -/
theorem own (h : Texts.In cfg early mark t w) : ∃ l, w.target.lwps t = some l ∧ l.mm = 0 := by
  obtain ⟨l, hl, hown⟩ := h.1.own
  exact ⟨l, hl, h.1.kin.mm t l hl hown⟩

theorem of_same [Layout cfg] {α : Type} {x : EngineM α} (hs : Within SameText x)
    (hk : Within (Keeps (Kin.In cfg t)) x) : Within (Keeps (Texts.In cfg early mark t)) x where
  out w h := by
    have hsame := hs.out w
    exact ⟨hk.out w h.1, h.2.congr hsame.mem hsame.bp
      (fun im him => h.2.text.rmso im (hsame.rmso ▸ him)) hsame.never⟩

/-- A variable of the launcher is written. -/
theorem write [Layout cfg] {a : VA} {n : ℕ} {bs : List UInt8} (hv : cfg.Variable a n)
    (hlen : bs.length = n) : Within (Keeps (Texts.In cfg early mark t)) (tracerWrite cfg true a bs) where
  out w h := by
    refine ⟨h.1.congr ((inferInstance : Within SameThreads (tracerWrite cfg true a bs)).out w), ?_⟩
    obtain ⟨l, hl, hmm⟩ := h.own
    rcases @tracerWrite_final cfg w t l h.1.ctx hl a bs with hw | hw
    · rw [hw]
      exact h.2
    · rw [hw, hmm]
      refine h.2.data fun x hx => pokeLoop_outside fun i hi heq => hx ?_
      rw [heq]
      exact Layout.data a n hv i (hlen ▸ hi)

theorem enable [Layout cfg] (sel : BpSel) :
    Within (Keeps (Texts.In cfg early mark t)) (enableBreakpoint cfg sel) where
  out w h := by
    refine ⟨h.1.congr ((inferInstance : Within SameThreads (enableBreakpoint cfg sel)).out w), ?_⟩
    obtain ⟨l, hl, hmm⟩ := h.own
    cases hb : w.proc.bp sel with
    | none =>
      have hend : final (enableBreakpoint cfg sel) w = w := final_bind_error (getBp_none hb)
      rw [hend]
      exact h.2
    | some b =>
      rcases @enableBreakpoint_ends cfg w t l h.1.ctx hl sel b hb with hend | ⟨hst, orig, hpeek, hend⟩
      · rw [hend]
        exact h.2
      · rw [hmm] at hpeek hend
        rcases hend with hend | hend
        · rw [hend]
          exact h.2.noted hb hst hpeek
        · rw [hend]
          exact h.2.enable hb hst hpeek

/-- After `disable_breakpoint` the breakpoint is not enabled, unless there has been an exception. -/
theorem disable [Layout cfg] {sel : BpSel} (h : Texts.In cfg early mark t w) :
    Texts.In cfg early mark t (final (disableBreakpoint cfg sel true true) w) ∧
      ∀ w', disableBreakpoint cfg sel true true w = .ok () w' →
        ∀ c, w'.proc.bp sel = some c → c.status ≠ .enabled := by
  have hthreads := (inferInstance : Within SameThreads (disableBreakpoint cfg sel true true)).out w
  obtain ⟨l, hl, hmm⟩ := h.own
  cases hb : w.proc.bp sel with
  | none =>
    have hend : disableBreakpoint cfg sel true true w = .error .crash w := error_bind (getBp_none hb)
    rw [final_error hend, hend]
    exact ⟨h, fun w' hw' => nomatch hw'⟩
  | some b =>
    rcases @disableBreakpoint_ends cfg w t l h.1.ctx hl sel b hb with ⟨hst, hend⟩ | ⟨hst, hend | hend⟩
    · rw [final_ok hend, hend]
      refine ⟨h, fun w' hw' c hc => ?_⟩
      rw [← (EStateM.Result.ok.inj hw').2] at hc
      cases hb.symm.trans hc
      exact hst
    · rw [final_error hend, hend]
      exact ⟨h, fun w' hw' => nomatch hw'⟩
    · rw [final_ok hend] at hthreads
      rw [hmm] at hend hthreads
      rw [final_ok hend, hend]
      refine ⟨⟨h.1.congr hthreads, h.2.disable hb hst⟩, fun w' hw' c hc => ?_⟩
      rw [← (EStateM.Result.ok.inj hw').2] at hc
      have hbps : (w.proc.setBp (some { b with status := .disabled }) sel).bp sel = some c := hc
      rw [bp_setBp, Function.update_self] at hbps
      cases hbps
      exact fun hf => nomatch hf

/-- `handle_mpir_variables` moves the launch breakpoint. -/
theorem registerLaunchBp [Layout cfg] {a : VA} (ha : cfg.LaunchSlot a) :
    Within (Keeps (Texts.In cfg early mark t)) (registerLaunchBp cfg a) where
  out w h := by
    have hget : (get : EngineM World) w = .ok w w := rfl
    have hnew : ∀ w', Texts.In cfg early mark t w' →
        (∀ c, w'.proc.bp .launch = some c → c.status ≠ .enabled) →
        Texts.In cfg early mark t (final (do
          setBp .launch none
          setBp .launch (some (Bp.setAt a))
          enableBreakpoint cfg .launch) w') := by
      intro w' h' hst
      rw [final_bind_ok (setBp_run .launch none w').1, final_bind_ok (setBp_run .launch _ _).1]
      refine (enable .launch).out _ ⟨h'.1.congr ⟨rfl, rfl, rfl, rfl⟩, ?_⟩
      exact (h'.2.clear hst).fresh rfl ⟨fun _ => ha, nofun⟩
    unfold Engine.registerLaunchBp
    rw [final_bind_ok hget]
    cases hany : w.proc.launchHiddenBp.any fun b => decide (b.status = .enabled) with
    | false =>
      rw [final_bind_ok (show whenever false _ w = .ok () w from rfl)]
      refine hnew w h fun c hc hst => ?_
      have hsome : w.proc.launchHiddenBp = some c := hc
      rw [hsome] at hany
      exact absurd hst (of_decide_eq_false hany)
    | true =>
      obtain ⟨hin, hok⟩ :
          Texts.In cfg early mark t (final (disableBreakpoint cfg .launch true true) w) ∧ _ := h.disable
      have hwhen : whenever true (disableBreakpoint cfg .launch true true) =
          disableBreakpoint cfg .launch true true := rfl
      rw [hwhen]
      cases hx : disableBreakpoint cfg .launch true true w with
      | ok u w₁ =>
        rw [final_bind_ok hx]
        rw [final_ok hx] at hin
        exact hnew w₁ hin (hok w₁ hx)
      | error e w₁ =>
        rw [final_bind_error hx]
        rwa [final_error hx] at hin

end Texts.In

section Frames

variable [Layout cfg] (early mark : Prop) (t : LwpId)

instance : Frame (Keeps (Texts.In cfg early mark t)) where
  lmon f := Texts.In.of_same inferInstance (Frame.lmon f)
  note n hn := Texts.In.of_same inferInstance (Frame.note n hn)
  threadLib := Texts.In.of_same
    (sameText_other (fun _ sel => by cases sel <;> rfl) (fun _ => rfl) fun _ => rfl) Frame.threadLib
  libc := Texts.In.of_same
    (sameText_other (fun _ sel => by cases sel <;> rfl) (fun _ => rfl) fun _ => rfl) Frame.libc
  attachFifo o := Texts.In.of_same
    (sameText_other (fun _ sel => by cases sel <;> rfl) (fun _ => rfl) fun _ => rfl) (Frame.attachFifo o)
  neverTrapped := Texts.In.of_same
    (sameText_modifyProc (fun _ sel => by cases sel <;> rfl) (fun _ => rfl)
      fun _ (h : false = true) => Bool.noConfusion h) Frame.neverTrapped

instance : TargetFrame cfg (Keeps (Texts.In cfg early mark t)) where
  acquireAndShip := Texts.In.of_same inferInstance TargetFrame.acquireAndShip
  rmso im him := within_modify fun w h => by
    refine ⟨h.1.congr ⟨rfl, rfl, rfl, rfl⟩, h.2.congr rfl (fun sel => ?_) (fun im' him' => ?_) id⟩
    · cases sel <;> rfl
    · cases him'
      exact him
  continue_ := Texts.In.of_same inferInstance TargetFrame.continue_
  deliver sig := Texts.In.of_same inferInstance (TargetFrame.deliver sig)
  options on := Texts.In.of_same inferInstance (TargetFrame.options on)
  launchBp im s him hs := Texts.In.registerLaunchBp ⟨im, s, him, hs, rfl⟩
  beingDebug im s him hs := Texts.In.write (.beingDebug him hs) rfl
  colocation im him := by
    cases hep : im .execPath with
    | none => exact inferInstanceAs (Within _ (pure ()))
    | some ep =>
      cases hsa : im .serverArgs with
      | none => exact inferInstanceAs (Within _ (pure ()))
      | some sa =>
        have hpath : Within (Keeps (Texts.In cfg early mark t))
            (tracerWrite cfg true ep.relocatedAddress (cfg.daemonPath ++ [0])) :=
          Texts.In.write (.execPath him hep) List.length_append
        have hargs : Within (Keeps (Texts.In cfg early mark t))
            (writeServerArgs cfg sa.relocatedAddress cfg.serverArguments) := by
          cases cfg.serverArguments with
          | none => exact inferInstanceAs (Within _ (pure ()))
          | some args =>
            refine Texts.In.write (.serverArgs him hsa) ?_
            rw [List.length_take, List.length_append, List.length_replicate]
            omega
        unfold writeColocation
        infer_instance

instance : ListFrame cfg (Keeps (Texts.In cfg early mark t)) where
  thrcreate n := Texts.In.of_same inferInstance (@ListFrame.thrcreate cfg _ _ _ _ n)
  traced n := Texts.In.of_same (sameText_mapThr n _) (@ListFrame.traced cfg _ _ _ _ n)
  eraseThr n hn := Texts.In.of_same
    (sameText_other (fun _ sel => by cases sel <;> rfl) (fun _ => rfl) fun _ => rfl)
    (ListFrame.eraseThr n hn)

instance : BpFrame cfg (Keeps (Texts.In cfg early mark t)) where
  returnAddr sel ra := ⟨fun w h => by
    have hget : (get : EngineM World) w = .ok w w := rfl
    cases hb : w.proc.bp sel with
    | none =>
      have hend : final (setReturnAddr sel ra) w = w := final_bind_error (getBp_none hb)
      rw [hend]
      exact h
    | some b =>
      have hend : final (setReturnAddr sel ra) w = putBp w sel (some { b with returnAddr := ra }) :=
        final_bind_ok (getBp_run hb)
      rw [hend]
      refine ⟨h.1.congr ?_, h.2.returnAddr hb ra⟩
      cases sel <;> exact ⟨rfl, rfl, rfl, rfl⟩⟩
  setregs r := Texts.In.of_same inferInstance (BpFrame.setregs r)
  singlestep := Texts.In.of_same inferInstance BpFrame.singlestep
  enable sel := Texts.In.enable sel
  disable sel := ⟨fun _ h => h.disable.1⟩
  register := Texts.In.of_same inferInstance (@BpFrame.register cfg _ _ _ _)

end Frames

/-! ## The first trap -/

theorem Texts.mono (h : Texts cfg early mark w) {early' mark' : Prop} (he : early' → early)
    (hm : mark → mark') : Texts cfg early' mark' w := ⟨h.text, h.copies, h.first ∘ he, hm ∘ h.never⟩

/-- Both handlers of the first trap make the loader breakpoint, and there is none before. -/
theorem Texts.In.registerLoaderBp [Layout cfg] {t : LwpId} (h : Texts.In cfg True mark t w) :
    Texts.In cfg False mark t (final (registerLoaderBp cfg) w) := by
  have hnone : w.proc.bp .loader = none := h.2.first trivial
  unfold Engine.registerLoaderBp
  rw [final_bind_ok (setBp_run .loader _ w).1]
  refine (Texts.In.enable .loader).out _ ⟨h.1.congr ⟨rfl, rfl, rfl, rfl⟩, ?_⟩
  exact (h.2.mono False.elim id).fresh hnone ⟨nofun, fun _ => ⟨rfl, id⟩⟩

/-- From then on the first trap has been handled. -/
theorem Texts.In.setNeverTrapped [Layout cfg] {t : LwpId} (h : Texts.In cfg False mark t w) :
    Texts.In cfg False False t (final setNeverTrapped w) := by
  refine ⟨h.1.congr ⟨rfl, rfl, rfl, rfl⟩, ⟨?_, h.2.copies, False.elim,
    fun (hn : false = true) => Bool.noConfusion hn⟩⟩
  exact h.2.text.congr (fun _ _ => rfl) (fun sel => by cases sel <;> rfl) h.2.text.rmso

theorem Texts.In.of_first [Layout cfg] {t : LwpId} {ev : Event} {data : ℕ} {w' : World}
    (h : Texts.In cfg True True t w) (hfirst : ev.first = true)
    (hx : invokeHandler cfg ev data w = .ok .ok w') : Texts.In cfg False False t w' := by
  cases ev with
  | stopAtFirstExec =>
    rcases catching_eq_ok hx with hx | hx
    · obtain ⟨u₁, w₁, h₁, hx⟩ := bind_eq_ok hx
      obtain ⟨u₂, w₂, h₂, hx⟩ := bind_eq_ok hx
      obtain ⟨u₃, w₃, h₃, hx⟩ := bind_eq_ok hx
      have hin₁ : Texts.In cfg True True t w₁ := Within.of_ok (R := Keeps _) h₁ h
      have hin₂ : Texts.In cfg False True t w₂ := final_ok h₂ ▸ hin₁.registerLoaderBp
      have hin₃ : Texts.In cfg False False t w₃ := final_ok h₃ ▸ hin₂.setNeverTrapped
      exact Within.of_ok (R := Keeps _) hx hin₃
    · cases hx
  | stopAtFirstAttach =>
    rcases catching_eq_ok hx with hx | hx
    · obtain ⟨u₁, w₁, h₁, hx⟩ := bind_eq_ok hx
      have hin₁ : Texts.In cfg True True t w₁ := Within.of_ok (R := Keeps _) h₁ h
      split at hx
      · cases hx
      · obtain ⟨u₂, w₂, h₂, hx⟩ := bind_eq_ok hx
        obtain ⟨u₃, w₃, h₃, hx⟩ := bind_eq_ok hx
        obtain ⟨u₄, w₄, h₄, hx⟩ := bind_eq_ok hx
        have hin₂ : Texts.In cfg False True t w₂ := final_ok h₂ ▸ hin₁.registerLoaderBp
        have hin₃ : Texts.In cfg False True t w₃ := Within.of_ok (R := Keeps _) h₃ hin₂
        have hin₄ : Texts.In cfg False False t w₄ := final_ok h₄ ▸ hin₃.setNeverTrapped
        exact Within.of_ok (R := Keeps _) hx hin₄
    · cases hx
  | _ => cases hfirst

end LaunchMON.Engine
