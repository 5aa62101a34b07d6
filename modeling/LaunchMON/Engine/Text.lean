/-
  The text of the launcher under breakpoints.

  `Layout` is what the engine takes for granted of a launcher: its breakpoint locations are words of
  the text that do not overlap, and the variables it writes are not in the text.  Under it, `Text` is
  an invariant of runs: the text is as it was, except for a trap where a breakpoint is enabled, and a
  breakpoint that has been enabled once has saved the original word.  With the parameter `P` the
  invariant also says that the trap of an enabled breakpoint is there, which a child that shares the
  memory can break.
-/
import LaunchMON.Engine.Kin

namespace LaunchMON.Engine

open Effect Lmonp CBytes

set_option synthInstance.maxSize 4096

variable {cfg : Config}

/-! ## The layout of a launcher -/

/-- A location of the launch breakpoint. -/
def Config.LaunchSlot (cfg : Config) (a : VA) : Prop :=
  ∃ im s, cfg.IsImage im ∧ im .launchBreakpoint = some s ∧ s.relocatedAddress = a

/-- A location of a breakpoint. -/
def Config.Slot (cfg : Config) (a : VA) : Prop := cfg.LaunchSlot a ∨ a = loaderBreakpoint cfg

/-- `n` bytes from `a` on are a variable that the engine writes. -/
inductive Config.Variable (cfg : Config) : VA → Nat → Prop
  | beingDebug {im : Image} {s : Symbol} (h : cfg.IsImage im) (hs : im .beingDebug = some s) :
      Variable cfg s.relocatedAddress 4
  | execPath {im : Image} {s : Symbol} (h : cfg.IsImage im) (hs : im .execPath = some s) :
      Variable cfg s.relocatedAddress (cfg.daemonPath.length + 1)
  | serverArgs {im : Image} {s : Symbol} (h : cfg.IsImage im) (hs : im .serverArgs = some s) :
      Variable cfg s.relocatedAddress bgServerargLength
  | garbage : Variable cfg cfg.garbage 4

/-- What the engine takes for granted of a launcher. -/
class Layout (cfg : Config) : Prop where
  slot : ∀ a, cfg.Slot a → ∀ i : Fin 8, cfg.text (off a i) ≠ none
  apart : ∀ a b, cfg.Slot a → cfg.Slot b → a ≠ b → ∀ i j : Fin 8, off a i ≠ off b j
  distinct : ∀ a, cfg.LaunchSlot a → a ≠ loaderBreakpoint cfg
  data : ∀ a n, cfg.Variable a n → ∀ i < n, cfg.text (off a i) = none

/-! ## The invariant -/

/-- The text in a state of the engine. -/
structure Text (cfg : Config) (P : Prop) (w : World) : Prop where
  launch : ∀ b, w.proc.launchHiddenBp = some b → cfg.LaunchSlot b.addressAt
  loader : ∀ b, w.proc.loaderHiddenBp = some b → b.addressAt = loaderBreakpoint cfg
  rmso : ∀ im, w.proc.rmso = some im → cfg.rmsoImage = some im
  /-- a breakpoint that has been enabled has saved the original word -/
  saved : ∀ sel b, w.proc.bp sel = some b → b.status = .enabled ∨ b.status = .disabled →
    ∀ i : Fin 8, w.target.mem 0 (off b.addressAt i) ≠ none ∧
      cfg.text (off b.addressAt i) = some (b.origInstruction i)
  /-- what is mapped is original, or a trap of a breakpoint that is enabled -/
  byte : ∀ a v, w.target.mem 0 a = some v → cfg.text a ≠ none → cfg.text a = some v ∨
    v = 0xcc ∧ ∃ sel b, w.proc.bp sel = some b ∧ b.status = .enabled ∧ a = b.addressAt
  traps : P → ∀ sel b, w.proc.bp sel = some b → b.status = .enabled →
    w.target.mem 0 b.addressAt = some 0xcc

variable {P : Prop} {w w' : World}

theorem Text.slot (h : Text cfg P w) {sel : BpSel} {b : Bp} (hb : w.proc.bp sel = some b) :
    cfg.Slot b.addressAt := by
  cases sel with
  | launch => exact Or.inl (h.launch b hb)
  | loader => exact Or.inr (h.loader b hb)

section Layout

variable [Layout cfg]

theorem Layout.text_slot {a : VA} (h : cfg.Slot a) : cfg.text a ≠ none := by
  have := Layout.slot a h 0
  rwa [show off a ((0 : Fin 8) : Nat) = a from off_zero a] at this

/-- `Text` looks at the text in memory, at the breakpoints, and at the library. -/
theorem Text.congr (h : Text cfg P w)
    (hm : ∀ a, cfg.text a ≠ none → w'.target.mem 0 a = w.target.mem 0 a)
    (hb : ∀ sel, w'.proc.bp sel = w.proc.bp sel)
    (hr : ∀ im, w'.proc.rmso = some im → cfg.rmsoImage = some im) : Text cfg P w' := by
  refine ⟨fun b hb' => h.launch b ((hb .launch).symm.trans hb'),
    fun b hb' => h.loader b ((hb .loader).symm.trans hb'), hr,
    fun sel b hb' hst i => ?_, fun a v hv ha => ?_, fun hP sel b hb' hst => ?_⟩
  · rw [hb sel] at hb'
    rw [hm _ (Layout.slot _ (h.slot hb') i)]
    exact h.saved sel b hb' hst i
  · rw [hm a ha] at hv
    rcases h.byte a v hv ha with hv | ⟨rfl, sel, b, hb', hst, rfl⟩
    · exact Or.inl hv
    · exact Or.inr ⟨rfl, sel, b, (hb sel).trans hb', hst, rfl⟩
  · rw [hb sel] at hb'
    rw [hm _ (Layout.text_slot (h.slot hb'))]
    exact h.traps hP sel b hb' hst

/-- Breakpoints do not overlap. -/
theorem Text.apart (h : Text cfg P w) {sel sel' : BpSel} {b b' : Bp} (hb : w.proc.bp sel = some b)
    (hb' : w.proc.bp sel' = some b') (hne : sel ≠ sel') (i j : Fin 8) :
    off b.addressAt i ≠ off b'.addressAt j := by
  refine Layout.apart _ _ (h.slot hb) (h.slot hb') ?_ i j
  cases sel with
  | launch =>
    cases sel' with
    | launch => exact absurd rfl hne
    | loader =>
      rw [h.loader b' hb']
      exact Layout.distinct _ (h.launch b hb)
  | loader =>
    cases sel' with
    | launch =>
      rw [h.loader b hb]
      exact (Layout.distinct _ (h.launch b' hb')).symm
    | loader => exact absurd rfl hne

/-! ## Enabling and disabling -/

/-- The word at a breakpoint that is not enabled is original. -/
theorem Text.original (h : Text cfg P w) {sel : BpSel} {b : Bp} (hb : w.proc.bp sel = some b)
    (hst : b.status ≠ .enabled) (i : Fin 8) {v : UInt8}
    (hv : w.target.mem 0 (off b.addressAt i) = some v) : cfg.text (off b.addressAt i) = some v := by
  rcases h.byte _ v hv (Layout.slot _ (h.slot hb) i) with hv | ⟨-, sel', b', hb', hst', ha⟩
  · exact hv
  · by_cases hsel : sel = sel'
    · subst hsel
      rw [hb] at hb'
      cases hb'
      exact absurd hst' hst
    · exact absurd (ha.trans (off_zero _).symm) (h.apart hb hb' hsel i 0)

end Layout

end LaunchMON.Engine
