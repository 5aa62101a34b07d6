/-
  Random descent: relations in which a branching closes after ONE step on each side.

  `church_rosser` of Mathlib turns a local confluence property into the joining of any two
  reductions.  A scheduler needs more: that no schedule runs for ever, and that a schedule that gets
  stuck has got stuck in the right place.  Both follow when two different steps from one state
  always close with exactly one further step each (`Closing`): then all ways of running a state to
  the end have the same length (`RunN.descent`), so one finished run settles every other one
  (`EndsIn.of_run`).
-/
import Mathlib.Logic.Relation

namespace Descent

open Relation

variable {α : Type*} {r r' : α → α → Prop}

/-- A run of exactly `n` steps. -/
inductive RunN (r : α → α → Prop) : Nat → α → α → Prop
  | refl (a : α) : RunN r 0 a a
  | head {n : Nat} {a b c : α} : r a b → RunN r n b c → RunN r (n + 1) a c

/-- No step leaves `a`. -/
def Stuck (r : α → α → Prop) (a : α) : Prop := ∀ b, ¬ r a b

/-- Every run from `s` is finite, and can only end in `t`. -/
structure EndsIn (r : α → α → Prop) (s t : α) : Prop where
  /-- Whatever has been run so far can still be run on to `t`. -/
  reach : ∀ u, ReflTransGen r s u → ReflTransGen r u t
  /-- There nothing is left to do. -/
  stuck : Stuck r t
  /-- No run goes on for ever. -/
  bounded : ∃ n, ∀ k u, RunN r k s u → k ≤ n

theorem RunN.trans {m n : Nat} {a b c : α} (h1 : RunN r m a b) (h2 : RunN r n b c) :
    RunN r (m + n) a c := by
  induction h1 with
  | refl a => rwa [Nat.zero_add]
  | head hab _ ih => rw [Nat.add_right_comm]; exact RunN.head hab (ih h2)

theorem RunN.reflTransGen {n : Nat} {a b : α} (h : RunN r n a b) : ReflTransGen r a b := by
  induction h with
  | refl a => exact ReflTransGen.refl
  | head hab _ ih => exact ReflTransGen.head hab ih

theorem exists_runN {a b : α} (h : ReflTransGen r a b) : ∃ n, RunN r n a b := by
  induction h using ReflTransGen.head_induction_on with
  | refl => exact ⟨0, RunN.refl _⟩
  | head hab _ ih => obtain ⟨n, hn⟩ := ih; exact ⟨n + 1, RunN.head hab hn⟩

theorem transGen_runN {a b : α} (h : TransGen r a b) : ∃ n, RunN r (n + 1) a b := by
  obtain ⟨c, hac, hcb⟩ := TransGen.head'_iff.mp h
  obtain ⟨n, hn⟩ := exists_runN hcb
  exact ⟨n, RunN.head hac hn⟩

/-- Two different steps from one state close with one step on each side. -/
def Closing (r : α → α → Prop) : Prop :=
  ∀ a b c, r a b → r a c → b = c ∨ ∃ d, r b d ∧ r c d

/-- One step of any kind is one step closer to where a run gets stuck. -/
theorem RunN.step_descent (hr : Closing r) {t : α} (ht : Stuck r t) :
    ∀ {n : Nat} {a : α}, RunN r n a t → ∀ {b : α}, r a b → ∃ m, n = m + 1 ∧ RunN r m b t := by
  intro n
  induction n with
  | zero =>
    intro a h b hab
    cases h
    exact absurd hab (ht b)
  | succ n ih =>
    intro a h b hab
    cases h with
    | head hac hct =>
      refine ⟨n, rfl, ?_⟩
      rcases hr _ _ _ hab hac with rfl | ⟨d, hbd, hcd⟩
      · exact hct
      · obtain ⟨m, rfl, hdt⟩ := ih hct hcd
        exact RunN.head hbd hdt

/-- **Random descent.**  All runs from a state that can get stuck in `t` are prefixes of runs to `t`,
    all of one length. -/
theorem RunN.descent (hr : Closing r) {t : α} (ht : Stuck r t) :
    ∀ {k : Nat} {a u : α}, RunN r k a u → ∀ {n : Nat}, RunN r n a t →
      ∃ m, n = k + m ∧ RunN r m u t := by
  intro k a u h
  induction h with
  | refl a => intro n hn; exact ⟨n, by omega, hn⟩
  | head hab _ ih =>
    intro n hn
    obtain ⟨m, rfl, hm⟩ := RunN.step_descent hr ht hn hab
    obtain ⟨m', rfl, hm'⟩ := ih hm
    exact ⟨m', by omega, hm'⟩

/-- A state that every run of `r` leads to is stuck for `r'` as well, when the steps of `r'` are made
    of steps of `r`. -/
theorem Stuck.of_subset {t : α} (ht : Stuck r t) (hsub : ∀ a b, r' a b → TransGen r a b) :
    Stuck r' t := by
  intro b hb
  obtain ⟨c, hc, -⟩ := TransGen.head'_iff.mp (hsub _ _ hb)
  exact ht c hc

/-- Coarse steps are at least as many fine steps. -/
theorem RunN.refine (hsub : ∀ a b, r' a b → TransGen r a b) {k : Nat} {a u : α}
    (h : RunN r' k a u) : ∃ j, k ≤ j ∧ RunN r j a u := by
  induction h with
  | refl a => exact ⟨0, Nat.le_refl _, RunN.refl a⟩
  | head hab _ ih =>
    obtain ⟨j, hj, hrun⟩ := ih
    obtain ⟨i, hi⟩ := transGen_runN (hsub _ _ hab)
    exact ⟨i + 1 + j, by omega, hi.trans hrun⟩

/-- **One finished run settles them all**, for the fine steps `r` and for any coarser steps `r'` that
    contain them. -/
theorem EndsIn.of_run (hr : Closing r) (hfine : ∀ a b, r a b → r' a b)
    (hsub : ∀ a b, r' a b → TransGen r a b) {s t : α} (hst : ReflTransGen r s t)
    (ht : Stuck r t) : EndsIn r' s t where
  reach u hu := by
    obtain ⟨n, hn⟩ := exists_runN hst
    obtain ⟨k, hk⟩ := exists_runN hu
    obtain ⟨j, -, hj⟩ := hk.refine hsub
    obtain ⟨m, -, hm⟩ := hj.descent hr ht hn
    exact ReflTransGen.mono hfine _ _ hm.reflTransGen
  stuck := ht.of_subset hsub
  bounded := by
    obtain ⟨n, hn⟩ := exists_runN hst
    refine ⟨n, fun k u hk => ?_⟩
    obtain ⟨j, hj, hrun⟩ := hk.refine hsub
    obtain ⟨m, hm, -⟩ := hrun.descent hr ht hn
    omega

/-- A state whose runs are bounded can be run to where nothing is left to do. -/
theorem exists_stuck : ∀ {n : Nat} {s : α}, (∀ k u, RunN r k s u → k ≤ n) →
    ∃ t, ReflTransGen r s t ∧ Stuck r t := by
  intro n
  induction n with
  | zero =>
    intro s hbound
    exact ⟨s, .refl, fun t hst => absurd (hbound 1 t (.head hst (.refl t))) (by omega)⟩
  | succ n ih =>
    intro s hbound
    by_cases hs : ∃ u, r s u
    · obtain ⟨u, hu⟩ := hs
      obtain ⟨t, ht, hstuck⟩ := ih fun k v hk => Nat.le_of_succ_le_succ (hbound (k + 1) v (.head hu hk))
      exact ⟨t, .head hu ht, hstuck⟩
    · exact ⟨s, .refl, fun u hu => hs ⟨u, hu⟩⟩

/-- A run that got stuck is over. -/
theorem EndsIn.eq_of_stuck {s t u : α} (h : EndsIn r s t) (hu : ReflTransGen r s u)
    (hstuck : Stuck r u) : u = t := by
  rcases ReflTransGen.cases_head (h.reach u hu) with heq | ⟨c, hc, -⟩
  · exact heq
  · exact absurd hc (hstuck c)

end Descent
