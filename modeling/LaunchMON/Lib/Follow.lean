/-
  A program that follows another one until it gets stuck.

  `y` is what a program should do, over states of its own, and `x` is what it does.  The two are run from
  related states.  As long as `y` stays among the good states, `x` follows: the same outcome, with the
  same value, and related states again.  Where `y` leaves the good states, which it never enters again,
  `x` fails and is stuck.  So whether `x` does what `y` does can be read off the state in which `y` ends
  (`Follows.good`, `Follows.stuck`).

  Following goes through sequences and loops, so that it has to be proved for the primitives only.
-/
import LaunchMON.Lib.Effect

namespace Effect

variable {ε σ τ α β : Type}

/-- Two outcomes that match: the same value in states that are related by `R`, or the same exception in
    states that are related by `E`. -/
def Matches (R E : σ → τ → Prop) : EStateM.Result ε σ α → EStateM.Result ε τ α → Prop
  | .ok a s, .ok b t => a = b ∧ R s t
  | .error e s, .error f t => e = f ∧ E s t
  | _, _ => False

/-- `x` follows `y`. -/
structure Follows (R E : σ → τ → Prop) (Good : τ → Prop) (Stuck : σ → Prop) (x : EStateM ε σ α)
    (y : EStateM ε τ α) : Prop where
  bad : ∀ t, ¬Good t → ¬Good (final y t)
  good : ∀ s t, R s t → Good (final y t) → Matches R E (x s) (y t)
  stuck : ∀ s t, R s t → Good t → ¬Good (final y t) → ∃ e s', x s = .error e s' ∧ Stuck s'

variable {R E : σ → τ → Prop} {Good : τ → Prop} {Stuck : σ → Prop}

theorem Matches.of_ok {x : EStateM.Result ε σ α} {b : α} {t : τ}
    (h : Matches R E x (.ok b t)) : ∃ s, x = .ok b s ∧ R s t := by
  cases x with
  | ok a s =>
    obtain ⟨rfl, hR⟩ := h
    exact ⟨s, rfl, hR⟩
  | error e s => exact h.elim

theorem Matches.of_error {x : EStateM.Result ε σ α} {e : ε} {t : τ}
    (h : Matches R E x (.error e t)) : ∃ s, x = .error e s ∧ E s t := by
  cases x with
  | ok a s => exact h.elim
  | error f s =>
    obtain ⟨rfl, hE⟩ := h
    exact ⟨s, rfl, hE⟩

theorem Follows.pure (a : α) : Follows R E Good Stuck (pure a : EStateM ε σ α) (pure a) where
  bad _ h := h
  good _ _ hR _ := ⟨rfl, hR⟩
  stuck _ _ _ hgood hbad := absurd hgood hbad

/-- The rule of sequences. -/
theorem Follows.bind {x : EStateM ε σ α} {y : EStateM ε τ α} {f : α → EStateM ε σ β}
    {g : α → EStateM ε τ β} (hx : Follows R E Good Stuck x y)
    (hf : ∀ a, Follows R E Good Stuck (f a) (g a)) :
    Follows R E Good Stuck (x >>= f) (y >>= g) := by
  constructor
  case bad =>
    intro t hbad
    have hmid := hx.bad t hbad
    cases hy : y t with
    | ok a t' =>
      rw [final_ok hy] at hmid
      rw [final_bind_ok hy]
      exact (hf a).bad t' hmid
    | error e t' =>
      rw [final_error hy] at hmid
      rw [final_bind_error hy]
      exact hmid
  case good =>
    intro s t hR hgood
    cases hy : y t with
    | ok a t' =>
      rw [final_bind_ok hy] at hgood
      -- bad states stay bad, so the middle of a good run is good
      have hmid : Good (final y t) := by
        rw [final_ok hy]
        exact Classical.byContradiction fun hbad => (hf a).bad t' hbad hgood
      have hm := hx.good s t hR hmid
      rw [hy] at hm
      obtain ⟨s', hs', hR'⟩ := hm.of_ok
      rw [ok_bind hs', ok_bind hy]
      exact (hf a).good s' t' hR' hgood
    | error e t' =>
      rw [final_bind_error hy, ← final_error hy] at hgood
      have hm := hx.good s t hR hgood
      rw [hy] at hm
      obtain ⟨s', hs', hE⟩ := hm.of_error
      rw [error_bind hs', error_bind hy]
      exact ⟨rfl, hE⟩
  case stuck =>
    intro s t hR hgood hbad
    -- either `x` already gets stuck, or it ends well and what comes after does
    by_cases hmid : Good (final y t)
    · have hm := hx.good s t hR hmid
      cases hy : y t with
      | ok a t' =>
        rw [hy] at hm
        obtain ⟨s', hs', hR'⟩ := hm.of_ok
        rw [final_bind_ok hy] at hbad
        rw [final_ok hy] at hmid
        rw [ok_bind hs']
        exact (hf a).stuck s' t' hR' hmid hbad
      | error e t' =>
        rw [final_bind_error hy, ← final_error hy] at hbad
        exact absurd hmid hbad
    · obtain ⟨e, s', hs', hstuck⟩ := hx.stuck s t hR hgood hmid
      exact ⟨e, s', error_bind hs', hstuck⟩

/-- The rule of loops. -/
theorem Follows.each {f : β → EStateM ε σ Unit} {g : β → EStateM ε τ Unit}
    (h : ∀ b, Follows R E Good Stuck (f b) (g b)) (bs : List β) :
    Follows R E Good Stuck (each bs f) (each bs g) := by
  induction bs with
  | nil => exact Follows.pure ()
  | cons b bs ih => exact (h b).bind fun _ => ih

end Effect
