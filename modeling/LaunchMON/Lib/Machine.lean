/-
  Machines that take one event at a time, and their runs.

  A machine is a partial step function: `step s e` is the state after the event `e`, or `none` where
  `e` cannot happen in `s`.  `Run step G s₀` are the states that a run from `s₀` reaches when every
  step of it meets `G`; `G` is a condition on the state before the step and on the event, so that a
  statement can say which steps go wrong and what holds as long as none of them is taken.
-/
import Mathlib.Data.Option.Basic

namespace LaunchMON.Machine

variable {σ ε : Type} {step : σ → ε → Option σ} {G : σ → ε → Prop} {s s' s'' : σ}

/-- The events of a list, one after the other. -/
def runAll (step : σ → ε → Option σ) (s : σ) : List ε → Option σ
  | [] => some s
  | e :: es => (step s e).bind fun s' => runAll step s' es

/-- The events of a list, one after the other, as long as every step meets `G`. -/
def runIf (step : σ → ε → Option σ) (G : σ → ε → Prop) [∀ s e, Decidable (G s e)] (s : σ) :
    List ε → Option σ
  | [] => some s
  | e :: es => if G s e then (step s e).bind fun s' => runIf step G s' es else none

/-- The states that a run from `s` reaches whose steps all meet `G`. -/
inductive Run (step : σ → ε → Option σ) (G : σ → ε → Prop) (s : σ) : σ → Prop
  | start : Run step G s s
  | next {s' s'' : σ} {e : ε} : Run step G s s' → G s' e → step s' e = some s'' → Run step G s s''

/-- An invariant of the steps is an invariant of the runs. -/
theorem Run.invariant {I : σ → Prop} (h : Run step G s s') (h0 : I s)
    (hstep : ∀ s s' e, I s → G s e → step s e = some s' → I s') : I s' := by
  induction h with
  | start => exact h0
  | next _ he hs ih => exact hstep _ _ _ ih he hs

theorem Run.mono {G' : σ → ε → Prop} (h : Run step G s s') (hG : ∀ s e, G s e → G' s e) :
    Run step G' s s' := by
  induction h with
  | start => exact .start
  | next _ he hs ih => exact .next ih (hG _ _ he) hs

theorem Run.trans (h : Run step G s s') (h' : Run step G s' s'') : Run step G s s'' := by
  induction h' with
  | start => exact h
  | next _ he hs ih => exact .next ih he hs

/-- A list of events makes a run. -/
theorem Run.of_runIf [∀ s e, Decidable (G s e)] : ∀ (es : List ε) {s s' : σ},
    runIf step G s es = some s' → Run step G s s'
  | [], s, s', h => by
    cases h
    exact .start
  | e :: es, s, s', h => by
    rw [runIf] at h
    split at h
    · rename_i hG
      obtain ⟨s₁, hs, h⟩ := Option.bind_eq_some_iff.mp h
      exact (Run.next .start hG hs).trans (Run.of_runIf es h)
    · cases h

theorem runAll_append : ∀ (es es' : List ε) (s : σ),
    runAll step s (es ++ es') = (runAll step s es).bind fun s' => runAll step s' es'
  | [], _, _ => rfl
  | e :: es, es', s => by
    show (step s e).bind _ = ((step s e).bind _).bind _
    rw [Option.bind_assoc]
    congr
    funext s'
    exact runAll_append es es' s'

theorem runIf_true : ∀ (es : List ε) (s : σ), runIf step (fun _ _ => True) s es = runAll step s es
  | [], _ => rfl
  | e :: es, s => by
    rw [runIf, runAll, if_pos trivial]
    congr
    funext s'
    exact runIf_true es s'

theorem Run.of_runAll {es : List ε} (h : runAll step s es = some s') :
    Run step (fun _ _ => True) s s' :=
  Run.of_runIf es (by rw [runIf_true, h])

/-- A list of events each of which meets `G` wherever it happens makes a run. -/
theorem Run.of_runAll_meets : ∀ (es : List ε) {s s' : σ}, (∀ e ∈ es, ∀ s, G s e) →
    runAll step s es = some s' → Run step G s s'
  | [], s, s', _, h => by
    cases h
    exact .start
  | e :: es, s, s', hG, h => by
    obtain ⟨s₁, hs, h⟩ := Option.bind_eq_some_iff.mp h
    obtain ⟨he, hes⟩ := List.forall_mem_cons.mp hG
    exact (Run.next .start (he s) hs).trans (Run.of_runAll_meets es hes h)

end LaunchMON.Machine
