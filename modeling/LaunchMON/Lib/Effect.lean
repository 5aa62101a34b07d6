/-
  Programs with a state and exceptions, and what a run can do to the state.

  A program is an `EStateM`: it keeps the state it has reached when it throws.  Two kinds of fact are
  used about one.  An equation `x s = .ok a s'` follows a run from a known state, and `ok_bind` and
  its companions pass it through a sequence.  A frame `Within R x` says that every run of `x`, however
  it ends, takes the state along the preorder `R`.  Frames are a class, with one instance for each way
  to put programs together, so that the frame of a program is found from the frames of its parts:
  an instance for each primitive is all that has to be proved for a new `R`.

  Invariants are the special case `Keeps I`, what one update can do is the special case
  `Relation.ReflTransGen r`.
-/
import Mathlib.Logic.Relation
import Mathlib.Order.Defs.Unbundled

namespace Effect

variable {ε σ α β : Type}

/-! ## Combinators -/

/-- Exceptions that `p` accepts become the value `r`. -/
def catching (p : ε → Bool) (r : α) (x : EStateM ε σ α) : EStateM ε σ α := fun s =>
  match x s with
  | .ok a s' => .ok a s'
  | .error e s' => if p e then .ok r s' else .error e s'

/-- A statement under a condition. -/
def whenever (c : Bool) (x : EStateM ε σ Unit) : EStateM ε σ Unit := if c then x else pure ()

/-- A loop over a list. -/
def each : List β → (β → EStateM ε σ Unit) → EStateM ε σ Unit
  | [], _ => pure ()
  | b :: bs, f => do
    f b
    each bs f

/-! ## Equations -/

/-- The state in which a run of `x` ends, on either outcome. -/
def final (x : EStateM ε σ α) (s : σ) : σ :=
  match x s with
  | .ok _ s' => s'
  | .error _ s' => s'

theorem final_ok {x : EStateM ε σ α} {s s' : σ} {a : α} (h : x s = .ok a s') : final x s = s' := by
  rw [final, h]

theorem final_error {x : EStateM ε σ α} {s s' : σ} {e : ε} (h : x s = .error e s') :
    final x s = s' := by
  rw [final, h]

theorem ok_bind {x : EStateM ε σ α} {f : α → EStateM ε σ β} {s s' : σ} {a : α}
    (h : x s = .ok a s') : (x >>= f) s = f a s' := by
  show EStateM.bind x f s = _
  rw [EStateM.bind, h]

theorem error_bind {x : EStateM ε σ α} {f : α → EStateM ε σ β} {s s' : σ} {e : ε}
    (h : x s = .error e s') : (x >>= f) s = .error e s' := by
  show EStateM.bind x f s = _
  rw [EStateM.bind, h]

theorem final_bind_ok {x : EStateM ε σ α} {f : α → EStateM ε σ β} {s s' : σ} {a : α}
    (h : x s = .ok a s') : final (x >>= f) s = final (f a) s' := by
  rw [final, final, ok_bind h]

theorem final_bind_error {x : EStateM ε σ α} {f : α → EStateM ε σ β} {s s' : σ} {e : ε}
    (h : x s = .error e s') : final (x >>= f) s = s' := final_error (error_bind h)

@[simp] theorem final_bind_pure (x : EStateM ε σ α) (b : β) (s : σ) :
    final (x >>= fun _ => pure b) s = final x s := by
  cases h : x s with
  | ok a s' =>
    rw [final_bind_ok h, final_ok h]
    rfl
  | error e s' => rw [final_bind_error h, final_error h]

/-- A sequence that returns has returned from both parts. -/
theorem bind_eq_ok {x : EStateM ε σ α} {f : α → EStateM ε σ β} {s s'' : σ} {b : β}
    (h : (x >>= f) s = .ok b s'') : ∃ a s', x s = .ok a s' ∧ f a s' = .ok b s'' := by
  cases hx : x s with
  | ok a s' => exact ⟨a, s', rfl, by rw [← h, ok_bind hx]⟩
  | error e s' =>
    rw [error_bind hx] at h
    cases h

/-- A sequence that returns, and whose first part leaves the state alone. -/
theorem read_bind_eq_ok {x : EStateM ε σ α} {f : α → EStateM ε σ β} {P : α → Prop} {s s'' : σ} {b : β}
    (hx : ∀ a s', x s = .ok a s' → P a ∧ s' = s) (h : (x >>= f) s = .ok b s'') :
    ∃ a, P a ∧ f a s = .ok b s'' := by
  obtain ⟨a, s', ha, hf⟩ := bind_eq_ok h
  obtain ⟨hP, rfl⟩ := hx a s' ha
  exact ⟨a, hP, hf⟩

/-- A check that throws returns if it does not. -/
theorem check_eq_ok {c : Bool} {e : ε} {s s' : σ} {u : Unit} :
    whenever c (throw e : EStateM ε σ Unit) s = .ok u s' ↔ c = false ∧ s' = s := by
  cases c with
  | true => exact ⟨by rintro ⟨⟩, by rintro ⟨⟨⟩, -⟩⟩
  | false =>
    constructor
    · rintro ⟨⟩
      exact ⟨rfl, rfl⟩
    · rintro ⟨-, rfl⟩
      rfl

/-- Where a sequence ends, its second part ends, or its first part fails. -/
theorem final_bind_of {I : σ → Prop} {x : EStateM ε σ α} {f : α → EStateM ε σ β} {s : σ}
    (ok : ∀ a s', x s = .ok a s' → I (final (f a) s')) (error : ∀ e s', x s = .error e s' → I s') :
    I (final (x >>= f) s) := by
  cases hx : x s with
  | ok a s' =>
    rw [final_bind_ok hx]
    exact ok a s' hx
  | error e s' =>
    rw [final_bind_error hx]
    exact error e s' hx

/-- The rule of loops that return: `P` relates what is left of the list with the states before and
    after. -/
theorem each_eq_ok {P : List β → σ → σ → Prop} {f : β → EStateM ε σ Unit} (nil : ∀ s, P [] s s)
    (cons : ∀ b bs s s₁ s₂, f b s = .ok () s₁ → P bs s₁ s₂ → P (b :: bs) s s₂) :
    ∀ bs s s', each bs f s = .ok () s' → P bs s s'
  | [], s, s', h => by
    cases h
    exact nil s
  | b :: bs, s, s', h => by
    obtain ⟨u, s₁, hb, hbs⟩ := bind_eq_ok h
    exact cons b bs s s₁ s' hb (each_eq_ok nil cons bs s₁ s' hbs)

theorem each_append (f : β → EStateM ε σ Unit) (as bs : List β) :
    each (as ++ bs) f = (do each as f; each bs f) := by
  induction as with
  | nil => rfl
  | cons a as ih =>
    show (do f a; each (as ++ bs) f) = (do (do f a; each as f); each bs f)
    rw [ih, bind_assoc]

theorem each_map {γ : Type} (f : β → EStateM ε σ Unit) (g : γ → β) (cs : List γ) :
    each (cs.map g) f = each cs fun c => f (g c) := by
  induction cs with
  | nil => rfl
  | cons c cs ih => exact congrArg (fun x => f (g c) >>= fun _ => x) ih

/-- Nested loops are a loop. -/
theorem each_flatMap {γ : Type} (f : β → EStateM ε σ Unit) (g : γ → List β) (cs : List γ) :
    each (cs.flatMap g) f = each cs fun c => each (g c) f := by
  induction cs with
  | nil => rfl
  | cons c cs ih =>
    rw [List.flatMap_cons, each_append, ih]
    rfl

theorem catching_ok {x : EStateM ε σ α} {p : ε → Bool} {r a : α} {s s' : σ} (h : x s = .ok a s') :
    catching p r x s = .ok a s' := by
  rw [catching, h]

theorem catching_error {x : EStateM ε σ α} {p : ε → Bool} {r : α} {s s' : σ} {e : ε}
    (h : x s = .error e s') (hp : p e = true) : catching p r x s = .ok r s' := by
  rw [catching, h]
  exact if_pos hp

/-- What a guarded program returns, it returns itself, or it is the value of the handler. -/
theorem catching_eq_ok {x : EStateM ε σ α} {p : ε → Bool} {r a : α} {s s' : σ}
    (h : catching p r x s = .ok a s') : x s = .ok a s' ∨ a = r := by
  unfold catching at h
  split at h
  · next heq =>
    cases h
    exact Or.inl heq
  · split at h
    · cases h
      exact Or.inr rfl
    · cases h

@[simp] theorem final_catching (p : ε → Bool) (r : α) (x : EStateM ε σ α) (s : σ) :
    final (catching p r x) s = final x s := by
  unfold final catching
  cases x s with
  | ok a s' => rfl
  | error e s' => by_cases hp : p e <;> simp [hp]

/-! ## Frames -/

/-- Every run of `x` takes the state along `R`. -/
class Within (R : σ → σ → Prop) (x : EStateM ε σ α) : Prop where
  out : ∀ s, R s (final x s)

theorem Within.of_ok {R : σ → σ → Prop} {x : EStateM ε σ α} [h : Within R x] {s s' : σ} {a : α}
    (hx : x s = .ok a s') : R s s' := final_ok hx ▸ h.out s

theorem Within.of_error {R : σ → σ → Prop} {x : EStateM ε σ α} [h : Within R x] {s s' : σ} {e : ε}
    (hx : x s = .error e s') : R s s' := final_error hx ▸ h.out s

theorem Within.mono {R R' : σ → σ → Prop} {x : EStateM ε σ α} (h : Within R x)
    (hle : ∀ s s', R s s' → R' s s') : Within R' x := ⟨fun s => hle _ _ (h.out s)⟩

theorem within_modify {R : σ → σ → Prop} {f : σ → σ} (h : ∀ s, R s (f s)) :
    Within R (modify f : EStateM ε σ Unit) := ⟨h⟩

/-- What `x` has done if it returns `a`. -/
def Returns (R : σ → σ → Prop) (a : α) (x : EStateM ε σ α) : Prop :=
  ∀ s s', x s = .ok a s' → R s s'

theorem Returns.of_within {R : σ → σ → Prop} {x : EStateM ε σ α} [Within R x] (a : α) :
    Returns R a x := fun _ _ h => Within.of_ok h

theorem Returns.bind {R : σ → σ → Prop} [IsTrans σ R] {x : EStateM ε σ α}
    {f : α → EStateM ε σ β} {b : β} [Within R x] (h : ∀ a, Returns R b (f a)) :
    Returns R b (x >>= f) := by
  intro s s' hs
  obtain ⟨a, s₁, hx, hf⟩ := bind_eq_ok hs
  exact trans_of R (Within.of_ok hx) (h a _ _ hf)

theorem Returns.catching {R : σ → σ → Prop} {x : EStateM ε σ α} {p : ε → Bool} {a r : α}
    (hne : a ≠ r) (h : Returns R a x) : Returns R a (catching p r x) := by
  intro s s' hs
  rcases catching_eq_ok hs with hx | hx
  · exact h _ _ hx
  · exact absurd hx hne

/-- A value that `x` does not return. -/
def Never (a : α) (x : EStateM ε σ α) : Prop := ∀ s s', x s ≠ .ok a s'

theorem Never.returns {R : σ → σ → Prop} {x : EStateM ε σ α} {a : α} (h : Never a x) :
    Returns R a x := fun _ _ hs => absurd hs (h _ _)

theorem never_pure {a b : α} (h : b ≠ a) : Never a (pure b : EStateM ε σ α) := by
  intro s s' hs
  cases hs
  exact h rfl

theorem Never.bind {x : EStateM ε σ α} {f : α → EStateM ε σ β} {b : β} (h : ∀ a, Never b (f a)) :
    Never b (x >>= f) := by
  intro s s' hs
  obtain ⟨a, s₁, -, hf⟩ := bind_eq_ok hs
  exact h a _ _ hf

theorem Never.catching {x : EStateM ε σ α} {p : ε → Bool} {a r : α} (hne : a ≠ r)
    (h : Never a x) : Never a (catching p r x) := by
  intro s s' hs
  rcases catching_eq_ok hs with hx | hx
  · exact h _ _ hx
  · exact hne hx

/-- What holds where `x` throws. -/
def Raises (Q : ε → σ → Prop) (x : EStateM ε σ α) : Prop := ∀ s e s', x s = .error e s' → Q e s'

theorem Raises.pure {Q : ε → σ → Prop} (a : α) : Raises Q (pure a : EStateM ε σ α) := by
  intro s e s' h
  cases h

theorem Raises.bind {Q : ε → σ → Prop} {x : EStateM ε σ α} {f : α → EStateM ε σ β}
    (hx : Raises Q x) (hf : ∀ a, Raises Q (f a)) : Raises Q (x >>= f) := by
  intro s e s' h
  cases hs : x s with
  | ok a s₁ =>
    rw [ok_bind hs] at h
    exact hf a s₁ e s' h
  | error e₁ s₁ =>
    rw [error_bind hs] at h
    cases h
    exact hx s e s' hs

theorem Raises.each {Q : ε → σ → Prop} {f : β → EStateM ε σ Unit} (h : ∀ b, Raises Q (f b)) :
    ∀ bs, Raises Q (each bs f)
  | [] => Raises.pure ()
  | b :: bs => (h b).bind fun _ => Raises.each h bs

/-- The relation of an invariant. -/
def Keeps (I : σ → Prop) (s s' : σ) : Prop := I s → I s'

instance (I : σ → Prop) : IsPreorder σ (Keeps I) where
  refl _ h := h
  trans _ _ _ h₁ h₂ h := h₂ (h₁ h)

/-- The rule of sequences for invariants, where the first part has a reason of its own. -/
theorem final_bind_keeps {I : σ → Prop} {x : EStateM ε σ α} {f : α → EStateM ε σ β} {s : σ}
    [hf : ∀ a, Within (Keeps I) (f a)] (hx : I (final x s)) : I (final (x >>= f) s) := by
  refine final_bind_of (fun a s' h => ?_) fun e s' h => ?_
  · rw [final_ok h] at hx
    exact (hf a).out s' hx
  · rwa [final_error h] at hx

section Rules

variable {R : σ → σ → Prop} [IsPreorder σ R]

instance (a : α) : Within R (pure a : EStateM ε σ α) := ⟨fun s => refl_of R s⟩

instance (e : ε) : Within R (throw e : EStateM ε σ α) := ⟨fun s => refl_of R s⟩

instance : Within R (get : EStateM ε σ σ) := ⟨fun s => refl_of R s⟩

/-- The rule of sequences, for both outcomes of the first part. -/
instance (x : EStateM ε σ α) (f : α → EStateM ε σ β) [hx : Within R x] [hf : ∀ a, Within R (f a)] :
    Within R (x >>= f) where
  out s := by
    cases h : x s with
    | ok a s' =>
      rw [final_bind_ok h]
      exact trans_of R (hx.of_ok h) ((hf a).out s')
    | error e s' =>
      rw [final_bind_error h]
      exact hx.of_error h

instance (c : Prop) [Decidable c] (x y : EStateM ε σ α) [hx : Within R x] [hy : Within R y] :
    Within R (if c then x else y) := by
  split
  · exact hx
  · exact hy

instance (o : Option β) (x : EStateM ε σ α) (f : β → EStateM ε σ α) [hx : Within R x]
    [hf : ∀ b, Within R (f b)] : Within R (o.elim x f) := by
  cases o with
  | none => exact hx
  | some b => exact hf b

instance (c : Bool) (x : EStateM ε σ Unit) [Within R x] : Within R (whenever c x) :=
  inferInstanceAs (Within R (if c then x else pure ()))

instance (p : ε → Bool) (r : α) (x : EStateM ε σ α) [h : Within R x] :
    Within R (catching p r x) := ⟨fun s => by rw [final_catching]; exact h.out s⟩

instance Within.each (f : β → EStateM ε σ Unit) [h : ∀ b, Within R (f b)] :
    ∀ bs, Within R (each bs f)
  | [] => inferInstanceAs (Within R (pure ()))
  | b :: bs =>
    have := Within.each f bs
    inferInstanceAs (Within R (do f b; Effect.each bs f))

/-- The rule of loops, where the elements of the list have a reason of their own. -/
theorem Within.each_mem {f : β → EStateM ε σ Unit} : ∀ bs : List β, (∀ b ∈ bs, Within R (f b)) →
    Within R (Effect.each bs f) := by
  intro bs
  induction bs with
  | nil =>
    intro _
    exact inferInstanceAs (Within R (pure ()))
  | cons b bs ih =>
    intro h
    have hb := h b List.mem_cons_self
    have hbs := ih fun b' hb' => h b' (List.mem_cons_of_mem _ hb')
    exact inferInstanceAs (Within R (do f b; Effect.each bs f))

/-- The rule of checks: what is behind a check runs if it does not throw. -/
theorem Within.check {c : Bool} {e : ε} {f : Unit → EStateM ε σ α} (h : c = false → Within R (f ())) :
    Within R (whenever c (throw e) >>= f) := by
  cases c with
  | false => exact h rfl
  | true => exact ⟨fun s => refl_of R s⟩

end Rules

end Effect
