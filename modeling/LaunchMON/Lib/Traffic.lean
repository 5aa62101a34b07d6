/-
  How much is still to be said: the traffic of a program on FIFO channels.

  Many programs write and read fixed numbers of bytes, whatever the bytes are.  For such a program
  `Leaves φ P w rd` says that it will write `w q` bytes to each peer `q` and read `rd q` bytes from
  it, and that `φ` holds of these numbers now and at every later moment.  `φ` is how the ORDER of its
  operations is stated: "as long as something is to be read here, nothing has been written there".

  In a network of such programs what is left to read on a channel is what waits there and what is
  left to write, up to a constant (`Evens`), and no step changes this (`Evens.run`).  So what one peer
  has not done yet shows at its neighbours, and `φ` carries it on from there.
-/
import Mathlib.Algebra.BigOperators.Group.List.Basic
import Mathlib.Algebra.Order.Pi
import LaunchMON.Lib.FifoNet

namespace FifoNet

open Relation Function

variable {ρ β α γ : Type*} [DecidableEq ρ]

/-- `P` leaves `w q` bytes to write to each `q` and `rd q` bytes to read from it; `φ` holds of what
    is left, from here to the end. -/
inductive Leaves (φ : (ρ → ℕ) → (ρ → ℕ) → Prop) : Prog ρ β α → (ρ → ℕ) → (ρ → ℕ) → Prop
  | ret {a : α} : φ 0 0 → Leaves φ (.ret a) 0 0
  | send {q : ρ} {bs : List β} {k : Prog ρ β α} {w rd : ρ → ℕ} : Leaves φ k w rd →
      (∀ i ≤ bs.length, φ (w + Pi.single q i) rd) →
      Leaves φ (.send q bs k) (w + Pi.single q bs.length) rd
  | recv {q : ρ} {n : ℕ} {k : List β → Prog ρ β α} {w rd : ρ → ℕ} :
      (∀ bs, bs.length = n → Leaves φ (k bs) w rd) → (∀ i ≤ n, φ w (rd + Pi.single q i)) →
      Leaves φ (.recv q n k) w (rd + Pi.single q n)

namespace Leaves

variable {φ ψ : (ρ → ℕ) → (ρ → ℕ) → Prop} {P P' : Prog ρ β α} {w rd : ρ → ℕ}

/-- A message of one byte. -/
theorem send_one {q : ρ} (b : β) (h : Leaves φ P w rd) (hi : ∀ i ≤ 1, φ (w + Pi.single q i) rd) :
    Leaves φ (.send q [b] P) (w + Pi.single q 1) rd := .send h hi

theorem holds (h : Leaves φ P w rd) : φ w rd := by
  cases h with
  | ret h => exact h
  | send _ h => exact h _ (le_refl _)
  | recv _ h => exact h _ (le_refl _)

theorem mono (h : Leaves φ P w rd) (hφ : ∀ w' rd', w' ≤ w → rd' ≤ rd → φ w' rd' → ψ w' rd') :
    Leaves ψ P w rd := by
  induction h with
  | ret h => exact .ret (hφ 0 0 (le_refl _) (le_refl _) h)
  | send hk h ih =>
    refine .send (ih fun w' rd' hw hrd => hφ w' rd' (le_add_right hw) hrd) fun i hi => ?_
    exact hφ _ _ (by gcongr) (le_refl _) (h i hi)
  | recv hk h ih =>
    refine .recv (fun bs hbs => ih bs hbs fun w' rd' hw hrd => hφ w' rd' hw (le_add_right hrd))
      fun i hi => ?_
    exact hφ _ _ (le_refl _) (by gcongr) (h i hi)

/-- One program after the other. -/
theorem bind {f : α → Prog ρ β γ} {w2 rd2 : ρ → ℕ} (h : Leaves φ P w rd)
    (hf : ∀ a, Leaves ψ (f a) w2 rd2) (hφ : ∀ w' rd', φ w' rd' → ψ (w' + w2) (rd' + rd2)) :
    Leaves ψ (P.bind f) (w + w2) (rd + rd2) := by
  induction h with
  | @ret a h => simpa [Prog.bind] using hf a
  | @send q bs k w rd hk h ih =>
    rw [add_right_comm]
    refine .send ih fun i hi => ?_
    rw [add_right_comm]
    exact hφ _ _ (h i hi)
  | @recv q n k w rd hk h ih =>
    rw [add_right_comm]
    refine .recv ih fun i hi => ?_
    rw [add_right_comm]
    exact hφ _ _ (h i hi)

theorem step {p : ρ} {m : Move ρ β} (h : Leaves φ P w rd) (ho : Offers p P m P') :
    match m with
    | .idle => Leaves φ P' w rd
    | .put c _ => ∃ w', w = w' + Pi.single c.2 1 ∧ Leaves φ P' w' rd
    | .get c _ => ∃ rd', rd = rd' + Pi.single c.1 1 ∧ Leaves φ P' w rd' := by
  cases ho with
  | sendNil q k =>
    cases h with
    | send hk _ => simpa using hk
  | put q b bs k =>
    cases h with
    | @send _ _ _ w _ hk h =>
      refine ⟨w + Pi.single q bs.length, ?_, .send hk fun i hi => h i (Nat.le_succ_of_le hi)⟩
      rw [List.length_cons, Pi.single_add, add_assoc]
  | recvNil q k =>
    cases h with
    | recv hk _ => simpa using hk [] rfl
  | get q n b k =>
    cases h with
    | @recv _ _ _ _ rd hk h =>
      refine ⟨rd + Pi.single q n, ?_, .recv (fun bs hbs => hk (b :: bs) ?_)
        fun i hi => h i (Nat.le_succ_of_le hi)⟩
      · rw [Pi.single_add, add_assoc]
      · rw [List.length_cons, hbs]

end Leaves

/-- `f c` bytes for every `c` of a list. -/
def loads (f : ρ → ℕ) (cs : List ρ) : ρ → ℕ := (cs.map fun c => Pi.single c (f c)).sum

@[simp] theorem loads_nil (f : ρ → ℕ) : loads f [] = 0 := rfl

theorem loads_cons (f : ρ → ℕ) (c : ρ) (cs : List ρ) :
    loads f (c :: cs) = Pi.single c (f c) + loads f cs := by
  rw [loads, List.map_cons, List.sum_cons, loads]

theorem loads_reverse (f : ρ → ℕ) (cs : List ρ) : loads f cs.reverse = loads f cs := by
  rw [loads, List.map_reverse, List.sum_reverse, loads]

theorem loads_apply (f : ρ → ℕ) {cs : List ρ} (h : cs.Nodup) (x : ρ) :
    loads f cs x = if x ∈ cs then f x else 0 := by
  induction cs with
  | nil => simp
  | cons c cs ih =>
    obtain ⟨hc, hcs⟩ := List.nodup_cons.mp h
    rw [loads_cons, Pi.add_apply, ih hcs]
    by_cases hx : x = c
    · subst hx
      simp [hc]
    · simp [hx]

/-- What every peer leaves, with `K c` bytes on channel `c` that nobody will read. -/
structure Evens (φ : ρ → (ρ → ℕ) → (ρ → ℕ) → Prop) (K : ρ × ρ → ℕ) (s : Net ρ β α)
    (w rd : ρ → ρ → ℕ) : Prop where
  leaves : ∀ p, Leaves (φ p) (s.prog p) (w p) (rd p)
  even : ∀ p q, rd q p + K (p, q) = (s.chan (p, q)).length + w p q

variable {φ : ρ → (ρ → ℕ) → (ρ → ℕ) → Prop} {K : ρ × ρ → ℕ} {s t : Net ρ β α} {w rd : ρ → ρ → ℕ}
  {cap : ρ × ρ → ℕ∞}

theorem Evens.step (h : Evens φ K s w rd) (hstep : ByteStep cap s t) :
    ∃ w' rd', Evens φ K t w' rd' := by
  obtain ⟨p, m, P, hP, he, rfl⟩ := hstep
  have hnext := (h.leaves p).step hP
  have howns := hP.owns
  cases m with
  | idle =>
    refine ⟨w, rd, fun r => ?_, h.even⟩
    by_cases hr : r = p
    · subst hr
      simpa using hnext
    · simpa [update_of_ne hr] using h.leaves r
  | put c b =>
    obtain ⟨p', q⟩ := c
    obtain rfl : p' = p := howns
    obtain ⟨w', hw', hleaves⟩ := hnext
    refine ⟨update w p' w', rd, fun r => ?_, fun r x => ?_⟩
    · by_cases hr : r = p'
      · subst hr
        simpa using hleaves
      · simpa [update_of_ne hr] using h.leaves r
    · have heven := h.even r x
      by_cases hr : r = p'
      · subst hr
        rw [hw'] at heven
        by_cases hx : x = q
        · subst hx
          simp only [Pi.add_apply, Pi.single_eq_same] at heven
          simp only [Move.run, update_self, List.length_append, List.length_singleton]
          omega
        · have hc : ((r, x) : ρ × ρ) ≠ (r, q) := fun hc => hx (congrArg Prod.snd hc)
          simp only [Pi.add_apply, Pi.single_eq_of_ne hx, add_zero] at heven
          simpa only [Move.run, update_self, update_of_ne hc] using heven
      · have hc : ((r, x) : ρ × ρ) ≠ (p', q) := fun hc => hr (congrArg Prod.fst hc)
        simpa only [Move.run, update_of_ne hr, update_of_ne hc] using heven
  | get c b =>
    obtain ⟨q, p'⟩ := c
    obtain rfl : p' = p := howns
    obtain ⟨rd', hrd', hleaves⟩ := hnext
    obtain ⟨bs, hbs⟩ := List.head?_eq_some_iff.mp he
    refine ⟨w, update rd p' rd', fun r => ?_, fun r x => ?_⟩
    · by_cases hr : r = p'
      · subst hr
        simpa using hleaves
      · simpa [update_of_ne hr] using h.leaves r
    · have heven := h.even r x
      by_cases hx : x = p'
      · subst hx
        rw [hrd'] at heven
        by_cases hr : r = q
        · subst hr
          simp only [Pi.add_apply, Pi.single_eq_same, hbs, List.length_cons] at heven
          simp only [Move.run, update_self, hbs, List.tail_cons]
          omega
        · have hc : ((r, x) : ρ × ρ) ≠ (q, x) := fun hc => hr (congrArg Prod.fst hc)
          simp only [Pi.add_apply, Pi.single_eq_of_ne hr, add_zero] at heven
          simpa only [Move.run, update_self, update_of_ne hc] using heven
      · have hc : ((r, x) : ρ × ρ) ≠ (q, p') := fun hc => hx (congrArg Prod.snd hc)
        simpa only [Move.run, update_of_ne hx, update_of_ne hc] using heven

/-- **Conservation**: in every state of every run, whatever the chunks. -/
theorem Evens.run (h : Evens φ K s w rd) (hrun : ReflTransGen (Step cap) s t) :
    ∃ w' rd', Evens φ K t w' rd' := by
  have hbytes : ∀ {u v : Net ρ β α}, ReflTransGen (ByteStep cap) u v →
      (∃ w' rd', Evens φ K u w' rd') → ∃ w' rd', Evens φ K v w' rd' := by
    intro u v hrun hu
    induction hrun with
    | refl => exact hu
    | tail _ hstep ih =>
      obtain ⟨w', rd', hev⟩ := ih
      exact hev.step hstep
  induction hrun with
  | refl => exact ⟨w, rd, h⟩
  | tail _ hstep ih => exact hbytes hstep.byteSteps.to_reflTransGen ih

end FifoNet
