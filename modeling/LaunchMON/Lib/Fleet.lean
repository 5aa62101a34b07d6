/-
  Programs that meet in collectives.

  A `Daemon` is a sequential program with operations of its own (any signature `Op`, `Ans`), early
  returns, and collective calls.  A fleet is one such program for each rank; rank 0 is the root.

  The operations are answered one daemon at a time (`resolve`), by a handler that may do anything.
  What is left are the collectives (`Comm`), and a fleet `Matched` when all of its daemons make the
  same collectives with the same sizes, one after the other, until they return, and then all succeed
  or all fail.  A fleet that is not matched has a daemon that waits in a collective which another one
  does not make, or returns of both kinds.

  The rule for such programs is `matched_section`: between two collectives, either every daemon gives
  up or none does.
-/
import Mathlib.Data.List.OfFn
import Mathlib.Tactic.Common

namespace Fleet

/-! ## Programs -/

/-- A collective, with the number of bytes that each daemon gives or takes. -/
inductive Collective
  | gather (n : Nat)
  | broadcast (n : Nat)
  | barrier
  deriving DecidableEq, Repr

/-- The program of one daemon: a result, an early return, an operation of its own, or a collective
    with what it puts in, to go on with what it takes out. -/
inductive Daemon (Op : Type) (Ans : Op → Type) (ρ α : Type)
  | ret (a : α)
  | fail (e : ρ)
  | op (o : Op) (k : Ans o → Daemon Op Ans ρ α)
  | meet (c : Collective) (mine : List UInt8) (k : List UInt8 → Daemon Op Ans ρ α)

/-- A program of collectives only. -/
abbrev Comm (ρ α : Type) := Daemon Empty (fun o => nomatch o) ρ α

namespace Daemon

variable {Op : Type} {Ans : Op → Type} {ρ α β : Type}

protected def bind : Daemon Op Ans ρ α → (α → Daemon Op Ans ρ β) → Daemon Op Ans ρ β
  | .ret a, f => f a
  | .fail e, _ => .fail e
  | .op o k, f => .op o fun x => (k x).bind f
  | .meet c mine k, f => .meet c mine fun bs => (k bs).bind f

instance : Monad (Daemon Op Ans ρ) where
  pure := Daemon.ret
  bind := Daemon.bind

/-- A result or an early return. -/
def ofExcept : Except ρ α → Daemon Op Ans ρ α
  | .ok a => .ret a
  | .error e => .fail e

/-- An operation. -/
def ask (o : Op) : Daemon Op Ans ρ (Ans o) := .op o .ret

def gather (n : Nat) (mine : List UInt8) : Daemon Op Ans ρ (List UInt8) := .meet (.gather n) mine .ret

def broadcast (n : Nat) (mine : List UInt8) : Daemon Op Ans ρ (List UInt8) :=
  .meet (.broadcast n) mine .ret

def barrier : Daemon Op Ans ρ Unit := .meet .barrier [] fun _ => .ret ()

@[simp] theorem pure_eq (a : α) : (pure a : Daemon Op Ans ρ α) = .ret a := rfl

@[simp] theorem ret_bind (a : α) (f : α → Daemon Op Ans ρ β) : (Daemon.ret a >>= f) = f a := rfl

@[simp] theorem fail_bind (e : ρ) (f : α → Daemon Op Ans ρ β) : (Daemon.fail e >>= f) = .fail e := rfl

@[simp] theorem op_bind (o : Op) (k : Ans o → Daemon Op Ans ρ α) (f : α → Daemon Op Ans ρ β) :
    (Daemon.op o k >>= f) = .op o fun x => k x >>= f := rfl

@[simp] theorem meet_bind (c : Collective) (mine : List UInt8)
    (k : List UInt8 → Daemon Op Ans ρ α) (f : α → Daemon Op Ans ρ β) :
    (Daemon.meet c mine k >>= f) = .meet c mine fun bs => k bs >>= f := rfl

@[simp] theorem ask_bind (o : Op) (f : Ans o → Daemon Op Ans ρ β) : (ask o >>= f) = .op o f := rfl

@[simp] theorem gather_bind (n : Nat) (mine : List UInt8) (f : List UInt8 → Daemon Op Ans ρ β) :
    (gather n mine >>= f) = .meet (.gather n) mine f := rfl

@[simp] theorem broadcast_bind (n : Nat) (mine : List UInt8) (f : List UInt8 → Daemon Op Ans ρ β) :
    (broadcast n mine >>= f) = .meet (.broadcast n) mine f := rfl

@[simp] theorem barrier_bind (f : Unit → Daemon Op Ans ρ β) :
    (barrier >>= f) = .meet .barrier [] fun _ => f () := rfl

@[simp] theorem ite_bind (c : Prop) [Decidable c] (x y : Daemon Op Ans ρ α)
    (f : α → Daemon Op Ans ρ β) :
    (if c then x else y) >>= f = if c then x >>= f else y >>= f := by
  split <;> rfl

instance : LawfulMonad (Daemon Op Ans ρ) := LawfulMonad.mk' _
  (fun x => by
    induction x with
    | ret a => rfl
    | fail e => rfl
    | op o k ih => exact congrArg (Daemon.op o) (funext fun x => ih x)
    | meet c mine k ih => exact congrArg (Daemon.meet c mine) (funext fun bs => ih bs))
  (fun _ _ => rfl)
  (fun x f g => by
    induction x with
    | ret a => rfl
    | fail e => rfl
    | op o k ih => exact congrArg (Daemon.op o) (funext fun x => ih x)
    | meet c mine k ih => exact congrArg (Daemon.meet c mine) (funext fun bs => ih bs))

@[simp] theorem ofExcept_error_bind (e : ρ) (f : α → Daemon Op Ans ρ β) :
    ((ofExcept (.error e) : Daemon Op Ans ρ α) >>= f) = .fail e := rfl

@[simp] theorem ofExcept_ok_bind (a : α) (f : α → Daemon Op Ans ρ β) :
    ((ofExcept (.ok a) : Daemon Op Ans ρ α) >>= f) = f a := rfl

/-! ## Answered operations -/

variable {σ : Type} (answer : σ → (o : Op) → Ans o × σ)

/-- The collectives of a daemon whose operations `answer` answers. -/
def resolve : Daemon Op Ans ρ α → σ → Comm ρ (α × σ)
  | .ret a, s => .ret (a, s)
  | .fail e, _ => .fail e
  | .op o k, s => (k (answer s o).1).resolve (answer s o).2
  | .meet c mine k, s => .meet c mine fun bs => (k bs).resolve s

@[simp] theorem resolve_ret (a : α) (s : σ) :
    (Daemon.ret a : Daemon Op Ans ρ α).resolve answer s = .ret (a, s) := rfl

@[simp] theorem resolve_fail (e : ρ) (s : σ) :
    (Daemon.fail e : Daemon Op Ans ρ α).resolve answer s = .fail e := rfl

@[simp] theorem resolve_op (o : Op) (k : Ans o → Daemon Op Ans ρ α) (s : σ) :
    (Daemon.op o k).resolve answer s = (k (answer s o).1).resolve answer (answer s o).2 := rfl

@[simp] theorem resolve_meet (c : Collective) (mine : List UInt8)
    (k : List UInt8 → Daemon Op Ans ρ α) (s : σ) :
    (Daemon.meet c mine k).resolve answer s = .meet c mine fun bs => (k bs).resolve answer s := rfl

@[simp] theorem resolve_ite (c : Prop) [Decidable c] (x y : Daemon Op Ans ρ α) (s : σ) :
    (if c then x else y).resolve answer s =
      if c then x.resolve answer s else y.resolve answer s := by
  split <;> rfl

/-- A program in two parts is answered part by part. -/
theorem resolve_bind (x : Daemon Op Ans ρ α) (f : α → Daemon Op Ans ρ β) (s : σ) :
    (x >>= f).resolve answer s = x.resolve answer s >>= fun r => (f r.1).resolve answer r.2 := by
  induction x generalizing s with
  | ret a => rfl
  | fail e => rfl
  | op o k ih => exact ih _ _
  | meet c mine k ih => exact congrArg (Daemon.meet c mine) (funext fun bs => ih bs s)

/-- What needs no operation needs no answer. -/
@[simp] theorem resolve_ofExcept_bind (x : Except ρ α) (f : α → Daemon Op Ans ρ β) (s : σ) :
    (ofExcept x >>= f).resolve answer s = ofExcept x >>= fun a => (f a).resolve answer s := by
  cases x <;> rfl

end Daemon

/-! ## Fleets -/

open Daemon

variable {n : Nat} {ρ α β γ : Type}

/-- There is a rank 0. -/
scoped instance (priority := high) neZero_succ : @NeZero ℕ Zero.ofOfNat0 (n + 1) := Nat.instNeZeroSucc

/-- What rank `i` takes out of a collective. -/
def delivered (c : Collective) (bufs : Fin (n + 1) → List UInt8) (i : Fin (n + 1)) : List UInt8 :=
  match c with
  | .broadcast _ => bufs 0
  | .gather _ => if i = 0 then (List.ofFn bufs).flatten else bufs i
  | .barrier => bufs i

/-- All daemons make the collectives of a list, together, and return. -/
inductive Ends : (Fin (n + 1) → Comm ρ α) → List Collective → (Fin (n + 1) → Except ρ α) → Prop
  | returned {r : Fin (n + 1) → Except ρ α} : Ends (fun i => ofExcept (r i)) [] r
  | met {c : Collective} {cs : List Collective} {bufs : Fin (n + 1) → List UInt8}
      {k : Fin (n + 1) → List UInt8 → Comm ρ α} {r : Fin (n + 1) → Except ρ α} :
      Ends (fun i => k i (delivered c bufs i)) cs r →
      Ends (fun i => .meet c (bufs i) (k i)) (c :: cs) r

/-- The daemons make the same collectives until they return, and all succeed or all fail. -/
def Matched (f : Fin (n + 1) → Comm ρ α) : Prop :=
  ∃ cs r, Ends f cs r ∧ ((∀ i, ∃ a, r i = .ok a) ∨ ∀ i, ∃ e, r i = .error e)

variable {f : Fin (n + 1) → Comm ρ α} {cs : List Collective} {r : Fin (n + 1) → Except ρ α}

theorem Ends.inv (h : Ends f cs r) :
    (cs = [] ∧ ∀ i, f i = ofExcept (r i)) ∨
    ∃ (c : Collective) (cs' : List Collective) (bufs : Fin (n + 1) → List UInt8)
      (k : Fin (n + 1) → List UInt8 → Comm ρ α), cs = c :: cs' ∧
      (∀ i, f i = .meet c (bufs i) (k i)) ∧ Ends (fun i => k i (delivered c bufs i)) cs' r := by
  cases h with
  | returned => exact Or.inl ⟨rfl, fun _ => rfl⟩
  | met h => exact Or.inr ⟨_, _, _, _, rfl, fun _ => rfl, h⟩

/-- Two programs, one behind the other, make the collectives of both. -/
theorem Ends.bind {cs' : List Collective} {a : Fin (n + 1) → α} {g : Fin (n + 1) → α → Comm ρ β}
    {r' : Fin (n + 1) → Except ρ β} (h : Ends f cs fun i => .ok (a i)) (hg : Ends (fun i => g i (a i)) cs' r') :
    Ends (fun i => f i >>= g i) (cs ++ cs') r' := by
  generalize hr : (fun i => Except.ok (a i)) = r at h
  induction h with
  | returned =>
    subst hr
    exact hg
  | met _ ih => exact Ends.met (ih hr)

/-- A program that goes on with its result makes the same collectives. -/
theorem Ends.map {a : Fin (n + 1) → α} (h : Ends f cs fun i => .ok (a i)) (g : α → β) :
    Ends (fun i => f i >>= fun x => .ret (g x)) cs fun i => .ok (g (a i)) := by
  rw [← List.append_nil cs]
  exact h.bind (@Ends.returned n ρ β fun i => .ok (g (a i)))

theorem ofExcept_ne_meet (x : Except ρ α) (c : Collective) (mine : List UInt8)
    (k : List UInt8 → Comm ρ α) : (ofExcept x : Comm ρ α) ≠ .meet c mine k := by
  cases x <;> rintro ⟨⟩

theorem ofExcept_inj {x y : Except ρ α} (h : (ofExcept x : Comm ρ α) = ofExcept y) : x = y := by
  cases x <;> cases y <;> cases h <;> rfl

/-- A daemon that has returned and one that is in a collective do not match. -/
theorem not_matched {i j : Fin (n + 1)} {x : Except ρ α} {c : Collective} {mine : List UInt8}
    {k : List UInt8 → Comm ρ α} (hi : f i = ofExcept x) (hj : f j = .meet c mine k) : ¬ Matched f := by
  rintro ⟨cs, r, h, -⟩
  rcases h.inv with ⟨-, hr⟩ | ⟨c', -, bufs, k', -, hm, -⟩
  · exact ofExcept_ne_meet _ _ _ _ ((hr j).symm.trans hj)
  · exact ofExcept_ne_meet _ _ _ _ (hi.symm.trans (hm i))

theorem matched_returned :
    Matched (fun i => (ofExcept (r i) : Comm ρ α)) ↔
      (∀ i, ∃ a, r i = .ok a) ∨ ∀ i, ∃ e, r i = .error e := by
  constructor
  · rintro ⟨cs, r', h, hr⟩
    rcases h.inv with ⟨-, hr'⟩ | ⟨c, -, bufs, k, -, hm, -⟩
    · obtain rfl : r = r' := funext fun i => ofExcept_inj (hr' i)
      exact hr
    · exact absurd (hm 0) (ofExcept_ne_meet _ _ _ _)
  · exact fun hr => ⟨[], r, .returned, hr⟩

theorem matched_meet {c : Collective} {bufs : Fin (n + 1) → List UInt8}
    {k : Fin (n + 1) → List UInt8 → Comm ρ α} :
    Matched (fun i => .meet c (bufs i) (k i)) ↔ Matched (fun i => k i (delivered c bufs i)) := by
  constructor
  · rintro ⟨cs, r, h, hr⟩
    rcases h.inv with ⟨-, hr'⟩ | ⟨c', cs', bufs', k', -, hm, h⟩
    · exact absurd (hr' 0).symm (ofExcept_ne_meet _ _ _ _)
    · obtain rfl : c = c' := by injection hm 0
      obtain rfl : bufs = bufs' := funext fun i => by injection hm i
      obtain rfl : k = k' := funext fun i => by injection hm i
      exact ⟨cs', r, h, hr⟩
  · rintro ⟨cs, r, h, hr⟩
    exact ⟨c :: cs, r, .met h, hr⟩

/-- **Between two collectives** every daemon gives up, or none does and all go on to the next one. -/
theorem matched_section {x : Fin (n + 1) → Except ρ β} {c : Collective}
    {buf : Fin (n + 1) → β → List UInt8} {k : Fin (n + 1) → β → List UInt8 → Comm ρ α} :
    Matched (fun i => ofExcept (x i) >>= fun b => .meet c (buf i b) (k i b)) ↔
      (∀ i, ∃ e, x i = .error e) ∨
      ∃ b : Fin (n + 1) → β, (∀ i, x i = .ok (b i)) ∧
        Matched (fun i => k i (b i) (delivered c (fun j => buf j (b j)) i)) := by
  by_cases herr : ∀ i, ∃ e, x i = .error e
  · choose e he using herr
    obtain rfl : x = fun i => .error (e i) := funext he
    refine iff_of_true ?_ (Or.inl fun i => ⟨_, rfl⟩)
    exact matched_returned (r := fun i => .error (e i)).mpr (Or.inr fun i => ⟨_, rfl⟩)
  · push Not at herr
    obtain ⟨j, hj⟩ := herr
    obtain ⟨b₀, hb₀⟩ : ∃ b, x j = .ok b := by
      cases hx : x j with
      | ok b => exact ⟨b, rfl⟩
      | error e => exact absurd hx (hj e)
    by_cases hok : ∀ i, ∃ b, x i = .ok b
    · choose b hb using hok
      obtain rfl : x = fun i => .ok (b i) := funext hb
      constructor
      · exact fun h => Or.inr ⟨b, fun _ => rfl, matched_meet.mp h⟩
      · rintro (h | ⟨b', hb', h⟩)
        · obtain ⟨e, he⟩ := h j
          cases he
        · obtain rfl : b = b' := funext fun i => by injection hb' i
          exact matched_meet.mpr h
    · push Not at hok
      obtain ⟨i, hi⟩ := hok
      obtain ⟨e, he⟩ : ∃ e, x i = .error e := by
        cases hx : x i with
        | ok b => exact absurd hx (hi b)
        | error e => exact ⟨e, rfl⟩
      refine iff_of_false ?_ ?_
      · refine @not_matched _ _ _ _ i j (.error e) c (buf j b₀) (k j b₀) ?_ ?_
        · rw [he]
          rfl
        · rw [hb₀]
          rfl
      · rintro (h | ⟨b, hb, -⟩)
        · obtain ⟨e, he⟩ := h j
          exact hj e he
        · exact hi _ (hb i)

theorem error_iff {x : Except ρ β} : (∃ e, x = .error e) ↔ ¬ ∃ b, x = .ok b := by
  cases x <;> simp

/-- The section before the last collective. -/
theorem matched_last {x : Fin (n + 1) → Except ρ β} {c : Collective}
    {buf : Fin (n + 1) → β → List UInt8} {k : Fin (n + 1) → β → List UInt8 → α} :
    Matched (fun i => ofExcept (x i) >>= fun b =>
      (.meet c (buf i b) fun bs => .ret (k i b bs) : Comm ρ α)) ↔
      (∀ i, ∃ b, x i = .ok b) ∨ ∀ i, ¬ ∃ b, x i = .ok b := by
  rw [matched_section]
  simp only [error_iff]
  constructor
  · rintro (h | ⟨b, hb, -⟩)
    · exact Or.inr h
    · exact Or.inl fun i => ⟨_, hb i⟩
  · rintro (h | h)
    · choose b hb using h
      exact Or.inr ⟨b, hb, matched_returned (r := fun i => .ok _).mpr (Or.inl fun i => ⟨_, rfl⟩)⟩
    · exact Or.inl h

end Fleet
