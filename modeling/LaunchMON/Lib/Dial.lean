/-
  Programs that dial each other.

  A `Prog` dials an address and gets a connection to a peer that waits there, writes bytes on such a
  connection, and reads bytes from the one who has dialled it.  A `Net` has a program for the starter,
  whom nobody dials, and one for each peer; a peer does nothing before it is dialled, and is dialled
  once.  Which one of several peers at an address answers is not said.

  A `Plan` is a way to dial everybody: each call has a number, whoever takes the call `c` is sent
  `msg c`, and after he has read that he dials the numbers `kids c`, where these lists are a tree that is
  rooted at 0.  If there are as many peers at each address as numbers, then every run is finite
  (`Plan.bounded`), and where it ends all numbers have been dialled, each by its own peer, and all
  programs have returned (`Plan.done_of_stuck`).

  The invariant (`Plan.Inv`) follows each party from the end of its program: what it has not read yet,
  on the connection or with its caller, leads to a place in its list of calls (`Plan.Stage`).
-/
import Mathlib.Data.Fintype.Card
import Mathlib.Data.Fintype.EquivFin
import Mathlib.Algebra.BigOperators.Group.Finset.Basic
import Mathlib.Algebra.Order.BigOperators.Group.Finset
import Mathlib.Data.ENat.Basic
import Mathlib.Data.List.Forall2
import LaunchMON.Lib.Descent

namespace Dial

open Function Relation Descent

/-! ## Programs -/

/-- A program: a result, a failure, a call with its number, a byte to a peer that has been called, or a
    byte from the own caller. -/
inductive Prog (ι A α : Type)
  | ret (a : α)
  | fail
  | dial (a : A) (c : ℕ) (k : ι → Prog ι A α)
  | put (fd : ι) (b : UInt8) (k : Prog ι A α)
  | get (k : UInt8 → Prog ι A α)

variable {ι A α : Type}

namespace Prog

/-- Write a message. -/
def send (fd : ι) : List UInt8 → Prog ι A α → Prog ι A α
  | [], k => k
  | b :: bs, k => .put fd b (send fd bs k)

/-- Read a message of `n` bytes. -/
def recv : ℕ → (List UInt8 → Prog ι A α) → Prog ι A α
  | 0, k => k []
  | n + 1, k => .get fun b => recv n fun bs => k (b :: bs)

/-- The program when it has read `bs`. -/
def feed : Prog ι A α → List UInt8 → Option (Prog ι A α)
  | P, [] => some P
  | .get k, b :: bs => (k b).feed bs
  | _, _ :: _ => none

/-- What the program writes to `j` before it does anything else. -/
def pending [DecidableEq ι] (j : ι) : Prog ι A α → List UInt8
  | .put fd b k => if fd = j then b :: k.pending j else k.pending j
  | _ => []

@[simp] theorem feed_nil (P : Prog ι A α) : P.feed [] = some P := by
  cases P <;> rfl

@[simp] theorem feed_get (k : UInt8 → Prog ι A α) (b : UInt8) (bs : List UInt8) :
    (Prog.get k).feed (b :: bs) = (k b).feed bs := rfl

theorem feed_recv : ∀ (bs rest : List UInt8) (k : List UInt8 → Prog ι A α),
    (recv bs.length k).feed (bs ++ rest) = (k bs).feed rest
  | [], _, _ => rfl
  | _ :: bs, rest, k => feed_recv bs rest fun bs => k (_ :: bs)

/-- Only a program that reads can be fed. -/
theorem feed_eq_some {P Q : Prog ι A α} {bs : List UInt8} (h : P.feed bs = some Q) (hbs : bs ≠ []) :
    ∃ k, P = .get k := by
  cases bs with
  | nil => exact absurd rfl hbs
  | cons b bs =>
    cases P with
    | get k => exact ⟨k, rfl⟩
    | _ => cases h

theorem feed_of_ne_get {P Q : Prog ι A α} {bs : List UInt8} (h : P.feed bs = some Q)
    (hP : ∀ k, P ≠ .get k) : bs = [] ∧ Q = P := by
  by_cases hbs : bs = []
  · subst hbs
    rw [feed_nil] at h
    exact ⟨rfl, (Option.some.inj h).symm⟩
  · obtain ⟨k, hk⟩ := feed_eq_some h hbs
    exact absurd hk (hP k)

variable [DecidableEq ι]

theorem pending_send (j fd : ι) (bs : List UInt8) (k : Prog ι A α) :
    (send fd bs k).pending j = (if fd = j then bs else []) ++ k.pending j := by
  induction bs with
  | nil => split <;> rfl
  | cons b bs ih =>
    show (if fd = j then b :: (send fd bs k).pending j else (send fd bs k).pending j) = _
    rw [ih]
    split <;> rfl

/-- Who has something to write writes it next. -/
theorem put_of_pending {P : Prog ι A α} {j : ι} (h : P.pending j ≠ []) :
    ∃ fd b k, P = .put fd b k := by
  cases P with
  | put fd b k => exact ⟨fd, b, k, rfl⟩
  | _ => exact absurd rfl h

end Prog

/-! ## The system -/

/-- The programs (`none` is the starter), who has dialled each peer and as which number, and what is on
    its way to it. -/
@[ext] structure Net (ι A α : Type) where
  prog : Option ι → Prog ι A α
  caller : ι → Option (Option ι × ℕ)
  inbox : ι → List UInt8

/-- One step: a call is taken by a peer that waits at the address, or a byte is written or read.  A
    connection holds `cap` bytes. -/
inductive Step [DecidableEq ι] (addr : ι → A) (cap : ℕ∞) (s : Net ι A α) : Net ι A α → Prop
  | dial {p : Option ι} {a : A} {c : ℕ} {k : ι → Prog ι A α} {j : ι} :
      s.prog p = .dial a c k → addr j = a → s.caller j = none →
      Step addr cap s ⟨update s.prog p (k j), update s.caller j (some (p, c)), s.inbox⟩
  | put {p : Option ι} {fd : ι} {b : UInt8} {k : Prog ι A α} :
      s.prog p = .put fd b k → (((s.inbox fd).length + 1 : ℕ) : ℕ∞) ≤ cap →
      Step addr cap s ⟨update s.prog p k, s.caller, update s.inbox fd (s.inbox fd ++ [b])⟩
  | get {j : ι} {k : UInt8 → Prog ι A α} {b : UInt8} {bs : List UInt8} :
      s.prog (some j) = .get k → s.caller j ≠ none → s.inbox j = b :: bs →
      Step addr cap s ⟨update s.prog (some j) (k b), s.caller, update s.inbox j bs⟩

/-- Who has been dialled keeps the number. -/
theorem Step.caller_eq [DecidableEq ι] {addr : ι → A} {cap : ℕ∞} {s t : Net ι A α} (hst : Step addr cap s t)
    {j : ι} {q : Option ι × ℕ} (hj : s.caller j = some q) : t.caller j = some q := by
  cases hst with
  | @dial p a c k i _ _ hfree =>
    have hne : j ≠ i := by
      rintro rfl
      rw [hfree] at hj
      cases hj
    exact (update_of_ne hne _ _).trans hj
  | put => exact hj
  | get => exact hj

/-! ## Plans -/

/-- Dial these numbers, one after the other, and send to each its message. -/
def dialAll (addrOf : ℕ → A) (msg : ℕ → List UInt8) (f : List ι → α) : List ι → List ℕ → Prog ι A α
  | fds, [] => .ret (f fds)
  | fds, c :: cs =>
    .dial (addrOf c) c fun fd => .send fd (msg c) (dialAll addrOf msg f (fds ++ [fd]) cs)

/-- A way to dial the numbers below `n`. -/
structure Plan (ι A α : Type) (n : ℕ) where
  addrOf : ℕ → A
  msg : ℕ → List UInt8
  kids : ℕ → List ℕ
  /-- The results of the starter and of a number. -/
  starter : List ι → α
  result : ℕ → List ι → α
  /-- What everybody does who is dialled. -/
  reader : Prog ι A α
  waits : ∃ k, reader = .get k
  reads : ∀ c < n, reader.feed (msg c) = some (dialAll addrOf msg (result c) [] (kids c))
  pos : 0 < n
  kids_lt : ∀ q < n, ∀ c ∈ kids q, q < c ∧ c < n
  kids_nodup : ∀ q < n, (kids q).Nodup
  kid : ∀ c, 0 < c → c < n → ∃ q < n, c ∈ kids q
  kids_unique : ∀ q < n, ∀ q' < n, ∀ c, c ∈ kids q → c ∈ kids q' → q = q'

section

variable {β γ : Type} {R : β → γ → Prop}

theorem exists_of_forall₂_left {xs : List β} {ys : List γ} (h : List.Forall₂ R xs ys) {x : β}
    (hx : x ∈ xs) : ∃ y ∈ ys, R x y := by
  induction h with
  | nil => exact absurd hx List.not_mem_nil
  | cons hxy _ ih =>
    rcases List.mem_cons.mp hx with rfl | hx
    · exact ⟨_, List.mem_cons_self, hxy⟩
    · obtain ⟨y, hy, hR⟩ := ih hx
      exact ⟨y, List.mem_cons_of_mem _ hy, hR⟩

theorem exists_of_forall₂_right {xs : List β} {ys : List γ} (h : List.Forall₂ R xs ys) {y : γ}
    (hy : y ∈ ys) : ∃ x ∈ xs, R x y := exists_of_forall₂_left h.flip hy

end

namespace Plan

variable {n : ℕ} (W : Plan ι A α n)

/-- At the start nobody has been dialled. -/
def init : Net ι A α where
  prog
    | none => dialAll W.addrOf W.msg W.starter [] [0]
    | some _ => W.reader
  caller _ := none
  inbox _ := []

/-- `P` is a place in the calls of `p`: `done` have been made, on the connections `fds`, the last one has
    still to be sent `bs`, and `todo` come later. -/
structure At (s : Net ι A α) (p : Option ι) (f : List ι → α) (P : Prog ι A α) (fd : ι)
    (bs : List UInt8) (fds : List ι) (done todo : List ℕ) : Prop where
  prog_eq : P = .send fd bs (dialAll W.addrOf W.msg f fds todo)
  dialled : List.Forall₂ (fun i c => s.caller i = some (p, c)) fds done
  writes : bs ≠ [] → fd ∈ fds
  known : ∀ i c, s.caller i = some (p, c) → c ∈ done

variable {W} {s : Net ι A α} {p : Option ι} {f : List ι → α} {P : Prog ι A α} {fd : ι}
  {bs : List UInt8} {fds : List ι} {done todo ks : List ℕ}

/-- A program in a call makes the call of the next number. -/
theorem At.dial {a : A} {c : ℕ} {k : ι → Prog ι A α} (h : W.At s p f (.dial a c k) fd bs fds done todo) :
    bs = [] ∧ ∃ cs, todo = c :: cs ∧ a = W.addrOf c ∧
      ∀ j, k j = .send j (W.msg c) (dialAll W.addrOf W.msg f (fds ++ [j]) cs) := by
  have heq := h.prog_eq
  cases bs with
  | cons b bs => cases heq
  | nil =>
    cases todo with
    | nil => cases heq
    | cons c' cs =>
      injection heq with ha hc hk
      subst hc
      exact ⟨rfl, cs, rfl, ha, fun j => congrFun hk j⟩

/-- A program in a write has called the one it writes to. -/
theorem At.put {fd' : ι} {b : UInt8} {k : Prog ι A α} (h : W.At s p f (.put fd' b k) fd bs fds done todo) :
    fd' = fd ∧ ∃ bs', bs = b :: bs' ∧ k = .send fd bs' (dialAll W.addrOf W.msg f fds todo) := by
  have heq := h.prog_eq
  cases bs with
  | nil => cases todo <;> cases heq
  | cons b' bs =>
    injection heq with hfd hb hk
    subst hb
    exact ⟨hfd, bs, rfl, hk⟩

theorem At.mem_caller (h : W.At s p f P fd bs fds done todo) {i : ι} (hi : i ∈ fds) :
    ∃ c ∈ done, s.caller i = some (p, c) := exists_of_forall₂_left h.dialled hi

variable (W) [DecidableEq ι]

/-- What a peer has not read yet: on the connection, and with its caller. -/
def due (s : Net ι A α) : Option ι → List UInt8
  | none => []
  | some j => s.inbox j ++ match s.caller j with
    | none => []
    | some (q, _) => (s.prog q).pending j

/-- The starter and whoever has been dialled, with the numbers to dial and the result. -/
inductive Party (s : Net ι A α) : Option ι → List ℕ → (List ι → α) → Prop
  | starter : Party s none [0] W.starter
  | called {j : ι} {q : Option ι} {c : ℕ} :
      s.caller j = some (q, c) → Party s (some j) (W.kids c) (W.result c)

/-- The invariant. -/
structure Inv (addr : ι → A) (s : Net ι A α) : Prop where
  /-- Who has not been dialled waits. -/
  idle : ∀ j, s.caller j = none → s.prog (some j) = W.reader ∧ s.inbox j = []
  /-- A number is taken at its address. -/
  lt : ∀ j q c, s.caller j = some (q, c) → c < n ∧ addr j = W.addrOf c
  /-- A number is taken by one peer. -/
  inj : ∀ j j' q q' c, s.caller j = some (q, c) → s.caller j' = some (q', c) → j = j'
  /-- Who dials has been dialled. -/
  up : ∀ i j c, s.caller i = some (some j, c) → s.caller j ≠ none
  /-- When everything that is due has been read, the program is at a place in its calls. -/
  place : ∀ p ks f, W.Party s p ks f → ∃ P fd bs fds done todo,
    (s.prog p).feed (due s p) = some P ∧ ks = done ++ todo ∧ W.At s p f P fd bs fds done todo ∧
      (due s p ≠ [] → done = [])

variable {W} {addr : ι → A} {cap : ℕ∞}

omit [DecidableEq ι] in
theorem Party.unique {ks' : List ℕ} {f' : List ι → α} (h : W.Party s p ks f)
    (h' : W.Party s p ks' f') : ks = ks' ∧ f = f' := by
  cases h with
  | starter =>
    cases h' with
    | starter => exact ⟨rfl, rfl⟩
  | called hj =>
    cases h' with
    | called hj' =>
      cases hj.symm.trans hj'
      exact ⟨rfl, rfl⟩

theorem inv_init [Nonempty ι] : W.Inv addr W.init where
  idle j _ := ⟨rfl, rfl⟩
  lt j q c h := nomatch h
  inj j j' q q' c h := nomatch h
  up i j c h := nomatch h
  place p ks f h := by
    cases h with
    | called h => cases h
    | starter =>
      exact ⟨_, Classical.arbitrary ι, [], [], [], [0], Prog.feed_nil _, rfl,
        ⟨rfl, .nil, fun h => absurd rfl h, fun i c h => nomatch h⟩, fun _ => rfl⟩

/-- A program that does not read is at its place. -/
theorem Inv.acts (h : W.Inv addr s) (hp : ∀ k, s.prog p ≠ .get k) : ∃ ks f fd bs fds done todo,
    W.Party s p ks f ∧ due s p = [] ∧ ks = done ++ todo ∧ W.At s p f (s.prog p) fd bs fds done todo := by
  obtain ⟨ks, f, hparty⟩ : ∃ ks f, W.Party s p ks f := by
    cases p with
    | none => exact ⟨_, _, .starter⟩
    | some j =>
      cases hj : s.caller j with
      | some qc => exact ⟨_, _, .called hj⟩
      | none =>
        obtain ⟨k, hk⟩ := W.waits
        exact absurd ((h.idle j hj).1.trans hk) (hp k)
  obtain ⟨P, fd, bs, fds, done, todo, hfeed, hks, hat, -⟩ := h.place p ks f hparty
  obtain ⟨hdue, rfl⟩ := Prog.feed_of_ne_get hfeed hp
  exact ⟨ks, f, fd, bs, fds, done, todo, hparty, hdue, hks, hat⟩

/-- The numbers of a party. -/
theorem Inv.party_lt (h : W.Inv addr s) (hparty : W.Party s p ks f) : ∀ c ∈ ks, c < n := by
  cases hparty with
  | starter =>
    intro c hc
    rw [List.mem_singleton.mp hc]
    exact W.pos
  | called hj => exact fun c hc => (W.kids_lt _ (h.lt _ _ _ hj).1 c hc).2

/-- Who has been dialled has one of the numbers of his caller. -/
theorem Inv.of_caller (h : W.Inv addr s) {j : ι} {c : ℕ} (hj : s.caller j = some (p, c)) :
    ∃ ks f, W.Party s p ks f ∧ c ∈ ks := by
  obtain ⟨ks, f, hparty⟩ : ∃ ks f, W.Party s p ks f := by
    cases p with
    | none => exact ⟨_, _, .starter⟩
    | some i =>
      obtain ⟨qc, hqc⟩ := Option.ne_none_iff_exists'.mp (h.up _ _ _ hj)
      exact ⟨_, _, .called hqc⟩
  obtain ⟨_, _, _, _, done, todo, -, hks, hat, -⟩ := h.place _ _ _ hparty
  exact ⟨ks, f, hparty, hks ▸ List.mem_append_left _ (hat.known j c hj)⟩

/-- Nobody is dialled by himself. -/
theorem Inv.ne_self (h : W.Inv addr s) {j : ι} {c : ℕ} : s.caller j ≠ some (some j, c) := by
  intro hj
  obtain ⟨ks, f, hparty, hc⟩ := h.of_caller hj
  obtain ⟨rfl, -⟩ := hparty.unique (.called hj)
  exact absurd (W.kids_lt _ (h.lt _ _ _ hj).1 c hc).1 (Nat.lt_irrefl c)

/-- A number has one party that dials it. -/
theorem Inv.party_unique (h : W.Inv addr s) {p' : Option ι} {ks' : List ℕ} {f' : List ι → α}
    (hp : W.Party s p ks f) (hp' : W.Party s p' ks' f') {c : ℕ} (hc : c ∈ ks) (hc' : c ∈ ks') :
    p = p' := by
  have hzero : ∀ {j : ι} {q : Option ι} {c' : ℕ}, s.caller j = some (q, c') → 0 ∉ W.kids c' :=
    fun hj h0 => absurd (W.kids_lt _ (h.lt _ _ _ hj).1 0 h0).1 (Nat.not_lt_zero _)
  cases hp with
  | starter =>
    obtain rfl := List.mem_singleton.mp hc
    cases hp' with
    | starter => rfl
    | called hj => exact absurd hc' (hzero hj)
  | called hj =>
    cases hp' with
    | starter =>
      obtain rfl := List.mem_singleton.mp hc'
      exact absurd hc (hzero hj)
    | called hj' =>
      have heq := W.kids_unique _ (h.lt _ _ _ hj).1 _ (h.lt _ _ _ hj').1 c hc hc'
      rw [heq] at hj
      exact congrArg some (h.inj _ _ _ _ _ hj hj')

/-- The next number has not been dialled by anybody. -/
theorem Inv.fresh (h : W.Inv addr s) (hparty : W.Party s p ks f) {c : ℕ} {cs : List ℕ}
    (hks : ks = done ++ c :: cs) (hat : W.At s p f P fd bs fds done (c :: cs)) (i : ι) (q : Option ι) :
    s.caller i ≠ some (q, c) := by
  intro hi
  obtain ⟨ks', f', hparty', hc'⟩ := h.of_caller hi
  obtain rfl := h.party_unique hparty hparty' (hks ▸ List.mem_append_right _ List.mem_cons_self) hc'
  have hnodup : ks.Nodup := by
    cases hparty with
    | starter => exact List.nodup_singleton 0
    | called hp => exact W.kids_nodup _ (h.lt _ _ _ hp).1
  rw [hks] at hnodup
  exact List.disjoint_of_nodup_append hnodup (hat.known i c hi) List.mem_cons_self

/-- After a call the new one has all of its message to read, and the others what they had. -/
theorem Inv.due_dial (h : W.Inv addr s) {c : ℕ} {k : ι → Prog ι A α} {j : ι}
    (hprog : s.prog p = .dial (addr j) c k) (hj : s.caller j = none) :
    c < n ∧ due ⟨update s.prog p (k j), update s.caller j (some (p, c)), s.inbox⟩ (some j) = W.msg c ∧
      ∀ p', p' ≠ some j →
        due ⟨update s.prog p (k j), update s.caller j (some (p, c)), s.inbox⟩ p' = due s p' := by
  obtain ⟨ks, f, fd, bs, fds, done, todo, hparty, -, hks, hat⟩ :=
    h.acts (p := p) fun k' hk' => by rw [hprog] at hk'; cases hk'
  rw [hprog] at hat
  obtain ⟨-, cs, rfl, -, hk⟩ := hat.dial
  have hpend : ∀ i, (k j).pending i = if j = i then W.msg c else [] := by
    intro i
    rw [hk j, Prog.pending_send]
    cases cs <;> exact List.append_nil _
  refine ⟨h.party_lt hparty c (hks ▸ List.mem_append_right _ List.mem_cons_self), ?_, ?_⟩
  · simp only [due, update_self, (h.idle j hj).2, List.nil_append]
    rw [hpend, if_pos rfl]
  · intro p' hp'
    cases p' with
    | none => rfl
    | some i =>
      have hi : i ≠ j := fun h => hp' (congrArg some h)
      simp only [due, update_of_ne hi]
      cases s.caller i with
      | none => rfl
      | some qc =>
        obtain ⟨q, c'⟩ := qc
        dsimp only
        by_cases hq : q = p
        · subst hq
          rw [update_self, hpend, if_neg (Ne.symm hi), hprog]
          rfl
        · rw [update_of_ne hq]

/-- A call keeps the invariant. -/
theorem Inv.dial (h : W.Inv addr s) {a : A} {c : ℕ} {k : ι → Prog ι A α} {j : ι}
    (hprog : s.prog p = .dial a c k) (ha : addr j = a) (hj : s.caller j = none) :
    W.Inv addr ⟨update s.prog p (k j), update s.caller j (some (p, c)), s.inbox⟩ := by
  subst ha
  obtain ⟨ks, f, fd, bs, fds, done, todo, hparty, hdue, hks, hat⟩ :=
    h.acts (p := p) fun k' hk' => by rw [hprog] at hk'; cases hk'
  rw [hprog] at hat
  obtain ⟨-, cs, rfl, haddr, hk⟩ := hat.dial
  obtain ⟨hcn, hmsg, hdue'⟩ := h.due_dial hprog hj
  have hfresh := h.fresh hparty hks hat
  -- the one that accepts was idle until now, and so is not the one that dials
  have hp : p ≠ some j := by
    rintro rfl
    cases hparty with
    | called hj' => exact Option.some_ne_none _ (hj'.symm.trans hj)
  have hne : ∀ {i q c'}, s.caller i = some (q, c') → i ≠ j := by
    rintro i q c' hi rfl
    exact Option.some_ne_none _ (hi.symm.trans hj)
  have hold : ∀ {i q c'}, s.caller i = some (q, c') →
      update s.caller j (some (p, c)) i = some (q, c') := fun hi => by rw [update_of_ne (hne hi), hi]
  -- a connection after the step is the new one or one from before
  have hnew : ∀ {i q c'}, update s.caller j (some (p, c)) i = some (q, c') →
      i = j ∧ q = p ∧ c' = c ∨ s.caller i = some (q, c') := by
    intro i q c' hi
    by_cases hij : i = j
    · subst hij
      rw [update_self] at hi
      cases hi
      exact Or.inl ⟨rfl, rfl, rfl⟩
    · exact Or.inr (by rwa [update_of_ne hij] at hi)
  have hnone : ∀ {i}, update s.caller j (some (p, c)) i = none → i ≠ j ∧ s.caller i = none := by
    intro i hi
    by_cases hij : i = j
    · subst hij
      rw [update_self] at hi
      cases hi
    · exact ⟨hij, by rwa [update_of_ne hij] at hi⟩
  refine ⟨?_, ?_, ?_, ?_, ?_⟩
  · intro i hi
    obtain ⟨hij, hi'⟩ := hnone hi
    refine ⟨?_, (h.idle i hi').2⟩
    show update s.prog p (k j) (some i) = _
    rw [update_of_ne, (h.idle i hi').1]
    rintro rfl
    cases hparty with
    | called hp => exact Option.some_ne_none _ (hp.symm.trans hi')
  · intro i q c' hi
    rcases hnew hi with ⟨rfl, rfl, rfl⟩ | hi
    · exact ⟨hcn, haddr⟩
    · exact h.lt i q c' hi
  · intro i i' q q' c' hi hi'
    rcases hnew hi with ⟨rfl, rfl, rfl⟩ | hwas
    · rcases hnew hi' with ⟨rfl, -, -⟩ | hwas'
      · rfl
      · exact absurd hwas' (hfresh _ _)
    · rcases hnew hi' with ⟨rfl, rfl, rfl⟩ | hwas'
      · exact absurd hwas (hfresh _ _)
      · exact h.inj _ _ _ _ _ hwas hwas'
  · intro i i' c' hi hi'
    obtain ⟨hi'j, hi''⟩ := hnone hi'
    rcases hnew hi with ⟨rfl, rfl, rfl⟩ | hi
    · cases hparty with
      | called hp => exact Option.some_ne_none _ (hp.symm.trans hi'')
    · exact h.up _ _ _ hi hi''
  · intro p' ks' f' hparty'
    by_cases hpj : p' = some j
    · -- the new one has all of its message to read
      subst hpj
      obtain ⟨rfl, rfl⟩ : ks' = W.kids c ∧ f' = W.result c := by
        cases hparty' with
        | called hq =>
          rcases hnew hq with ⟨-, -, rfl⟩ | hq
          · exact ⟨rfl, rfl⟩
          · exact absurd rfl (hne hq)
      refine ⟨_, j, [], [], [], W.kids c, ?_, rfl, ⟨rfl, .nil, fun h => absurd rfl h, ?_⟩, fun _ => rfl⟩
      · rw [hmsg]
        show (update s.prog p (k j) (some j)).feed _ = _
        rw [update_of_ne (Ne.symm hp), (h.idle j hj).1, W.reads c hcn]
        rfl
      · intro i c' hi
        rcases hnew hi with ⟨-, hq, -⟩ | hi
        · exact absurd hq.symm hp
        · exact absurd hj (h.up _ _ _ hi)
    · obtain ⟨hpar, hsame⟩ : W.Party s p' ks' f' ∧
          due ⟨update s.prog p (k j), update s.caller j (some (p, c)), s.inbox⟩ p' = due s p' := by
        refine ⟨?_, hdue' p' hpj⟩
        cases hparty' with
        | starter => exact .starter
        | called hq =>
          rcases hnew hq with ⟨rfl, -, -⟩ | hq
          · exact absurd rfl hpj
          · exact .called hq
      rw [hsame]
      by_cases hpp : p' = p
      · subst hpp
        obtain ⟨rfl, rfl⟩ := hpar.unique hparty
        refine ⟨_, j, W.msg c, fds ++ [j], done ++ [c], cs, ?_, ?_, ⟨hk j, ?_, fun _ => ?_, ?_⟩, fun h =>
          absurd hdue h⟩
        · rw [hdue, Prog.feed_nil]
          exact congrArg some (update_self ..)
        · rw [hks, List.append_assoc]
          rfl
        · exact List.rel_append (hat.dialled.imp fun _ _ hi => hold hi)
            (.cons (update_self ..) .nil)
        · exact List.mem_append_right _ List.mem_cons_self
        · intro i c' hi
          rcases hnew hi with ⟨-, -, rfl⟩ | hi
          · exact List.mem_append_right _ List.mem_cons_self
          · exact List.mem_append_left _ (hat.known i c' hi)
      · obtain ⟨P', fd', bs', fds', done', todo', hfeed', hks', hat', hdone'⟩ := h.place p' ks' f' hpar
        refine ⟨P', fd', bs', fds', done', todo', ?_, hks', ?_, hdone'⟩
        · show (update s.prog p (k j) p').feed _ = _
          rw [update_of_ne hpp]
          exact hfeed'
        · exact ⟨hat'.prog_eq, hat'.dialled.imp fun _ _ hi => hold hi, hat'.writes, fun i c' hi => by
            rcases hnew hi with ⟨-, hq, -⟩ | hi
            · exact absurd hq hpp
            · exact hat'.known i c' hi⟩

/-- A step that is no call changes the program of one party and what is due to anybody. -/
theorem Inv.frame (h : W.Inv addr s) {t : Net ι A α} (hcaller : t.caller = s.caller)
    (hidle : ∀ j, s.caller j = none → t.prog (some j) = s.prog (some j) ∧ t.inbox j = s.inbox j)
    (hparty : W.Party s p ks f)
    (hp : ∃ P fd bs fds done todo, (t.prog p).feed (due t p) = some P ∧ ks = done ++ todo ∧
      W.At s p f P fd bs fds done todo ∧ (due t p ≠ [] → done = []))
    (hother : ∀ p', p' ≠ p → t.prog p' = s.prog p' ∧ due t p' = due s p') : W.Inv addr t where
  idle j hj := by
    rw [hcaller] at hj
    obtain ⟨hprog, hinbox⟩ := hidle j hj
    rw [hprog, hinbox]
    exact h.idle j hj
  lt j q c hj := h.lt j q c (hcaller ▸ hj)
  inj j j' q q' c hj hj' := h.inj j j' q q' c (hcaller ▸ hj) (hcaller ▸ hj')
  up i j c hi := by
    rw [hcaller] at hi ⊢
    exact h.up i j c hi
  place p' ks' f' hparty' := by
    have hparty' : W.Party s p' ks' f' := by
      cases hparty' with
      | starter => exact .starter
      | called hj => exact .called (hcaller ▸ hj)
    have hat : ∀ {P fd bs fds done todo}, W.At s p' f' P fd bs fds done todo →
        W.At t p' f' P fd bs fds done todo := fun hat =>
      ⟨hat.prog_eq, by rw [hcaller]; exact hat.dialled, hat.writes, by rw [hcaller]; exact hat.known⟩
    by_cases hpp : p' = p
    · subst hpp
      obtain ⟨rfl, rfl⟩ := hparty'.unique hparty
      obtain ⟨P, fd, bs, fds, done, todo, hfeed, hks, hplace, hdone⟩ := hp
      exact ⟨P, fd, bs, fds, done, todo, hfeed, hks, hat hplace, hdone⟩
    · obtain ⟨hprog, hdue⟩ := hother p' hpp
      obtain ⟨P, fd, bs, fds, done, todo, hfeed, hks, hplace, hdone⟩ := h.place p' ks' f' hparty'
      rw [hprog, hdue]
      exact ⟨P, fd, bs, fds, done, todo, hfeed, hks, hat hplace, hdone⟩

/-- What has been written is due as before. -/
theorem due_put {b : UInt8} {k : Prog ι A α} {c : ℕ} (hprog : s.prog p = .put fd b k)
    (hfd : s.caller fd = some (p, c)) (p' : Option ι) :
    due ⟨update s.prog p k, s.caller, update s.inbox fd (s.inbox fd ++ [b])⟩ p' = due s p' := by
  cases p' with
  | none => rfl
  | some i =>
    by_cases hi : i = fd
    · subst hi
      have hput : (Prog.put i b k).pending i = b :: k.pending i := if_pos rfl
      simp only [due, hfd, update_self, hprog, hput, List.append_assoc, List.singleton_append]
    · simp only [due, update_of_ne hi]
      cases s.caller i with
      | none => rfl
      | some qc =>
        obtain ⟨q, c'⟩ := qc
        dsimp only
        by_cases hq : q = p
        · subst hq
          rw [update_self, hprog]
          exact congrArg _ (if_neg (Ne.symm hi)).symm
        · rw [update_of_ne hq]

/-- A write keeps the invariant. -/
theorem Inv.put (h : W.Inv addr s) {b : UInt8} {k : Prog ι A α} (hprog : s.prog p = .put fd b k) :
    W.Inv addr ⟨update s.prog p k, s.caller, update s.inbox fd (s.inbox fd ++ [b])⟩ := by
  obtain ⟨ks, f, fd', bs, fds, done, todo, hparty, hdue, hks, hat⟩ :=
    h.acts (p := p) fun k' hk' => by rw [hprog] at hk'; cases hk'
  rw [hprog] at hat
  obtain ⟨rfl, bs', rfl, hk⟩ := hat.put
  obtain ⟨c, -, hfd⟩ := hat.mem_caller (hat.writes (List.cons_ne_nil _ _))
  have hdue' := due_put hprog hfd
  refine h.frame rfl (fun j hj => ⟨?_, ?_⟩) hparty ?_ fun p' hp' => ⟨update_of_ne hp' .., hdue' p'⟩
  · show update s.prog p k (some j) = _
    refine update_of_ne ?_ ..
    rintro rfl
    cases hparty with
    | called hj' => exact Option.some_ne_none _ (hj'.symm.trans hj)
  · refine update_of_ne ?_ ..
    rintro rfl
    exact Option.some_ne_none _ (hfd.symm.trans hj)
  · refine ⟨k, fd, bs', fds, done, todo, ?_, hks, ⟨hk, hat.dialled, fun _ =>
      hat.writes (List.cons_ne_nil _ _), hat.known⟩, fun hne => absurd hdue (by rwa [hdue'] at hne)⟩
    rw [hdue', hdue, Prog.feed_nil]
    exact congrArg some (update_self ..)

/-- A byte that has been read is not due any more; a reader has dialled nobody. -/
theorem Inv.due_get (h : W.Inv addr s) {j : ι} (k : UInt8 → Prog ι A α) {b : UInt8}
    (hj : s.caller j ≠ none) (hbox : s.inbox j = b :: bs) :
    due s (some j) =
        b :: due ⟨update s.prog (some j) (k b), s.caller, update s.inbox j bs⟩ (some j) ∧
      ∀ p', p' ≠ some j →
        due ⟨update s.prog (some j) (k b), s.caller, update s.inbox j bs⟩ p' = due s p' := by
  obtain ⟨⟨q, c⟩, hqc⟩ := Option.ne_none_iff_exists'.mp hj
  obtain ⟨P, fd, bs', fds, done, todo, -, -, hat, hdone⟩ := h.place _ _ _ (.called hqc)
  have hq : q ≠ some j := by
    rintro rfl
    exact h.ne_self hqc
  have hdue : due s (some j) =
      b :: due ⟨update s.prog (some j) (k b), s.caller, update s.inbox j bs⟩ (some j) := by
    simp only [due, hqc, hbox, update_self, update_of_ne hq, List.cons_append]
  refine ⟨hdue, fun p' hp' => ?_⟩
  cases p' with
  | none => rfl
  | some i =>
    have hi : i ≠ j := fun hij => hp' (congrArg some hij)
    simp only [due, update_of_ne hi]
    cases hcall : s.caller i with
    | none => rfl
    | some qc =>
      obtain ⟨q', c'⟩ := qc
      have hq' : q' ≠ some j := by
        rintro rfl
        have hc' := hat.known i c' hcall
        rw [hdone (by rw [hdue]; exact List.cons_ne_nil _ _)] at hc'
        exact absurd hc' List.not_mem_nil
      dsimp only
      rw [update_of_ne hq']

/-- A read keeps the invariant. -/
theorem Inv.get (h : W.Inv addr s) {j : ι} {k : UInt8 → Prog ι A α} {b : UInt8}
    (hprog : s.prog (some j) = .get k) (hj : s.caller j ≠ none) (hbox : s.inbox j = b :: bs) :
    W.Inv addr ⟨update s.prog (some j) (k b), s.caller, update s.inbox j bs⟩ := by
  obtain ⟨hdue, hother⟩ := h.due_get k hj hbox
  obtain ⟨⟨q, c⟩, hqc⟩ := Option.ne_none_iff_exists'.mp hj
  obtain ⟨P, fd, bs', fds, done, todo, hfeed, hks, hat, hdone⟩ := h.place _ _ _ (.called hqc)
  refine h.frame rfl (fun i hi => ?_) (.called hqc) ?_ fun p' hp' =>
    ⟨update_of_ne hp' .., hother p' hp'⟩
  · have hij : i ≠ j := by
      rintro rfl
      exact hj hi
    exact ⟨update_of_ne (fun hsome => hij (Option.some.inj hsome)) .., update_of_ne hij ..⟩
  · refine ⟨P, fd, bs', fds, done, todo, ?_, hks, hat, fun _ =>
      hdone (by rw [hdue]; exact List.cons_ne_nil _ _)⟩
    rw [hprog, hdue, Prog.feed_get] at hfeed
    show (update s.prog (some j) (k b) (some j)).feed _ = _
    rw [update_self]
    exact hfeed

theorem Inv.step (h : W.Inv addr s) {t : Net ι A α} (hst : Step addr cap s t) : W.Inv addr t := by
  cases hst with
  | dial hprog ha hj => exact h.dial hprog ha hj
  | put hprog _ => exact h.put hprog
  | get hprog hj hbox => exact h.get hprog hj hbox

theorem Inv.run {t : Net ι A α} (h : W.Inv addr s) (hrun : ReflTransGen (Step addr cap) s t) :
    W.Inv addr t := by
  induction hrun with
  | refl => exact h
  | tail _ hst ih => exact ih.step hst

/-! ## Every run is finite -/

/-- What is left to do for a peer, if no message is longer than `L`: to be dialled, and then to be
    written and to read each byte. -/
def toDo (L : ℕ) (s : Net ι A α) (j : ι) : ℕ :=
  if s.caller j = none then 2 * L + 1 else 2 * (due s (some j)).length - (s.inbox j).length

theorem inbox_le_due (s : Net ι A α) (j : ι) : (s.inbox j).length ≤ (due s (some j)).length := by
  rw [due, List.length_append]
  exact Nat.le_add_right _ _

section

variable [Fintype ι]

/-- A step gets one thing done. -/
theorem Inv.toDo_lt (h : W.Inv addr s) {L : ℕ} (hL : ∀ c < n, (W.msg c).length ≤ L) {t : Net ι A α}
    (hst : Step addr cap s t) : ∑ j, toDo L t j < ∑ j, toDo L s j := by
  obtain ⟨j, hlt, hrest⟩ : ∃ j, toDo L t j < toDo L s j ∧ ∀ i, i ≠ j → toDo L t i = toDo L s i := by
    cases hst with
    | @dial p a c k j hprog ha hj =>
      subst ha
      obtain ⟨hc, hmsg, hdue⟩ := h.due_dial hprog hj
      refine ⟨j, ?_, fun i hi => ?_⟩
      · have hlen := hL c hc
        rw [toDo, toDo, if_pos hj, hmsg]
        show (if update s.caller j (some (p, c)) j = none then _ else _) < _
        rw [update_self, if_neg (Option.some_ne_none _)]
        omega
      · have hsame : update s.caller j (some (p, c)) i = s.caller i := update_of_ne hi ..
        rw [toDo, toDo, hdue _ fun hsome => hi (Option.some.inj hsome)]
        show (if update s.caller j (some (p, c)) i = none then _ else _) = _
        rw [hsame]
    | @put p fd b k hprog _ =>
      obtain ⟨ks, f, fd', bs, fds, done, todo, -, -, -, hat⟩ :=
        h.acts (p := p) fun k' hk' => by rw [hprog] at hk'; cases hk'
      rw [hprog] at hat
      obtain ⟨rfl, bs', rfl, -⟩ := hat.put
      obtain ⟨c, -, hfd⟩ := hat.mem_caller (hat.writes (List.cons_ne_nil _ _))
      have hdue := due_put hprog hfd
      refine ⟨fd, ?_, fun i hi => ?_⟩
      · have hle := inbox_le_due ⟨update s.prog p k, s.caller,
          update s.inbox fd (s.inbox fd ++ [b])⟩ fd
        rw [hdue] at hle
        rw [toDo, toDo, hdue, if_neg (by rw [hfd]; exact Option.some_ne_none _),
          if_neg (by rw [hfd]; exact Option.some_ne_none _)]
        simp only [update_self, List.length_append, List.length_singleton] at hle ⊢
        omega
      · rw [toDo, toDo, hdue]
        simp only [update_of_ne hi]
    | @get j k b bs hprog hj hbox =>
      obtain ⟨hdue, hother⟩ := h.due_get k hj hbox
      refine ⟨j, ?_, fun i hi => ?_⟩
      · have hle := inbox_le_due ⟨update s.prog (some j) (k b), s.caller, update s.inbox j bs⟩ j
        rw [toDo, toDo, if_neg hj, if_neg hj, hdue, hbox]
        simp only [update_self, List.length_cons] at hle ⊢
        omega
      · rw [toDo, toDo, hother _ fun hsome => hi (Option.some.inj hsome)]
        simp only [update_of_ne hi]
  refine Finset.sum_lt_sum (fun i _ => ?_) ⟨j, Finset.mem_univ j, hlt⟩
  by_cases hi : i = j
  · exact hi ▸ hlt.le
  · exact (hrest i hi).le

/-- **Every run is finite.** -/
theorem bounded [Nonempty ι] {L : ℕ} (hL : ∀ c < n, (W.msg c).length ≤ L) {k : ℕ} {t : Net ι A α}
    (hrun : RunN (Step addr cap) k W.init t) : k ≤ Fintype.card ι * (2 * L + 1) := by
  have hdesc : ∀ {k : ℕ} {s t : Net ι A α}, RunN (Step addr cap) k s t → W.Inv addr s →
      k + ∑ j, toDo L t j ≤ ∑ j, toDo L s j := by
    intro k s t hrun
    induction hrun with
    | refl s => exact fun _ => (Nat.zero_add _).le
    | head hst _ ih =>
      intro h
      have hlt := h.toDo_lt hL hst
      have hle := ih (h.step hst)
      omega
  have hstart : ∑ j, toDo L W.init j = Fintype.card ι * (2 * L + 1) :=
    Finset.sum_const_nat fun j _ => if_pos rfl
  have h := hdesc hrun inv_init
  omega

end

/-! ## Where a run ends -/

/-- Nobody is about to write when nothing can happen. -/
theorem Inv.ne_put_of_stuck (h : W.Inv addr s) (hcap : 1 ≤ cap) (hstuck : Stuck (Step addr cap) s)
    {b : UInt8} {k : Prog ι A α} : s.prog p ≠ .put fd b k := by
  intro hprog
  obtain ⟨ks, f, fd', bs, fds, done, todo, -, -, -, hat⟩ :=
    h.acts (p := p) fun k' hk' => by rw [hprog] at hk'; cases hk'
  rw [hprog] at hat
  obtain ⟨rfl, bs', rfl, -⟩ := hat.put
  obtain ⟨c, -, hfd⟩ := hat.mem_caller (hat.writes (List.cons_ne_nil _ _))
  cases hbox : s.inbox fd with
  | nil =>
    refine hstuck _ (.put hprog ?_)
    rw [hbox]
    exact hcap
  | cons x xs =>
    -- a connection that is full has a reader
    obtain ⟨P, _, _, _, _, _, hfeed, -⟩ := h.place _ _ _ (.called hfd)
    obtain ⟨k', hk'⟩ := Prog.feed_eq_some hfeed (by rw [due, hbox]; exact List.cons_ne_nil _ _)
    exact hstuck _ (.get hk' (by rw [hfd]; exact Option.some_ne_none _) hbox)

/-- Nothing is due then. -/
theorem Inv.due_of_stuck (h : W.Inv addr s) (hcap : 1 ≤ cap) (hstuck : Stuck (Step addr cap) s)
    (hparty : W.Party s p ks f) : due s p = [] := by
  by_contra hdue
  cases hparty with
  | starter => exact hdue rfl
  | @called j q c hj =>
    obtain ⟨P, _, _, _, _, _, hfeed, -⟩ := h.place _ _ _ (.called hj)
    obtain ⟨k, hk⟩ := Prog.feed_eq_some hfeed hdue
    cases hbox : s.inbox j with
    | cons b bs => exact hstuck _ (.get hk (by rw [hj]; exact Option.some_ne_none _) hbox)
    | nil =>
      rw [due, hbox, hj] at hdue
      obtain ⟨fd, b, k', hput⟩ := Prog.put_of_pending hdue
      exact h.ne_put_of_stuck hcap hstuck hput

section

variable [Fintype ι] [DecidableEq A]

/-- There are as many peers at each address as numbers. -/
def Staffed (W : Plan ι A α n) (addr : ι → A) : Prop :=
  ∀ a, Fintype.card {j // addr j = a} = Fintype.card {c : Fin n // W.addrOf c = a}

/-- Who is to be dialled next is there. -/
theorem Inv.exists_waiting (h : W.Inv addr s) (hstaff : Staffed W addr) {c : ℕ} (hc : c < n)
    (hfresh : ∀ i q, s.caller i ≠ some (q, c)) : ∃ j, addr j = W.addrOf c ∧ s.caller j = none := by
  by_contra hnone
  push Not at hnone
  have hnum : ∀ j : {j // addr j = W.addrOf c}, ∃ q : Option ι × ℕ, s.caller j = some q := fun j =>
    Option.ne_none_iff_exists'.mp (hnone j j.2)
  choose q hq using hnum
  -- the numbers that are taken at this address, one for each peer, would be all of them
  let g : {j // addr j = W.addrOf c} → {r : Fin n // W.addrOf r = W.addrOf c} := fun j =>
    ⟨⟨(q j).2, (h.lt _ _ _ (hq j)).1⟩, (h.lt _ _ _ (hq j)).2.symm.trans j.2⟩
  have hinj : Injective g := fun i j hij => by
    have hnum : (q i).2 = (q j).2 := congrArg (fun r => (r.1 : ℕ)) hij
    refine Subtype.ext (h.inj i j (q i).1 (q j).1 (q i).2 (hq i) ?_)
    rw [hnum]
    exact hq j
  obtain ⟨j, hj⟩ := ((Fintype.bijective_iff_injective_and_card g).mpr ⟨hinj, hstaff _⟩).2 ⟨⟨c, hc⟩, rfl⟩
  have hjc : (q j).2 = c := congrArg (fun r => (r.1 : ℕ)) hj
  exact hfresh j (q j).1 (by rw [hq j, ← hjc])

variable (W)

/-- Everybody has been dialled, has dialled his numbers, and has returned. -/
structure Done (addr : ι → A) (s : Net ι A α) (number : ι ≃ Fin n) : Prop where
  addr_eq : ∀ j, addr j = W.addrOf (number j)
  /-- The starter has one connection, to number 0. -/
  starter_eq : ∃ fd, s.prog none = .ret (W.starter [fd]) ∧ (number fd : ℕ) = 0
  /-- A peer has its connections in the order of its numbers. -/
  prog_eq : ∀ j, ∃ fds, s.prog (some j) = .ret (W.result (number j) fds) ∧
    fds.map (fun i => (number i : ℕ)) = W.kids (number j)
  /-- A peer has been dialled by the one that has its number, number 0 by the starter. -/
  caller_eq : ∀ j, ∃ p, s.caller j = some (p, (number j : ℕ)) ∧
    match p with
    | none => (number j : ℕ) = 0
    | some i => (number j : ℕ) ∈ W.kids (number i)
  inbox_eq : ∀ j, s.inbox j = []

variable {W}

/-- All calls of a party have been made then. -/
theorem Inv.ret_of_stuck (h : W.Inv addr s) (hcap : 1 ≤ cap) (hstaff : Staffed W addr)
    (hstuck : Stuck (Step addr cap) s) (hparty : W.Party s p ks f) :
    ∃ fds, s.prog p = .ret (f fds) ∧ List.Forall₂ (fun i c => s.caller i = some (p, c)) fds ks := by
  have hdue := h.due_of_stuck hcap hstuck hparty
  obtain ⟨P, fd, bs, fds, done, todo, hfeed, hks, hat, -⟩ := h.place _ _ _ hparty
  rw [hdue, Prog.feed_nil] at hfeed
  obtain rfl := Option.some.inj hfeed
  have hprog := hat.prog_eq
  cases bs with
  | cons b bs => exact absurd hprog (h.ne_put_of_stuck hcap hstuck)
  | nil =>
    cases todo with
    | nil =>
      rw [List.append_nil] at hks
      exact ⟨fds, hprog, hks ▸ hat.dialled⟩
    | cons c cs =>
      have hc : c < n := h.party_lt hparty c (hks ▸ List.mem_append_right _ List.mem_cons_self)
      obtain ⟨j, hj, hwait⟩ := h.exists_waiting hstaff hc (h.fresh hparty hks hat)
      exact absurd (.dial hprog hj hwait) (hstuck _)

/-- **Where a run ends** everything has been done. -/
theorem Inv.done_of_stuck (h : W.Inv addr s) (hcap : 1 ≤ cap) (hstaff : Staffed W addr)
    (hstuck : Stuck (Step addr cap) s) : ∃ number : ι ≃ Fin n, Done W addr s number := by
  have hret := fun {p ks f} (hparty : W.Party s p ks f) => h.ret_of_stuck hcap hstaff hstuck hparty
  -- each number is handed out: by induction, since a number's parent is a smaller one
  have htaken : ∀ c < n, ∃ j q, s.caller j = some (q, c) := by
    intro c
    induction c using Nat.strong_induction_on with
    | h c ih =>
      intro hc
      rcases Nat.eq_zero_or_pos c with rfl | hpos
      · obtain ⟨fds, -, hfds⟩ := hret .starter
        obtain ⟨j, -, hj⟩ := exists_of_forall₂_right hfds List.mem_cons_self
        exact ⟨j, none, hj⟩
      · obtain ⟨q, hq, hcq⟩ := W.kid c hpos hc
        obtain ⟨i, p, hi⟩ := ih q (W.kids_lt q hq c hcq).1 hq
        obtain ⟨fds, -, hfds⟩ := hret (.called hi)
        obtain ⟨j, -, hj⟩ := exists_of_forall₂_right hfds hcq
        exact ⟨j, some i, hj⟩
  choose g hg using fun c : Fin n => htaken c c.2
  have hinj : Injective g := fun c c' hcc => by
    obtain ⟨q, hq⟩ := hg c
    obtain ⟨q', hq'⟩ := hg c'
    rw [hcc, hq'] at hq
    injection hq with hq
    injection hq with _ hq
    exact Fin.ext hq.symm
  -- at every address as many listen as the plan has numbers for it
  have hcard : Fintype.card (Fin n) = Fintype.card ι :=
    Fintype.card_congr ((Equiv.sigmaFiberEquiv fun c : Fin n => W.addrOf c).symm.trans
      ((Equiv.sigmaCongrRight fun a => (Fintype.equivOfCardEq (hstaff a)).symm).trans
        (Equiv.sigmaFiberEquiv addr)))
  let e : Fin n ≃ ι := Equiv.ofBijective g
    ((Fintype.bijective_iff_injective_and_card g).mpr ⟨hinj, hcard⟩)
  have hnum : ∀ j, ∃ q, s.caller j = some (q, (e.symm j : ℕ)) := fun j => by
    obtain ⟨q, hq⟩ := hg (e.symm j)
    rw [show g (e.symm j) = j from e.apply_symm_apply j] at hq
    exact ⟨q, hq⟩
  have hmap : ∀ {p fds ks}, List.Forall₂ (fun i c => s.caller i = some (p, c)) fds ks →
      fds.map (fun i => (e.symm i : ℕ)) = ks := by
    intro p fds ks hfds
    induction hfds with
    | nil => rfl
    | @cons i c _ _ hi _ ih =>
      obtain ⟨q, hq⟩ := hnum i
      rw [hi] at hq
      injection hq with hq
      injection hq with _ hq
      rw [List.map_cons, ih, ← hq]
  refine ⟨e.symm, ⟨fun j => ?_, ?_, fun j => ?_, fun j => ?_, fun j => ?_⟩⟩
  · obtain ⟨q, hq⟩ := hnum j
    exact (h.lt _ _ _ hq).2
  · obtain ⟨fds, hprog, hfds⟩ := hret .starter
    have hone := hmap hfds
    cases hfds with
    | cons hfd hnil =>
      cases hnil
      exact ⟨_, hprog, (List.cons.inj hone).1⟩
  · obtain ⟨q, hq⟩ := hnum j
    obtain ⟨fds, hprog, hfds⟩ := hret (.called hq)
    exact ⟨fds, hprog, hmap hfds⟩
  · obtain ⟨q, hq⟩ := hnum j
    refine ⟨q, hq, ?_⟩
    obtain ⟨ks, f, hparty, hc⟩ := h.of_caller hq
    cases hparty with
    | starter => exact List.mem_singleton.mp hc
    | called hi =>
      obtain ⟨q', hq'⟩ := hnum _
      cases hi.symm.trans hq'
      exact hc
  · obtain ⟨q, hq⟩ := hnum j
    have hdue := h.due_of_stuck hcap hstuck (.called hq)
    rw [due] at hdue
    exact (List.append_eq_nil_iff.mp hdue).1

/-! ## Who answers -/

omit [DecidableEq A] in
/-- There is a bound on all runs. -/
theorem exists_bound [Nonempty ι] (addr : ι → A) (cap : ℕ∞) :
    ∃ N, ∀ k t, RunN (Step addr cap) k W.init t → k ≤ N :=
  ⟨_, fun _ _ hrun => bounded (fun _ hc => Finset.le_sup (f := fun c => (W.msg c).length)
    (Finset.mem_range.mpr hc)) hrun⟩

/-- **Anybody at its address may get number 0**, in a run that goes on to where all is done. -/
theorem exists_done_first (hcap : 1 ≤ cap) (hstaff : Staffed W addr) {j : ι} (hj : addr j = W.addrOf 0) :
    ∃ t, ReflTransGen (Step addr cap) W.init t ∧ Stuck (Step addr cap) t ∧
      ∃ number : ι ≃ Fin n, Done W addr t number ∧ (number j : ℕ) = 0 := by
  have : Nonempty ι := ⟨j⟩
  -- the starter dials `j`, and the rest of the run is as it likes
  have hdial : Step addr cap W.init _ := .dial (p := none) (s := W.init) rfl hj rfl
  obtain ⟨N, hN⟩ := exists_bound (W := W) addr cap
  obtain ⟨t, hrun, hstuck⟩ := exists_stuck fun k u hk => Nat.le_of_succ_le (hN _ u (.head hdial hk))
  have hfirst : t.caller j = some (none, 0) := by
    refine hrun.head_induction_on (motive := fun s _ => s.caller j = some (none, 0) →
      t.caller j = some (none, 0)) id (fun hst _ ih h => ih (hst.caller_eq h)) ?_
    exact update_self _ _ _
  have hall := ReflTransGen.head hdial hrun
  obtain ⟨number, hdone⟩ := (inv_init.run hall).done_of_stuck hcap hstaff hstuck
  refine ⟨t, hall, hstuck, number, hdone, ?_⟩
  obtain ⟨p, hcaller, -⟩ := hdone.caller_eq j
  exact (Prod.mk.inj (Option.some.inj (hfirst.symm.trans hcaller))).2.symm

end

end Plan

end Dial
