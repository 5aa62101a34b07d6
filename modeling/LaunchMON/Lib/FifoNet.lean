/-
  Networks of sequential programs over FIFO byte channels.

  Each program writes byte strings to, and reads byte counts from, named peers; the bytes written to
  a peer and not yet read by it wait in a channel.  A write may be split in any way and has to wait
  for room (`cap`, possibly unbounded); a read may be split in any way and has to wait for data
  (`Step`).  This is how programs behave that do whole-message `read`/`write` loops over stream
  sockets.

  Every channel has one writer and one reader and nobody can test a channel, so a schedule cannot
  influence the result.  With chunks of one byte (`ByteStep`) a program has only one step, and the
  steps of two programs commute (`byteStep_closing`).  With `Descent.EndsIn.of_run` this means that
  ONE schedule, chosen as convenient, settles all interleavings and all splittings
  (`endsIn_of_run`).  `exchange` is the building block of such a schedule: a whole message handed
  over from a program at a write to a program at the matching read.
-/
import Mathlib.Data.ENat.Basic
import Mathlib.Tactic.Common
import LaunchMON.Lib.Descent

namespace FifoNet

open Relation Descent Function

variable {ρ β α : Type*}

/-- A sequential program over peers `ρ` and bytes `β`, with result `α`. -/
inductive Prog (ρ β α : Type*)
  | ret (a : α)
  | send (dst : ρ) (bs : List β) (k : Prog ρ β α)
  | recv (src : ρ) (n : Nat) (k : List β → Prog ρ β α)

/-- First `P`, then what its result says. -/
def Prog.bind {γ : Type*} : Prog ρ β α → (α → Prog ρ β γ) → Prog ρ β γ
  | .ret a, f => f a
  | .send q bs k, f => .send q bs (k.bind f)
  | .recv q n k, f => .recv q n fun bs => (k bs).bind f

theorem Prog.bind_assoc {γ δ : Type*} (P : Prog ρ β α) (f : α → Prog ρ β γ) (g : γ → Prog ρ β δ) :
    (P.bind f).bind g = P.bind fun a => (f a).bind g := by
  induction P with
  | ret a => rfl
  | send q bs k ih => exact congrArg (Prog.send q bs) ih
  | recv q n k ih => exact congrArg (Prog.recv q n) (funext ih)

/-- What every peer still has to do, and what waits in each channel (`chan (p, q)`: written by `p`,
    not yet read by `q`). -/
@[ext] structure Net (ρ β α : Type*) where
  prog : ρ → Prog ρ β α
  chan : ρ × ρ → List β

/-- What one single-byte step does to the channels. -/
inductive Move (ρ β : Type*)
  | idle
  | put (c : ρ × ρ) (b : β)
  | get (c : ρ × ρ) (b : β)

/-- `Offers p P m P'`: the program `P` of peer `p` can make the move `m` and goes on as `P'`. -/
inductive Offers (p : ρ) : Prog ρ β α → Move ρ β → Prog ρ β α → Prop
  | sendNil (q : ρ) (k : Prog ρ β α) : Offers p (.send q [] k) .idle k
  | put (q : ρ) (b : β) (bs : List β) (k : Prog ρ β α) :
      Offers p (.send q (b :: bs) k) (.put (p, q) b) (.send q bs k)
  | recvNil (q : ρ) (k : List β → Prog ρ β α) : Offers p (.recv q 0 k) .idle (k [])
  | get (q : ρ) (n : Nat) (b : β) (k : List β → Prog ρ β α) :
      Offers p (.recv q (n + 1) k) (.get (q, p) b) (.recv q n fun xs => k (b :: xs))

section

variable [DecidableEq ρ] (cap : ρ × ρ → ℕ∞)

/-- Peer `p` goes on as `P`. -/
def Net.setProg (s : Net ρ β α) (p : ρ) (P : Prog ρ β α) : Net ρ β α :=
  { s with prog := update s.prog p P }

/-- Channel `c` holds `bs`. -/
def Net.setChan (s : Net ρ β α) (c : ρ × ρ) (bs : List β) : Net ρ β α :=
  { s with chan := update s.chan c bs }

@[simp] theorem setProg_prog (s : Net ρ β α) (p : ρ) (P : Prog ρ β α) :
    (s.setProg p P).prog = update s.prog p P := rfl

@[simp] theorem setProg_chan (s : Net ρ β α) (p : ρ) (P : Prog ρ β α) :
    (s.setProg p P).chan = s.chan := rfl

@[simp] theorem setChan_prog (s : Net ρ β α) (c : ρ × ρ) (bs : List β) :
    (s.setChan c bs).prog = s.prog := rfl

@[simp] theorem setChan_chan (s : Net ρ β α) (c : ρ × ρ) (bs : List β) :
    (s.setChan c bs).chan = update s.chan c bs := rfl

/-! ## Steps -/

/-- One step of the network: some peer moves a non-empty chunk, or passes an empty message. -/
inductive Step : Net ρ β α → Net ρ β α → Prop
  | sendNil {s : Net ρ β α} {p q : ρ} {k : Prog ρ β α} :
      s.prog p = .send q [] k → Step s (s.setProg p k)
  | send {s : Net ρ β α} {p q : ρ} {bs cs : List β} {k : Prog ρ β α} :
      s.prog p = .send q (bs ++ cs) k → bs ≠ [] →
      (((s.chan (p, q)).length + bs.length : Nat) : ℕ∞) ≤ cap (p, q) →
      Step s ((s.setProg p (.send q cs k)).setChan (p, q) (s.chan (p, q) ++ bs))
  | recvNil {s : Net ρ β α} {p q : ρ} {k : List β → Prog ρ β α} :
      s.prog p = .recv q 0 k → Step s (s.setProg p (k []))
  | recv {s : Net ρ β α} {p q : ρ} {n : Nat} {bs cs : List β} {k : List β → Prog ρ β α} :
      s.prog p = .recv q (bs.length + n) k → bs ≠ [] → s.chan (q, p) = bs ++ cs →
      Step s ((s.setProg p (.recv q n fun xs => k (bs ++ xs))).setChan (q, p) cs)

/-- A move has to find room for the byte it writes, and the byte it reads. -/
def Move.Enabled (chan : ρ × ρ → List β) : Move ρ β → Prop
  | .idle => True
  | .put c _ => (((chan c).length + 1 : Nat) : ℕ∞) ≤ cap c
  | .get c b => (chan c).head? = some b

/-- The channels after a move. -/
def Move.run (chan : ρ × ρ → List β) : Move ρ β → ρ × ρ → List β
  | .idle => chan
  | .put c b => update chan c (chan c ++ [b])
  | .get c _ => update chan c (chan c).tail

/-- One step with chunks of a single byte. -/
def ByteStep (s t : Net ρ β α) : Prop :=
  ∃ p m P, Offers p (s.prog p) m P ∧ m.Enabled cap s.chan ∧
    t = { prog := update s.prog p P, chan := m.run s.chan }

/-! ## Commutation -/

omit [DecidableEq ρ] in
/-- Peer `p` only writes to channels out of `p` and only reads channels into `p`. -/
theorem Offers.owns {p : ρ} {P P' : Prog ρ β α} {m : Move ρ β} (h : Offers p P m P') :
    match m with
    | .idle => True
    | .put c _ => c.1 = p
    | .get c _ => c.2 = p := by
  cases h <;> trivial

omit [DecidableEq ρ] in
/-- A program has at most one step. -/
theorem Offers.unique {p : ρ} {P P1 P2 : Prog ρ β α} {m1 m2 : Move ρ β} {chan : ρ × ρ → List β}
    (h1 : Offers p P m1 P1) (h2 : Offers p P m2 P2) (e1 : m1.Enabled cap chan)
    (e2 : m2.Enabled cap chan) : m1 = m2 ∧ P1 = P2 := by
  cases h1 with
  | sendNil => cases h2; exact ⟨rfl, rfl⟩
  | put => cases h2; exact ⟨rfl, rfl⟩
  | recvNil => cases h2; exact ⟨rfl, rfl⟩
  | get q n b k =>
    cases h2 with
    | get _ _ b' =>
      have hb : some b = some b' := e1.symm.trans e2
      injection hb with hb
      rw [hb]
      exact ⟨rfl, rfl⟩

/-- Moves of two peers do not disable each other and can be made in either order.  The only channel
    they can share is written by one and read by the other. -/
theorem Move.comm {p q : ρ} (hpq : p ≠ q) {P P' Q Q' : Prog ρ β α} {m1 m2 : Move ρ β}
    {chan : ρ × ρ → List β} (h1 : Offers p P m1 P') (h2 : Offers q Q m2 Q')
    (e1 : m1.Enabled cap chan) (e2 : m2.Enabled cap chan) :
    m2.Enabled cap (m1.run chan) ∧ m2.run (m1.run chan) = m1.run (m2.run chan) := by
  have o1 := h1.owns
  have o2 := h2.owns
  cases m1 with
  | idle => exact ⟨e2, rfl⟩
  | put c b =>
    cases m2 with
    | idle => exact ⟨trivial, rfl⟩
    | put d b' =>
      have hcd : d ≠ c := fun h => hpq (by rw [← o1, ← o2, h])
      refine ⟨?_, ?_⟩
      · simpa only [Move.Enabled, Move.run, update_of_ne hcd] using e2
      · simp only [Move.run, update_of_ne hcd, update_of_ne hcd.symm, update_comm hcd]
    | get d b' =>
      by_cases hcd : d = c
      · subst hcd
        obtain ⟨bs, hbs⟩ := List.head?_eq_some_iff.mp e2
        simp [Move.Enabled, Move.run, hbs]
      · refine ⟨?_, ?_⟩
        · simpa only [Move.Enabled, Move.run, update_of_ne hcd] using e2
        · simp only [Move.run, update_of_ne hcd, update_of_ne (Ne.symm hcd), update_comm hcd]
  | get c b =>
    cases m2 with
    | idle => exact ⟨trivial, rfl⟩
    | put d b' =>
      by_cases hcd : d = c
      · subst hcd
        obtain ⟨bs, hbs⟩ := List.head?_eq_some_iff.mp e1
        simp only [Move.Enabled, Move.run, hbs, update_self, List.tail_cons, update_idem,
          List.cons_append, List.length_cons, and_true] at e2 ⊢
        exact le_trans (Nat.cast_le.mpr (by omega)) e2
      · refine ⟨?_, ?_⟩
        · simpa only [Move.Enabled, Move.run, update_of_ne hcd] using e2
        · simp only [Move.run, update_of_ne hcd, update_of_ne (Ne.symm hcd), update_comm hcd]
    | get d b' =>
      have hcd : d ≠ c := fun h => hpq (by rw [← o1, ← o2, h])
      refine ⟨?_, ?_⟩
      · simpa only [Move.Enabled, Move.run, update_of_ne hcd] using e2
      · simp only [Move.run, update_of_ne hcd, update_of_ne hcd.symm, update_comm hcd]

/-- **Schedules do not matter**: two different steps from one state close with one step each. -/
theorem byteStep_closing : Closing (ByteStep (β := β) (α := α) cap) := by
  rintro s _ _ ⟨p, m1, P, hP, e1, rfl⟩ ⟨q, m2, Q, hQ, e2, rfl⟩
  by_cases hpq : p = q
  · subst hpq
    obtain ⟨rfl, rfl⟩ := hP.unique cap hQ e1 e2
    exact Or.inl rfl
  · obtain ⟨e2', hcomm⟩ := Move.comm cap hpq hP hQ e1 e2
    obtain ⟨e1', -⟩ := Move.comm cap (Ne.symm hpq) hQ hP e2 e1
    refine Or.inr ⟨{ prog := update (update s.prog p P) q Q, chan := m2.run (m1.run s.chan) },
      ⟨q, m2, Q, ?_, e2', rfl⟩, ⟨p, m1, P, ?_, e1', ?_⟩⟩
    · simpa only [update_of_ne (Ne.symm hpq)] using hQ
    · simpa only [update_of_ne hpq] using hP
    · rw [hcomm, update_comm hpq]

/-! ## Chunks -/

/-- A step with single bytes is a step. -/
theorem ByteStep.step {s t : Net ρ β α} (h : ByteStep cap s t) : Step cap s t := by
  obtain ⟨p, m, P, hP, he, rfl⟩ := h
  generalize hprog : s.prog p = Q at hP
  cases hP with
  | sendNil q k => exact Step.sendNil hprog
  | put q b bs k => exact @Step.send _ _ _ _ cap s p q [b] bs k hprog (List.cons_ne_nil _ _) he
  | recvNil q k => exact Step.recvNil hprog
  | get q n b k =>
    obtain ⟨bs, hbs⟩ := List.head?_eq_some_iff.mp he
    have hstep := @Step.recv _ _ _ _ cap s p q n [b] bs k
      (by rw [hprog, List.length_singleton, Nat.add_comm]) (List.cons_ne_nil _ _) hbs
    simpa only [Move.run, hbs, List.tail_cons, List.singleton_append, Net.setProg, Net.setChan]
      using hstep

/-- A chunk is written byte by byte. -/
theorem byteSteps_send {p q : ρ} (cs : List β) (k : Prog ρ β α) : ∀ (bs : List β) (s : Net ρ β α),
    s.prog p = .send q (bs ++ cs) k → bs ≠ [] →
    (((s.chan (p, q)).length + bs.length : Nat) : ℕ∞) ≤ cap (p, q) →
    TransGen (ByteStep cap) s
      ((s.setProg p (.send q cs k)).setChan (p, q) (s.chan (p, q) ++ bs)) := by
  intro bs
  induction bs with
  | nil => intro s _ hne _; exact absurd rfl hne
  | cons b bs ih =>
    intro s hs _ hroom
    have hfirst : ByteStep cap s
        ((s.setProg p (.send q (bs ++ cs) k)).setChan (p, q) (s.chan (p, q) ++ [b])) := by
      refine ⟨p, .put (p, q) b, _, ?_, ?_, rfl⟩
      · rw [hs]; exact Offers.put q b (bs ++ cs) k
      · exact le_trans (Nat.cast_le.mpr (by rw [List.length_cons]; omega)) hroom
    rcases List.eq_nil_or_concat bs with rfl | ⟨_, _, hcat⟩
    · exact TransGen.single hfirst
    · have hrest := ih ((s.setProg p (.send q (bs ++ cs) k)).setChan (p, q) (s.chan (p, q) ++ [b]))
        (by simp) (by rw [hcat]; simp) (by simpa [Nat.add_assoc, Nat.add_comm 1] using hroom)
      refine TransGen.head hfirst ?_
      simpa [Net.setProg, Net.setChan] using hrest

/-- A chunk is read byte by byte. -/
theorem byteSteps_recv {p q : ρ} (n : Nat) (cs : List β) : ∀ (bs : List β)
    (k : List β → Prog ρ β α) (s : Net ρ β α), s.prog p = .recv q (bs.length + n) k → bs ≠ [] →
    s.chan (q, p) = bs ++ cs →
    TransGen (ByteStep cap) s
      ((s.setProg p (.recv q n fun xs => k (bs ++ xs))).setChan (q, p) cs) := by
  intro bs
  induction bs with
  | nil => intro k s _ hne _; exact absurd rfl hne
  | cons b bs ih =>
    intro k s hs _ hchan
    have hfirst : ByteStep cap s
        ((s.setProg p (.recv q (bs.length + n) fun xs => k (b :: xs))).setChan (q, p)
          (bs ++ cs)) := by
      refine ⟨p, .get (q, p) b, .recv q (bs.length + n) fun xs => k (b :: xs), ?_, ?_, ?_⟩
      · rw [hs, show (b :: bs).length + n = bs.length + n + 1 by rw [List.length_cons]; omega]
        exact Offers.get q _ b k
      · show (s.chan (q, p)).head? = some b
        rw [hchan]; rfl
      · rw [Net.ext_iff]
        exact ⟨rfl, by simp only [setChan_chan, setProg_chan, Move.run, hchan, List.cons_append,
          List.tail_cons]⟩
    rcases List.eq_nil_or_concat bs with rfl | ⟨_, _, hcat⟩
    · simpa using TransGen.single hfirst
    · have hrest := ih (fun xs => k (b :: xs))
        ((s.setProg p (.recv q (bs.length + n) fun xs => k (b :: xs))).setChan (q, p) (bs ++ cs))
        (by simp) (by rw [hcat]; simp) (by simp)
      refine TransGen.head hfirst ?_
      simpa [Net.setProg, Net.setChan] using hrest

/-- A whole message is written into a channel that has room for it. -/
theorem put_run {p q : ρ} {bs : List β} {k : Prog ρ β α} {s : Net ρ β α}
    (hs : s.prog p = .send q bs k)
    (hroom : (((s.chan (p, q)).length + bs.length : Nat) : ℕ∞) ≤ cap (p, q)) :
    ReflTransGen (ByteStep cap) s ((s.setProg p k).setChan (p, q) (s.chan (p, q) ++ bs)) := by
  -- what is left after the last byte is an empty message
  have hnil : ∀ u : Net ρ β α, u.prog p = .send q [] k → ByteStep cap u (u.setProg p k) :=
    fun u hu => ⟨p, .idle, k, hu ▸ Offers.sendNil q k, trivial, rfl⟩
  rcases eq_or_ne bs [] with rfl | hne
  · have heq : (s.setProg p k).setChan (p, q) (s.chan (p, q) ++ []) = s.setProg p k := by
      rw [Net.ext_iff]
      simp
    rw [heq]
    exact ReflTransGen.single (hnil s hs)
  · have hfirst := byteSteps_send cap [] k bs s (by rwa [List.append_nil]) hne hroom
    have hlast := hnil ((s.setProg p (.send q [] k)).setChan (p, q) (s.chan (p, q) ++ bs)) (by simp)
    refine hfirst.to_reflTransGen.tail ?_
    simpa [Net.setProg, Net.setChan] using hlast

/-- A whole message is read that waits in a channel. -/
theorem get_run {p q : ρ} {bs cs : List β} {k : List β → Prog ρ β α} {s : Net ρ β α}
    (hs : s.prog p = .recv q bs.length k) (hchan : s.chan (q, p) = bs ++ cs) :
    ReflTransGen (ByteStep cap) s ((s.setProg p (k bs)).setChan (q, p) cs) := by
  have hnil : ∀ (u : Net ρ β α) (k : List β → Prog ρ β α), u.prog p = .recv q 0 k →
      ByteStep cap u (u.setProg p (k [])) :=
    fun u k hu => ⟨p, .idle, k [], hu ▸ Offers.recvNil q k, trivial, rfl⟩
  rcases eq_or_ne bs [] with rfl | hne
  · have heq : (s.setProg p (k [])).setChan (q, p) cs = s.setProg p (k []) := by
      have hcs : s.chan (q, p) = cs := hchan
      rw [Net.ext_iff]
      simp [← hcs]
    rw [heq]
    exact ReflTransGen.single (hnil s k hs)
  · have hfirst := byteSteps_recv cap 0 cs bs k s (by rwa [Nat.add_zero]) hne hchan
    have hlast := hnil ((s.setProg p (.recv q 0 fun xs => k (bs ++ xs))).setChan (q, p) cs)
      (fun xs => k (bs ++ xs)) (by simp)
    refine hfirst.to_reflTransGen.tail ?_
    simpa [Net.setProg, Net.setChan] using hlast

/-! ## Composition -/

/-- Every peer `p` goes on with what `f p` says to its result. -/
def Net.bind {γ : Type*} (s : Net ρ β α) (f : ρ → α → Prog ρ β γ) : Net ρ β γ where
  prog p := (s.prog p).bind (f p)
  chan := s.chan

omit [DecidableEq ρ] in
theorem Offers.bind {γ : Type*} {p : ρ} {P P' : Prog ρ β α} {m : Move ρ β} (h : Offers p P m P')
    (f : α → Prog ρ β γ) : Offers p (P.bind f) m (P'.bind f) := by
  cases h with
  | sendNil q => exact .sendNil q (P'.bind f)
  | put q b bs k => exact .put q b bs (k.bind f)
  | recvNil q k => exact .recvNil q fun bs => (k bs).bind f
  | get q n b k => exact .get q n b fun bs => (k bs).bind f

/-- What comes after does not change what comes first. -/
theorem bind_run {γ : Type*} {s t : Net ρ β α} (f : ρ → α → Prog ρ β γ)
    (h : ReflTransGen (ByteStep cap) s t) : ReflTransGen (ByteStep cap) (s.bind f) (t.bind f) := by
  induction h with
  | refl => exact .refl
  | tail _ hstep ih =>
    refine ih.tail ?_
    obtain ⟨p, m, P, hP, he, rfl⟩ := hstep
    refine ⟨p, m, P.bind (f p), hP.bind (f p), he, Net.ext (funext fun r => ?_) rfl⟩
    by_cases hr : r = p
    · subst hr
      simp [Net.bind]
    · simp [Net.bind, update_of_ne hr]

omit [DecidableEq ρ] in
/-- A program moves as the one that only looks at its result. -/
theorem Offers.of_map {γ : Type*} {g : α → γ} {p : ρ} {P : Prog ρ β α} {m : Move ρ β}
    {Q : Prog ρ β γ} (h : Offers p (P.bind fun a => .ret (g a)) m Q) :
    ∃ P', Offers p P m P' ∧ Q = P'.bind fun a => .ret (g a) := by
  cases P with
  | ret a => cases h
  | send q bs k =>
    cases h with
    | sendNil => exact ⟨k, .sendNil q k, rfl⟩
    | put q b bs => exact ⟨.send q bs k, .put q b bs k, rfl⟩
  | recv q n k =>
    cases h with
    | recvNil => exact ⟨k [], .recvNil q k, rfl⟩
    | get q n b => exact ⟨.recv q n fun xs => k (b :: xs), .get q n b k, rfl⟩

/-- A run of programs that show a part of their results is a run of the programs. -/
theorem run_of_map {γ : Type*} {g : α → γ} {s : Net ρ β α} {t : Net ρ β γ}
    (h : ReflTransGen (ByteStep cap) (s.bind fun _ a => .ret (g a)) t) :
    ∃ u, ReflTransGen (ByteStep cap) s u ∧ t = u.bind fun _ a => .ret (g a) := by
  induction h with
  | refl => exact ⟨s, .refl, rfl⟩
  | tail _ hstep ih =>
    obtain ⟨u, hu, rfl⟩ := ih
    obtain ⟨p, m, Q, hQ, he, rfl⟩ := hstep
    obtain ⟨P', hP', rfl⟩ := hQ.of_map
    refine ⟨_, hu.tail ⟨p, m, P', hP', he, rfl⟩, Net.ext (funext fun r => ?_) rfl⟩
    by_cases hr : r = p
    · subst hr
      simp [Net.bind]
    · simp [Net.bind, update_of_ne hr]

/-- A step is at least one step with single bytes. -/
theorem Step.byteSteps {s t : Net ρ β α} (h : Step cap s t) : TransGen (ByteStep cap) s t := by
  cases h with
  | sendNil h => exact TransGen.single ⟨_, .idle, _, h ▸ Offers.sendNil _ _, trivial, rfl⟩
  | send h hne hroom => exact byteSteps_send cap _ _ _ _ h hne hroom
  | recvNil h => exact TransGen.single ⟨_, .idle, _, h ▸ Offers.recvNil _ _, trivial, rfl⟩
  | recv h hne hchan => exact byteSteps_recv cap _ _ _ _ _ h hne hchan

/-! ## Results -/

/-- All programs have returned. -/
def Net.Finished (s : Net ρ β α) : Prop := ∀ p, ∃ a, s.prog p = .ret a

theorem stuck_of_finished {s : Net ρ β α} (h : s.Finished) : Stuck (ByteStep cap) s := by
  rintro _ ⟨p, m, P, hP, -, -⟩
  obtain ⟨a, ha⟩ := h p
  rw [ha] at hP
  cases hP

/-- **One schedule settles all of them**: if some schedule of single bytes lets all programs return,
    every schedule with any chunks ends there. -/
theorem endsIn_of_run {s t : Net ρ β α} (hst : ReflTransGen (ByteStep cap) s t)
    (ht : t.Finished) : EndsIn (Step cap) s t :=
  EndsIn.of_run (byteStep_closing cap) (fun _ _ => ByteStep.step cap)
    (fun _ _ => Step.byteSteps cap) hst (stuck_of_finished cap ht)

/-- Another end than that is ruled out by a schedule of single bytes that is stuck. -/
theorem eq_of_byteStuck {s t u : Net ρ β α} (h : EndsIn (Step cap) s t)
    (hu : ReflTransGen (ByteStep cap) s u) (hstuck : Stuck (ByteStep cap) u) : u = t :=
  h.eq_of_stuck (ReflTransGen.mono (fun _ _ => ByteStep.step cap) _ _ hu)
    (hstuck.of_subset fun _ _ => Step.byteSteps cap)

theorem ByteStep.returned {s t : Net ρ β α} (h : ByteStep cap s t) {p : ρ} {a : α}
    (hp : s.prog p = .ret a) : t.prog p = .ret a := by
  obtain ⟨q, m, P, hP, -, rfl⟩ := h
  by_cases hpq : p = q
  · subst hpq
    rw [hp] at hP
    cases hP
  · show update s.prog q P p = _
    rw [update_of_ne hpq, hp]

/-- Larger buffers allow more. -/
theorem Step.mono {cap cap' : ρ × ρ → ℕ∞} (hcap : ∀ c, cap c ≤ cap' c) {s t : Net ρ β α}
    (h : Step cap s t) : Step cap' s t := by
  cases h with
  | sendNil h => exact Step.sendNil h
  | send h hne hroom => exact Step.send h hne (hroom.trans (hcap _))
  | recvNil h => exact Step.recvNil h
  | recv h hne hchan => exact Step.recv h hne hchan

theorem Step.returned {s t : Net ρ β α} (h : Step cap s t) {p : ρ} {a : α}
    (hp : s.prog p = .ret a) : t.prog p = .ret a := by
  have hbytes := Step.byteSteps cap h
  clear h
  induction hbytes with
  | single hb => exact hb.returned cap hp
  | tail _ hb ih => exact hb.returned cap ih

/-- A program that comes to a read from itself.  What it writes before goes to others. -/
inductive Hangs (p : ρ) : Prog ρ β α → Prop
  | recv (n : Nat) (k : List β → Prog ρ β α) : Hangs p (.recv p (n + 1) k)
  | send {q : ρ} {bs : List β} {k : Prog ρ β α} : q ≠ p → Hangs p k → Hangs p (.send q bs k)

theorem Hangs.byteStep {s t : Net ρ β α} {p : ρ} (h : Hangs p (s.prog p)) (hchan : s.chan (p, p) = [])
    (hstep : ByteStep cap s t) : Hangs p (t.prog p) ∧ t.chan (p, p) = [] := by
  obtain ⟨q, m, P, hoffer, henabled, rfl⟩ := hstep
  by_cases hpq : q = p
  · subst hpq
    show Hangs q (update s.prog q P q) ∧ m.run s.chan (q, q) = []
    rw [update_self]
    generalize s.prog q = Q at h hoffer
    cases h with
    | recv n k =>
      cases hoffer with
      | get => exact absurd (henabled.symm.trans (congrArg List.head? hchan)) (Option.some_ne_none _)
    | send hne h =>
      cases hoffer with
      | sendNil => exact ⟨h, hchan⟩
      | put =>
        refine ⟨.send hne h, ?_⟩
        rwa [Move.run, update_of_ne fun heq => hne (congrArg Prod.snd heq).symm]
  · -- the others have nothing to do with that channel
    refine ⟨?_, ?_⟩
    · show Hangs p (update s.prog q P p)
      rwa [update_of_ne (Ne.symm hpq)]
    · have howns := hoffer.owns
      cases m with
      | idle => exact hchan
      | put c b =>
        show update s.chan c _ (p, p) = []
        rwa [update_of_ne fun heq => hpq (by rw [← howns, ← heq])]
      | get c b =>
        show update s.chan c _ (p, p) = []
        rwa [update_of_ne fun heq => hpq (by rw [← howns, ← heq])]

/-- It never returns. -/
theorem Hangs.run {s t : Net ρ β α} {p : ρ} (h : Hangs p (s.prog p)) (hchan : s.chan (p, p) = [])
    (hrun : ReflTransGen (Step cap) s t) : Hangs p (t.prog p) := by
  have hboth : Hangs p (t.prog p) ∧ t.chan (p, p) = [] := by
    induction hrun with
    | refl => exact ⟨h, hchan⟩
    | tail _ hstep ih =>
      have hbytes := Step.byteSteps cap hstep
      clear hstep
      induction hbytes with
      | single hb => exact ih.1.byteStep cap ih.2 hb
      | tail _ hb ih => exact ih.1.byteStep cap ih.2 hb
  exact hboth.1

/-- A program that has returned keeps its result to the end. -/
theorem returned_of_step_run {s t u : Net ρ β α} (h : EndsIn (Step cap) s t)
    (hu : ReflTransGen (Step cap) s u) {p : ρ} {a : α} (hp : u.prog p = .ret a) :
    t.prog p = .ret a := by
  have hut := h.reach u hu
  clear h hu
  induction hut with
  | refl => exact hp
  | tail _ hstep ih => exact hstep.returned cap ih

theorem returned_of_endsIn {s t u : Net ρ β α} (h : EndsIn (Step cap) s t)
    (hu : ReflTransGen (ByteStep cap) s u) {p : ρ} {a : α} (hp : u.prog p = .ret a) :
    t.prog p = .ret a :=
  returned_of_step_run cap h (ReflTransGen.mono (fun _ _ => ByteStep.step cap) _ _ hu) hp

/-- The front of a message goes through an empty channel with room for one byte. -/
theorem pass_run {p q : ρ} (hpq : p ≠ q) (hcap : 1 ≤ cap (p, q)) (cs : List β) (k : Prog ρ β α) :
    ∀ (bs : List β) (k' : List β → Prog ρ β α) (s : Net ρ β α), s.prog p = .send q (bs ++ cs) k →
    s.prog q = .recv p bs.length k' → s.chan (p, q) = [] →
    ReflTransGen (ByteStep cap) s ((s.setProg p (.send q cs k)).setProg q (k' bs)) := by
  intro bs
  induction bs with
  | nil =>
    intro k' s hp hq _
    have h : ByteStep cap s (s.setProg q (k' [])) :=
      ⟨q, .idle, k' [], hq ▸ Offers.recvNil p k', trivial, rfl⟩
    have heq : s.setProg p (.send q cs k) = s := by
      rw [Net.ext_iff]
      refine ⟨?_, rfl⟩
      rw [setProg_prog, ← List.nil_append cs, ← hp, update_eq_self]
    rw [heq]
    exact ReflTransGen.single h
  | cons b bs ih =>
    intro k' s hp hq hc
    -- write one byte, read it, and hand over the rest
    let s1 : Net ρ β α := (s.setProg p (.send q (bs ++ cs) k)).setChan (p, q) [b]
    let s2 : Net ρ β α := (s.setProg p (.send q (bs ++ cs) k)).setProg q
      (.recv p bs.length fun xs => k' (b :: xs))
    have h1 : ByteStep cap s s1 := by
      refine ⟨p, .put (p, q) b, _, hp ▸ Offers.put q b (bs ++ cs) k, ?_, ?_⟩
      · simpa only [Move.Enabled, hc, List.length_nil, Nat.zero_add, Nat.cast_one] using hcap
      · simp only [s1, Move.run, hc, List.nil_append, Net.setProg, Net.setChan]
    have h2 : ByteStep cap s1 s2 := by
      refine ⟨q, .get (p, q) b, .recv p bs.length fun xs => k' (b :: xs), ?_, ?_, ?_⟩
      · rw [show s1.prog q = .recv p (bs.length + 1) k' by
          rw [setChan_prog, setProg_prog, update_of_ne (Ne.symm hpq), hq, List.length_cons]]
        exact Offers.get p _ b k'
      · show (s1.chan (p, q)).head? = some b
        simp [s1]
      · rw [Net.ext_iff]
        refine ⟨rfl, ?_⟩
        simp only [s1, s2, setProg_chan, setChan_chan, Move.run, update_self, List.tail_cons,
          update_idem, ← hc, update_eq_self]
    have h3 := ih (fun xs => k' (b :: xs)) s2 (by simp [s2, update_of_ne hpq]) (by simp [s2]) hc
    refine ReflTransGen.head h1 (ReflTransGen.head h2 ?_)
    have heq : (s2.setProg p (.send q cs k)).setProg q (k' (b :: bs)) =
        (s.setProg p (.send q cs k)).setProg q (k' (b :: bs)) := by
      rw [Net.ext_iff]
      refine ⟨?_, rfl⟩
      simp only [s2, setProg_prog, update_comm hpq, update_idem]
    exact heq ▸ h3

/-- A message goes through an empty channel with room for one byte. -/
theorem exchange_run {p q : ρ} (hpq : p ≠ q) (hcap : 1 ≤ cap (p, q)) (k : Prog ρ β α)
    (bs : List β) (k' : List β → Prog ρ β α) (s : Net ρ β α) (hp : s.prog p = .send q bs k)
    (hq : s.prog q = .recv p bs.length k') (hc : s.chan (p, q) = []) :
    ReflTransGen (ByteStep cap) s ((s.setProg p k).setProg q (k' bs)) := by
  have hpass := pass_run cap hpq hcap [] k bs k' s (by rwa [List.append_nil]) hq hc
  refine hpass.tail ⟨p, .idle, k, ?_, trivial, ?_⟩
  · rw [setProg_prog, update_of_ne hpq, setProg_prog, update_self]
    exact Offers.sendNil q k
  · rw [Net.ext_iff]
    refine ⟨?_, rfl⟩
    simp only [setProg_prog]
    rw [update_comm hpq, update_comm hpq, update_idem]

/-- **Handing over a message**: the writer goes on, the reader goes on with the message, and nobody
    else notices. -/
theorem exchange {p q : ρ} (hpq : p ≠ q) (hcap : 1 ≤ cap (p, q)) {k : Prog ρ β α} {bs : List β}
    {k' : List β → Prog ρ β α} {s : Net ρ β α} (hp : s.prog p = .send q bs k)
    (hq : s.prog q = .recv p bs.length k') (hc : s.chan (p, q) = []) :
    ∃ t, ReflTransGen (ByteStep cap) s t ∧ t.prog p = k ∧ t.prog q = k' bs ∧
      (∀ r, r ≠ p → r ≠ q → t.prog r = s.prog r) ∧ t.chan = s.chan := by
  refine ⟨_, exchange_run cap hpq hcap k bs k' s hp hq hc, ?_, ?_, fun r h1 h2 => ?_, rfl⟩
  · rw [setProg_prog, update_of_ne hpq, setProg_prog, update_self]
  · rw [setProg_prog, update_self]
  · rw [setProg_prog, update_of_ne h2, setProg_prog, update_of_ne h1]

/-! ## What a program can return -/

/-- Whatever `P` reads, as many bytes as it asks for, what it returns satisfies `Q`. -/
inductive Yields (Q : α → Prop) : Prog ρ β α → Prop
  | ret {a : α} : Q a → Yields Q (.ret a)
  | send {q : ρ} {bs : List β} {k : Prog ρ β α} : Yields Q k → Yields Q (.send q bs k)
  | recv {q : ρ} {n : ℕ} {k : List β → Prog ρ β α} :
      (∀ bs, bs.length = n → Yields Q (k bs)) → Yields Q (.recv q n k)

namespace Yields

variable {Q : α → Prop} {P P' : Prog ρ β α}

omit [DecidableEq ρ] in
theorem trivially (P : Prog ρ β α) : Yields (fun _ => True) P := by
  induction P with
  | ret a => exact .ret trivial
  | send q bs k ih => exact .send ih
  | recv q n k ih => exact .recv fun bs _ => ih bs

omit [DecidableEq ρ] in
/-- One program after the other. -/
theorem bind {γ : Type*} {R : γ → Prop} {f : α → Prog ρ β γ} (h : Yields Q P)
    (hf : ∀ a, Q a → Yields R (f a)) : Yields R (P.bind f) := by
  induction h with
  | ret ha => exact hf _ ha
  | send _ ih => exact .send ih
  | recv _ ih => exact .recv ih

omit [DecidableEq ρ] in
theorem offers (h : Yields Q P) {p : ρ} {m : Move ρ β} (hm : Offers p P m P') : Yields Q P' := by
  cases hm with
  | sendNil => cases h with | send h => exact h
  | put => cases h with | send h => exact .send h
  | recvNil => cases h with | recv h => exact h [] rfl
  | get q n b => cases h with | recv h => exact .recv fun bs hbs => h (b :: bs) (congrArg (· + 1) hbs)

/-- The other peers send what they like: no run of the network makes it return anything else. -/
theorem run {s t : Net ρ β α} (h : ReflTransGen (ByteStep cap) s t) {p : ρ}
    (hp : Yields Q (s.prog p)) : Yields Q (t.prog p) := by
  induction h with
  | refl => exact hp
  | @tail u _ _ hstep ih =>
    obtain ⟨q, m, P, hP, -, rfl⟩ := hstep
    by_cases hpq : p = q
    · subst hpq
      show Yields Q (update u.prog p P p)
      rw [update_self]
      exact ih.offers hP
    · show Yields Q (update u.prog q P p)
      rwa [update_of_ne hpq]

omit [DecidableEq ρ] in
theorem of_ret {a : α} (h : Yields Q (.ret a : Prog ρ β α)) : Q a := by
  cases h with
  | ret h => exact h

end Yields

end

end FifoNet
