/-
  Clients that exchange whole messages.

  A `Client` makes one call after the other, and which one comes next may depend on what the calls before
  have returned.  A call sends a message, takes one, or does neither (`Act`).  Messages wait in a queue
  for each pair of clients (`Post`).

  1. **Queues.**  Nothing is lost, doubled or overtaken: what one client has sent to another one is what
     that one has taken, and behind it what still waits (`Post.Kept`).

  2. **Bytes.**  Over FIFO byte channels a call is a program that writes the bytes of its message at once,
     or reads those of any message part by part (`Act.CarriedOut`).

  3. **The two agree** (`Post.carried`).  The queues have a run that ends, and the bytes of that run are a
     run of the channels.  There one run settles all of them, so whatever happens on the channels leads
     to where the queues end, and with small buffers it still cannot lead anywhere else.
-/
import LaunchMON.Lib.FifoNet
import Mathlib.Data.DFinsupp.WellFounded
import Mathlib.SetTheory.Cardinal.Order

namespace Mail

open Relation Descent Function FifoNet

/-! ## Clients -/

/-- What a call does: nothing, or it sends `m`, or it takes a message and returns what `f` says. -/
inductive Act (ρ μ A : Type*)
  | skip (x : A)
  | tell (dst : ρ) (m : μ) (x : A)
  | hear (src : ρ) (f : μ → A)

/-- A client that makes calls `C`, with what it returns in the end. -/
inductive Client (C : Type*) (A : C → Type*) (α : Type*)
  | done (x : α)
  | call (c : C) (k : A c → Client C A α)

/-- A message that a client has sent or taken. -/
inductive Event (ρ μ : Type*)
  | told (dst : ρ) (m : μ)
  | heard (src : ρ) (m : μ)

variable {ρ μ β α : Type*} {C : ρ → Type*} {A : (p : ρ) → C p → Type*}

/-- What all clients still have to do, what waits for them, and what they have sent and taken. -/
@[ext] structure Post (ρ μ α : Type*) (C : ρ → Type*) (A : (p : ρ) → C p → Type*) where
  client : (p : ρ) → Client (C p) (A p) α
  queue : ρ × ρ → List μ
  log : ρ → List (Event ρ μ)

/-- Nothing has been sent. -/
def Post.start (client : (p : ρ) → Client (C p) (A p) α) : Post ρ μ α C A :=
  ⟨client, fun _ => [], fun _ => []⟩

section

variable [DecidableEq ρ]

/-- One client makes its next call. -/
inductive Step (act : (p : ρ) → (c : C p) → Act ρ μ (A p c)) (s : Post ρ μ α C A) :
    Post ρ μ α C A → Prop
  | skip {p : ρ} {c : C p} {k : A p c → Client (C p) (A p) α} {x : A p c} :
      s.client p = .call c k → act p c = .skip x →
      Step act s { s with client := update s.client p (k x) }
  | tell {p q : ρ} {c : C p} {k : A p c → Client (C p) (A p) α} {m : μ} {x : A p c} :
      s.client p = .call c k → act p c = .tell q m x →
      Step act s
        { client := update s.client p (k x)
          queue := update s.queue (p, q) (s.queue (p, q) ++ [m])
          log := update s.log p (s.log p ++ [.told q m]) }
  | hear {p q : ρ} {c : C p} {k : A p c → Client (C p) (A p) α} {m : μ} {ms : List μ} {f : μ → A p c} :
      s.client p = .call c k → act p c = .hear q f → s.queue (q, p) = m :: ms →
      Step act s
        { client := update s.client p (k (f m))
          queue := update s.queue (q, p) ms
          log := update s.log p (s.log p ++ [.heard q m]) }

/-! ## Queues -/

/-- The messages that went to `q`. -/
def told (q : ρ) (log : List (Event ρ μ)) : List μ :=
  log.filterMap fun
    | .told dst m => if dst = q then some m else none
    | .heard _ _ => none

/-- The messages that came from `q`. -/
def heard (q : ρ) (log : List (Event ρ μ)) : List μ :=
  log.filterMap fun
    | .told _ _ => none
    | .heard src m => if src = q then some m else none

@[simp] theorem told_told (q dst : ρ) (m : μ) (log : List (Event ρ μ)) :
    told q (log ++ [.told dst m]) = told q log ++ if dst = q then [m] else [] := by
  unfold told
  rw [List.filterMap_append]
  by_cases h : dst = q <;> simp [h]

@[simp] theorem told_heard (q src : ρ) (m : μ) (log : List (Event ρ μ)) :
    told q (log ++ [.heard src m]) = told q log := by
  simp [told]

@[simp] theorem heard_told (q dst : ρ) (m : μ) (log : List (Event ρ μ)) :
    heard q (log ++ [.told dst m]) = heard q log := by
  simp [heard]

@[simp] theorem heard_heard (q src : ρ) (m : μ) (log : List (Event ρ μ)) :
    heard q (log ++ [.heard src m]) = heard q log ++ if src = q then [m] else [] := by
  unfold heard
  rw [List.filterMap_append]
  by_cases h : src = q <;> simp [h]

/-- What has been sent is what has been taken, and then what waits. -/
def Post.Kept (s : Post ρ μ α C A) : Prop :=
  ∀ p q, told q (s.log p) = heard p (s.log q) ++ s.queue (p, q)

theorem Post.kept_start (client : (p : ρ) → Client (C p) (A p) α) :
    (Post.start client : Post ρ μ α C A).Kept :=
  fun _ _ => rfl

variable {act : (p : ρ) → (c : C p) → Act ρ μ (A p c)} {s t : Post ρ μ α C A}

theorem Post.Kept.step (h : s.Kept) (hst : Step act s t) : t.Kept := by
  intro a b
  have hab := h a b
  cases hst with
  | skip => exact hab
  | @tell p q _ _ m _ _ _ =>
    have hheard : heard a (update s.log p (s.log p ++ [.told q m]) b) = heard a (s.log b) := by
      rw [update_apply]
      split
      · next hb => rw [hb, heard_told]
      · rfl
    show told b (update s.log p _ a) = heard a (update s.log p _ b) ++ update s.queue (p, q) _ (a, b)
    rw [hheard]
    by_cases ha : a = p
    · subst ha
      rw [update_self, told_told]
      by_cases hb : q = b
      · subst hb
        rw [update_self, if_pos rfl, hab, List.append_assoc]
      · rw [if_neg hb, List.append_nil, update_of_ne fun he => hb (congrArg Prod.snd he).symm, hab]
    · rw [update_of_ne ha, update_of_ne fun he => ha (congrArg Prod.fst he), hab]
  | @hear p q _ _ m ms _ _ _ hqueue =>
    have htold : told b (update s.log p (s.log p ++ [.heard q m]) a) = told b (s.log a) := by
      rw [update_apply]
      split
      · next ha => rw [ha, told_heard]
      · rfl
    show told b (update s.log p _ a) = heard a (update s.log p _ b) ++ update s.queue (q, p) _ (a, b)
    rw [htold]
    by_cases hb : b = p
    · subst hb
      rw [update_self, heard_heard]
      by_cases ha : q = a
      · subst ha
        rw [update_self, if_pos rfl, hab, hqueue, List.append_assoc]
        rfl
      · rw [if_neg ha, List.append_nil, update_of_ne fun he => ha (congrArg Prod.fst he).symm, hab]
    · rw [update_of_ne hb, update_of_ne fun he => hb (congrArg Prod.snd he), hab]

theorem Post.Kept.run (h : s.Kept) (hst : ReflTransGen (Step act) s t) : t.Kept := by
  induction hst with
  | refl => exact h
  | tail _ hstep ih => exact ih.step hstep

/-! ## The end of a run -/

omit [DecidableEq ρ] in
/-- `Rest P Q`: the client `P` is what `Q` does after its next call. -/
def Rest {C : Type*} {A : C → Type*} (P Q : Client C A α) : Prop :=
  ∃ c k x, Q = .call c k ∧ P = k x

omit [DecidableEq ρ] in
theorem wellFounded_rest {C : Type*} {A : C → Type*} :
    WellFounded (Rest : Client C A α → Client C A α → Prop) := by
  refine ⟨fun Q => ?_⟩
  induction Q with
  | done x =>
    refine ⟨_, fun P h => ?_⟩
    obtain ⟨c, k, x, h, -⟩ := h
    cases h
  | call c k ih =>
    refine ⟨_, fun P h => ?_⟩
    obtain ⟨c, k, x, h, rfl⟩ := h
    cases h
    exact ih x

/-- A step moves one client on. -/
theorem Step.rest (h : Step act s t) : ∃ p P, Rest P (s.client p) ∧ t.client = update s.client p P := by
  cases h with
  | @skip p c k x hclient _ => exact ⟨p, k x, ⟨c, k, x, hclient, rfl⟩, rfl⟩
  | @tell p q c k m x hclient _ => exact ⟨p, k x, ⟨c, k, x, hclient, rfl⟩, rfl⟩
  | @hear p q c k m ms f hclient _ _ => exact ⟨p, k (f m), ⟨c, k, f m, hclient, rfl⟩, rfl⟩

/-- Every run comes to an end, because clients are finite. -/
theorem Post.exists_end [Finite ρ] (act : (p : ρ) → (c : C p) → Act ρ μ (A p c)) (s : Post ρ μ α C A) :
    ∃ t, ReflTransGen (Step act) s t ∧ Stuck (Step act) t := by
  have hwf : WellFounded (Pi.Lex (β := fun p => Client (C p) (A p) α) WellOrderingRel
      fun {_} => Rest) := Pi.Lex.wellFounded _ fun _ => wellFounded_rest
  induction hc : s.client using hwf.induction generalizing s with
  | _ client ih =>
    subst hc
    by_cases hstuck : Stuck (Step act) s
    · exact ⟨s, .refl, hstuck⟩
    · obtain ⟨u, hu⟩ := not_forall_not.mp hstuck
      obtain ⟨p, P, hrest, heq⟩ := hu.rest
      have hless : Pi.Lex WellOrderingRel (fun {_} => Rest) u.client s.client := by
        refine ⟨p, fun q hq => ?_, ?_⟩
        · rw [heq, update_of_ne (fun h => ?_)]
          rw [h] at hq
          exact irrefl _ hq
        · rwa [heq, update_self]
      obtain ⟨t, hrun, ht⟩ := ih u.client hless u rfl
      exact ⟨t, .head hu hrun, ht⟩

end

/-! ## Bytes -/

/-- How messages are written, and which ones go over a channel. -/
structure Format (ρ μ β : Type*) where
  bytes : μ → List β
  Valid : ρ × ρ → μ → Prop
  bytes_ne_nil : ∀ m, bytes m ≠ []

/-- `Takes q bs P Q`: the program `P` reads `bs` from `q`, part by part, and goes on as `Q`. -/
inductive Takes (q : ρ) : List β → Prog ρ β α → Prog ρ β α → Prop
  | nil (P : Prog ρ β α) : Takes q [] P P
  | part {bs cs : List β} {k : List β → Prog ρ β α} {Q : Prog ρ β α} :
      bs ≠ [] → Takes q cs (k bs) Q → Takes q (bs ++ cs) (.recv q bs.length k) Q

theorem Takes.bind {γ : Type*} {q : ρ} {bs : List β} {P Q : Prog ρ β α} (h : Takes q bs P Q)
    (f : α → Prog ρ β γ) : Takes q bs (P.bind f) (Q.bind f) := by
  induction h with
  | nil P => exact .nil _
  | part hne _ ih => exact .part hne ih

/-- A program that takes something begins with a read of something. -/
theorem Takes.recv {q : ρ} {bs : List β} {P Q : Prog ρ β α} (h : Takes q bs P Q) (hne : bs ≠ []) :
    ∃ n k, P = .recv q (n + 1) k := by
  cases h with
  | nil => exact absurd rfl hne
  | part hbs _ => exact ⟨_, _, by rw [Nat.sub_add_cancel (List.length_pos_of_ne_nil hbs)]⟩

/-- `P` does at `p` what a call should do. -/
def Act.CarriedOut (F : Format ρ μ β) (p : ρ) (P : Prog ρ β α) : Act ρ μ α → Prop
  | .skip x => P = .ret x
  | .tell q m x => F.Valid (p, q) m ∧ P = .send q (F.bytes m) (.ret x)
  | .hear q f => (∃ m, F.Valid (q, p) m) ∧ ∀ m, F.Valid (q, p) m → Takes q (F.bytes m) P (.ret (f m))

/-- A client whose calls are programs. -/
def Client.prog {C : Type*} {A : C → Type*} (body : (c : C) → Prog ρ β (A c)) :
    Client C A α → Prog ρ β α
  | .done x => .ret x
  | .call c k => (body c).bind fun x => (k x).prog body

/-- All clients, with the bytes of what waits for them. -/
def Post.net (F : Format ρ μ β) (body : (p : ρ) → (c : C p) → Prog ρ β (A p c)) (s : Post ρ μ α C A) :
    Net ρ β α where
  prog p := (s.client p).prog (body p)
  chan c := (s.queue c).flatMap F.bytes

/-- What waits is valid. -/
def Post.Sound (F : Format ρ μ β) (s : Post ρ μ α C A) : Prop := ∀ c, ∀ m ∈ s.queue c, F.Valid c m

theorem Post.sound_start (F : Format ρ μ β) (client : (p : ρ) → Client (C p) (A p) α) :
    (Post.start client : Post ρ μ α C A).Sound F := by
  intro c m hm
  cases hm

section

variable [DecidableEq ρ] {act : (p : ρ) → (c : C p) → Act ρ μ (A p c)} {s t : Post ρ μ α C A}
  {F : Format ρ μ β} {body : (p : ρ) → (c : C p) → Prog ρ β (A p c)}

theorem Takes.run {cap : ρ × ρ → ℕ∞} {p q : ρ} {bs : List β} {P Q : Prog ρ β α} (h : Takes q bs P Q) :
    ∀ (cs : List β) (u : Net ρ β α), u.prog p = P → u.chan (q, p) = bs ++ cs →
      ReflTransGen (ByteStep cap) u ((u.setProg p Q).setChan (q, p) cs) := by
  induction h with
  | nil P =>
    intro cs u hprog hchan
    have heq : (u.setProg p P).setChan (q, p) cs = u := by
      have hcs : cs = u.chan (q, p) := hchan.symm
      rw [Net.ext_iff]
      simp [hcs, ← hprog]
    rw [heq]
  | @part bs cs' k Q hne _ ih =>
    intro cs u hprog hchan
    rw [List.append_assoc] at hchan
    refine (get_run cap hprog hchan).trans ?_
    have hrest := ih cs ((u.setProg p (k bs)).setChan (q, p) (cs' ++ cs)) (by simp) (by simp)
    simpa [Net.setProg, Net.setChan] using hrest

theorem Post.net_update {p : ρ} {P : Client (C p) (A p) α} {queue : ρ × ρ → List μ}
    {log : ρ → List (Event ρ μ)} : (⟨update s.client p P, queue, log⟩ : Post ρ μ α C A).net F body =
      ⟨update (s.net F body).prog p (P.prog (body p)), fun c => (queue c).flatMap F.bytes⟩ := by
  refine Net.ext (funext fun r => ?_) rfl
  show (update s.client p P r).prog (body r) = update (s.net F body).prog p _ r
  by_cases hr : r = p
  · subst hr
    rw [update_self, update_self]
  · rw [update_of_ne hr, update_of_ne hr]
    rfl

theorem flatMap_update (bytes : μ → List β) (queue : ρ × ρ → List μ) (c : ρ × ρ) (ms : List μ) :
    (fun d => (update queue c ms d).flatMap bytes) =
      update (fun d => (queue d).flatMap bytes) c (ms.flatMap bytes) := by
  funext d
  by_cases hd : d = c
  · subst hd
    rw [update_self, update_self]
  · rw [update_of_ne hd, update_of_ne hd]

theorem Post.Sound.step (hbody : ∀ p c, (act p c).CarriedOut F p (body p c)) (h : s.Sound F)
    (hst : Step act s t) : t.Sound F := by
  intro d m' hm'
  cases hst with
  | skip => exact h d m' hm'
  | @tell p q c k m x _ hact =>
    have hc := hbody p c
    rw [hact] at hc
    have hm : m' ∈ update s.queue (p, q) (s.queue (p, q) ++ [m]) d := hm'
    rw [update_apply] at hm
    split at hm
    · next hd =>
      rw [hd] at *
      rcases List.mem_append.mp hm with hold | hnew
      · exact h _ m' hold
      · rw [List.mem_singleton.mp hnew]
        exact hc.1
    · exact h d m' hm
  | @hear p q c k m ms f _ _ hqueue =>
    have hm : m' ∈ update s.queue (q, p) ms d := hm'
    rw [update_apply] at hm
    split at hm
    · next hd =>
      rw [hd]
      exact h _ m' (hqueue ▸ List.mem_cons_of_mem m hm)
    · exact h d m' hm

/-- **A call** is a run of the bytes. -/
theorem Post.Sound.carry (hbody : ∀ p c, (act p c).CarriedOut F p (body p c)) (h : s.Sound F)
    (hst : Step act s t) :
    ReflTransGen (ByteStep fun _ => ⊤) (s.net F body) (t.net F body) := by
  cases hst with
  | @skip p c k x hclient hact =>
    have hc := hbody p c
    rw [hact] at hc
    have heq : update (s.net F body).prog p ((k x).prog (body p)) = (s.net F body).prog := by
      have hprog : (k x).prog (body p) = (s.net F body).prog p := by
        show _ = (s.client p).prog (body p)
        rw [hclient, Client.prog, show body p c = .ret x from hc]
        rfl
      rw [hprog, update_eq_self]
    rw [net_update, heq]
    exact .refl
  | @tell p q c k m x hclient hact =>
    have hc := hbody p c
    rw [hact] at hc
    have hprog : (s.net F body).prog p = .send q (F.bytes m) ((k x).prog (body p)) := by
      show (s.client p).prog (body p) = _
      rw [hclient, Client.prog, hc.2]
      rfl
    have hrun := put_run (fun _ => ⊤) hprog le_top
    rw [net_update, flatMap_update, List.flatMap_append, List.flatMap_singleton]
    exact hrun
  | @hear p q c k m ms f hclient hact hqueue =>
    have hc := hbody p c
    rw [hact] at hc
    have hvalid : F.Valid (q, p) m := h (q, p) m (hqueue ▸ List.mem_cons_self)
    have hprog : (s.net F body).prog p = (body p c).bind fun x => (k x).prog (body p) := by
      show (s.client p).prog (body p) = _
      rw [hclient, Client.prog]
    have hchan : (s.net F body).chan (q, p) = F.bytes m ++ ms.flatMap F.bytes := by
      show (s.queue (q, p)).flatMap F.bytes = _
      rw [hqueue, List.flatMap_cons]
    have htakes := (hc.2 m hvalid).bind fun x => (k x).prog (body p)
    have hrun := @Takes.run _ _ _ _ (fun _ => ⊤) _ _ _ _ _ htakes _ _ hprog hchan
    rw [net_update, flatMap_update]
    exact hrun

theorem Post.Sound.carry_run (hbody : ∀ p c, (act p c).CarriedOut F p (body p c)) (h : s.Sound F)
    (hst : ReflTransGen (Step act) s t) :
    t.Sound F ∧ ReflTransGen (ByteStep fun _ => ⊤) (s.net F body) (t.net F body) := by
  induction hst with
  | refl => exact ⟨h, .refl⟩
  | tail _ hstep ih => exact ⟨ih.1.step hbody hstep, ih.2.trans (ih.1.carry hbody hstep)⟩

/-- Where the queues are stuck a client is done, or it waits for a message that nobody has sent. -/
theorem Post.client_of_stuck (hstuck : Stuck (Step act) s) (p : ρ) : (∃ x, s.client p = .done x) ∨
    ∃ c k q f, s.client p = .call c k ∧ act p c = .hear q f ∧ s.queue (q, p) = [] := by
  cases hclient : s.client p with
  | done x => exact Or.inl ⟨x, rfl⟩
  | call c k =>
    cases hact : act p c with
    | skip x => exact absurd (Step.skip hclient hact) (hstuck _)
    | tell q m x => exact absurd (Step.tell hclient hact) (hstuck _)
    | hear q f =>
      refine Or.inr ⟨c, k, q, f, rfl, hact, ?_⟩
      cases hqueue : s.queue (q, p) with
      | nil => rfl
      | cons m ms => exact absurd (Step.hear hclient hact hqueue) (hstuck _)

/-- There the bytes say the same. -/
theorem Post.prog_of_stuck (hbody : ∀ p c, (act p c).CarriedOut F p (body p c))
    (hstuck : Stuck (Step act) s) (p : ρ) :
    (∃ x, s.client p = .done x ∧ (s.net F body).prog p = .ret x) ∨
      ∃ q n k, (s.net F body).prog p = .recv q (n + 1) k ∧ (s.net F body).chan (q, p) = [] := by
  rcases client_of_stuck hstuck p with ⟨x, hx⟩ | ⟨c, k, q, f, hclient, hact, hqueue⟩
  · refine Or.inl ⟨x, hx, ?_⟩
    show (s.client p).prog (body p) = _
    rw [hx]
    rfl
  · have hc := hbody p c
    rw [hact] at hc
    obtain ⟨⟨m, hm⟩, htakes⟩ := hc
    obtain ⟨n, k', hrecv⟩ := (htakes m hm).recv (F.bytes_ne_nil m)
    refine Or.inr ⟨q, n, fun bs => (k' bs).bind fun x => (k x).prog (body p), ?_, ?_⟩
    · show (s.client p).prog (body p) = _
      rw [hclient, Client.prog, hrecv]
      rfl
    · show (s.queue (q, p)).flatMap F.bytes = []
      rw [hqueue]
      rfl

theorem Post.stuck_net (hbody : ∀ p c, (act p c).CarriedOut F p (body p c))
    (hstuck : Stuck (Step act) s) : Stuck (ByteStep fun _ => ⊤) (s.net F body) := by
  rintro _ ⟨p, m, P, hP, henabled, -⟩
  rcases prog_of_stuck hbody hstuck p with ⟨x, -, hx⟩ | ⟨q, n, k, hrecv, hchan⟩
  · rw [hx] at hP
    cases hP
  · rw [hrecv] at hP
    cases hP with
    | get q n b k =>
      have hhead : ((s.net F body).chan (q, p)).head? = some b := henabled
      rw [hchan] at hhead
      cases hhead

/-- **The bytes end where the queues end.**  Every run of the bytes is finite, has the bytes of that end
    before it, and with buffers of any size a client that has returned has returned what it does there. -/
theorem Post.carried [Finite ρ] (hbody : ∀ p c, (act p c).CarriedOut F p (body p c)) (h : s.Sound F) :
    ∃ t, ReflTransGen (Step act) s t ∧ Stuck (Step act) t ∧
      EndsIn (FifoNet.Step fun _ => ⊤) (s.net F body) (t.net F body) ∧
      ∀ cap u, ReflTransGen (FifoNet.Step cap) (s.net F body) u →
        ∀ p x, u.prog p = .ret x → t.client p = .done x := by
  obtain ⟨t, hst, hstuck⟩ := s.exists_end act
  have hends : EndsIn (FifoNet.Step fun _ => ⊤) (s.net F body) (t.net F body) :=
    EndsIn.of_run (byteStep_closing _) (fun _ _ => ByteStep.step _) (fun _ _ => Step.byteSteps _)
      (h.carry_run hbody hst).2 (stuck_net hbody hstuck)
  refine ⟨t, hst, hstuck, hends, fun cap u hu p x hx => ?_⟩
  have hmono : ReflTransGen (FifoNet.Step fun _ => ⊤) (s.net F body) u :=
    ReflTransGen.mono (fun _ _ => Step.mono fun _ => le_top) _ _ hu
  have hret := returned_of_step_run _ hends hmono hx
  rcases prog_of_stuck hbody hstuck p with ⟨y, hy, hprog⟩ | ⟨q, n, k, hrecv, -⟩
  · rw [hprog] at hret
    injection hret with hxy
    rw [hy, hxy]
  · rw [hrecv] at hret
    cases hret

end

end Mail
