/-
  Programs on one stream connection.

  `Io` is a program that writes and reads whole messages on a socket and is told whether it could.
  It is run in two ways.  Against a peer of its own kind, over two FIFO channels and without socket
  errors (`Io.net`, `duo`), it becomes a program of `FifoNet`, so one schedule settles all of them.
  Against a peer that does what it likes (`Io.serve`), it sees a `Line`: the bytes that can be read
  before reading fails, and how many bytes can be written before writing fails.  And where a program
  is one component of a larger system, it goes byte by byte (`Io.Steps`), with `Says` and `Hears` for
  what it will have written and read when it is done.
-/
import LaunchMON.Lib.Bytes
import LaunchMON.Lib.FifoNet

namespace FifoNet

open Relation Descent Function

/-! ## Two peers -/

variable {β α : Type*} (cap : Bool × Bool → ℕ∞)

/-- The peers `true` and `false`, with `x` on the way to `false` and `y` on the way to `true`. -/
def duo (P Q : Prog Bool β α) (x y : List β) : Net Bool β α where
  prog b := if b then P else Q
  chan c := if c = (true, false) then x else if c = (false, true) then y else []

theorem duo_finished (a b : α) (x y : List β) : (duo (.ret a) (.ret b) x y : Net Bool β α).Finished :=
  fun p => match p with
    | true => ⟨a, rfl⟩
    | false => ⟨b, rfl⟩

variable {cap} {P Q k : Prog Bool β α} {kr : List β → Prog Bool β α} {x y bs : List β}

theorem duo_put_true (h : ((x.length + bs.length : Nat) : ℕ∞) ≤ cap (true, false)) :
    ReflTransGen (ByteStep cap) (duo (.send false bs k) Q x y) (duo k Q (x ++ bs) y) := by
  have hrun := put_run cap (s := duo (.send false bs k) Q x y) (p := true) rfl h
  refine (congrArg _ (Net.ext (funext fun p => ?_) (funext fun c => ?_))).mp hrun
  · cases p <;> rfl
  · obtain ⟨p, q⟩ := c
    cases p <;> cases q <;> rfl

theorem duo_put_false (h : ((y.length + bs.length : Nat) : ℕ∞) ≤ cap (false, true)) :
    ReflTransGen (ByteStep cap) (duo P (.send true bs k) x y) (duo P k x (y ++ bs)) := by
  have hrun := put_run cap (s := duo P (.send true bs k) x y) (p := false) rfl h
  refine (congrArg _ (Net.ext (funext fun p => ?_) (funext fun c => ?_))).mp hrun
  · cases p <;> rfl
  · obtain ⟨p, q⟩ := c
    cases p <;> cases q <;> rfl

theorem duo_get_true : ReflTransGen (ByteStep cap) (duo (.recv false bs.length kr) Q x (bs ++ y))
    (duo (kr bs) Q x y) := by
  have hrun := get_run cap (s := duo (.recv false bs.length kr) Q x (bs ++ y)) (p := true)
    rfl (show _ = bs ++ y from rfl)
  refine (congrArg _ (Net.ext (funext fun p => ?_) (funext fun c => ?_))).mp hrun
  · cases p <;> rfl
  · obtain ⟨p, q⟩ := c
    cases p <;> cases q <;> rfl

theorem duo_get_false : ReflTransGen (ByteStep cap) (duo P (.recv true bs.length kr) (bs ++ x) y)
    (duo P (kr bs) x y) := by
  have hrun := get_run cap (s := duo P (.recv true bs.length kr) (bs ++ x) y) (p := false)
    rfl (show _ = bs ++ x from rfl)
  refine (congrArg _ (Net.ext (funext fun p => ?_) (funext fun c => ?_))).mp hrun
  · cases p <;> rfl
  · obtain ⟨p, q⟩ := c
    cases p <;> cases q <;> rfl

/-- All that waits is read. -/
theorem duo_take_true : ReflTransGen (ByteStep cap) (duo (.recv false bs.length kr) Q x bs)
    (duo (kr bs) Q x []) := by
  have h := @duo_get_true _ _ cap Q kr x [] bs
  rwa [List.append_nil] at h

theorem duo_take_false : ReflTransGen (ByteStep cap) (duo P (.recv true bs.length kr) bs y)
    (duo P (kr bs) [] y) := by
  have h := @duo_get_false _ _ cap P kr [] y bs
  rwa [List.append_nil] at h

/-- The front of a message is handed over, through a channel of any size. -/
theorem duo_pass_true (hcap : 1 ≤ cap (true, false)) {cs : List β} :
    ReflTransGen (ByteStep cap) (duo (.send false (bs ++ cs) k) (.recv true bs.length kr) [] y)
      (duo (.send false cs k) (kr bs) [] y) := by
  have hrun := pass_run cap (p := true) (q := false) Bool.true_eq_false.mp hcap cs k bs kr
    (duo (.send false (bs ++ cs) k) (.recv true bs.length kr) [] y) rfl rfl rfl
  refine (congrArg _ (Net.ext (funext fun p => ?_) (funext fun c => ?_))).mp hrun
  · cases p <;> rfl
  · obtain ⟨p, q⟩ := c
    cases p <;> cases q <;> rfl

theorem duo_pass_false (hcap : 1 ≤ cap (false, true)) {cs : List β} :
    ReflTransGen (ByteStep cap) (duo (.recv false bs.length kr) (.send true (bs ++ cs) k) x [])
      (duo (kr bs) (.send true cs k) x []) := by
  have hrun := pass_run cap (p := false) (q := true) Bool.false_eq_true.mp hcap cs k bs kr
    (duo (.recv false bs.length kr) (.send true (bs ++ cs) k) x []) rfl rfl rfl
  refine (congrArg _ (Net.ext (funext fun p => ?_) (funext fun c => ?_))).mp hrun
  · cases p <;> rfl
  · obtain ⟨p, q⟩ := c
    cases p <;> cases q <;> rfl

/-- A message of which nothing is left has been written. -/
theorem duo_sent_true : ReflTransGen (ByteStep cap) (duo (.send false [] k) Q [] y) (duo k Q [] y) := by
  have h := @duo_put_true _ _ cap Q k [] y [] (by simp)
  rwa [List.append_nil] at h

theorem duo_sent_false : ReflTransGen (ByteStep cap) (duo P (.send true [] k) x []) (duo P k x []) := by
  have h := @duo_put_false _ _ cap P k x [] [] (by simp)
  rwa [List.append_nil] at h

/-- A peer that waits for a byte from one that has returned waits for ever. -/
theorem stuck_duo_true {n : Nat} {a : α} :
    Stuck (ByteStep cap) (duo (.recv false (n + 1) kr) (.ret a) x []) := by
  rintro _ ⟨p, m, P', ho, he, -⟩
  cases p with
  | false => cases ho
  | true =>
    cases ho
    cases he

theorem stuck_duo_false {n : Nat} {a : α} :
    Stuck (ByteStep cap) (duo (.ret a) (.recv true (n + 1) kr) [] y) := by
  rintro _ ⟨p, m, P', ho, he, -⟩
  cases p with
  | true => cases ho
  | false =>
    cases ho
    cases he

end FifoNet

namespace Wire

open FifoNet

/-! ## Programs -/

/-- A program on one connection.  A write or a read that fails says so. -/
inductive Io (α : Type)
  | ret (a : α)
  | write (bs : List UInt8) (k : Bool → Io α)
  | read (n : Nat) (k : Option (List UInt8) → Io α)

namespace Io

variable {α β : Type}

protected def bind : Io α → (α → Io β) → Io β
  | .ret a, f => f a
  | .write bs k, f => .write bs fun ok => (k ok).bind f
  | .read n k, f => .read n fun o => (k o).bind f

instance : Monad Io where
  pure := Io.ret
  bind := Io.bind

/-- Write a message. -/
def put (bs : List UInt8) : Io Bool := .write bs .ret

/-- Read a message of `n` bytes. -/
def get (n : Nat) : Io (Option (List UInt8)) := .read n .ret

@[simp] theorem pure_eq (a : α) : (pure a : Io α) = .ret a := rfl

@[simp] theorem ret_bind (a : α) (f : α → Io β) : (Io.ret a >>= f) = f a := rfl

@[simp] theorem write_bind (bs : List UInt8) (k : Bool → Io α) (f : α → Io β) :
    (Io.write bs k >>= f) = .write bs fun ok => k ok >>= f := rfl

@[simp] theorem read_bind (n : Nat) (k : Option (List UInt8) → Io α) (f : α → Io β) :
    (Io.read n k >>= f) = .read n fun o => k o >>= f := rfl

@[simp] theorem put_bind (bs : List UInt8) (f : Bool → Io β) : (put bs >>= f) = .write bs f := rfl

@[simp] theorem get_bind (n : Nat) (f : Option (List UInt8) → Io β) :
    (get n >>= f) = .read n f := rfl

instance : LawfulMonad Io := LawfulMonad.mk' Io
  (fun x => by
    induction x with
    | ret a => rfl
    | write bs k ih => exact congrArg (Io.write bs) (funext fun ok => ih ok)
    | read n k ih => exact congrArg (Io.read n) (funext fun o => ih o))
  (fun _ _ => rfl)
  (fun x f g => by
    induction x with
    | ret a => rfl
    | write bs k ih => exact congrArg (Io.write bs) (funext fun ok => ih ok)
    | read n k ih => exact congrArg (Io.read n) (funext fun o => ih o))

@[simp] theorem ite_bind (c : Prop) [Decidable c] (x y : Io α) (f : α → Io β) :
    (if c then x else y) >>= f = if c then x >>= f else y >>= f := by
  split <;> rfl

/-! ## Against a peer of the same kind -/

/-- The program over FIFO channels to `peer`, on which nothing fails. -/
def net {ρ : Type} (peer : ρ) : Io α → Prog ρ UInt8 α
  | .ret a => .ret a
  | .write bs k => .send peer bs ((k true).net peer)
  | .read n k => .recv peer n fun bs => (k (some bs)).net peer

@[simp] theorem net_ite {ρ : Type} (peer : ρ) (c : Prop) [Decidable c] (x y : Io α) :
    (if c then x else y).net peer = if c then x.net peer else y.net peer := by
  split <;> rfl

/-! ## Against any peer -/

end Io

/-- What can be read from a peer, and how many bytes can be written to it (`none`: all). -/
structure Line where
  input : List UInt8
  room : Option Nat
  deriving DecidableEq

namespace Line

/-- Write `n` bytes.  After a failure nothing can be written. -/
def write (c : Line) (n : Nat) : Bool × Line :=
  match c.room with
  | none => (true, c)
  | some r => if n ≤ r then (true, { c with room := some (r - n) }) else (false, { c with room := some 0 })

/-- Read `n` bytes.  After a failure nothing can be read. -/
def read (c : Line) (n : Nat) : Option (List UInt8) × Line :=
  if n ≤ c.input.length then (some (c.input.take n), { c with input := c.input.drop n })
  else (none, { c with input := [] })

/-- `n` bytes can be written. -/
def Takes (c : Line) (n : Nat) : Prop := ∀ r ∈ c.room, n ≤ r

/-- `n` bytes can be read. -/
def Has (c : Line) (n : Nat) : Prop := n ≤ c.input.length

instance (c : Line) (n : Nat) : Decidable (c.Takes n) := inferInstanceAs (Decidable (∀ r ∈ c.room, _))

instance (c : Line) (n : Nat) : Decidable (c.Has n) := inferInstanceAs (Decidable (_ ≤ _))

/-- The word behind the first `n` bytes. -/
def word (c : Line) (n : Nat) : Option UInt32 := CBytes.readLe32 (c.input.drop n)

/-- The line when `i` bytes have been read and `o` bytes have been written. -/
def pass (c : Line) (i o : Nat) : Line := ⟨c.input.drop i, c.room.map (· - o)⟩

theorem write_eq (c : Line) (n : Nat) :
    c.write n = if c.Takes n then (true, c.pass 0 n) else (false, { c with room := some 0 }) := by
  obtain ⟨input, room⟩ := c
  cases room with
  | none => simp [write, Takes, pass]
  | some r => simp [write, Takes, pass]

theorem read_eq (c : Line) (n : Nat) : c.read n =
    if c.Has n then (some (c.input.take n), c.pass n 0) else (none, { c with input := [] }) := by
  obtain ⟨input, room⟩ := c
  simp [read, Has, pass]

@[simp] theorem pass_pass (c : Line) (i o i' o' : Nat) :
    (c.pass i o).pass i' o' = c.pass (i + i') (o + o') := by
  obtain ⟨input, room⟩ := c
  cases room <;> simp [pass, Nat.sub_sub]

@[simp] theorem pass_word (c : Line) (i o n : Nat) : (c.pass i o).word n = c.word (i + n) := by
  simp [word, pass]

@[simp] theorem pass_drop (c : Line) (i o n : Nat) :
    (c.pass i o).input.drop n = c.input.drop (i + n) := by
  simp [pass]

theorem pass_takes {c : Line} {o : Nat} (h : c.Takes o) (i n : Nat) :
    (c.pass i o).Takes n ↔ c.Takes (o + n) := by
  obtain ⟨input, room⟩ := c
  cases room with
  | none => simp [Takes, pass]
  | some r =>
    have hr : o ≤ r := h r rfl
    simp only [Takes, pass, Option.map_some, Option.mem_some_iff, forall_eq']
    omega

theorem pass_has {c : Line} {i : Nat} (h : c.Has i) (o n : Nat) :
    (c.pass i o).Has n ↔ c.Has (i + n) := by
  unfold Has at *
  rw [pass, List.length_drop]
  omega

theorem readLe32_take {c : Line} {i : Nat} (h : c.Has (i + 4)) (o : Nat) :
    CBytes.readLe32 ((c.pass i o).input.take 4) = c.word i := by
  unfold Has at h
  unfold word pass
  dsimp only
  have hlen : 4 ≤ (c.input.drop i).length := by
    rw [List.length_drop]
    omega
  match hd : c.input.drop i with
  | b0 :: b1 :: b2 :: b3 :: rest => rfl
  | [] | [_] | [_, _] | [_, _, _] =>
    rw [hd] at hlen
    simp at hlen

end Line

/-- The result of a program against a peer, and what is left. -/
def Io.serve {α : Type} : Io α → Line → α × Line
  | .ret a, c => (a, c)
  | .write bs k, c => (k (c.write bs.length).1).serve (c.write bs.length).2
  | .read n k, c => (k (c.read n).1).serve (c.read n).2

namespace Io

variable {α β : Type}

theorem serve_bind (x : Io α) (f : α → Io β) (c : Line) :
    (x >>= f).serve c = (f (x.serve c).1).serve (x.serve c).2 := by
  induction x generalizing c with
  | ret a => rfl
  | write bs k ih => exact ih _ _
  | read n k ih => exact ih _ _

theorem serve_write (bs : List UInt8) (k : Bool → Io α) (c : Line) : (Io.write bs k).serve c =
    if c.Takes bs.length then (k true).serve (c.pass 0 bs.length)
    else (k false).serve { c with room := some 0 } := by
  rw [Io.serve, Line.write_eq]
  split <;> rfl

theorem serve_read (n : Nat) (k : Option (List UInt8) → Io α) (c : Line) : (Io.read n k).serve c =
    if c.Has n then (k (some (c.input.take n))).serve (c.pass n 0)
    else (k none).serve { c with input := [] } := by
  rw [Io.serve, Line.read_eq]
  split <;> rfl

/-! ## Byte by byte -/

/-- What one step does to the connection. -/
inductive Act
  | idle
  | put (b : UInt8)
  | get (b : UInt8)

/-- One step of a program.  A message moves byte by byte, and as long as it has not moved completely
    the operation can fail: the peer is gone, or it takes too long. -/
inductive Steps : Io α → Act → Io α → Prop
  | put (b : UInt8) (bs : List UInt8) (k : Bool → Io α) :
      Steps (.write (b :: bs) k) (.put b) (.write bs k)
  | sent (k : Bool → Io α) : Steps (.write [] k) .idle (k true)
  | broken (b : UInt8) (bs : List UInt8) (k : Bool → Io α) :
      Steps (.write (b :: bs) k) .idle (k false)
  | get (n : Nat) (b : UInt8) (k : Option (List UInt8) → Io α) :
      Steps (.read (n + 1) k) (.get b) (.read n fun o => k (o.map (b :: ·)))
  | received (k : Option (List UInt8) → Io α) : Steps (.read 0 k) .idle (k (some []))
  | cut (n : Nat) (k : Option (List UInt8) → Io α) : Steps (.read (n + 1) k) .idle (k none)

/-- `Says good full p past`: when `past` has been written, all that `p` writes from here on is the
    rest of `full`, and its result is good if and only if it has written all of it. -/
def Says (good : α → Prop) (full : List UInt8) : Io α → List UInt8 → Prop
  | .ret a, past => past <+: full ∧ (good a ↔ past = full)
  | .write bs k, past => past ++ bs <+: full ∧ Says good full (k true) (past ++ bs) ∧
      ∀ n < bs.length, Says good full (k false) (past ++ bs.take n)
  | .read _ k, past => past <+: full ∧ past ≠ full ∧ ∀ o, Says good full (k o) past

/-- `Hears good heard p past`: when `past` has been read and `p` gives a good result, all that it has
    read by then is `heard`. -/
def Hears (good : α → Prop) (heard : List UInt8 → Prop) : Io α → List UInt8 → Prop
  | .ret a, past => good a → heard past
  | .write _ k, past => ∀ ok, Hears good heard (k ok) past
  | .read n k, past => (∀ bs, bs.length < n → Hears good heard (k none) (past ++ bs)) ∧
      ∀ bs, bs.length = n → Hears good heard (k (some bs)) (past ++ bs)

variable {good : α → Prop} {full : List UInt8} {heard : List UInt8 → Prop} {p p' : Io α}
  {past : List UInt8}

theorem Says.isPrefix (h : Says good full p past) : past <+: full := by
  cases p with
  | ret a => exact h.1
  | write bs k => exact (List.prefix_append _ _).trans h.1
  | read n k => exact h.1

theorem Says.gaveUp {a : α} (ha : ¬good a) (hpre : past <+: full) (hne : past ≠ full) :
    Says good full (.ret a) past :=
  ⟨hpre, iff_of_false ha hne⟩

/-- A message of a program that gives up when it cannot write it. -/
theorem Says.message {bs : List UInt8} {k : Bool → Io α} {a : α} (hpre : past ++ bs <+: full)
    (hfalse : k false = .ret a) (ha : ¬good a) (htrue : Says good full (k true) (past ++ bs)) :
    Says good full (.write bs k) past := by
  refine ⟨hpre, htrue, fun n hn => ?_⟩
  have hlt : (past ++ bs.take n).length < (past ++ bs).length := by
    simp only [List.length_append, List.length_take]
    omega
  have hcut : past ++ bs.take n <+: full :=
    ((List.prefix_append_right_inj past).mpr (List.take_prefix n bs)).trans hpre
  rw [hfalse]
  refine Says.gaveUp ha hcut fun h => ?_
  have hle := hpre.length_le
  rw [h] at hlt
  omega

/-- Who has written everything will give a good result, whatever the peer does. -/
theorem Says.sure (h : Says good full p full) (l : Line) : good (p.serve l).1 := by
  induction p generalizing l with
  | ret a => exact h.2.mpr rfl
  | write bs k ih =>
    have hbs : bs = [] := by
      have hlen := h.1.length_le
      rw [List.length_append] at hlen
      exact List.length_eq_zero_iff.mp (by omega)
    subst hbs
    have htakes : l.Takes ([] : List UInt8).length := fun r _ => Nat.zero_le r
    rw [serve_write, if_pos htakes]
    exact ih true (by simpa using h.2.1) _
  | read n k ih => exact absurd rfl h.2.1

theorem Says.step {m : Act} (h : Says good full p past) (hs : Steps p m p') :
    match m with
    | .put b => Says good full p' (past ++ [b])
    | .idle | .get _ => Says good full p' past := by
  cases hs with
  | put b bs k =>
    obtain ⟨hpre, htrue, hfalse⟩ := h
    refine ⟨by simpa using hpre, by simpa using htrue, fun n hn => ?_⟩
    have hcut := hfalse (n + 1) (by simpa using hn)
    simpa using hcut
  | sent k => simpa using h.2.1
  | broken b bs k => simpa using h.2.2 0 (by simp)
  | get n b k => exact ⟨h.1, h.2.1, fun o => h.2.2 _⟩
  | received k => exact h.2.2 _
  | cut n k => exact h.2.2 _

theorem Hears.step {m : Act} (h : Hears good heard p past) (hs : Steps p m p') :
    match m with
    | .get b => Hears good heard p' (past ++ [b])
    | .idle | .put _ => Hears good heard p' past := by
  cases hs with
  | put b bs k => exact h
  | sent k => exact h true
  | broken b bs k => exact h false
  | get n b k =>
    obtain ⟨hnone, hsome⟩ := h
    refine ⟨fun bs hbs => ?_, fun bs hbs => ?_⟩
    · have hcut := hnone (b :: bs) (by simpa using hbs)
      simpa using hcut
    · have hall := hsome (b :: bs) (by simpa using hbs)
      simpa using hall
  | received k => simpa using h.2 [] rfl
  | cut n k => simpa using h.1 [] (by simp)

/-! ## What has been read -/

/-- `Reads post p past`: when `past` has been read and `p` gives the result `a`, with `bs` as all that has
    been read by then, `post a bs` holds. -/
def Reads (post : α → List UInt8 → Prop) : Io α → List UInt8 → Prop
  | .ret a, past => post a past
  | .write _ k, past => ∀ ok, Reads post (k ok) past
  | .read n k, past => (∀ bs, bs.length < n → Reads post (k none) (past ++ bs)) ∧
      ∀ bs, bs.length = n → Reads post (k (some bs)) (past ++ bs)

variable {post : α → List UInt8 → Prop}

/-- One program after the other. -/
theorem Reads.bind {f : α → Io β} {post' : β → List UInt8 → Prop} (h : Reads post p past)
    (hf : ∀ a bs, post a bs → Reads post' (f a) bs) : Reads post' (p >>= f) past := by
  induction p generalizing past with
  | ret a => exact hf a past h
  | write bs k ih => exact fun ok => ih ok (h ok)
  | read n k ih => exact ⟨fun bs hbs => ih none (h.1 bs hbs), fun bs hbs => ih (some bs) (h.2 bs hbs)⟩

theorem Reads.mono {post' : α → List UInt8 → Prop} (h : Reads post p past)
    (hpost : ∀ a bs, post a bs → post' a bs) : Reads post' p past := by
  induction p generalizing past with
  | ret a => exact hpost a past h
  | write bs k ih => exact fun ok => ih ok (h ok)
  | read n k ih => exact ⟨fun bs hbs => ih none (h.1 bs hbs), fun bs hbs => ih (some bs) (h.2 bs hbs)⟩

/-- What a program has read of a line is the front of the line. -/
theorem Reads.serve (h : Reads post p past) (l : Line) :
    ∃ bs, l.input = bs ++ (p.serve l).2.input ∧ post (p.serve l).1 (past ++ bs) := by
  induction p generalizing past l with
  | ret a => exact ⟨[], rfl, (List.append_nil past).symm ▸ h⟩
  | write bs k ih =>
    rw [serve_write]
    split
    · exact ih true (h true) (l.pass 0 bs.length)
    · exact ih false (h false) { l with room := some 0 }
  | read n k ih =>
    obtain ⟨hcut, hall⟩ := h
    rw [serve_read]
    split
    · next hhas =>
      have hlen : (l.input.take n).length = n := by
        rw [List.length_take, min_eq_left hhas]
      obtain ⟨bs, hbs, hpost⟩ := ih _ (hall _ hlen) (l.pass n 0)
      have hsplit : l.input = l.input.take n ++ l.input.drop n := (List.take_append_drop n _).symm
      refine ⟨l.input.take n ++ bs, ?_, by rwa [← List.append_assoc]⟩
      rw [List.append_assoc, ← hbs]
      exact hsplit
    · next hhas =>
      -- All that is left has been read, and it was not enough.
      have hshort : l.input.length < n := Nat.lt_of_not_le hhas
      obtain ⟨bs, hbs, hpost⟩ := ih _ (hcut _ hshort) { l with input := [] }
      obtain ⟨rfl, hrest⟩ := List.append_eq_nil_iff.mp hbs.symm
      refine ⟨l.input, ?_, by rwa [List.append_nil] at hpost⟩
      rw [hrest, List.append_nil]

end Io

end Wire
