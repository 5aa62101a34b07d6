/-
  The target of the engine: the threads of the resource-manager launcher, their memory, and what the
  kernel and the program do between two calls of the engine.

  The program text is a constant, `text`; a byte of memory at a text address differs from it only
  where somebody has written a trap.  For each thread the kernel's program counter `pc` stands next
  to a ghost, `next`: the instruction that the thread would execute next if nobody traced it.  `next`
  moves exactly when the original instruction at `next` is executed (or a signal frame is entered or
  left), and a trap that does not belong to the text leaves it alone.  So a thread that runs with
  `pc = next` does what the untraced thread does; one that runs with another `pc` has skipped an
  instruction, repeats one or is inside one.

  `Target.step` is the step function of program and kernel, a choice of the environment for each
  step.  A thread that has been detached is not followed any further: it stays as it was resumed.

  Of the kernel one thing is assumed that newer ones do not do: the first call of `waitpid` of the engine
  reports processes and the second one, with `__WCLONE`, the clones (`Entity`).  The engine takes it for
  granted as well: only what the second call returns is looked up in its thread list.
-/
import LaunchMON.Lib.Bytes
import Mathlib.Logic.Function.Basic

namespace LaunchMON.Engine

/-! ## Memory -/

/-- `T_VA`. -/
abbrev VA := BitVec 64

/-- `T_WT` and `T_IT`: a 64-bit word, as its bytes in memory order. -/
abbrev Word := Fin 8 → UInt8

/-- A memory; `none` where nothing is mapped. -/
abbrev Mem := VA → Option UInt8

/-- The address `i` bytes behind `a`. -/
def off (a : VA) (i : Nat) : VA := a + BitVec.ofNat 64 i

/-- The eight bytes from `a` on are mapped. -/
def Mapped (m : Mem) (a : VA) : Prop := ∀ i : Fin 8, (m (off a i)).isSome

instance (m : Mem) (a : VA) : Decidable (Mapped m a) := inferInstanceAs (Decidable (∀ _, _))

/-- PTRACE_PEEKDATA. -/
def peek (m : Mem) (a : VA) : Option Word :=
  if Mapped m a then some fun i => (m (off a i)).getD 0 else none

/-- The memory with the bytes `bs` from `a` on. -/
def overwrite (m : Mem) (a : VA) (bs : List UInt8) : Mem := fun x =>
  bs[(x - a).toNat]? <|> m x

/-- The loop of `tracer_write`: a word, or what is left of the buffer merged into a word, is written
    at a time.  The memory stays as it is at the first word that is not mapped. -/
def pokeLoop (m : Mem) (a : VA) : Nat → List UInt8 → Mem × Bool
  | 0, _ => (m, true)
  | k + 1, bs =>
    if Mapped m a then pokeLoop (overwrite m a (bs.take 8)) (off a 8) k (bs.drop 8) else (m, false)

/-- The number of words that `n` bytes touch. -/
def words (n : Nat) : Nat := (n + 7) / 8

/-- What `tracer_read` fetches: PTRACE_PEEKDATA has to succeed for each word it touches. -/
def peekBytes (m : Mem) (a : VA) (n : Nat) : Option (List UInt8) :=
  if ∀ k < words n, Mapped m (off a (8 * k)) then
    some ((List.range n).map fun i => (m (off a i)).getD 0)
  else none

/-- The loop of `tracer_read_string`: it ends with the first word that holds a zero byte. -/
def peekString (m : Mem) (a : VA) : Nat → Option (List UInt8)
  | 0 => some []
  | k + 1 => do
    let r ← peek m a
    if ∃ i, r i = 0 then some (List.ofFn r)
    else (peekString m (off a 8) k).map (List.ofFn r ++ ·)

@[simp] theorem off_zero (a : VA) : off a 0 = a := BitVec.add_zero a

theorem off_off (a : VA) (i j : Nat) : off (off a i) j = off a (i + j) := by
  unfold off
  rw [BitVec.add_assoc, ← BitVec.ofNat_add]

theorem off_sub (a : VA) {i : Nat} (h : i < 2 ^ 64) : (off a i - a).toNat = i := by
  unfold off
  rw [BitVec.add_comm, BitVec.add_sub_cancel, BitVec.toNat_ofNat, Nat.mod_eq_of_lt h]

theorem off_sub_toNat (a x : VA) : off a (x - a).toNat = x := by
  unfold off
  rw [BitVec.ofNat_toNat, BitVec.setWidth_eq, BitVec.add_comm, BitVec.sub_add_cancel]

theorem overwrite_inside (m : Mem) (a : VA) (bs : List UInt8) {i : Nat} (h : i < bs.length)
    (hlen : bs.length ≤ 2 ^ 64) : overwrite m a bs (off a i) = some bs[i] := by
  unfold overwrite
  rw [off_sub a (Nat.lt_of_lt_of_le h hlen), List.getElem?_eq_getElem h]
  rfl

/-- Bytes outside of the buffer stay. -/
theorem overwrite_outside {m : Mem} {a x : VA} {bs : List UInt8} (h : ∀ i < bs.length, x ≠ off a i) :
    overwrite m a bs x = m x := by
  unfold overwrite
  have hlen : bs.length ≤ (x - a).toNat := by
    by_contra hlt
    exact h _ (Nat.lt_of_not_le hlt) (off_sub_toNat a x).symm
  rw [List.getElem?_eq_none hlen]
  rfl

theorem mapped_overwrite {m : Mem} {a b : VA} {bs : List UInt8} (h : Mapped m b) :
    Mapped (overwrite m a bs) b := by
  intro i
  unfold overwrite
  cases bs[(off b i - a).toNat]? with
  | none => exact h i
  | some v => rfl

theorem pokeLoop_outside {m : Mem} {a x : VA} {k : Nat} {bs : List UInt8}
    (h : ∀ i < bs.length, x ≠ off a i) : (pokeLoop m a k bs).1 x = m x := by
  induction k generalizing m a bs with
  | zero => rfl
  | succ k ih =>
    unfold pokeLoop
    split
    · rw [ih]
      · refine overwrite_outside fun i hi => h i ?_
        rw [List.length_take] at hi
        omega
      · intro i hi
        rw [List.length_drop] at hi
        rw [off_off]
        exact h (8 + i) (by omega)
    · rfl

theorem pokeLoop_mapped {c : VA} (k : Nat) : ∀ (m : Mem) (a : VA) (bs : List UInt8),
    Mapped m c → Mapped (pokeLoop m a k bs).1 c := by
  induction k with
  | zero => exact fun m a bs h => h
  | succ k ih =>
    intro m a bs h
    unfold pokeLoop
    split
    · exact ih _ _ _ (mapped_overwrite h)
    · exact h

/-- The words that a write touches are mapped, so it succeeds. -/
theorem pokeLoop_ok : ∀ (k : Nat) (m : Mem) (a : VA) (bs : List UInt8),
    (∀ i < k, Mapped m (off a (8 * i))) → (pokeLoop m a k bs).2 = true := by
  intro k
  induction k with
  | zero => exact fun m a bs _ => rfl
  | succ k ih =>
    intro m a bs h
    have h₀ : Mapped m a := by
      have := h 0 (Nat.succ_pos k)
      rwa [Nat.mul_zero, off_zero] at this
    unfold pokeLoop
    rw [if_pos h₀]
    refine ih _ _ _ fun i hi => ?_
    rw [off_off, show 8 + 8 * i = 8 * (i + 1) by omega]
    exact mapped_overwrite (h (i + 1) (Nat.succ_lt_succ hi))

/-- A word is written if it is mapped. -/
theorem pokeLoop_word (m : Mem) (a : VA) (r : Word) :
    pokeLoop m a (words (List.ofFn r).length) (List.ofFn r) =
      if Mapped m a then (overwrite m a (List.ofFn r), true) else (m, false) := by
  rw [List.length_ofFn]
  show (if Mapped m a then _ else _) = _
  split
  · rw [List.take_of_length_le (by rw [List.length_ofFn])]
    rfl
  · rfl

theorem peek_eq_some {m : Mem} {a : VA} {r : Word} (h : peek m a = some r) :
    Mapped m a ∧ ∀ i : Fin 8, m (off a i) = some (r i) := by
  unfold peek at h
  split at h
  · next hm =>
    cases h
    refine ⟨hm, fun i => ?_⟩
    obtain ⟨v, hv⟩ := Option.isSome_iff_exists.mp (hm i)
    dsimp only
    rw [hv]
    rfl
  · cases h

/-! ## Threads -/

abbrev LwpId := Nat

/-- SIGTRAP, SIGCONT and SIGSTOP. -/
def sigtrap : Nat := 5
def sigcont : Nat := 18
def sigstop : Nat := 19

/-- PTRACE_EVENT_FORK, PTRACE_EVENT_VFORK and PTRACE_EVENT_CLONE. -/
def eventFork : Nat := 1
def eventVfork : Nat := 2
def eventClone : Nat := 3

/-- `eventing_entity_e`: which of the two calls of `waitpid` reports the thread.  Children that
    signal SIGCHLD are processes, all others are clones, and of these the kernel tells only the call
    with `__WCLONE`.  (A Linux from 4.7 on takes `__WALL` for granted when a tracer waits.) -/
inductive Entity
  | process
  | thread
  deriving DecidableEq, Repr

inductive RunState
  | running
  | stepping
  | stopped
  | gone
  deriving DecidableEq, Repr

/-- A status that waits for `waitpid`; `event` are the upper bits of a stop. -/
inductive Report
  | stopped (signum event : Nat)
  | exited
  | terminated
  deriving DecidableEq, Repr

/-- A thread as the kernel knows it. -/
structure Lwp where
  entity : Entity
  /-- its address space -/
  mm : Nat
  pc : VA
  sp : VA
  /-- ghost: the next instruction of the untraced thread -/
  next : VA
  run : RunState
  traced : Bool
  /-- the trace options are set -/
  opts : Bool
  report : Option Report
  /-- what PTRACE_GETEVENTMSG returns -/
  eventMsg : LwpId
  /-- a SIGSTOP has been sent and not yet been taken -/
  stopRequested : Bool
  /-- ghost: where the thread was told to step from, until it is continued -/
  stepFrom : Option VA
  /-- ghost: the signals that the tracer has delivered -/
  delivered : List Nat
  deriving DecidableEq

/-- The thread can execute instructions. -/
def Lwp.Runs (l : Lwp) : Prop := l.run = .running ∨ l.run = .stepping

instance (l : Lwp) : Decidable l.Runs := inferInstanceAs (Decidable (_ ∨ _))

/-- PTRACE requests are possible. -/
def Lwp.Ptraceable (l : Lwp) : Prop := l.traced = true ∧ l.run = .stopped

instance (l : Lwp) : Decidable l.Ptraceable := inferInstanceAs (Decidable (_ ∧ _))

/-- The thread stops with a report. -/
def Lwp.stop (l : Lwp) (signum event : Nat) : Lwp :=
  { l with run := .stopped, report := some (.stopped signum event) }

/-- The thread is set going again. -/
def Lwp.resume (l : Lwp) : Lwp := { l with run := .running, report := none, stepFrom := none }

/-- Libraries in the link map, as `check_dependent_SOs` tells them apart by their names. -/
inductive SoName
  | libpthread
  | libc
  | launcherSo
  | other
  deriving DecidableEq, Repr

structure Target where
  lwps : LwpId → Option Lwp
  mem : Nat → Mem
  /-- `none` if `r_debug` cannot be read; an entry is `none` if it cannot be read -/
  linkMap : Option (List (Option SoName))

def Target.setLwp (T : Target) (t : LwpId) (l : Lwp) : Target :=
  { T with lwps := Function.update T.lwps t (some l) }

def Target.setMem (T : Target) (mm : Nat) (m : Mem) : Target :=
  { T with mem := Function.update T.mem mm m }

@[simp] theorem Target.setLwp_self (T : Target) (t : LwpId) (l : Lwp) :
    (T.setLwp t l).lwps t = some l := Function.update_self ..

theorem Target.setLwp_ne (T : Target) {t u : LwpId} (h : u ≠ t) (l : Lwp) :
    (T.setLwp t l).lwps u = T.lwps u := Function.update_of_ne h ..

@[simp] theorem Target.setLwp_mem (T : Target) (t : LwpId) (l : Lwp) :
    (T.setLwp t l).mem = T.mem := rfl

@[simp] theorem Target.setLwp_linkMap (T : Target) (t : LwpId) (l : Lwp) :
    (T.setLwp t l).linkMap = T.linkMap := rfl

@[simp] theorem Target.setMem_lwps (T : Target) (mm : Nat) (m : Mem) :
    (T.setMem mm m).lwps = T.lwps := rfl

@[simp] theorem Target.setMem_self (T : Target) (mm : Nat) (m : Mem) :
    (T.setMem mm m).mem mm = m := Function.update_self ..

theorem Target.setMem_ne (T : Target) {mm mm' : Nat} (h : mm' ≠ mm) (m : Mem) :
    (T.setMem mm m).mem mm' = T.mem mm' := Function.update_of_ne h ..

@[simp] theorem Target.setMem_linkMap (T : Target) (mm : Nat) (m : Mem) :
    (T.setMem mm m).linkMap = T.linkMap := rfl

/-! ## Steps of program and kernel -/

/-- The instruction at `a` is one of the program that is not a breakpoint instruction itself. -/
def Proper (text : Mem) (a : VA) : Prop := text a ≠ none ∧ text a ≠ some 0xcc

instance (text : Mem) (a : VA) : Decidable (Proper text a) := inferInstanceAs (Decidable (_ ∧ _))

/-- The thread runs into a breakpoint instruction.  The PC is behind it afterwards; the program has
    advanced only if the instruction is its own. -/
def Lwp.trap (text : Mem) (l : Lwp) : Lwp :=
  { l.stop sigtrap 0 with
    pc := off l.pc 1
    next := if Proper text l.pc then l.next else if l.pc = l.next then off l.pc 1 else l.next }

/-- The thread executes the instruction at its PC and is at `succ` afterwards. -/
def Lwp.advance (l : Lwp) (succ sp : VA) : Lwp :=
  { l with pc := succ, sp := sp, next := if l.pc = l.next then succ else l.next }

/-- A choice of the environment. -/
inductive EnvAct
  /-- `t` executes one instruction, after which it is at `succ` -/
  | exec (t : LwpId) (succ sp : VA)
  /-- a signal frame is entered or left -/
  | jump (t : LwpId) (dest sp : VA)
  /-- a signal is about to be delivered to `t` -/
  | signal (t : LwpId) (sig : Nat)
  | clone (t new : LwpId) (succ : VA)
  /-- the child gets a copy of the memory, under the name `mm` -/
  | fork (t child : LwpId) (mm : Nat) (succ : VA)
  /-- the child shares the memory -/
  | vfork (t child : LwpId) (succ : VA)
  | exit (t : LwpId) (killed : Bool)
  /-- the program writes a byte outside of the text, or the loader maps text or anything else -/
  | store (mm : Nat) (a : VA) (v : Option UInt8)
  | relink (linkMap : Option (List (Option SoName)))
  deriving DecidableEq

/-- A thread that has just been created: it stops before its first instruction. -/
def Lwp.spawn (l : Lwp) (entity : Entity) (mm : Nat) (succ : VA) : Lwp :=
  { entity := entity
    mm := mm
    pc := succ
    sp := l.sp
    next := succ
    run := .stopped
    traced := true
    opts := l.opts
    report := some (.stopped sigstop 0)
    eventMsg := 0
    stopRequested := false
    stepFrom := none
    delivered := [] }

/-- The thread leaves the system call that created `new`. -/
def Lwp.reportChild (l : Lwp) (succ : VA) (event : Nat) (new : LwpId) : Lwp :=
  { (l.advance succ l.sp).stop sigtrap event with eventMsg := new }

namespace Target

/-- `t` creates the thread `new`, which is traced from its start if the options of `t` say so. -/
def create (T : Target) (t new : LwpId) (l : Lwp) (entity : Entity) (mm : Nat) (succ : VA)
    (event : Nat) : Target :=
  if l.opts then
    (T.setLwp new (l.spawn entity mm succ)).setLwp t (l.reportChild succ event new)
  else T.setLwp t (l.advance succ l.sp)

def step (text : Mem) (T : Target) : EnvAct → Option Target
  | .exec t succ sp => do
    let l ← T.lwps t
    guard (l.traced = true)
    guard l.Runs
    let b ← T.mem l.mm l.pc
    if b = 0xcc then some (T.setLwp t (l.trap text))
    else if l.run = .stepping then some (T.setLwp t ((l.advance succ sp).stop sigtrap 0))
    else some (T.setLwp t (l.advance succ sp))
  | .jump t dest sp => do
    let l ← T.lwps t
    guard (l.traced = true)
    guard (l.run = .running)
    some (T.setLwp t (l.advance dest sp))
  | .signal t sig => do
    let l ← T.lwps t
    guard (l.traced = true)
    guard l.Runs
    some (T.setLwp t
      { l.stop sig 0 with stopRequested := if sig = sigstop then false else l.stopRequested })
  | .clone t new succ => do
    let l ← T.lwps t
    guard (l.traced = true)
    guard (l.run = .running)
    guard (T.lwps new = none)
    some (T.create t new l .thread l.mm succ eventClone)
  | .fork t child mm succ => do
    let l ← T.lwps t
    guard (l.traced = true)
    guard (l.run = .running)
    guard (T.lwps child = none)
    guard (mm ≠ l.mm)
    some ((T.setMem mm (T.mem l.mm)).create t child l .process mm succ eventFork)
  | .vfork t child succ => do
    let l ← T.lwps t
    guard (l.traced = true)
    guard (l.run = .running)
    guard (T.lwps child = none)
    some (T.create t child l .process l.mm succ eventVfork)
  | .exit t killed => do
    let l ← T.lwps t
    guard (l.traced = true)
    guard (l.run ≠ .gone)
    some (T.setLwp t
      { l with run := .gone, report := some (if killed then .terminated else .exited) })
  | .store mm a v => do
    guard (text a = none ∨ T.mem mm a = none ∧ v = text a)
    some (T.setMem mm (Function.update (T.mem mm) a v))
  | .relink linkMap => some { T with linkMap := linkMap }

end Target

/-! ## What a step of program and kernel is -/

/-- `Target.step`, by the action and by what it meets. -/
inductive Moved (text : Mem) (T : Target) : EnvAct → Target → Prop
  /-- a breakpoint instruction -/
  | trap {t : LwpId} {l : Lwp} {succ sp : VA} (hl : T.lwps t = some l) (htr : l.traced = true)
      (hr : l.Runs) (hb : T.mem l.mm l.pc = some 0xcc) :
      Moved text T (.exec t succ sp) (T.setLwp t (l.trap text))
  /-- the instruction that the thread was told to step over -/
  | stepped {t : LwpId} {l : Lwp} {b : UInt8} {succ sp : VA} (hl : T.lwps t = some l)
      (htr : l.traced = true) (hr : l.run = .stepping) (hb : T.mem l.mm l.pc = some b)
      (hne : b ≠ 0xcc) : Moved text T (.exec t succ sp)
        (T.setLwp t ((l.advance succ sp).stop sigtrap 0))
  | exec {t : LwpId} {l : Lwp} {b : UInt8} {succ sp : VA} (hl : T.lwps t = some l)
      (htr : l.traced = true) (hr : l.run = .running) (hb : T.mem l.mm l.pc = some b)
      (hne : b ≠ 0xcc) : Moved text T (.exec t succ sp) (T.setLwp t (l.advance succ sp))
  | jump {t : LwpId} {l : Lwp} {dest sp : VA} (hl : T.lwps t = some l) (htr : l.traced = true)
      (hr : l.run = .running) : Moved text T (.jump t dest sp) (T.setLwp t (l.advance dest sp))
  | signal {t : LwpId} {l : Lwp} {sig : Nat} (hl : T.lwps t = some l) (htr : l.traced = true)
      (hr : l.Runs) : Moved text T (.signal t sig) (T.setLwp t { l.stop sig 0 with
        stopRequested := if sig = sigstop then false else l.stopRequested })
  | clone {t new : LwpId} {l : Lwp} {succ : VA} (hl : T.lwps t = some l) (htr : l.traced = true)
      (hr : l.run = .running) (hnew : T.lwps new = none) : Moved text T (.clone t new succ)
        (T.create t new l .thread l.mm succ eventClone)
  | fork {t child : LwpId} {l : Lwp} {mm : Nat} {succ : VA} (hl : T.lwps t = some l)
      (htr : l.traced = true) (hr : l.run = .running) (hnew : T.lwps child = none)
      (hmm : mm ≠ l.mm) : Moved text T (.fork t child mm succ)
        ((T.setMem mm (T.mem l.mm)).create t child l .process mm succ eventFork)
  | vfork {t child : LwpId} {l : Lwp} {succ : VA} (hl : T.lwps t = some l) (htr : l.traced = true)
      (hr : l.run = .running) (hnew : T.lwps child = none) : Moved text T (.vfork t child succ)
        (T.create t child l .process l.mm succ eventVfork)
  | exit {t : LwpId} {l : Lwp} {killed : Bool} (hl : T.lwps t = some l) (htr : l.traced = true)
      (hr : l.run ≠ .gone) : Moved text T (.exit t killed) (T.setLwp t
        { l with run := .gone, report := some (if killed then .terminated else .exited) })
  | store {mm : Nat} {a : VA} {v : Option UInt8}
      (h : text a = none ∨ T.mem mm a = none ∧ v = text a) : Moved text T (.store mm a v)
        (T.setMem mm (Function.update (T.mem mm) a v))
  | relink {m : Option (List (Option SoName))} :
      Moved text T (.relink m) { T with linkMap := m }

theorem guard_bind_eq_some {α : Type} {p : Prop} [Decidable p] {x : Option α} {a : α} :
    ((guard p : Option Unit) >>= fun _ => x) = some a ↔ p ∧ x = some a := by
  by_cases h : p <;> simp [h, guard, failure]

theorem Target.step_moved {text : Mem} {T T' : Target} {a : EnvAct}
    (h : T.step text a = some T') : Moved text T a T' := by
  cases a with
  | exec t succ sp =>
    obtain ⟨l, hl, h⟩ := Option.bind_eq_some_iff.mp h
    obtain ⟨htr, h⟩ := guard_bind_eq_some.mp h
    obtain ⟨hr, h⟩ := guard_bind_eq_some.mp h
    obtain ⟨b, hb, h⟩ := Option.bind_eq_some_iff.mp h
    by_cases hcc : b = 0xcc
    · rw [if_pos hcc] at h
      cases h
      subst hcc
      exact .trap hl htr hr hb
    · rw [if_neg hcc] at h
      by_cases hs : l.run = .stepping
      · rw [if_pos hs] at h
        cases h
        exact .stepped hl htr hs hb hcc
      · rw [if_neg hs] at h
        cases h
        exact .exec hl htr (hr.resolve_right hs) hb hcc
  | jump t dest sp =>
    obtain ⟨l, hl, h⟩ := Option.bind_eq_some_iff.mp h
    obtain ⟨htr, h⟩ := guard_bind_eq_some.mp h
    obtain ⟨hr, h⟩ := guard_bind_eq_some.mp h
    cases h
    exact .jump hl htr hr
  | signal t sig =>
    obtain ⟨l, hl, h⟩ := Option.bind_eq_some_iff.mp h
    obtain ⟨htr, h⟩ := guard_bind_eq_some.mp h
    obtain ⟨hr, h⟩ := guard_bind_eq_some.mp h
    cases h
    exact .signal hl htr hr
  | clone t new succ =>
    obtain ⟨l, hl, h⟩ := Option.bind_eq_some_iff.mp h
    obtain ⟨htr, h⟩ := guard_bind_eq_some.mp h
    obtain ⟨hr, h⟩ := guard_bind_eq_some.mp h
    obtain ⟨hnew, h⟩ := guard_bind_eq_some.mp h
    cases h
    exact .clone hl htr hr hnew
  | fork t child mm succ =>
    obtain ⟨l, hl, h⟩ := Option.bind_eq_some_iff.mp h
    obtain ⟨htr, h⟩ := guard_bind_eq_some.mp h
    obtain ⟨hr, h⟩ := guard_bind_eq_some.mp h
    obtain ⟨hnew, h⟩ := guard_bind_eq_some.mp h
    obtain ⟨hmm, h⟩ := guard_bind_eq_some.mp h
    cases h
    exact .fork hl htr hr hnew hmm
  | vfork t child succ =>
    obtain ⟨l, hl, h⟩ := Option.bind_eq_some_iff.mp h
    obtain ⟨htr, h⟩ := guard_bind_eq_some.mp h
    obtain ⟨hr, h⟩ := guard_bind_eq_some.mp h
    obtain ⟨hnew, h⟩ := guard_bind_eq_some.mp h
    cases h
    exact .vfork hl htr hr hnew
  | exit t killed =>
    obtain ⟨l, hl, h⟩ := Option.bind_eq_some_iff.mp h
    obtain ⟨htr, h⟩ := guard_bind_eq_some.mp h
    obtain ⟨hr, h⟩ := guard_bind_eq_some.mp h
    cases h
    exact .exit hl htr hr
  | store mm a v =>
    obtain ⟨hstore, h⟩ := guard_bind_eq_some.mp h
    cases h
    exact .store hstore
  | relink linkMap =>
    cases h
    exact .relink

/-- What a step makes of a thread that is there. -/
structure Lwp.Becomes (l l' : Lwp) : Prop where
  entity : l'.entity = l.entity
  mm : l'.mm = l.mm
  traced : l.traced = true
  runs : l'.Runs → l.Runs
  stops (sig ev : Nat) : l'.report = some (.stopped sig ev) →
    l'.run = .stopped ∨ l'.run = l.run ∧ l'.report = l.report

theorem Target.setLwp_eq_some {T : Target} {t u : LwpId} {l l' : Lwp}
    (h : (T.setLwp t l).lwps u = some l') : u = t ∧ l' = l ∨ u ≠ t ∧ T.lwps u = some l' := by
  by_cases hu : u = t
  · subst hu
    rw [Target.setLwp_self] at h
    exact Or.inl ⟨rfl, (Option.some.inj h).symm⟩
  · rw [Target.setLwp_ne _ hu] at h
    exact Or.inr ⟨hu, h⟩

theorem Lwp.becomes_stopped {l l' : Lwp} (hent : l'.entity = l.entity) (hmm : l'.mm = l.mm)
    (htr : l.traced = true) (hs : l'.run = .stopped) : l.Becomes l' := by
  refine ⟨hent, hmm, htr, fun h => ?_, fun _ _ _ => Or.inl hs⟩
  rcases h with h | h <;> rw [hs] at h <;> cases h

theorem Lwp.becomes_advance (l : Lwp) (succ sp : VA) (htr : l.traced = true) :
    l.Becomes (l.advance succ sp) := ⟨rfl, rfl, htr, id, fun _ _ _ => Or.inr ⟨rfl, rfl⟩⟩

/-- A thread that `create` leaves is as before, or the creating thread, or the new one. -/
theorem Target.create_lwps {T : Target} {t new u : LwpId} {l l' : Lwp} {entity : Entity} {mm : Nat}
    {succ : VA} {event : Nat} (hl : T.lwps t = some l) (htr : l.traced = true)
    (h : (T.create t new l entity mm succ event).lwps u = some l') :
    T.lwps u = some l' ∨ (∃ l, T.lwps u = some l ∧ l.Becomes l') ∨
      u = new ∧ l' = l.spawn entity mm succ := by
  unfold Target.create at h
  split at h
  · rcases Target.setLwp_eq_some h with ⟨rfl, rfl⟩ | ⟨-, h⟩
    · exact Or.inr (Or.inl ⟨l, hl, Lwp.becomes_stopped rfl rfl htr rfl⟩)
    · rcases Target.setLwp_eq_some h with h | ⟨-, h⟩
      · exact Or.inr (Or.inr h)
      · exact Or.inl h
  · rcases Target.setLwp_eq_some h with ⟨rfl, rfl⟩ | ⟨-, h⟩
    · exact Or.inr (Or.inl ⟨l, hl, l.becomes_advance succ l.sp htr⟩)
    · exact Or.inl h

/-- **Threads after a step**: as before, or the one that moved, or a new one. -/
theorem Moved.lwps {text : Mem} {T T' : Target} {a : EnvAct} (h : Moved text T a T') {u : LwpId}
    {l' : Lwp} (hu : T'.lwps u = some l') :
    T.lwps u = some l' ∨ (∃ l, T.lwps u = some l ∧ l.Becomes l') ∨
      (T.lwps u = none ∧ ∃ t l entity mm succ, T.lwps t = some l ∧ l.traced = true ∧
        l.run = .running ∧ (entity = .thread → mm = l.mm) ∧ l' = l.spawn entity mm succ) := by
  have hset : ∀ {t l l₁} {P : Prop}, T.lwps t = some l → (T.setLwp t l₁).lwps u = some l' →
      l.Becomes l₁ → T.lwps u = some l' ∨ (∃ l, T.lwps u = some l ∧ l.Becomes l') ∨ P := by
    intro t l l₁ P hl h hb
    rcases Target.setLwp_eq_some h with ⟨rfl, rfl⟩ | ⟨-, h⟩
    · exact Or.inr (Or.inl ⟨l, hl, hb⟩)
    · exact Or.inl h
  cases h with
  | trap hl htr hr hb => exact hset hl hu (Lwp.becomes_stopped rfl rfl htr rfl)
  | stepped hl htr hr hb hne => exact hset hl hu (Lwp.becomes_stopped rfl rfl htr rfl)
  | exec hl htr hr hb hne => exact hset hl hu (Lwp.becomes_advance _ _ _ htr)
  | jump hl htr hr => exact hset hl hu (Lwp.becomes_advance _ _ _ htr)
  | signal hl htr hr => exact hset hl hu (Lwp.becomes_stopped rfl rfl htr rfl)
  | clone hl htr hr hnew =>
    rcases Target.create_lwps hl htr hu with h | h | ⟨rfl, h⟩
    · exact Or.inl h
    · exact Or.inr (Or.inl h)
    · exact Or.inr (Or.inr ⟨hnew, _, _, .thread, _, _, hl, htr, hr, fun _ => rfl, h⟩)
  | @fork t child l mm succ hl htr hr hnew hmm =>
    have hl' : (T.setMem mm (T.mem l.mm)).lwps t = some l := hl
    rcases Target.create_lwps hl' htr hu with h | h | ⟨rfl, h⟩
    · exact Or.inl h
    · exact Or.inr (Or.inl h)
    · exact Or.inr (Or.inr ⟨hnew, _, _, .process, _, _, hl, htr, hr, nofun, h⟩)
  | vfork hl htr hr hnew =>
    rcases Target.create_lwps hl htr hu with h | h | ⟨rfl, h⟩
    · exact Or.inl h
    · exact Or.inr (Or.inl h)
    · exact Or.inr (Or.inr ⟨hnew, _, _, .process, _, _, hl, htr, hr, nofun, h⟩)
  | exit hl htr hr =>
    refine hset hl hu ⟨rfl, rfl, htr, fun h => ?_, fun sig ev h => ?_⟩
    · rcases h with h | h <;> cases h
    · dsimp only at h
      split at h <;> cases h
  | store h => exact Or.inl hu
  | relink => exact Or.inl hu

theorem Target.setLwp_keeps {T : Target} {t u : LwpId} {l l₁ lu : Lwp} (hu : T.lwps u = some lu)
    (hl : T.lwps t = some l) (hent : l₁.entity = l.entity) :
    ∃ l', (T.setLwp t l₁).lwps u = some l' ∧ l'.entity = lu.entity := by
  by_cases h : u = t
  · subst h
    rw [hl] at hu
    cases hu
    exact ⟨l₁, Target.setLwp_self .., hent⟩
  · exact ⟨lu, by rw [Target.setLwp_ne _ h, hu], rfl⟩

theorem Target.create_keeps {T : Target} {t new u : LwpId} {l lu : Lwp} {entity : Entity} {mm : Nat}
    {succ : VA} {event : Nat} (hu : T.lwps u = some lu) (hl : T.lwps t = some l)
    (hnew : T.lwps new = none) :
    ∃ l', (T.create t new l entity mm succ event).lwps u = some l' ∧ l'.entity = lu.entity := by
  have hne : ∀ {u' lu'}, T.lwps u' = some lu' → u' ≠ new := by
    rintro u' lu' hu' rfl
    rw [hnew] at hu'
    cases hu'
  unfold Target.create
  split
  · refine Target.setLwp_keeps (l := l) ?_ ?_ rfl
    · rw [Target.setLwp_ne _ (hne hu), hu]
    · rw [Target.setLwp_ne _ (hne hl), hl]
  · exact Target.setLwp_keeps hu hl rfl

/-- No step removes a thread or changes what it is. -/
theorem Moved.keeps {text : Mem} {T T' : Target} {a : EnvAct} (h : Moved text T a T') {u : LwpId}
    {l : Lwp} (hu : T.lwps u = some l) : ∃ l', T'.lwps u = some l' ∧ l'.entity = l.entity := by
  cases h with
  | trap hl htr hr hb => exact Target.setLwp_keeps hu hl rfl
  | stepped hl htr hr hb hne => exact Target.setLwp_keeps hu hl rfl
  | exec hl htr hr hb hne => exact Target.setLwp_keeps hu hl rfl
  | jump hl htr hr => exact Target.setLwp_keeps hu hl rfl
  | signal hl htr hr => exact Target.setLwp_keeps hu hl rfl
  | clone hl htr hr hnew => exact Target.create_keeps hu hl hnew
  | @fork t child l₁ mm succ hl htr hr hnew hmm =>
    exact @Target.create_keeps (T.setMem mm (T.mem l₁.mm)) _ _ _ _ _ _ _ _ _ hu hl hnew
  | vfork hl htr hr hnew => exact Target.create_keeps hu hl hnew
  | exit hl htr hr => exact Target.setLwp_keeps hu hl rfl
  | store h => exact ⟨l, hu, rfl⟩
  | relink => exact ⟨l, hu, rfl⟩

end LaunchMON.Engine
