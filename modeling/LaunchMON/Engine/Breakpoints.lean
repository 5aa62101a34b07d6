/-
  Breakpoints of any port, direct or through one level of indirection: `breakpoint_base_t` and the
  calls `enable_breakpoint` and `disable_breakpoint` of `linux_ptracer_t`.

  1. **Ports.**  The ports with 64-bit targets differ in the size of an instruction, in the trap and
     how it is blended into the original instruction, and in the byte order of a pointer.  Where an
     instruction is half a word, a write of it reads the whole word first and puts it back.

  2. **A call** works on the memory of the target and on one breakpoint.  A breakpoint with indirection
     finds its location when it is first enabled, in the word at its address.

  3. **The crux** (`Intact`): next to the fields that never change, the memory is as it was except in
     the slots of enabled breakpoints, an enabled breakpoint has its blend there, and what it has saved
     is what was there at first.  Every call keeps this as long as no slot overlaps another slot or a
     pointer that another breakpoint has still to follow (`Apart`).

  Nothing tells an enabled breakpoint by its memory alone: the program may have an instruction that is
  its own blend.  So a breakpoint is enabled exactly when its blend is in memory only where the
  original is another instruction (`breakpoints_kept`).
-/
import LaunchMON.Engine.Handlers
import Mathlib.Data.Fin.Rev

namespace LaunchMON.Engine.Breakpoints

open Effect

/-! ## Ports -/

/-- The ports with 64-bit targets. -/
inductive Arch
  | x86_64
  | aarch64
  | ppc64
  deriving DecidableEq, Repr

/-- `sizeof(T_IT)`. -/
def Arch.itSize : Arch → Nat
  | .x86_64 => 8
  | .aarch64 => 4
  | .ppc64 => 4

theorem Arch.itSize_le (A : Arch) : A.itSize ≤ 8 := by
  cases A <;> decide

/-- `T_IT`: an instruction, as its bytes in memory order. -/
abbrev Inst (A : Arch) := Fin A.itSize → UInt8

/-- The bytes of an instruction from a list. -/
def Inst.ofBytes {A : Arch} (bs : List UInt8) : Inst A := fun i => bs.getD i 0

/-- T_TRAP_INSTRUCTION. -/
def Arch.trapInstruction : (A : Arch) → Inst A
  | .x86_64 => Inst.ofBytes [0xcc, 0, 0, 0, 0, 0, 0, 0]
  | .aarch64 => Inst.ofBytes [0x00, 0x00, 0x20, 0xd4]
  | .ppc64 => Inst.ofBytes [0x7d, 0x82, 0x10, 0x08]

/-- T_BLEND_MASK. -/
def Arch.blendMask : (A : Arch) → Inst A
  | .x86_64 => Inst.ofBytes [0x00, 0xff, 0xff, 0xff, 0xff, 0xff, 0xff, 0xff]
  | .aarch64 => Inst.ofBytes [0, 0, 0, 0]
  | .ppc64 => Inst.ofBytes [0, 0, 0, 0]

/-- IT_UNINIT_HEX. -/
def Arch.itUninitHex : (A : Arch) → Inst A
  | .x86_64 => Inst.ofBytes [0xef, 0xbe, 0xad, 0xde, 0xef, 0xbe, 0xad, 0xde]
  | .aarch64 => Inst.ofBytes [0xef, 0xbe, 0xad, 0xde]
  | .ppc64 => Inst.ofBytes [0xde, 0xad, 0xbe, 0xef]

/-- The address that a word holds. -/
def Arch.va : Arch → Word → VA
  | .ppc64, r => wordVA fun i => r i.rev
  | .x86_64, r | .aarch64, r => wordVA r

/-! ## Breakpoints -/

/-- `linux_breakpoint_t`, without the return address. -/
structure Breakpoint (A : Arch) where
  useIndirection : Bool
  addressAt : VA
  indirectAddressAt : VA
  trapInstruction : Inst A
  origInstruction : Inst A
  blendMask : Inst A
  status : BpStatus

namespace Breakpoint

variable {A : Arch}

/-- The constructor. -/
def new (A : Arch) : Breakpoint A :=
  { useIndirection := false
    addressAt := uninitHex
    indirectAddressAt := uninitHex
    trapInstruction := A.trapInstruction
    origInstruction := A.itUninitHex
    blendMask := A.blendMask
    status := .unset }

def set (b : Breakpoint A) : Breakpoint A :=
  { b with status := if b.status = .unset then .set else b.status }

def enable (b : Breakpoint A) : Breakpoint A :=
  { b with status := if b.status = .set ∨ b.status = .disabled then .enabled else b.status }

def disable (b : Breakpoint A) : Breakpoint A :=
  { b with status := if b.status = .enabled then .disabled else b.status }

/-- Where the instruction is, once an indirection is resolved. -/
def location (b : Breakpoint A) : VA :=
  if b.useIndirection then b.indirectAddressAt else b.addressAt

/-- An instruction blended with the trap. -/
def blend (b : Breakpoint A) (orig : Inst A) : Inst A := fun i =>
  orig i &&& b.blendMask i ||| b.trapInstruction i

end Breakpoint

/-! ## The calls -/

/-- `tracer_error_e`, as far as these calls return it. -/
inductive TracerError
  | traceOk
  | traceStateUnknown
  deriving DecidableEq, Repr

/-- What a call works on. -/
structure Traced (A : Arch) where
  mem : Mem
  bp : Breakpoint A

abbrev TracerM (A : Arch) := EStateM Exn (Traced A)

section Calls

variable {A : Arch}

/-- The value of a request that may fail. -/
def orFail {α : Type} : Option α → TracerM A α
  | some a => pure a
  | none => throw .tracer

def modifyBp (f : Breakpoint A → Breakpoint A) : TracerM A Unit :=
  modify fun t => { t with bp := f t.bp }

/-- `tracer_read` of a `T_VA`. -/
def readVA (addr : VA) : TracerM A VA := do
  let t ← get
  let r ← orFail (peek t.mem addr)
  pure (A.va r)

/-- `tracer_read` of a `T_IT`. -/
def readIT (addr : VA) : TracerM A (Inst A) := do
  let t ← get
  let bs ← orFail (peekBytes t.mem addr A.itSize)
  pure (Inst.ofBytes bs)

/-- `tracer_write` of a `T_IT`. -/
def writeIT (addr : VA) (i : Inst A) : TracerM A Unit := do
  let t ← get
  let r := pokeLoop t.mem addr (words A.itSize) (List.ofFn i)
  modify fun t => { t with mem := r.1 }
  if r.2 then pure () else throw .tracer

/-- `enable_breakpoint`: an indirect address that has not been filled in is fetched. -/
def resolveIndirection (b : Breakpoint A) : TracerM A Unit :=
  whenever (b.useIndirection && b.indirectAddressAt = uninitHex) do
    let indAddr ← readVA b.addressAt
    modifyBp fun b => { b with indirectAddressAt := indAddr }

/-- `enable_breakpoint`. -/
def enableBreakpoint (changeState : Bool) : TracerM A TracerError := do
  let t ← get
  if ¬ (t.bp.status = .set ∨ t.bp.status = .disabled) then pure .traceStateUnknown
  else do
    resolveIndirection t.bp
    let t ← get
    let origInst ← readIT t.bp.location
    modifyBp fun b => { b with origInstruction := origInst }
    writeIT t.bp.location (t.bp.blend origInst)
    whenever changeState (modifyBp .enable)
    pure .traceOk

/-- `disable_breakpoint`. -/
def disableBreakpoint (changeState : Bool) : TracerM A TracerError := do
  let t ← get
  if ¬ t.bp.status = .enabled then pure .traceStateUnknown
  else do
    writeIT t.bp.location t.bp.origInstruction
    whenever changeState (modifyBp .disable)
    pure .traceOk

/-! ## What a call does -/

/-- The instruction at an address. -/
def InstAt (m : Mem) (a : VA) (o : Inst A) : Prop := ∀ i : Fin A.itSize, m (off a i) = some (o i)

/-- The memory with an instruction at an address. -/
def putInst (m : Mem) (a : VA) (o : Inst A) : Mem := overwrite m a (List.ofFn o)

theorem words_itSize (A : Arch) : words A.itSize = 1 := by
  cases A <;> rfl

theorem instAt_putInst (m : Mem) (a : VA) (o : Inst A) : InstAt (putInst m a o) a o := by
  intro i
  unfold putInst
  have hi : (i : Nat) < (List.ofFn o).length := by
    rw [List.length_ofFn]
    exact i.isLt
  rw [overwrite_inside m a _ hi, List.getElem_ofFn]
  rw [List.length_ofFn]
  exact Nat.le_trans A.itSize_le (by decide)

theorem putInst_outside {m : Mem} {a x : VA} {o : Inst A}
    (h : ∀ i : Fin A.itSize, x ≠ off a i) : putInst m a o x = m x := by
  refine overwrite_outside fun i hi => ?_
  rw [List.length_ofFn] at hi
  exact h ⟨i, hi⟩

theorem InstAt.putInst_apart {m : Mem} {a a' : VA} {o o' : Inst A} (h : InstAt m a o)
    (hap : ∀ i j : Fin A.itSize, off a i ≠ off a' j) : InstAt (putInst m a' o') a o := by
  intro i
  rw [putInst_outside fun j => hap i j]
  exact h i

theorem InstAt.unique {m : Mem} {a : VA} {o o' : Inst A} (h : InstAt m a o) (h' : InstAt m a o') :
    o = o' := by
  funext i
  exact Option.some_inj.mp ((h i).symm.trans (h' i))

theorem orFail_eq_ok {α : Type} {o : Option α} {a : α} {t t' : Traced A} :
    orFail o t = .ok a t' ↔ o = some a ∧ t' = t := by
  cases o with
  | none => exact ⟨by rintro ⟨⟩, by rintro ⟨⟨⟩, -⟩⟩
  | some a' =>
    constructor
    · rintro ⟨⟩
      exact ⟨rfl, rfl⟩
    · rintro ⟨⟨⟩, rfl⟩
      rfl

/-- The word at an address, as far as it is mapped. -/
def wordAt (m : Mem) (a : VA) : Word := fun i => (m (off a i)).getD 0

theorem readVA_eq_ok {a v : VA} {t t' : Traced A} (h : readVA a t = .ok v t') :
    v = A.va (wordAt t.mem a) ∧ t' = t := by
  obtain ⟨r, t₁, hr, hp⟩ := bind_eq_ok (show (orFail (peek t.mem a) >>= fun r => pure (A.va r)) t = _ from h)
  obtain ⟨hr, rfl⟩ := orFail_eq_ok.mp hr
  cases hp
  obtain ⟨-, hbytes⟩ := peek_eq_some hr
  refine ⟨congrArg A.va ?_, rfl⟩
  funext i
  unfold wordAt
  rw [hbytes i]
  rfl

theorem readIT_eq_ok {a : VA} {o : Inst A} {t t' : Traced A} (h : readIT a t = .ok o t') :
    InstAt t.mem a o ∧ t' = t := by
  obtain ⟨bs, t₁, hbs, hp⟩ := bind_eq_ok
    (show (orFail (peekBytes t.mem a A.itSize) >>= fun bs => pure (Inst.ofBytes bs)) t = _ from h)
  obtain ⟨hbs, rfl⟩ := orFail_eq_ok.mp hbs
  cases hp
  unfold peekBytes at hbs
  split at hbs
  · next hm =>
    cases hbs
    rw [words_itSize] at hm
    refine ⟨fun i => ?_, rfl⟩
    have hmap := hm 0 Nat.zero_lt_one ⟨i, Nat.lt_of_lt_of_le i.isLt A.itSize_le⟩
    rw [Nat.mul_zero, off_zero] at hmap
    obtain ⟨v, hv⟩ := Option.isSome_iff_exists.mp hmap
    unfold Inst.ofBytes
    rw [List.getD_eq_getElem?_getD, List.getElem?_map, List.getElem?_range i.isLt]
    show t'.mem (off a i) = some ((t'.mem (off a i)).getD 0)
    rw [show t'.mem (off a i) = some v from hv]
    rfl
  · cases hbs

/-- One word is written, and the rest of it is what was there. -/
theorem pokeLoop_inst (m : Mem) (a : VA) (o : Inst A) :
    pokeLoop m a (words A.itSize) (List.ofFn o) =
      if Mapped m a then (putInst m a o, true) else (m, false) := by
  rw [words_itSize]
  show (if Mapped m a then _ else _) = _
  split
  · rw [List.take_of_length_le (by rw [List.length_ofFn]; exact A.itSize_le)]
    rfl
  · rfl

theorem writeIT_eq_ok {a : VA} {o : Inst A} {t t' : Traced A} {u : Unit}
    (h : writeIT a o t = .ok u t') : t' = { t with mem := putInst t.mem a o } := by
  have hw : (if (pokeLoop t.mem a (words A.itSize) (List.ofFn o)).2 = true then pure () else throw .tracer :
      TracerM A Unit) { t with mem := (pokeLoop t.mem a (words A.itSize) (List.ofFn o)).1 } = .ok u t' := h
  rw [pokeLoop_inst] at hw
  split at hw
  · cases hw
    rfl
  · cases hw

/-- The breakpoint as `enable_breakpoint` leaves its addresses, with this memory. -/
def Breakpoint.resolved (m : Mem) (b : Breakpoint A) : Breakpoint A :=
  if b.useIndirection ∧ b.indirectAddressAt = uninitHex then
    { b with indirectAddressAt := A.va (wordAt m b.addressAt) }
  else b

/-- Where the instruction of a breakpoint is. -/
def Breakpoint.slot (m : Mem) (b : Breakpoint A) : VA := (b.resolved m).location

theorem Breakpoint.resolved_of_uninit {b : Breakpoint A} (hind : b.useIndirection = true)
    (hun : b.indirectAddressAt = uninitHex) (m : Mem) :
    (b.resolved m).indirectAddressAt = A.va (wordAt m b.addressAt) := by
  unfold resolved
  rw [if_pos ⟨hind, hun⟩]

theorem Breakpoint.resolved_of_ne {b : Breakpoint A} (hne : b.indirectAddressAt ≠ uninitHex)
    (m : Mem) : b.resolved m = b := if_neg fun hc => hne hc.2

theorem Breakpoint.resolved_of_direct {b : Breakpoint A} (hind : b.useIndirection = false)
    (m : Mem) : b.resolved m = b := if_neg fun hc => Bool.false_ne_true (hind.symm.trans hc.1)

/-- Nothing else changes. -/
theorem Breakpoint.resolved_eq (b : Breakpoint A) (m : Mem) :
    ∃ v, b.resolved m = { b with indirectAddressAt := v } := by
  unfold resolved
  split
  · exact ⟨_, rfl⟩
  · exact ⟨_, rfl⟩

@[simp] theorem Breakpoint.resolved_blend (m : Mem) (b : Breakpoint A) (o : Inst A) :
    (b.resolved m).blend o = b.blend o := by
  unfold resolved
  split <;> rfl

theorem Breakpoint.resolved_status (m : Mem) (b : Breakpoint A) :
    (b.resolved m).status = b.status := by
  unfold resolved
  split <;> rfl

theorem resolveIndirection_eq_ok {t t' : Traced A} {u : Unit}
    (h : resolveIndirection t.bp t = .ok u t') : t' = { t with bp := t.bp.resolved t.mem } := by
  unfold resolveIndirection whenever at h
  unfold Breakpoint.resolved
  split at h
  · next hc =>
    rw [Bool.and_eq_true, decide_eq_true_eq] at hc
    obtain ⟨v, t₁, hv, hm⟩ := bind_eq_ok h
    obtain ⟨rfl, rfl⟩ := readVA_eq_ok hv
    rw [if_pos hc]
    cases hm
    rfl
  · next hc =>
    rw [Bool.and_eq_true, decide_eq_true_eq] at hc
    rw [if_neg hc]
    cases h
    rfl

/-- What `enable_breakpoint` does: nothing, or it saves the instruction in the slot of the breakpoint
    and puts the blend there. -/
theorem enableBreakpoint_eq_ok {t t' : Traced A} {rc : TracerError}
    (h : enableBreakpoint true t = .ok rc t') :
    (¬ (t.bp.status = .set ∨ t.bp.status = .disabled) ∧ t' = t) ∨
    ((t.bp.status = .set ∨ t.bp.status = .disabled) ∧ ∃ o, InstAt t.mem (t.bp.slot t.mem) o ∧
      t' = ⟨putInst t.mem (t.bp.slot t.mem) (t.bp.blend o),
        { t.bp.resolved t.mem with origInstruction := o, status := .enabled }⟩) := by
  obtain ⟨t₀, s₀, hget, h⟩ := bind_eq_ok h
  cases hget
  split at h
  · next hc =>
    cases h
    exact Or.inl ⟨hc, rfl⟩
  · next hc =>
    have hst := not_not.mp hc
    refine Or.inr ⟨hst, ?_⟩
    obtain ⟨u, t₁, hres, h⟩ := bind_eq_ok h
    obtain rfl := resolveIndirection_eq_ok hres
    obtain ⟨t₂, s₂, hget, h⟩ := bind_eq_ok h
    cases hget
    obtain ⟨o, t₃, hread, h⟩ := bind_eq_ok h
    obtain ⟨ho, rfl⟩ := readIT_eq_ok hread
    refine ⟨o, ho, ?_⟩
    obtain ⟨u, t₄, hmod, h⟩ := bind_eq_ok h
    cases hmod
    obtain ⟨u, t₅, hwrite, h⟩ := bind_eq_ok h
    obtain rfl := writeIT_eq_ok hwrite
    obtain ⟨u, t₆, hen, h⟩ := bind_eq_ok h
    cases hen
    cases h
    rw [Breakpoint.resolved_blend]
    unfold Breakpoint.enable
    dsimp only
    rw [Breakpoint.resolved_status, if_pos hst]
    rfl

/-- What `disable_breakpoint` does: nothing, or it puts back what was saved. -/
theorem disableBreakpoint_eq_ok {t t' : Traced A} {rc : TracerError}
    (h : disableBreakpoint true t = .ok rc t') :
    (t.bp.status ≠ .enabled ∧ t' = t) ∨
    (t.bp.status = .enabled ∧ t' = ⟨putInst t.mem t.bp.location t.bp.origInstruction,
      { t.bp with status := .disabled }⟩) := by
  obtain ⟨t₀, s₀, hget, h⟩ := bind_eq_ok h
  cases hget
  split at h
  · next hc =>
    cases h
    exact Or.inl ⟨hc, rfl⟩
  · next hc =>
    have hst := not_not.mp hc
    obtain ⟨u, t₁, hwrite, h⟩ := bind_eq_ok h
    obtain rfl := writeIT_eq_ok hwrite
    obtain ⟨u, t₂, hdis, h⟩ := bind_eq_ok h
    cases hdis
    cases h
    unfold Breakpoint.disable
    dsimp only
    rw [if_pos hst]
    exact Or.inr ⟨hst, rfl⟩

end Calls

/-! ## Sets of breakpoints -/

/-- The memory of the target and the breakpoints of a set. -/
structure Sys (A : Arch) (ι : Type) where
  mem : Mem
  bps : ι → Breakpoint A

/-- A call, with the breakpoint it is made for. -/
inductive Call (ι : Type)
  | enable (i : ι)
  | disable (i : ι)

section Sets

variable {A : Arch} {ι : Type}

/-- A call on one of the breakpoints. -/
def onBp [DecidableEq ι] (i : ι) (x : TracerM A TracerError) : EStateM Exn (Sys A ι) TracerError := fun s =>
  match x ⟨s.mem, s.bps i⟩ with
  | .ok rc t => .ok rc ⟨t.mem, Function.update s.bps i t.bp⟩
  | .error e t => .error e ⟨t.mem, Function.update s.bps i t.bp⟩

/-- `enable_breakpoint` and `disable_breakpoint`, with the state change. -/
def call [DecidableEq ι] : Call ι → EStateM Exn (Sys A ι) TracerError
  | .enable i => onBp i (enableBreakpoint true)
  | .disable i => onBp i (disableBreakpoint true)

/-- A sequence of calls. -/
def calls [DecidableEq ι] (cs : List (Call ι)) : EStateM Exn (Sys A ι) Unit :=
  each cs fun c => do
    let _ ← call c
    pure ()

/-- The slot of a breakpoint, from the memory before the first call. -/
def Sys.slot (s : Sys A ι) (i : ι) : VA := (s.bps i).slot s.mem

/-- Breakpoints that have been set.  Their slots do not overlap, and no slot overlaps a pointer that
    another breakpoint has still to follow. -/
structure Apart (s : Sys A ι) : Prop where
  set : ∀ i, (s.bps i).status = .set
  slots : ∀ i j, i ≠ j → ∀ k l : Fin A.itSize, off (s.slot i) k ≠ off (s.slot j) l
  pointers : ∀ i j, i ≠ j → (s.bps i).useIndirection = true →
    (s.bps i).indirectAddressAt = uninitHex →
    ∀ (k : Fin 8) (l : Fin A.itSize), off (s.bps i).addressAt k ≠ off (s.slot j) l

/-- The invariant, where `s₀` is the state before the first call. -/
structure Intact (s₀ s : Sys A ι) : Prop where
  indirection : ∀ i, (s.bps i).useIndirection = (s₀.bps i).useIndirection
  address : ∀ i, (s.bps i).addressAt = (s₀.bps i).addressAt
  mask : ∀ i, (s.bps i).blendMask = (s₀.bps i).blendMask
  trap : ∀ i, (s.bps i).trapInstruction = (s₀.bps i).trapInstruction
  /-- an indirect address is what it was, or what it was resolved to -/
  indirect : ∀ i, (s.bps i).indirectAddressAt = (s₀.bps i).indirectAddressAt ∨
    (s.bps i).indirectAddressAt = ((s₀.bps i).resolved s₀.mem).indirectAddressAt
  placed : ∀ i, (s.bps i).status = .enabled → (s.bps i).location = s₀.slot i
  saved : ∀ i, (s.bps i).status = .enabled → InstAt s₀.mem (s₀.slot i) (s.bps i).origInstruction
  blended : ∀ i, (s.bps i).status = .enabled →
    InstAt s.mem (s₀.slot i) ((s₀.bps i).blend (s.bps i).origInstruction)
  /-- what lies in no slot of an enabled breakpoint is as it was -/
  rest : ∀ x, (∀ i, (s.bps i).status = .enabled → ∀ k : Fin A.itSize, x ≠ off (s₀.slot i) k) →
    s.mem x = s₀.mem x

theorem Apart.intact {s : Sys A ι} (h : Apart s) : Intact s s := by
  have hnot : ∀ i, (s.bps i).status ≠ .enabled := by
    intro i hi
    rw [h.set i] at hi
    cases hi
  exact ⟨fun _ => rfl, fun _ => rfl, fun _ => rfl, fun _ => rfl, fun _ => Or.inl rfl,
    fun i hi => absurd hi (hnot i), fun i hi => absurd hi (hnot i), fun i hi => absurd hi (hnot i),
    fun _ _ => rfl⟩

variable {s₀ s s' : Sys A ι}

/-- The instruction of a breakpoint that is not enabled is as it was. -/
theorem Intact.original (h : Intact s₀ s) (hap : Apart s₀) {i : ι} (hi : (s.bps i).status ≠ .enabled)
    (k : Fin A.itSize) : s.mem (off (s₀.slot i) k) = s₀.mem (off (s₀.slot i) k) := by
  refine h.rest _ fun j hj l => hap.slots i j ?_ k l
  rintro rfl
  exact hi hj

/-- A pointer that a breakpoint has still to follow is as it was, if it is not enabled. -/
theorem Intact.pointer (h : Intact s₀ s) (hap : Apart s₀) {i : ι} (hi : (s.bps i).status ≠ .enabled)
    (hind : (s₀.bps i).useIndirection = true) (hun : (s₀.bps i).indirectAddressAt = uninitHex) :
    wordAt s.mem (s₀.bps i).addressAt = wordAt s₀.mem (s₀.bps i).addressAt := by
  funext k
  unfold wordAt
  rw [h.rest]
  intro j hj l
  refine hap.pointers i j ?_ hind hun k l
  rintro rfl
  exact hi hj

/-- Resolved now, a breakpoint that is not enabled has the indirect address of its slot. -/
theorem Intact.resolved (h : Intact s₀ s) (hap : Apart s₀) {i : ι} (hi : (s.bps i).status ≠ .enabled)
    (hind : (s₀.bps i).useIndirection = true) :
    ((s.bps i).resolved s.mem).indirectAddressAt =
      ((s₀.bps i).resolved s₀.mem).indirectAddressAt := by
  have hind' := (h.indirection i).trans hind
  by_cases hun : (s.bps i).indirectAddressAt = uninitHex
  · by_cases hun₀ : (s₀.bps i).indirectAddressAt = uninitHex
    · rw [Breakpoint.resolved_of_uninit hind' hun, Breakpoint.resolved_of_uninit hind hun₀, h.address i,
        h.pointer hap hi hind hun₀]
    · -- an address that was filled in is kept
      rcases h.indirect i with heq | heq
      · exact absurd (heq.symm.trans hun) hun₀
      · rw [Breakpoint.resolved_of_ne hun₀] at heq
        exact absurd (heq.symm.trans hun) hun₀
  · rw [Breakpoint.resolved_of_ne hun]
    rcases h.indirect i with heq | heq
    · rw [Breakpoint.resolved_of_ne fun hun₀ => hun (heq.trans hun₀)]
      exact heq
    · exact heq

theorem Breakpoint.slot_direct {b : Breakpoint A} (hind : b.useIndirection = false) (m : Mem) :
    b.slot m = b.addressAt := by
  unfold slot location
  rw [resolved_of_direct hind, hind]
  rfl

theorem Breakpoint.slot_indirect {b : Breakpoint A} (hind : b.useIndirection = true) (m : Mem) :
    b.slot m = (b.resolved m).indirectAddressAt := by
  have hres : (b.resolved m).useIndirection = true := by
    unfold resolved
    split
    · exact hind
    · exact hind
  unfold slot location
  rw [if_pos hres]

/-- So its slot is what it was. -/
theorem Intact.slot (h : Intact s₀ s) (hap : Apart s₀) {i : ι} (hi : (s.bps i).status ≠ .enabled) :
    (s.bps i).slot s.mem = s₀.slot i := by
  unfold Sys.slot
  cases hind : (s₀.bps i).useIndirection with
  | false =>
    rw [Breakpoint.slot_direct ((h.indirection i).trans hind), Breakpoint.slot_direct hind]
    exact h.address i
  | true =>
    rw [Breakpoint.slot_indirect ((h.indirection i).trans hind), Breakpoint.slot_indirect hind]
    exact h.resolved hap hi hind

/-! ## One call -/

/-- A call on the breakpoint `i` leaves the others alone. -/
def Others (i : ι) (s s' : Sys A ι) : Prop := ∀ j, j ≠ i → s'.bps j = s.bps j

theorem Others.field {α : Type} {i : ι} (ho : Others i s s') (f : Breakpoint A → α)
    (hi : f (s'.bps i) = f (s.bps i)) (j : ι) : f (s'.bps j) = f (s.bps j) := by
  by_cases hji : j = i
  · rwa [hji]
  · rw [ho j hji]

/-- `enable_breakpoint` keeps the invariant. -/
theorem Intact.enable (h : Intact s₀ s) (hap : Apart s₀) {i : ι} (hst : (s.bps i).status ≠ .enabled)
    {o : Inst A} (ho : InstAt s.mem ((s.bps i).slot s.mem) o) (hothers : Others i s s')
    (hmem : s'.mem = putInst s.mem ((s.bps i).slot s.mem) ((s.bps i).blend o))
    (hself : s'.bps i =
      { (s.bps i).resolved s.mem with origInstruction := o, status := .enabled }) :
    Intact s₀ s' := by
  have hslot := h.slot hap hst
  have hblend : (s.bps i).blend o = (s₀.bps i).blend o := by
    unfold Breakpoint.blend
    rw [h.mask i, h.trap i]
  -- the slot was not changed, so what is saved is the original
  have ho₀ : InstAt s₀.mem (s₀.slot i) o := by
    intro k
    rw [← h.original hap hst k, ← hslot]
    exact ho k
  obtain ⟨v, hv⟩ := (s.bps i).resolved_eq s.mem
  rw [hslot, hblend] at hmem
  refine ⟨fun j => ?_, fun j => ?_, fun j => ?_, fun j => ?_, fun j => ?_, fun j hj => ?_,
    fun j hj => ?_, fun j hj => ?_, fun x hx => ?_⟩
  · exact (hothers.field (·.useIndirection) (by rw [hself, hv]) j).trans (h.indirection j)
  · exact (hothers.field (·.addressAt) (by rw [hself, hv]) j).trans (h.address j)
  · exact (hothers.field (·.blendMask) (by rw [hself, hv]) j).trans (h.mask j)
  · exact (hothers.field (·.trapInstruction) (by rw [hself, hv]) j).trans (h.trap j)
  · by_cases hji : j = i
    · subst hji
      rw [hself]
      cases hind : (s₀.bps j).useIndirection with
      | false =>
        rw [Breakpoint.resolved_of_direct ((h.indirection j).trans hind)]
        exact h.indirect j
      | true => exact Or.inr (h.resolved hap hst hind)
    · rw [hothers j hji]
      exact h.indirect j
  · by_cases hji : j = i
    · subst hji
      rw [hself, ← hslot]
      rfl
    · rw [hothers j hji] at hj ⊢
      exact h.placed j hj
  · by_cases hji : j = i
    · subst hji
      rw [hself]
      exact ho₀
    · rw [hothers j hji] at hj ⊢
      exact h.saved j hj
  · rw [hmem]
    by_cases hji : j = i
    · subst hji
      rw [hself]
      exact instAt_putInst _ _ _
    · rw [hothers j hji] at hj ⊢
      exact (h.blended j hj).putInst_apart (hap.slots j i hji)
  · have hxi : ∀ k : Fin A.itSize, x ≠ off (s₀.slot i) k := hx i (by rw [hself])
    rw [hmem, putInst_outside hxi]
    refine h.rest x fun j hen => ?_
    by_cases hji : j = i
    · subst hji
      exact hxi
    · exact hx j (by rwa [hothers j hji])

/-- `disable_breakpoint` keeps the invariant. -/
theorem Intact.disable (h : Intact s₀ s) (hap : Apart s₀) {i : ι} (hst : (s.bps i).status = .enabled)
    (hothers : Others i s s')
    (hmem : s'.mem = putInst s.mem (s.bps i).location (s.bps i).origInstruction)
    (hself : s'.bps i = { s.bps i with status := .disabled }) : Intact s₀ s' := by
  -- a breakpoint that is enabled after the call is another one
  have hne : ∀ j, (s'.bps j).status = .enabled → j ≠ i := by
    rintro j hj rfl
    rw [hself] at hj
    cases hj
  rw [h.placed i hst] at hmem
  refine ⟨fun j => ?_, fun j => ?_, fun j => ?_, fun j => ?_, fun j => ?_, fun j hj => ?_,
    fun j hj => ?_, fun j hj => ?_, fun x hx => ?_⟩
  · exact (hothers.field (·.useIndirection) (by rw [hself]) j).trans (h.indirection j)
  · exact (hothers.field (·.addressAt) (by rw [hself]) j).trans (h.address j)
  · exact (hothers.field (·.blendMask) (by rw [hself]) j).trans (h.mask j)
  · exact (hothers.field (·.trapInstruction) (by rw [hself]) j).trans (h.trap j)
  · rw [show (s'.bps j).indirectAddressAt = _ from
      hothers.field (·.indirectAddressAt) (by rw [hself]) j]
    exact h.indirect j
  · have heq := hothers j (hne j hj)
    rw [heq] at hj ⊢
    exact h.placed j hj
  · have heq := hothers j (hne j hj)
    rw [heq] at hj ⊢
    exact h.saved j hj
  · have heq := hothers j (hne j hj)
    have hap' := hap.slots j i (hne j hj)
    rw [heq] at hj ⊢
    rw [hmem]
    exact (h.blended j hj).putInst_apart hap'
  · rw [hmem]
    by_cases hin : ∃ k : Fin A.itSize, x = off (s₀.slot i) k
    · obtain ⟨k, rfl⟩ := hin
      rw [instAt_putInst _ _ _ k, h.saved i hst k]
    · rw [putInst_outside fun k hk => hin ⟨k, hk⟩]
      refine h.rest x fun j hen k hk => ?_
      by_cases hji : j = i
      · subst hji
        exact hin ⟨k, hk⟩
      · exact hx j (by rwa [hothers j hji]) k hk

section Step

variable [DecidableEq ι]

theorem onBp_eq_ok {i : ι} {x : TracerM A TracerError} {rc : TracerError}
    (h : onBp i x s = .ok rc s') : ∃ t, x ⟨s.mem, s.bps i⟩ = .ok rc t ∧
      s' = ⟨t.mem, Function.update s.bps i t.bp⟩ := by
  unfold onBp at h
  cases hx : x ⟨s.mem, s.bps i⟩ with
  | ok rc' t =>
    rw [hx] at h
    cases h
    exact ⟨t, rfl, rfl⟩
  | error e t =>
    rw [hx] at h
    cases h

/-- A breakpoint that stays as it is, with the memory. -/
theorem Sys.update_self (s : Sys A ι) (i : ι) :
    (⟨s.mem, Function.update s.bps i (s.bps i)⟩ : Sys A ι) = s := by
  rw [Function.update_eq_self]

theorem Intact.call (h : Intact s₀ s) (hap : Apart s₀) {c : Call ι} {rc : TracerError}
    (hc : call c s = .ok rc s') : Intact s₀ s' := by
  cases c with
  | enable i =>
    obtain ⟨t, ht, rfl⟩ := onBp_eq_ok hc
    rcases enableBreakpoint_eq_ok ht with ⟨-, rfl⟩ | ⟨hst, o, ho, rfl⟩
    · rwa [Sys.update_self]
    · refine h.enable hap (fun hen => ?_) ho (fun j hji => Function.update_of_ne hji ..) rfl
        (Function.update_self ..)
      rcases hst with hst | hst <;> exact BpStatus.noConfusion (hst.symm.trans hen)
  | disable i =>
    obtain ⟨t, ht, rfl⟩ := onBp_eq_ok hc
    rcases disableBreakpoint_eq_ok ht with ⟨-, rfl⟩ | ⟨hst, rfl⟩
    · rwa [Sys.update_self]
    · exact h.disable hap hst (fun j hji => Function.update_of_ne hji ..) rfl
        (Function.update_self ..)

/-- Every sequence of calls keeps the invariant. -/
theorem Intact.calls (h : Intact s₀ s) (hap : Apart s₀) {cs : List (Call ι)}
    (hcs : calls cs s = .ok () s') : Intact s₀ s' := by
  refine each_eq_ok (P := fun _ s s' => Intact s₀ s → Intact s₀ s') (fun _ h => h) ?_ cs s s' hcs h
  intro c cs s s₁ s₂ hc ih h
  obtain ⟨rc, s₁', hc, hp⟩ := bind_eq_ok hc
  cases hp
  exact ih (h.call hap hc)

/-! ## Sequences of calls -/

instance (m : Mem) (a : VA) (o : Inst A) : Decidable (InstAt m a o) :=
  inferInstanceAs (Decidable (∀ _, _))

/-- What `s₀` has become after some calls. -/
structure Kept (s₀ s : Sys A ι) : Prop where
  /-- an enabled breakpoint has its blend in memory, and has saved what was there at first -/
  enabled : ∀ i, (s.bps i).status = .enabled →
    (s.bps i).location = s₀.slot i ∧ InstAt s₀.mem (s₀.slot i) (s.bps i).origInstruction ∧
    InstAt s.mem (s₀.slot i) ((s₀.bps i).blend (s.bps i).origInstruction)
  /-- any other has its original instruction there -/
  original : ∀ i, (s.bps i).status ≠ .enabled →
    ∀ k : Fin A.itSize, s.mem (off (s₀.slot i) k) = s₀.mem (off (s₀.slot i) k)
  /-- so memory tells them apart, where the original is not its own blend -/
  exactly : ∀ i o, InstAt s₀.mem (s₀.slot i) o → (s₀.bps i).blend o ≠ o →
    ((s.bps i).status = .enabled ↔ InstAt s.mem (s₀.slot i) ((s₀.bps i).blend o))
  outside : ∀ x, (∀ i, ∀ k : Fin A.itSize, x ≠ off (s₀.slot i) k) → s.mem x = s₀.mem x
  again : ∀ i, (s.bps i).status = .enabled → call (.enable i) s = .ok .traceStateUnknown s
  restored : (∀ i, (s.bps i).status ≠ .enabled) → s.mem = s₀.mem

/-- To enable an enabled breakpoint changes nothing. -/
theorem call_enable_enabled {i : ι} (h : (s.bps i).status = .enabled) :
    call (.enable i) s = .ok .traceStateUnknown s := by
  have hx : enableBreakpoint true ⟨s.mem, s.bps i⟩ = .ok .traceStateUnknown ⟨s.mem, s.bps i⟩ := by
    have hst : ¬ ((s.bps i).status = .set ∨ (s.bps i).status = .disabled) := by
      rw [h]
      rintro (hst | hst) <;> cases hst
    have hget : (get : TracerM A (Traced A)) ⟨s.mem, s.bps i⟩ =
      .ok ⟨s.mem, s.bps i⟩ ⟨s.mem, s.bps i⟩ := rfl
    refine (ok_bind hget).trans ?_
    rw [if_pos hst]
    rfl
  show onBp i (enableBreakpoint true) s = _
  unfold onBp
  rw [hx]
  dsimp only
  rw [Sys.update_self]

/-- **Breakpoints.**  After every sequence of calls on breakpoints that lie apart, memory and
    breakpoints are what the calls before make of them, and nothing else has changed. -/
theorem breakpoints_kept (hap : Apart s₀) {cs : List (Call ι)} (hcs : calls cs s₀ = .ok () s) :
    Kept s₀ s := by
  have h := hap.intact.calls hap hcs
  refine ⟨fun i hi => ⟨h.placed i hi, h.saved i hi, h.blended i hi⟩, fun i hi => h.original hap hi,
    fun i o ho hne => ⟨fun hi => ?_, fun hb => ?_⟩, fun x hx => h.rest x fun i _ => hx i,
    fun i => call_enable_enabled, fun hall => ?_⟩
  · rw [ho.unique (h.saved i hi)]
    exact h.blended i hi
  · by_contra hi
    -- the blend was there from the start
    have hb₀ : InstAt s₀.mem (s₀.slot i) ((s₀.bps i).blend o) := by
      intro k
      rw [← h.original hap hi k]
      exact hb k
    exact hne (hb₀.unique ho)
  · funext x
    exact h.rest x fun i hi => absurd hi (hall i)

end Step

end Sets

/-! ## Two sets -/

/-- A breakpoint at an address, after `set`. -/
def direct (A : Arch) (addr : VA) : Breakpoint A := { Breakpoint.new A with addressAt := addr }.set

/-- A breakpoint at the instruction that a pointer points to, after `set`. -/
def indirect (A : Arch) (addr : VA) : Breakpoint A :=
  { Breakpoint.new A with addressAt := addr, useIndirection := true }.set

/-- Two functions of a launcher whose first instructions share a word, one behind a pointer. -/
def neighbours : Sys .ppc64 Bool where
  mem x := some (if x = 0x2006 then 0x10 else if x = 0x2007 then 0x04 else 0)
  bps i := if i then indirect .ppc64 0x2000 else direct .ppc64 0x1000

theorem apart_neighbours : Apart neighbours := by
  refine ⟨fun i => ?_, ?_, ?_⟩
  · cases i <;> rfl
  · decide +kernel
  · decide +kernel

theorem calls_neighbours : ∃ s,
    calls [.enable false, .enable true, .disable false] neighbours = .ok () s := ⟨_, rfl⟩

theorem breakpoints_kept_neighbours : ∃ s,
    calls [.enable false, .enable true, .disable false] neighbours = .ok () s ∧ Kept neighbours s := by
  obtain ⟨s, hs⟩ := calls_neighbours
  exact ⟨s, hs, breakpoints_kept apart_neighbours hs⟩

/-- An instruction of equal bytes. -/
def filled (b : UInt8) : Inst .x86_64 := fun _ => b

/-- A launcher that is full of traps of its own. -/
def trapped : Sys .x86_64 Unit where
  mem _ := some 0xcc
  bps _ := direct .x86_64 0x1000

/-- A breakpoint at the pointer of another. -/
def tangled : Sys .x86_64 Bool where
  mem x := some (if x = 0x1001 then 0x20 else 0)
  bps i := if i then indirect .x86_64 0x1000 else direct .x86_64 0x1000

/-- A breakpoint that has been enabled and disabled in a launcher full of traps has its blend in
    memory.  Where a slot covers the pointer of another breakpoint that has not been enabled yet, that
    one goes to a place of its own making: its slot is not blended, and a byte in no slot changes. -/
theorem breakpoints_counterexample :
    (∃ s, calls [.enable (), .disable ()] trapped = .ok () s ∧ (s.bps ()).status ≠ .enabled ∧
      InstAt trapped.mem (trapped.slot ()) (filled 0xcc) ∧
      InstAt s.mem (trapped.slot ()) ((trapped.bps ()).blend (filled 0xcc))) ∧
    (∀ k l : Fin 8, off (tangled.slot false) k ≠ off (tangled.slot true) l) ∧
    ∃ s, calls [.enable false, .enable true] tangled = .ok () s ∧ (s.bps true).status = .enabled ∧
      InstAt tangled.mem (tangled.slot true) (filled 0) ∧
      ¬ InstAt s.mem (tangled.slot true) ((tangled.bps true).blend (filled 0)) ∧
      s.mem 0x20cc ≠ tangled.mem 0x20cc := by
  refine ⟨⟨_, rfl, ?_, ?_, ?_⟩, ?_, _, rfl, ?_, ?_, ?_, ?_⟩ <;> decide +kernel

end LaunchMON.Engine.Breakpoints
