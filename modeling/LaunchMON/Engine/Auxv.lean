/-
  The base address of the loader, from the auxiliary vector of the launcher.

  `get_auxv` reads entries into one buffer until the buffer has the type AT_BASE.  The only other way
  out of the loop is a negative count of `fread`; the count is a `size_t`, so this test never
  succeeds, and a vector without AT_BASE leaves the loop at the end of the file, where the buffer
  stays as it is.

  (1) The loop is `Records.readUntil` (`auxvLoop_eq`); what it returns, if it does, is the value of the
  first AT_BASE entry, or of what the end of the file leaves in the buffer (`getAuxv_eq_iff`).

  (2) So it returns what its callers expect, T_UNINIT_HEX where there is no entry, exactly if there is
  one, or there is no file, or a coincidence in the buffer (`getAuxv_meets_iff`).  The caller's way
  around a vector without AT_BASE is not taken (`loaderAddress_runs_on`).
-/
import LaunchMON.Engine.Handlers
import LaunchMON.Lib.Records

namespace LaunchMON.Engine

open Records

/-! ## The program -/

/-- `auxvBuf`: the bytes of an `Elf64_auxv_t`. -/
abbrev AuxvBuf := Fin 16 → UInt8

/-- AT_BASE. -/
def atBase : VA := 7

/-- `auxvBuf.a_type`. -/
def aType (auxvBuf : AuxvBuf) : VA := wordVA fun i => auxvBuf (Fin.castAdd 8 i)

/-- `auxvBuf.a_un.a_val`. -/
def aVal (auxvBuf : AuxvBuf) : VA := wordVA fun i => auxvBuf (Fin.natAdd 8 i)

/-- The loop: `.error` is the return from inside of it, `none` a loop that is still running. -/
def auxvLoop : ℕ → AuxvBuf → List UInt8 → Option (Except VA AuxvBuf)
  | 0, _, _ => none
  | fuel + 1, auxvBuf, rest =>
    let (count, auxvBuf, rest) := fread auxvBuf rest
    -- The count is unsigned, and so is the comparison.
    if count < 0 then some (.error uninitHex)
    else if aType auxvBuf ≠ atBase then auxvLoop fuel auxvBuf rest
    else some (.ok auxvBuf)

/-- `get_auxv`: `auxvBuf` is the buffer before the first read, `file` what is in /proc/<pid>/auxv, or
    `none` where it cannot be opened. -/
def getAuxv (fuel : ℕ) (auxvBuf : AuxvBuf) : Option (List UInt8) → Option VA
  | none => some uninitHex
  | some text =>
    match auxvLoop fuel auxvBuf text with
    | none => none
    | some (.error retPc) => some retPc
    | some (.ok auxvBuf) => some (if aType auxvBuf = atBase then aVal auxvBuf else uninitHex)

/-- Where `handle_trap_after_attach_event` finds the loader: `procfs` is what `get_va_from_procfs`
    says, and the result `some none` a handler that fails. -/
def loaderAddress (fuel : ℕ) (auxvBuf : AuxvBuf) (file : Option (List UInt8)) (procfs : VA) :
    Option (Option VA) := do
  let lpc ← getAuxv fuel auxvBuf file
  let lpc := if lpc = uninitHex then procfs else lpc
  some (if lpc = uninitHex then none else some lpc)

/-! ## What is expected of it -/

/-- The test of the loop. -/
def isBase (auxvBuf : AuxvBuf) : Bool := aType auxvBuf = atBase

/-- The first AT_BASE entry of a vector. -/
def baseEntry (text : List UInt8) : Option AuxvBuf := (records 16 text).find? isBase

/-- The value of the first AT_BASE entry, or T_UNINIT_HEX. -/
def baseAddress (file : Option (List UInt8)) : VA :=
  ((file.bind baseEntry).map aVal).getD uninitHex

/-! ## What it returns -/

variable {auxvBuf : AuxvBuf}

theorem isBase_iff : isBase auxvBuf = true ↔ aType auxvBuf = atBase := decide_eq_true_iff

theorem auxvLoop_eq (fuel : ℕ) (auxvBuf : AuxvBuf) (rest : List UInt8) :
    auxvLoop fuel auxvBuf rest = (readUntil isBase fuel auxvBuf rest).map .ok := by
  induction fuel generalizing auxvBuf rest with
  | zero => rfl
  | succ fuel ih =>
    rw [auxvLoop, readUntil]
    dsimp only
    rw [if_neg (Nat.not_lt_zero _)]
    by_cases hbase : aType (fread auxvBuf rest).2.1 = atBase
    · rw [if_neg (not_not.mpr hbase), if_pos (isBase_iff.mpr hbase)]
      rfl
    · rw [if_pos hbase, if_neg (mt isBase_iff.mp hbase)]
      exact ih _ _

theorem getAuxv_some (fuel : ℕ) (auxvBuf : AuxvBuf) (text : List UInt8) :
    getAuxv fuel auxvBuf (some text) = (readUntil isBase fuel auxvBuf text).map fun b =>
      if aType b = atBase then aVal b else uninitHex := by
  show (match auxvLoop fuel auxvBuf text with
    | none => none
    | some (.error retPc) => some retPc
    | some (.ok auxvBuf) => some (if aType auxvBuf = atBase then aVal auxvBuf else uninitHex)) = _
  rw [auxvLoop_eq]
  cases readUntil isBase fuel auxvBuf text with
  | none => rfl
  | some b => rfl

/-- What the end of the file leaves in the buffer, if it is taken for an AT_BASE entry. -/
def leftoverEntry (auxvBuf : AuxvBuf) (text : List UInt8) : Option AuxvBuf :=
  if isBase (leftover auxvBuf text) then some (leftover auxvBuf text) else none

/-- What the loop ends with has the type it looks for. -/
theorem aType_of_or {text : List UInt8} {b : AuxvBuf}
    (h : (baseEntry text).or (leftoverEntry auxvBuf text) = some b) : aType b = atBase := by
  rcases Option.or_eq_some_iff.mp h with hfound | ⟨-, hleft⟩
  · unfold baseEntry at hfound
    exact isBase_iff.mp (List.find?_some hfound)
  · unfold leftoverEntry at hleft
    split at hleft
    · rename_i hbase
      exact Option.some.inj hleft ▸ isBase_iff.mp hbase
    · cases hleft

/-- **The result**, if there is one. -/
theorem getAuxv_eq_iff (auxvBuf : AuxvBuf) (text : List UInt8) (v : VA) :
    (∃ fuel, getAuxv fuel auxvBuf (some text) = some v) ↔
      ((baseEntry text).or (leftoverEntry auxvBuf text)).map aVal = some v := by
  have hloop (b : AuxvBuf) : (∃ fuel, readUntil isBase fuel auxvBuf text = some b) ↔
      (baseEntry text).or (leftoverEntry auxvBuf text) = some b := readUntil_iff (by decide) auxvBuf text b
  simp only [getAuxv_some, Option.map_eq_some_iff]
  constructor
  · rintro ⟨fuel, b, hread, rfl⟩
    have hb := (hloop b).mp ⟨fuel, hread⟩
    exact ⟨b, hb, (if_pos (aType_of_or hb)).symm⟩
  · rintro ⟨b, hb, rfl⟩
    obtain ⟨fuel, hread⟩ := (hloop b).mpr hb
    exact ⟨fuel, b, hread, if_pos (aType_of_or hb)⟩

/-- **When it returns what is expected of it.** -/
theorem getAuxv_meets_iff (auxvBuf : AuxvBuf) (file : Option (List UInt8)) :
    (∃ fuel, getAuxv fuel auxvBuf file = some (baseAddress file)) ↔
      ∀ text, file = some text → (∃ e ∈ records 16 text, aType e = atBase) ∨
        (aType (leftover auxvBuf text) = atBase ∧ aVal (leftover auxvBuf text) = uninitHex) := by
  cases file with
  | none =>
    constructor
    · intro _ text h
      cases h
    · exact fun _ => ⟨0, rfl⟩
  | some text =>
    have hsome : (∃ e ∈ records 16 text, aType e = atBase) ↔ (baseEntry text).isSome := by
      simp only [baseEntry, List.find?_isSome, isBase_iff]
    rw [getAuxv_eq_iff]
    simp only [Option.some.injEq, forall_eq', hsome, baseAddress, Option.bind_some]
    cases baseEntry text with
    | some e => simp
    | none =>
      -- Without an entry the result is that of the buffer, and the expected one T_UNINIT_HEX.
      unfold leftoverEntry
      split
      · rename_i hleft
        simp [isBase_iff.mp hleft]
      · rename_i hleft
        simp [mt isBase_iff.mpr hleft]

/-- The vector of a process that has exited is empty; one of AT_NULL alone is no better. -/
theorem getAuxv_not_expected :
    (¬∃ fuel, getAuxv fuel (fun _ => 0) (some []) = some (baseAddress (some []))) ∧
    ¬∃ fuel, getAuxv fuel (fun _ => 0) (some (List.replicate 16 0)) =
      some (baseAddress (some (List.replicate 16 0))) := by
  constructor
  · rw [getAuxv_eq_iff]
    decide
  · rw [getAuxv_eq_iff]
    decide

/-- The handler neither falls back on the memory map nor fails. -/
theorem loaderAddress_runs_on {text : List UInt8} (hnone : ∀ e ∈ records 16 text, aType e ≠ atBase)
    (hleft : aType (leftover auxvBuf text) ≠ atBase) (fuel : ℕ) (procfs : VA) :
    loaderAddress fuel auxvBuf (some text) procfs = none := by
  have hentry : baseEntry text = none :=
    List.find?_eq_none.mpr fun e he => mt isBase_iff.mp (hnone e he)
  cases hget : getAuxv fuel auxvBuf (some text) with
  | none =>
    unfold loaderAddress
    rw [hget]
    rfl
  | some v =>
    have hv := (getAuxv_eq_iff auxvBuf text v).mp ⟨fuel, hget⟩
    unfold leftoverEntry at hv
    rw [hentry, if_neg (mt isBase_iff.mp hleft)] at hv
    cases hv

end LaunchMON.Engine
