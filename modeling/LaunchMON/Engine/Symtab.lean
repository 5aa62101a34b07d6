/-
  The linkage symbols of the launcher: `linux_image_t`, `image_base_t` and what the first handler
  makes of the main image.

  1. **Reading.**  `read_linkage_symbols` takes the section with the full symbol table, or else the
     last one with dynamic symbols, and goes through it in file order.  Entries without a name or with
     the value zero are left out, and the others go into a `std::map` by `insert`, which does nothing
     for a key that is there already.

  2. **Relocation.**  The handlers of the first trap give the main image the base address 0 and
     compute the relocated addresses from that.

  3. **The crux** (`getElem?_foldl_insertSym`): a lookup in the map finds the first entry of the table
     that was not left out, whatever its binding and whether it is defined or not.

  So `get_a_symbol` finds a symbol at its run-time address exactly when the first entry with its name
  is defined and lies there (`resolves_iff`).  An entry of the same name that is local or undefined and
  comes first hides it, and in an image that has been moved a symbol is off by the base
  (`foremost_base`).
-/
import LaunchMON.Engine.Process
import Std.Data.ExtTreeMap.Lemmas

namespace LaunchMON.Engine.Symtab

open CBytes Std

/-! ## ELF -/

/-- `LMON_ELF_visibility`. -/
inductive ElfVisibility
  | symLocal
  | symGlobal
  | symWeak
  | symProcspecific
  | symNone
  deriving DecidableEq, Repr

/-- `Elf64_Sym`, with the string that `elf_strptr` finds for its name. -/
structure ElfSym where
  symname : Option CString
  stInfo : UInt8
  stShndx : UInt16
  stValue : VA

/-- SHN_UNDEF. -/
def shnUndef : UInt16 := 0

/-- STB_LOCAL, STB_GLOBAL and STB_WEAK. -/
def stbLocal : UInt8 := 0
def stbGlobal : UInt8 := 1
def stbWeak : UInt8 := 2

/-- STB_LOPROC and STB_HIPROC. -/
def stbLoproc : UInt8 := 13
def stbHiproc : UInt8 := 15

/-- `resolve_binding`.  The last test is made on the whole of `st_info`. -/
def resolveBinding (code : UInt8) : ElfVisibility :=
  let bind := code >>> 4
  if bind = stbLocal then .symLocal
  else if bind = stbGlobal then .symGlobal
  else if bind = stbWeak then .symWeak
  else if code ≤ stbHiproc ∧ stbLoproc ≤ code then .symProcspecific
  else .symNone

/-- The types of section that `read_linkage_symbols` tells apart. -/
inductive ShType
  | symtab
  | dynsym
  | other
  deriving DecidableEq, Repr

/-- A section, with its entries if it is a symbol table. -/
structure Shdr where
  shType : ShType
  syms : List ElfSym

/-- The loop over the sections: the first full table, or else the last with dynamic symbols. -/
def symtabSect : List Shdr → Option Shdr → Option Shdr
  | [], dynsymSect => dynsymSect
  | sect :: sects, dynsymSect =>
    match sect.shType with
    | .symtab => some sect
    | .dynsym => symtabSect sects (some sect)
    | .other => symtabSect sects dynsymSect

/-! ## Images -/

/-- SYMTAB_UNINIT_ADDR, which is SYMTAB_INIT_IMAGE_BASE too. -/
def symtabUninitAddr : VA := 0xdeadbeefdeadbeef

/-- `linkage_symbol_t`. -/
structure LinkageSymbol where
  rawAddress : VA
  relocatedAddress : VA
  defined : Bool
  vis : ElfVisibility
  deriving DecidableEq

/-- `linux_image_t`. -/
structure LinuxImage where
  linkageSymtab : ExtTreeMap CString LinkageSymbol
  imageBaseAddress : VA

namespace LinuxImage

/-- The constructor. -/
def new : LinuxImage := ⟨∅, symtabUninitAddr⟩

def setImageBaseAddress (im : LinuxImage) (ba : VA) : LinuxImage := { im with imageBaseAddress := ba }

end LinuxImage

/-- The symbol that `read_linkage_symbols` makes of an entry. -/
def linkageSymbol (e : ElfSym) : LinkageSymbol :=
  { rawAddress := e.stValue
    relocatedAddress := symtabUninitAddr
    defined := e.stShndx ≠ shnUndef
    vis := resolveBinding e.stInfo }

/-- One entry in the loop of `read_linkage_symbols`. -/
def insertSym (tab : ExtTreeMap CString LinkageSymbol) (e : ElfSym) :
    ExtTreeMap CString LinkageSymbol :=
  match e.symname with
  | none => tab
  | some n =>
    if n ≠ CString.empty ∧ e.stValue ≠ 0 then tab.insertIfNew n (linkageSymbol e) else tab

/-- `read_linkage_symbols`. -/
def readLinkageSymbols (im : LinuxImage) (elf : List Shdr) : Except Exn LinuxImage :=
  match symtabSect elf none with
  | none => .error .symtab
  | some sect =>
    if sect.syms.isEmpty then .error .symtab
    else .ok { im with linkageSymtab := sect.syms.foldl insertSym im.linkageSymtab }

/-- `compute_reloc`. -/
def computeReloc (im : LinuxImage) : Except Exn LinuxImage :=
  if im.imageBaseAddress = symtabUninitAddr then .error .symtab
  else .ok { im with
    linkageSymtab := im.linkageSymtab.map fun _ s =>
      { s with relocatedAddress := s.rawAddress + im.imageBaseAddress } }

/-- `get_a_symbol`, and whether there is one: of the symbol it makes up, the relocated address is not
    set. -/
def getASymbol (garbage : VA) (im : LinuxImage) (key : CString) : LinkageSymbol :=
  im.linkageSymtab[key]?.getD ⟨symtabUninitAddr, garbage, false, .symNone⟩

/-- `init` and `read_linkage_symbols` of the main image, and the start of both
    `handle_trap_after_exec_event` and `handle_trap_after_attach_event`. -/
def mainImage (elf : List Shdr) : Except Exn LinuxImage := do
  let im ← readLinkageSymbols .new elf
  computeReloc (im.setImageBaseAddress 0)

/-- The image as the handlers of the engine see it, with the names of `launcher_symbols_init`. -/
def LinuxImage.handled (names : Sym → CString) (im : LinuxImage) : Image := fun s =>
  im.linkageSymtab[names s]?.map fun l => ⟨l.relocatedAddress, l.defined⟩

/-! ## What a lookup finds -/

/-- An entry that `read_linkage_symbols` keeps under the name `n`. -/
def ElfSym.Kept (n : CString) (e : ElfSym) : Prop :=
  e.symname = some n ∧ n ≠ CString.empty ∧ e.stValue ≠ 0

instance (n : CString) (e : ElfSym) : Decidable (e.Kept n) := inferInstanceAs (Decidable (_ ∧ _))

theorem insertSym_of_kept {n : CString} {e : ElfSym} (h : e.Kept n)
    (tab : ExtTreeMap CString LinkageSymbol) :
    insertSym tab e = tab.insertIfNew n (linkageSymbol e) := by
  obtain ⟨hname, hne, hval⟩ := h
  unfold insertSym
  rw [hname]
  exact if_pos ⟨hne, hval⟩

/-- An entry that is not kept under a name does not change what is found under it. -/
theorem getElem?_insertSym_of_not_kept {n : CString} {e : ElfSym} (h : ¬ e.Kept n)
    (tab : ExtTreeMap CString LinkageSymbol) : (insertSym tab e)[n]? = tab[n]? := by
  unfold insertSym
  cases hname : e.symname with
  | none => rfl
  | some n' =>
    dsimp only
    split
    · next hk =>
      -- it is kept, but under another name
      have hne : compare n' n ≠ .eq := by
        intro heq
        obtain rfl := LawfulEqCmp.eq_of_compare heq
        exact h ⟨hname, hk⟩
      rw [ExtTreeMap.getElem?_insertIfNew, if_neg fun hc => hne hc.1]
    · rfl

/-- What is there already stays. -/
theorem getElem?_insertIfNew_self (tab : ExtTreeMap CString LinkageSymbol) (n : CString)
    (s : LinkageSymbol) : (tab.insertIfNew n s)[n]? = (tab[n]? <|> some s) := by
  rw [ExtTreeMap.getElem?_insertIfNew]
  cases hn : tab[n]? with
  | none =>
    rw [if_pos]
    · rfl
    · refine ⟨compare_self, fun hmem => ?_⟩
      rw [ExtTreeMap.mem_iff_isSome_getElem?, hn] at hmem
      cases hmem
  | some s' =>
    rw [if_neg]
    · rfl
    · intro hc
      exact hc.2 (ExtTreeMap.mem_iff_isSome_getElem?.mpr (by rw [hn]; rfl))

/-- **The crux**: the first entry that is kept under a name is the one that is found. -/
theorem getElem?_foldl_insertSym (n : CString) : ∀ (syms : List ElfSym)
    (tab : ExtTreeMap CString LinkageSymbol),
    (syms.foldl insertSym tab)[n]? =
      (tab[n]? <|> (syms.find? fun e => e.Kept n).map linkageSymbol) := by
  intro syms
  induction syms with
  | nil =>
    intro tab
    show tab[n]? = (tab[n]? <|> none)
    cases tab[n]? <;> rfl
  | cons e es ih =>
    intro tab
    rw [List.foldl_cons, ih]
    by_cases hk : e.Kept n
    · rw [insertSym_of_kept hk, getElem?_insertIfNew_self, List.find?_cons, decide_eq_true hk]
      cases tab[n]? <;> rfl
    · rw [getElem?_insertSym_of_not_kept hk, List.find?_cons, decide_eq_false hk]

theorem readLinkageSymbols_eq_ok {im im' : LinuxImage} {elf : List Shdr}
    (h : readLinkageSymbols im elf = .ok im') : ∃ sect, symtabSect elf none = some sect ∧
      im' = { im with linkageSymtab := sect.syms.foldl insertSym im.linkageSymtab } := by
  unfold readLinkageSymbols at h
  cases hs : symtabSect elf none with
  | none =>
    rw [hs] at h
    cases h
  | some sect =>
    rw [hs] at h
    dsimp only at h
    split at h
    · cases h
    · cases h
      exact ⟨sect, rfl, rfl⟩

theorem computeReloc_eq_ok {im im' : LinuxImage} (h : computeReloc im = .ok im') :
    im' = { im with
      linkageSymtab := im.linkageSymtab.map fun _ s =>
        { s with relocatedAddress := s.rawAddress + im.imageBaseAddress } } := by
  unfold computeReloc at h
  split at h
  · cases h
  · cases h
    rfl

/-- The symbols of an image that is read for the first time and relocated. -/
theorem loaded_getElem? {elf : List Shdr} {sect : Shdr} {im₀ im : LinuxImage} {b : VA}
    (hsect : symtabSect elf none = some sect) (hread : readLinkageSymbols .new elf = .ok im₀)
    (hreloc : computeReloc (im₀.setImageBaseAddress b) = .ok im) (n : CString) :
    im.linkageSymtab[n]? = (sect.syms.find? fun e => e.Kept n).map fun e =>
      { linkageSymbol e with relocatedAddress := e.stValue + b } := by
  obtain ⟨sect', hsect', rfl⟩ := readLinkageSymbols_eq_ok hread
  rw [hsect] at hsect'
  cases hsect'
  rw [computeReloc_eq_ok hreloc]
  show (ExtTreeMap.map _ (sect.syms.foldl insertSym ∅))[n]? = _
  rw [ExtTreeMap.getElem?_map, getElem?_foldl_insertSym, ExtTreeMap.getElem?_empty]
  cases sect.syms.find? fun e => e.Kept n with
  | none => rfl
  | some e => rfl

/-- The symbols of the main image, after the first handler. -/
theorem mainImage_getElem? {elf : List Shdr} {sect : Shdr} {im : LinuxImage}
    (hsect : symtabSect elf none = some sect) (him : mainImage elf = .ok im) (n : CString) :
    im.linkageSymtab[n]? = (sect.syms.find? fun e => e.Kept n).map fun e =>
      { linkageSymbol e with relocatedAddress := e.stValue } := by
  unfold mainImage at him
  cases hread : readLinkageSymbols .new elf with
  | error e =>
    rw [hread] at him
    cases him
  | ok im₀ =>
    rw [hread] at him
    have hreloc : computeReloc (im₀.setImageBaseAddress 0) = .ok im := him
    rw [loaded_getElem? hsect hread hreloc n]
    cases sect.syms.find? fun e => e.Kept n with
    | none => rfl
    | some e =>
      have hbase : e.stValue + 0#64 = e.stValue := BitVec.add_zero _
      show some { linkageSymbol e with relocatedAddress := e.stValue + 0#64 } = _
      rw [hbase]
      rfl

/-! ## Run-time addresses -/

/-- A defined global symbol that has a value. -/
def ElfSym.Exported (e : ElfSym) : Prop :=
  e.stShndx ≠ shnUndef ∧ resolveBinding e.stInfo = .symGlobal ∧ e.stValue ≠ 0

/-- In an image that was loaded at `b`, each defined global symbol is found, defined and where it
    is. -/
def Resolves (garbage : VA) (syms : List ElfSym) (im : LinuxImage) (b : VA) : Prop :=
  ∀ e ∈ syms, e.Exported → ∀ n, e.symname = some n →
    (getASymbol garbage im n).defined = true ∧
    (getASymbol garbage im n).relocatedAddress = e.stValue + b

/-- Of the entries with the name of a defined global symbol and with a value, the first is defined and
    lies where the symbol is at run time. -/
def Foremost (syms : List ElfSym) (b : VA) : Prop :=
  ∀ e ∈ syms, e.Exported → ∀ n, e.symname = some n → n ≠ CString.empty ∧
    ∀ f, syms.find? (fun f => f.symname = some n ∧ f.stValue ≠ 0) = some f →
      f.stShndx ≠ shnUndef ∧ f.stValue = e.stValue + b

theorem find?_kept {syms : List ElfSym} {n : CString} (hne : n ≠ CString.empty) :
    (syms.find? fun e => e.Kept n) = syms.find? fun f => f.symname = some n ∧ f.stValue ≠ 0 := by
  congr 1
  funext e
  refine decide_eq_decide.mpr ⟨fun h => ⟨h.1, h.2.2⟩, fun h => ⟨h.1, hne, h.2⟩⟩

theorem not_kept_empty (e : ElfSym) : ¬ e.Kept CString.empty := fun h => h.2.1 rfl

section Main

variable (garbage b : VA) {elf : List Shdr} {sect : Shdr} {im : LinuxImage}

theorem foremost_of_resolves (hsect : symtabSect elf none = some sect) (him : mainImage elf = .ok im)
    (h : Resolves garbage sect.syms im b) : Foremost sect.syms b := by
  intro e he hex n hn
  obtain ⟨hdef, haddr⟩ := h e he hex n hn
  unfold getASymbol at hdef haddr
  rw [mainImage_getElem? hsect him] at hdef haddr
  have hne : n ≠ CString.empty := by
    rintro rfl
    rw [List.find?_eq_none.mpr fun f _ => by simpa using not_kept_empty f] at hdef
    cases hdef
  refine ⟨hne, fun f hf => ?_⟩
  rw [find?_kept hne, hf] at hdef haddr
  exact ⟨of_decide_eq_true hdef, haddr⟩

theorem resolves_of_foremost (hsect : symtabSect elf none = some sect) (him : mainImage elf = .ok im)
    (h : Foremost sect.syms b) : Resolves garbage sect.syms im b := by
  intro e he hex n hn
  obtain ⟨hne, hfirst⟩ := h e he hex n hn
  unfold getASymbol
  rw [mainImage_getElem? hsect him, find?_kept hne]
  -- the symbol itself has the name, so there is a first entry with it
  cases hf : sect.syms.find? fun f => f.symname = some n ∧ f.stValue ≠ 0 with
  | none =>
    have hnot := List.find?_eq_none.mp hf e he
    exact absurd (decide_eq_true ⟨hn, hex.2.2⟩) hnot
  | some f =>
    obtain ⟨hdef, hval⟩ := hfirst f hf
    exact ⟨decide_eq_true hdef, hval⟩

/-- **Symbol lookup.**  The defined global symbols of the launcher are found at their run-time
    addresses exactly when each is the foremost of its name, at the base that the handlers assume. -/
theorem resolves_iff (hsect : symtabSect elf none = some sect) (him : mainImage elf = .ok im) :
    Resolves garbage sect.syms im b ↔ Foremost sect.syms b :=
  ⟨foremost_of_resolves garbage b hsect him, resolves_of_foremost garbage b hsect him⟩

end Main

/-! ## Examples of tables -/

theorem noNul_mpirBreakpoint :
    (0 : UInt8) ∉ [77, 80, 73, 82, 95, 66, 114, 101, 97, 107, 112, 111, 105, 110, 116] := by decide

/-- LAUNCH_BREAKPOINT. -/
def mpirBreakpoint : CString := ⟨_, noNul_mpirBreakpoint⟩

/-- A local and a global function of a launcher. -/
def localEntry : ElfSym := ⟨some mpirBreakpoint, 0x02, 1, 0x401000⟩
def globalEntry : ElfSym := ⟨some mpirBreakpoint, 0x12, 1, 0x402000⟩

/-- An image with one symbol table. -/
def withTable (syms : List ElfSym) : List Shdr := [⟨.other, []⟩, ⟨.symtab, syms⟩]

theorem symtabSect_withTable (syms : List ElfSym) :
    symtabSect (withTable syms) none = some ⟨.symtab, syms⟩ := rfl

theorem mainImage_withTable (e : ElfSym) (es : List ElfSym) :
    ∃ im, mainImage (withTable (e :: es)) = .ok im := ⟨_, rfl⟩

theorem resolves_iff_global : ∃ im, mainImage (withTable [globalEntry]) = .ok im ∧
    (Resolves 0 [globalEntry] im 0 ↔ Foremost [globalEntry] 0) := by
  obtain ⟨im, him⟩ := mainImage_withTable globalEntry []
  exact ⟨im, him, resolves_iff 0 0 (symtabSect_withTable _) him⟩

/-- A local function hides a global one that comes behind it, and the symbols of a launcher that has
    been moved are off by its base. -/
theorem resolves_counterexample :
    (∃ im, mainImage (withTable [localEntry, globalEntry]) = .ok im ∧
      ¬ Resolves 0 [localEntry, globalEntry] im 0) ∧
    (∃ im, mainImage (withTable [globalEntry]) = .ok im ∧
      ¬ Resolves 0 [globalEntry] im 0x555555554000) := by
  have hex : globalEntry.Exported := by
    constructor <;> decide
  constructor
  · obtain ⟨im, him⟩ := mainImage_withTable localEntry [globalEntry]
    refine ⟨im, him, fun h => ?_⟩
    have hfor := foremost_of_resolves 0 0 (symtabSect_withTable _) him h
    have hfirst := (hfor globalEntry (List.mem_cons_of_mem _ (List.mem_cons_self ..)) hex _ rfl).2
    have hval := (hfirst localEntry rfl).2
    revert hval
    decide
  · obtain ⟨im, him⟩ := mainImage_withTable globalEntry []
    refine ⟨im, him, fun h => ?_⟩
    have hfor := foremost_of_resolves 0 0x555555554000 (symtabSect_withTable _) him h
    have hval := ((hfor globalEntry (List.mem_cons_self ..) hex _ rfl).2 globalEntry rfl).2
    revert hval
    decide

/-! ## Launchers -/

/-- Where a defined global symbol is the first of its name, the base has to be 0. -/
theorem foremost_base {syms : List ElfSym} {b : VA} {e : ElfSym} {n : CString} (h : Foremost syms b)
    (he : e ∈ syms) (hex : e.Exported) (hn : e.symname = some n)
    (hfirst : syms.find? (fun f => f.symname = some n ∧ f.stValue ≠ 0) = some e) : b = 0 := by
  have hval := ((h e he hex n hn).2 e hfirst).2
  exact BitVec.self_eq_add_right.mp hval

/-- The handlers of the engine find the launch breakpoint and the MPIR variables where they are. -/
theorem handled_of_foremost {elf : List Shdr} {sect : Shdr} {im : LinuxImage} {b : VA}
    (hsect : symtabSect elf none = some sect) (him : mainImage elf = .ok im)
    (h : Foremost sect.syms b) (names : Sym → CString) {s : Sym} {e : ElfSym} (he : e ∈ sect.syms)
    (hex : e.Exported) (hn : e.symname = some (names s)) :
    im.handled names s = some ⟨e.stValue + b, true⟩ := by
  obtain ⟨hdef, haddr⟩ := resolves_of_foremost 0 b hsect him h e he hex _ hn
  unfold LinuxImage.handled
  unfold getASymbol at hdef haddr
  cases hl : im.linkageSymtab[names s]? with
  | none =>
    rw [hl] at hdef
    cases hdef
  | some l =>
    rw [hl] at hdef haddr
    show some (Symbol.mk l.relocatedAddress l.defined) = _
    rw [show l.defined = true from hdef, show l.relocatedAddress = _ from haddr]

end LaunchMON.Engine.Symtab
