/-
  The link map of the launcher: `check_dependent_SOs`, for libraries with names, files and base
  addresses, over many events of the loader.

  1. **The scan.**  An event at the loader breakpoint walks the link map from `r_map` along `l_next`,
     until three libraries are known.  The loop has no bound of its own, so it has fuel here; the link
     map is what the tracer reads, and it does not lie where the engine writes.

  2. **The walk is a loop over a list** (`walk_chain`) when the link map is finite: with fuel for each
     entry it visits one after the other, until a file cannot be read.

  3. **One combined invariant** (`Good`): the launch breakpoint is inserted where the library of the
     launcher has it, if its base is known, and else where the launcher has it; and what has a base is
     relocated by it.  Each visit keeps it (`visitEntry_outcome`), and so does each event.

  So each library gets the base of the first entry with its name, and the launch breakpoint follows the
  library of the launcher (`launch_follows`).  It stays there when the library is gone from the link map
  (`launch_stays`), and where neither defines the symbol there is none (`launch_nowhere`).
-/
import LaunchMON.Engine.LaunchBp
import LaunchMON.Engine.Symtab

namespace LaunchMON.Engine.LinkMap

open Effect CBytes Symtab

/-! ## Names of libraries -/

/-- LIBPTHREAD_IDEN and LIBC_IDEN. -/
def libpthreadIden : List UInt8 := [108, 105, 98, 112, 116, 104, 114, 101, 97, 100, 46]
def libcIden : List UInt8 := [108, 105, 98, 99, 46]

/-- `basename`. -/
def basename (path : List UInt8) : List UInt8 :=
  if path = [] then [46]
  else
    let rest := path.reverse.dropWhile fun c => c = 47
    if rest = [] then [47] else (rest.takeWhile fun c => c ≠ 47).reverse

/-- The libraries that `check_dependent_SOs` looks for. -/
inductive Lib
  | thread
  | libc
  | rmso
  deriving DecidableEq, Repr

/-- The engine with the names of `launcher_symbols_init` and `get_launcher_so_name`. -/
structure Setup where
  cfg : Config
  names : Sym → CString
  launcherSoName : CString

/-- Which library a name in the link map is of. -/
def Setup.whichLib (P : Setup) (lname : CString) : Option Lib :=
  let bn := basename lname.bytes
  if libpthreadIden.isPrefixOf bn then some .thread
  else if libcIden.isPrefixOf bn then some .libc
  else if P.cfg.needCheckLauncherSo then
    if P.launcherSoName.bytes.isPrefixOf bn then some .rmso else none
  else none

/-! ## State -/

/-- `struct link_map`; a name that is not there is a NULL pointer. -/
structure LinkMapEntry where
  lAddr : VA
  lName : Option CString
  lNext : VA

/-- What the dynamic loader shows: `r_map`, the entries, and the files behind their names.  A read that
    fails gives `none`, and so does a file that is not an ELF file. -/
structure Rtld where
  rMap : Option VA
  entries : VA → Option LinkMapEntry
  files : CString → Option (List Shdr)

/-- The engine, with `get_mythread_lib_image`, `get_mylibc_image` and `get_myrmso_image`. -/
structure State where
  w : World
  images : Lib → LinuxImage
  rtld : Rtld

/-- `get_image_base_address`. -/
def State.base (s : State) (lib : Lib) : VA := (s.images lib).imageBaseAddress

def State.setImage (s : State) (lib : Lib) (im : LinuxImage) : State :=
  { s with images := Function.update s.images lib im }

/-- How a program ends that does not return. -/
inductive Stop
  | exn (e : Exn)
  | fuel
  deriving DecidableEq

abbrev LoaderM := EStateM Stop State

/-- The `catch` clauses of the engine. -/
def Stop.caught : Stop → Bool
  | .exn e => e ≠ .crash
  | .fuel => false

/-- What the engine does apart from the images. -/
def lift {α : Type} (x : EngineM α) : LoaderM α := fun s =>
  match x s.w with
  | .ok a w => .ok a { s with w := w }
  | .error e w => .error (.exn e) { s with w := w }

theorem lift_ok {α : Type} {x : EngineM α} {s : State} {a : α} {w : World} (h : x s.w = .ok a w) :
    lift x s = .ok a { s with w := w } := by
  unfold lift
  rw [h]

def orStop {α : Type} (e : Exn) : Option α → LoaderM α
  | some a => pure a
  | none => throw (.exn e)

def ofExcept {α : Type} : Except Exn α → LoaderM α
  | .ok a => pure a
  | .error e => throw (.exn e)

variable (P : Setup)

/-! ## `check_dependent_SOs` -/

/-- `init`, `read_linkage_symbols`, `set_image_base_address` and `compute_reloc`, for a library. -/
def initLib (lib : Lib) (slname : CString) (lAddr : VA) : LoaderM Unit := do
  let s ← get
  let elf ← orStop .symtab (s.rtld.files slname)
  let im ← ofExcept (readLinkageSymbols (s.images lib) elf)
  modify fun s => s.setImage lib (im.setImageBaseAddress lAddr)
  let im' ← ofExcept (computeReloc (im.setImageBaseAddress lAddr))
  modify fun s => s.setImage lib im'

/-- The MPIR variables are set once more, in the launcher and in its library.  `set_myrmso_image` sets
    what is there. -/
def resetMpirVariables : LoaderM Unit := do
  lift (handleMpirVariables P.cfg P.cfg.mainImage)
  let s ← get
  lift (handleMpirVariables P.cfg ((s.images .rmso).handled P.names))

/-- The body of the loop, for an entry of the link map; `rc` is the result so far. -/
def visitEntry (aMap : LinkMapEntry) (rc : Bool) : LoaderM Bool :=
  match aMap.lName with
  | none => pure rc
  | some lname => do
    let s ← get
    match P.whichLib lname with
    | some .thread =>
      if s.base .thread = symtabUninitAddr then do
        initLib .thread lname aMap.lAddr
        pure true
      else pure rc
    | some .libc =>
      if s.base .libc = symtabUninitAddr then do
        initLib .libc lname aMap.lAddr
        pure rc
      else pure rc
    | some .rmso =>
      if s.base .rmso = symtabUninitAddr then do
        initLib .rmso lname aMap.lAddr
        resetMpirVariables P
        pure rc
      else pure rc
    | none => pure rc

/-- The loop. -/
def walk : Nat → VA → Bool → LoaderM Bool
  | 0, _, _ => throw .fuel
  | fuel + 1, whereToRead, rc => do
    let s ← get
    let aMap ← orStop .tracer (s.rtld.entries whereToRead)
    let rc ← visitEntry P aMap rc
    if aMap.lNext ≠ 0 ∧ aMap.lNext ≠ uninitHex then walk fuel aMap.lNext rc else pure rc

/-- The libraries have been found. -/
def State.allFound (s : State) : Prop :=
  s.base .libc ≠ symtabUninitAddr ∧ s.base .thread ≠ symtabUninitAddr ∧
    (P.cfg.needCheckLauncherSo = false ∨ s.base .rmso ≠ symtabUninitAddr)

instance (s : State) : Decidable (s.allFound P) := inferInstanceAs (Decidable (_ ∧ _))

/-- `check_dependent_SOs`.  LAUNCHMON_FAILED is `true` as a `bool`. -/
def checkDependentSOs (fuel : Nat) : LoaderM Bool := catching Stop.caught true do
  let s ← get
  if s.allFound P then pure false
  else do
    let rMap ← orStop .tracer s.rtld.rMap
    if rMap = 0 then throw (.exn .crash)
    else walk P fuel rMap false

/-- `handle_loader_bp_event`. -/
def handleLoaderBpEvent (fuel : Nat) : LoaderM Rc := catching Stop.caught .failed do
  let done ← lift (isBpPrologueDone P.cfg .loader)
  if done then do
    let _ ← checkDependentSOs P fuel
    lift (tracerContinue P.cfg true)
    pure .ok
  else pure .ok

/-! ## One library -/

/-- All symbols of an image are relocated by its base. -/
def Relocated (im : LinuxImage) : Prop :=
  im.imageBaseAddress ≠ symtabUninitAddr → ∀ (n : CString) (sym : LinkageSymbol),
    im.linkageSymtab[n]? = some sym → sym.relocatedAddress = sym.rawAddress + im.imageBaseAddress

/-- The image of a library that is at `lAddr`, if its file can be read. -/
def loadImage (im : LinuxImage) (file : Option (List Shdr)) (lAddr : VA) : Option LinuxImage :=
  file.bind fun elf => (readLinkageSymbols im elf).toOption.bind fun im =>
    (computeReloc (im.setImageBaseAddress lAddr)).toOption

theorem computeReloc_spec {im im' : LinuxImage} (h : computeReloc im = .ok im') :
    im.imageBaseAddress ≠ symtabUninitAddr ∧ im'.imageBaseAddress = im.imageBaseAddress ∧
      Relocated im' := by
  have hne : im.imageBaseAddress ≠ symtabUninitAddr := by
    intro hun
    unfold computeReloc at h
    rw [if_pos hun] at h
    cases h
  obtain rfl := computeReloc_eq_ok h
  refine ⟨hne, rfl, fun _ n sym hsym => ?_⟩
  dsimp only at hsym
  rw [Std.ExtTreeMap.getElem?_map] at hsym
  obtain ⟨sym₀, -, rfl⟩ := Option.map_eq_some_iff.mp hsym
  rfl

theorem toOption_eq_some {ε α : Type} {x : Except ε α} {a : α} (h : x.toOption = some a) :
    x = .ok a := by
  cases x with
  | error e => cases h
  | ok b => exact congrArg _ (Option.some.inj h)

/-- What has been loaded was read and relocated. -/
theorem loadImage_eq_some {im im' : LinuxImage} {file : Option (List Shdr)} {lAddr : VA}
    (h : loadImage im file lAddr = some im') : ∃ elf im₁, file = some elf ∧
      readLinkageSymbols im elf = .ok im₁ ∧ computeReloc (im₁.setImageBaseAddress lAddr) = .ok im' := by
  obtain ⟨elf, helf, h⟩ := Option.bind_eq_some_iff.mp h
  obtain ⟨im₁, hread, hreloc⟩ := Option.bind_eq_some_iff.mp h
  exact ⟨elf, im₁, helf, toOption_eq_some hread, toOption_eq_some hreloc⟩

theorem loadImage_spec {im im' : LinuxImage} {file : Option (List Shdr)} {lAddr : VA}
    (h : loadImage im file lAddr = some im') :
    lAddr ≠ symtabUninitAddr ∧ im'.imageBaseAddress = lAddr ∧ Relocated im' := by
  obtain ⟨_, _, -, -, hreloc⟩ := loadImage_eq_some h
  exact computeReloc_spec hreloc

theorem readLinkageSymbols_error {im : LinuxImage} {elf : List Shdr} {e : Exn}
    (h : readLinkageSymbols im elf = .error e) : e = .symtab := by
  unfold readLinkageSymbols at h
  split at h
  · cases h
    rfl
  · split at h
    · cases h
      rfl
    · cases h

theorem computeReloc_error {im : LinuxImage} {e : Exn} (h : computeReloc im = .error e) :
    e = .symtab ∧ im.imageBaseAddress = symtabUninitAddr := by
  unfold computeReloc at h
  split at h
  · next hun =>
    cases h
    exact ⟨rfl, hun⟩
  · cases h

theorem setImage_setImage (s : State) (lib : Lib) (im im' : LinuxImage) :
    (s.setImage lib im).setImage lib im' = s.setImage lib im' := by
  unfold State.setImage
  rw [Function.update_idem]

theorem setImage_self (s : State) (lib : Lib) : s.setImage lib (s.images lib) = s := by
  unfold State.setImage
  rw [Function.update_eq_self]

theorem ofExcept_ok {α : Type} {x : Except Exn α} {a : α} (h : x = .ok a) (s : State) :
    ofExcept x s = .ok a s := by
  rw [h]
  rfl

theorem ofExcept_error {α : Type} {x : Except Exn α} {e : Exn} (h : x = .error e) (s : State) :
    ofExcept x s = .error (.exn e) s := by
  rw [h]
  rfl

/-- A library whose file can be read. -/
theorem initLib_ok {s : State} {lib : Lib} {lname : CString} {lAddr : VA} {im : LinuxImage}
    (h : loadImage (s.images lib) (s.rtld.files lname) lAddr = some im) :
    initLib lib lname lAddr s = .ok () (s.setImage lib im) := by
  have hget : (get : LoaderM State) s = .ok s s := rfl
  obtain ⟨elf, im₁, helf, hread, hreloc⟩ := loadImage_eq_some h
  have hfile : orStop .symtab (s.rtld.files lname) s = .ok elf s := by
    rw [helf]
    rfl
  have hset : ∀ im' : LinuxImage, (modify fun s => s.setImage lib im' : LoaderM Unit) s =
      .ok () (s.setImage lib im') := fun _ => rfl
  unfold initLib
  rw [ok_bind hget, ok_bind hfile, ok_bind (ofExcept_ok hread s), ok_bind (hset _),
    ok_bind (ofExcept_ok hreloc _)]
  show EStateM.Result.ok () ((s.setImage lib _).setImage lib im) = _
  rw [setImage_setImage]

/-- A library whose file cannot be read: its base stays unknown. -/
theorem initLib_error {s : State} {lib : Lib} {lname : CString} {lAddr : VA}
    (hun : s.base lib = symtabUninitAddr)
    (h : loadImage (s.images lib) (s.rtld.files lname) lAddr = none) :
    ∃ im, initLib lib lname lAddr s = .error (.exn .symtab) (s.setImage lib im) ∧
      im.imageBaseAddress = symtabUninitAddr := by
  have hget : (get : LoaderM State) s = .ok s s := rfl
  unfold initLib
  rw [ok_bind hget]
  cases helf : s.rtld.files lname with
  | none =>
    have hfile : orStop (α := List Shdr) .symtab none s = .error (.exn .symtab) s := rfl
    refine ⟨s.images lib, ?_, hun⟩
    rw [error_bind hfile, setImage_self]
  | some elf =>
    have hfile : orStop .symtab (some elf) s = .ok elf s := rfl
    rw [ok_bind hfile]
    cases hread : readLinkageSymbols (s.images lib) elf with
    | error e =>
      obtain rfl := readLinkageSymbols_error hread
      refine ⟨s.images lib, ?_, hun⟩
      rw [error_bind (ofExcept_error rfl s), setImage_self]
    | ok im₁ =>
      have hset : (modify fun s => s.setImage lib (im₁.setImageBaseAddress lAddr) : LoaderM Unit) s =
          .ok () (s.setImage lib (im₁.setImageBaseAddress lAddr)) := rfl
      rw [ok_bind (ofExcept_ok rfl s), ok_bind hset]
      cases hr : computeReloc (im₁.setImageBaseAddress lAddr) with
      | ok im₂ =>
        -- then the image would have been loaded
        unfold loadImage at h
        rw [helf, Option.bind_some, hread] at h
        have h' : (computeReloc (im₁.setImageBaseAddress lAddr)).toOption = none := h
        rw [hr] at h'
        cases h'
      | error e =>
        obtain ⟨rfl, hbase⟩ := computeReloc_error hr
        exact ⟨_, error_bind (ofExcept_error rfl _), hbase⟩

/-! ## The scan -/

variable {P}

/-- The library of an entry. -/
def Setup.libOf (P : Setup) (e : LinkMapEntry) : Option Lib := e.lName.bind P.whichLib

/-- The first entry with the name of a library. -/
def Setup.firstOf (P : Setup) (lib : Lib) (es : List LinkMapEntry) : Option LinkMapEntry :=
  es.find? fun e => P.libOf e = some lib

/-- Where the launch breakpoint belongs: in the library of the launcher, if its base is known, and
    else in the launcher. -/
def State.launch (P : Setup) (s : State) : Option VA :=
  (if s.base .rmso = symtabUninitAddr then none else launchOf ((s.images .rmso).handled P.names)) <|>
    launchOf P.cfg.mainImage

/-- What holds after every event. -/
structure Good (P : Setup) (s : State) : Prop where
  inserted : Inserted P.cfg (s.launch P) s.w
  relocated : ∀ lib, Relocated (s.images lib)

/-- The image that an entry makes of a library. -/
def State.load (s : State) (lib : Lib) (e : LinkMapEntry) : Option LinuxImage :=
  e.lName.bind fun lname => loadImage (s.images lib) (s.rtld.files lname) e.lAddr

/-- If the library of the launcher is about to be found, then what is written for it and for the
    launcher is mapped and laid out. -/
def RmsoOpen (P : Setup) (s : State) (es : List LinkMapEntry) : Prop :=
  s.base .rmso = symtabUninitAddr → ∀ e im, P.firstOf .rmso es = some e →
    s.load .rmso e = some im → ∀ im' ∈ [P.cfg.mainImage, im.handled P.names],
      Laid P.cfg im' ∧ Open P.cfg im' (s.w.target.mem 0)

/-- What a scan of the entries `es` has done, or a part of it. -/
structure Scanned (P : Setup) (es : List LinkMapEntry) (s s' : State) : Prop where
  good : Good P s'
  onward : Onward s.w s'.w
  rtld : s'.rtld = s.rtld
  kept : ∀ lib, s.base lib ≠ symtabUninitAddr → s'.images lib = s.images lib
  /-- a base that is new is that of the first entry, and the image is the one of its file -/
  first : ∀ lib, s.base lib = symtabUninitAddr → s'.base lib ≠ symtabUninitAddr →
    ∃ e, P.firstOf lib es = some e ∧ s'.base lib = e.lAddr ∧ s.load lib e = some (s'.images lib)
  absent : ∀ lib, P.firstOf lib es = none → s'.images lib = s.images lib

/-- A whole scan: every library with an entry has a base. -/
def Complete (P : Setup) (es : List LinkMapEntry) (s s' : State) : Prop :=
  ∀ lib e, s.base lib = symtabUninitAddr → P.firstOf lib es = some e →
    s'.base lib = e.lAddr ∧ e.lAddr ≠ symtabUninitAddr

/-- The first entry of a library that is not known cannot be loaded. -/
def Unreadable (P : Setup) (es : List LinkMapEntry) (s : State) : Prop :=
  ∃ lib e, s.base lib = symtabUninitAddr ∧ P.firstOf lib es = some e ∧ s.load lib e = none

theorem firstOf_cons (P : Setup) (lib : Lib) (e : LinkMapEntry) (es : List LinkMapEntry) :
    P.firstOf lib (e :: es) = if P.libOf e = some lib then some e else P.firstOf lib es := by
  unfold Setup.firstOf
  rw [List.find?_cons]
  by_cases h : P.libOf e = some lib
  · rw [decide_eq_true h, if_pos h]
  · rw [decide_eq_false h, if_neg h]

theorem firstOf_cons_self {lib : Lib} {e : LinkMapEntry} (h : P.libOf e = some lib)
    (es : List LinkMapEntry) : P.firstOf lib (e :: es) = some e := by
  rw [firstOf_cons, if_pos h]

/-- An entry of another library does not count. -/
theorem firstOf_cons_ne {lib lib' : Lib} {e : LinkMapEntry} (h : P.libOf e = some lib)
    (hne : lib' ≠ lib) (es : List LinkMapEntry) : P.firstOf lib' (e :: es) = P.firstOf lib' es := by
  rw [firstOf_cons, if_neg]
  intro h'
  exact hne (Option.some.inj (h'.symm.trans h))

theorem images_setImage_self (s : State) (lib : Lib) (im : LinuxImage) :
    (s.setImage lib im).images lib = im := Function.update_self ..

theorem images_setImage_ne {s : State} {lib lib' : Lib} (h : lib' ≠ lib) (im : LinuxImage) :
    (s.setImage lib im).images lib' = s.images lib' := Function.update_of_ne h ..

theorem base_setImage_self (s : State) (lib : Lib) (im : LinuxImage) :
    (s.setImage lib im).base lib = im.imageBaseAddress := by
  unfold State.base
  rw [images_setImage_self]

/-- An entry that is of no use: it is of no library, or of one that is known. -/
theorem visitEntry_skip {s : State} {e : LinkMapEntry}
    (h : ∀ lib, P.libOf e = some lib → s.base lib ≠ symtabUninitAddr) (rc : Bool) :
    visitEntry P e rc s = .ok rc s := by
  have hget : (get : LoaderM State) s = .ok s s := rfl
  unfold visitEntry
  cases hname : e.lName with
  | none => rfl
  | some lname =>
    have hlib : P.libOf e = P.whichLib lname := by
      unfold Setup.libOf
      rw [hname]
      rfl
    dsimp only
    rw [ok_bind hget]
    cases hw : P.whichLib lname with
    | none => rfl
    | some lib =>
      have hne := h lib (hlib.trans hw)
      cases lib with
      | thread =>
        dsimp only
        rw [if_neg hne]
        rfl
      | libc =>
        dsimp only
        rw [if_neg hne]
        rfl
      | rmso =>
        dsimp only
        rw [if_neg hne]
        rfl

/-- What `check_dependent_SOs` does with a library that has just been found. -/
def found (P : Setup) (lib : Lib) : LoaderM Unit :=
  if lib = .rmso then resetMpirVariables P else pure ()

/-- An entry of a library that is not known. -/
theorem visitEntry_new {s : State} {e : LinkMapEntry} {lib : Lib} (hlib : P.libOf e = some lib)
    (hun : s.base lib = symtabUninitAddr) (rc : Bool) : ∃ lname, e.lName = some lname ∧
      visitEntry P e rc s = (do
        initLib lib lname e.lAddr
        found P lib
        pure (rc || lib = .thread) : LoaderM Bool) s := by
  have hget : (get : LoaderM State) s = .ok s s := rfl
  obtain ⟨lname, hname, hw⟩ := Option.bind_eq_some_iff.mp hlib
  refine ⟨lname, hname, ?_⟩
  unfold visitEntry
  rw [hname]
  dsimp only
  rw [ok_bind hget, hw]
  cases lib with
  | thread =>
    dsimp only
    rw [if_pos hun, decide_eq_true rfl, Bool.or_true]
    rfl
  | libc =>
    dsimp only
    rw [if_pos hun]
    show _ = (do
      initLib .libc lname e.lAddr
      pure ()
      pure (rc || false) : LoaderM Bool) s
    rw [Bool.or_false]
  | rmso =>
    dsimp only
    rw [if_pos hun]
    show _ = (do
      initLib .rmso lname e.lAddr
      resetMpirVariables P
      pure (rc || false) : LoaderM Bool) s
    rw [Bool.or_false]

/-- What `resetMpirVariables` does when the library has just been found. -/
theorem found_ready {s : State} {lib : Lib} {im : LinuxImage} {t : LwpId} {l : Lwp}
    (h : Ready s.w t l) (hi : Inserted P.cfg (s.launch P) s.w)
    (hun : s.base lib = symtabUninitAddr) (hbase : im.imageBaseAddress ≠ symtabUninitAddr)
    (hopen : lib = .rmso → ∀ im' ∈ [P.cfg.mainImage, im.handled P.names],
      Laid P.cfg im' ∧ Open P.cfg im' (s.w.target.mem 0)) :
    ∃ w', found P lib (s.setImage lib im) = .ok () { s.setImage lib im with w := w' } ∧
      Onward s.w w' ∧ Inserted P.cfg (State.launch P { s.setImage lib im with w := w' }) w' := by
  by_cases hlib : lib = .rmso
  · subst hlib
    have hget : ∀ s : State, (get : LoaderM State) s = .ok s s := fun _ => rfl
    obtain ⟨hmain, hrmso⟩ := List.forall_mem_cons.mp (hopen rfl)
    obtain ⟨hlaid, hmap⟩ := hmain
    obtain ⟨hlaid', hmap'⟩ := hrmso _ (List.mem_singleton_self _)
    have hold : s.launch P = launchOf P.cfg.mainImage := by
      unfold State.launch
      rw [if_pos hun]
      rfl
    rw [hold] at hi
    -- first the launcher, then its library
    obtain ⟨w₁, hrun₁, ho₁, hi₁⟩ := handleMpirVariables_ready h hi hlaid hmap hmap.slot
    have hsame : (launchOf P.cfg.mainImage <|> launchOf P.cfg.mainImage) =
        launchOf P.cfg.mainImage := by
      cases launchOf P.cfg.mainImage <;> rfl
    rw [hsame] at hi₁
    obtain ⟨w₂, hrun₂, ho₂, hi₂⟩ := handleMpirVariables_ready (h.onward ho₁) hi₁ hlaid'
      (hmap'.onward ho₁) (hmap.onward ho₁).slot
    refine ⟨w₂, ?_, ho₁.trans ho₂, ?_⟩
    · have hlift₁ : lift (handleMpirVariables P.cfg P.cfg.mainImage) (s.setImage .rmso im) =
          .ok () { s.setImage .rmso im with w := w₁ } := lift_ok hrun₁
      have himage : ({ s.setImage .rmso im with w := w₁ } : State).images .rmso = im :=
        images_setImage_self s .rmso im
      unfold found
      rw [if_pos rfl]
      unfold resetMpirVariables
      rw [ok_bind hlift₁, ok_bind (hget _), himage]
      exact lift_ok hrun₂
    · have himage : ({ s.setImage .rmso im with w := w₂ } : State).images .rmso = im :=
        images_setImage_self s .rmso im
      unfold State.launch State.base
      rw [himage, if_neg hbase]
      exact hi₂
  · refine ⟨s.w, ?_, .refl s.w, ?_⟩
    · unfold found
      rw [if_neg hlib]
      rfl
    · have himage : ({ s.setImage lib im with w := s.w } : State).images .rmso = s.images .rmso :=
        images_setImage_ne (Ne.symm hlib) im
      unfold State.launch State.base at hi ⊢
      rw [himage]
      exact hi

/-- The loop over a list of entries. -/
def visitAll (P : Setup) : List LinkMapEntry → Bool → LoaderM Bool
  | [], rc => pure rc
  | e :: es, rc => do
    let rc ← visitEntry P e rc
    visitAll P es rc

theorem Good.relocated_set {s : State} (h : Good P s) {lib : Lib} {im : LinuxImage}
    (him : Relocated im) (lib' : Lib) : Relocated ((s.setImage lib im).images lib') := by
  by_cases hlib : lib' = lib
  · subst hlib
    rw [images_setImage_self]
    exact him
  · rw [images_setImage_ne hlib]
    exact h.relocated lib'

theorem load_base {s : State} {lib : Lib} {e : LinkMapEntry} {im : LinuxImage}
    (h : s.load lib e = some im) : im.imageBaseAddress = e.lAddr := by
  obtain ⟨lname, -, h⟩ := Option.bind_eq_some_iff.mp h
  exact (loadImage_spec h).2.1

/-- The base of one library changes. -/
theorem scanned_set {s : State} {lib : Lib} {e : LinkMapEntry} {es : List LinkMapEntry}
    {im : LinuxImage} {w' : World} (hlib : P.libOf e = some lib)
    (hun : s.base lib = symtabUninitAddr) (hgood : Good P { s.setImage lib im with w := w' })
    (ho : Onward s.w w')
    (hload : im.imageBaseAddress = symtabUninitAddr ∨ s.load lib e = some im) :
    Scanned P (e :: es) s { s.setImage lib im with w := w' } := by
  refine ⟨hgood, ho, rfl, fun lib' hne => ?_, fun lib' hun' hne => ?_, fun lib' hnone => ?_⟩
  · refine images_setImage_ne ?_ im
    rintro rfl
    exact hne hun
  · by_cases hl : lib' = lib
    · subst hl
      have hbase' : ({ s.setImage lib' im with w := w' } : State).base lib' = im.imageBaseAddress :=
        base_setImage_self s lib' im
      rw [hbase'] at hne ⊢
      have hsome := hload.resolve_left hne
      refine ⟨e, firstOf_cons_self hlib es, load_base hsome, ?_⟩
      show _ = some ((s.setImage lib' im).images lib')
      rw [images_setImage_self]
      exact hsome
    · have hsame : ({ s.setImage lib im with w := w' } : State).base lib' = s.base lib' :=
        congrArg LinuxImage.imageBaseAddress (images_setImage_ne hl im)
      exact absurd (hsame.trans hun') hne
  · refine images_setImage_ne ?_ im
    rintro rfl
    cases (firstOf_cons_self hlib es).symm.trans hnone

/-- **One entry**: it is passed over, its library is found, or the scan ends there. -/
theorem visitEntry_outcome {s : State} {e : LinkMapEntry} {es : List LinkMapEntry} {t : LwpId}
    {l : Lwp} (hg : Good P s) (h : Ready s.w t l) (hopen : RmsoOpen P s (e :: es)) (rc : Bool) :
    (visitEntry P e rc s = .ok rc s ∧ ∀ lib, P.libOf e = some lib → s.base lib ≠ symtabUninitAddr) ∨
    ∃ lib s', P.libOf e = some lib ∧ s.base lib = symtabUninitAddr ∧ Scanned P (e :: es) s s' ∧
      (∀ lib', lib' ≠ lib → s'.images lib' = s.images lib') ∧
      (visitEntry P e rc s = .error (.exn .symtab) s' ∧ s.load lib e = none ∨
        (∃ rc', visitEntry P e rc s = .ok rc' s') ∧ s.load lib e = some (s'.images lib) ∧
          e.lAddr ≠ symtabUninitAddr ∧ (lib ≠ .rmso → s'.w = s.w)) := by
  by_cases hskip : ∀ lib, P.libOf e = some lib → s.base lib ≠ symtabUninitAddr
  · exact Or.inl ⟨visitEntry_skip hskip rc, hskip⟩
  · right
    push Not at hskip
    obtain ⟨lib, hlib, hun⟩ := hskip
    obtain ⟨lname, hname, hvisit⟩ := visitEntry_new hlib hun rc
    have hload : s.load lib e = loadImage (s.images lib) (s.rtld.files lname) e.lAddr := by
      unfold State.load
      rw [hname]
      rfl
    -- the library is new: its file is read, or it is not
    cases him : s.load lib e with
    | none =>
      obtain ⟨im, herr, hbase⟩ := initLib_error hun (hload.symm.trans him)
      have hlaunch : State.launch P (s.setImage lib im) = s.launch P := by
        by_cases hl : lib = .rmso
        · subst hl
          unfold State.launch
          rw [if_pos hun, if_pos ((base_setImage_self s .rmso im).trans hbase)]
        · unfold State.launch State.base
          rw [images_setImage_ne (Ne.symm hl)]
      have hgood : Good P (s.setImage lib im) := by
        refine ⟨?_, hg.relocated_set fun hne => absurd hbase hne⟩
        rw [hlaunch]
        exact hg.inserted
      refine ⟨lib, s.setImage lib im, hlib, hun,
        scanned_set hlib hun hgood (.refl s.w) (Or.inl hbase),
        fun lib' hne => images_setImage_ne hne im, Or.inl ⟨?_, him⟩⟩
      rw [hvisit, error_bind herr]
    | some im =>
      obtain ⟨hne, hbase, hreloc⟩ := loadImage_spec (hload.symm.trans him)
      have hok := initLib_ok (hload.symm.trans him)
      have hbase' : im.imageBaseAddress ≠ symtabUninitAddr := by rwa [hbase]
      have hopen' : lib = .rmso → ∀ im' ∈ [P.cfg.mainImage, im.handled P.names],
          Laid P.cfg im' ∧ Open P.cfg im' (s.w.target.mem 0) := by
        rintro rfl
        exact hopen hun e im (firstOf_cons_self hlib es) him
      obtain ⟨w', hfound, ho, hins⟩ := found_ready h hg.inserted hun hbase' hopen'
      refine ⟨lib, { s.setImage lib im with w := w' }, hlib, hun,
        scanned_set hlib hun ⟨hins, hg.relocated_set hreloc⟩ ho (Or.inr him),
        fun lib' hne => images_setImage_ne hne im, Or.inr ⟨⟨rc || lib = .thread, ?_⟩, ?_, hne, ?_⟩⟩
      · rw [hvisit, ok_bind hok, ok_bind hfound]
        rfl
      · show _ = some ((s.setImage lib im).images lib)
        rw [images_setImage_self]
        exact him
      · intro hl
        unfold found at hfound
        rw [if_neg hl] at hfound
        exact (congrArg State.w (EStateM.Result.ok.inj hfound).2).symm

theorem Scanned.refl {s : State} (hg : Good P s) (es : List LinkMapEntry) : Scanned P es s s :=
  ⟨hg, .refl s.w, rfl, fun _ _ => rfl, fun _ hun hne => absurd hun hne, fun _ _ => rfl⟩

theorem load_congr {s s₁ : State} {lib : Lib} (him : s₁.images lib = s.images lib)
    (hr : s₁.rtld = s.rtld) (e : LinkMapEntry) : s₁.load lib e = s.load lib e := by
  unfold State.load
  rw [him, hr]

/-- The scan goes on behind an entry that it has passed over. -/
theorem Scanned.skip {s s' : State} {e : LinkMapEntry} {es : List LinkMapEntry}
    (hskip : ∀ lib, P.libOf e = some lib → s.base lib ≠ symtabUninitAddr)
    (h : Scanned P es s s') : Scanned P (e :: es) s s' := by
  refine ⟨h.good, h.onward, h.rtld, h.kept, fun lib hun hne => ?_, fun lib hnone => ?_⟩
  · obtain ⟨e', he', hbase⟩ := h.first lib hun hne
    refine ⟨e', ?_, hbase⟩
    rw [firstOf_cons, if_neg fun hlib => hskip lib hlib hun]
    exact he'
  · by_cases hlib : P.libOf e = some lib
    · cases (firstOf_cons_self hlib es).symm.trans hnone
    · rw [firstOf_cons, if_neg hlib] at hnone
      exact h.absent lib hnone

/-- The scan goes on behind an entry whose library it has found. -/
theorem Scanned.trans {s s₁ s' : State} {e : LinkMapEntry} {es : List LinkMapEntry} {lib : Lib}
    (hlib : P.libOf e = some lib) (hun : s.base lib = symtabUninitAddr)
    (hothers : ∀ lib', lib' ≠ lib → s₁.images lib' = s.images lib')
    (hload : s.load lib e = some (s₁.images lib)) (hne : e.lAddr ≠ symtabUninitAddr)
    (h₁ : Scanned P (e :: es) s s₁) (h : Scanned P es s₁ s') : Scanned P (e :: es) s s' := by
  have hbase : s₁.base lib = e.lAddr := load_base hload
  have hset : s₁.base lib ≠ symtabUninitAddr := by rwa [hbase]
  refine ⟨h.good, h₁.onward.trans h.onward, h.rtld.trans h₁.rtld, fun lib' hne' => ?_,
    fun lib' hun' hne' => ?_, fun lib' hnone => ?_⟩
  · have hl : lib' ≠ lib := by
      rintro rfl
      exact hne' hun
    have hsame : s₁.base lib' = s.base lib' := congrArg LinuxImage.imageBaseAddress (hothers lib' hl)
    rw [h.kept lib' (by rwa [hsame])]
    exact hothers lib' hl
  · by_cases hl : lib' = lib
    · subst hl
      refine ⟨e, firstOf_cons_self hlib es, ?_⟩
      unfold State.base
      rw [h.kept lib' hset]
      exact ⟨hbase, hload⟩
    · have hsame : s₁.base lib' = s.base lib' :=
        congrArg LinuxImage.imageBaseAddress (hothers lib' hl)
      obtain ⟨e', he', hbase', hload'⟩ := h.first lib' (hsame.trans hun') hne'
      rw [load_congr (hothers lib' hl) h₁.rtld] at hload'
      exact ⟨e', (firstOf_cons_ne hlib hl es).trans he', hbase', hload'⟩
  · have hl : lib' ≠ lib := by
      rintro rfl
      cases (firstOf_cons_self hlib es).symm.trans hnone
    rw [firstOf_cons_ne hlib hl] at hnone
    rw [h.absent lib' hnone]
    exact hothers lib' hl

/-- **The scan**: it sees all entries, or ends at a library that it cannot read. -/
theorem visitAll_outcome {t : LwpId} {l : Lwp} : ∀ (es : List LinkMapEntry) (s : State) (rc : Bool),
    Good P s → Ready s.w t l → RmsoOpen P s es → ∃ s', Scanned P es s s' ∧
      ((∃ rc', visitAll P es rc s = .ok rc' s') ∧ Complete P es s s' ∨
        visitAll P es rc s = .error (.exn .symtab) s' ∧ Unreadable P es s) := by
  intro es
  induction es with
  | nil =>
    intro s rc hg _ _
    refine ⟨s, .refl hg [], Or.inl ⟨⟨rc, rfl⟩, fun lib e _ he => ?_⟩⟩
    cases he
  | cons e es ih =>
    intro s rc hg h hopen
    rcases visitEntry_outcome hg h hopen rc with
      ⟨hvisit, hskip⟩ | ⟨lib, s₁, hlib, hun, hscan, hothers, hend | ⟨⟨rc', hvisit⟩, hload, hne, hw⟩⟩
    · -- passed over
      have hfirst : ∀ lib, s.base lib = symtabUninitAddr →
          P.firstOf lib (e :: es) = P.firstOf lib es := by
        intro lib hun
        rw [firstOf_cons, if_neg fun hlib => hskip lib hlib hun]
      have hopen' : RmsoOpen P s es := by
        intro hun e' im he'
        exact hopen hun e' im ((hfirst .rmso hun).trans he')
      obtain ⟨s', hscan, hend⟩ := ih s rc hg h hopen'
      have hrun : visitAll P (e :: es) rc s = visitAll P es rc s := ok_bind hvisit
      refine ⟨s', hscan.skip hskip, ?_⟩
      rw [hrun]
      refine hend.imp (And.imp_right fun hc lib e' hun he' => ?_) (And.imp_right ?_)
      · exact hc lib e' hun ((hfirst lib hun).symm.trans he')
      · rintro ⟨lib, e', hun, he', hload⟩
        exact ⟨lib, e', hun, (hfirst lib hun).trans he', hload⟩
    · -- the end
      obtain ⟨herr, hload⟩ := hend
      exact ⟨s₁, hscan, Or.inr ⟨error_bind herr, lib, e, hun, firstOf_cons_self hlib es, hload⟩⟩
    · -- found
      have hsame : ∀ lib', lib' ≠ lib → s₁.base lib' = s.base lib' :=
        fun lib' hl => congrArg LinuxImage.imageBaseAddress (hothers lib' hl)
      have hloads : ∀ lib' e', lib' ≠ lib → s₁.load lib' e' = s.load lib' e' :=
        fun lib' e' hl => load_congr (hothers lib' hl) hscan.rtld e'
      have hbase : s₁.base lib = e.lAddr := load_base hload
      have hset : s₁.base lib ≠ symtabUninitAddr := by rwa [hbase]
      -- the manager's library, if it is still to come, is not the one loaded here
      have hopen' : RmsoOpen P s₁ es := by
        intro hun₁ e' im he' him
        have hl : Lib.rmso ≠ lib := by
          rintro rfl
          exact hset hun₁
        rw [hloads _ _ hl] at him
        rw [hw hl.symm]
        exact hopen ((hsame _ hl).symm.trans hun₁) e' im ((firstOf_cons_ne hlib hl es).trans he') him
      obtain ⟨s', hscan', hend⟩ := ih s₁ rc' hscan.good (h.onward hscan.onward) hopen'
      have hrun : visitAll P (e :: es) rc s = visitAll P es rc' s₁ := ok_bind hvisit
      refine ⟨s', .trans hlib hun hothers hload hne hscan hscan', ?_⟩
      rw [hrun]
      refine hend.imp (And.imp_right fun hc lib' e' hun' he' => ?_) (And.imp_right ?_)
      · by_cases hl : lib' = lib
        · subst hl
          cases (firstOf_cons_self hlib es).symm.trans he'
          refine ⟨?_, hne⟩
          show (s'.images lib').imageBaseAddress = _
          rw [hscan'.kept lib' hset]
          exact hbase
        · exact hc lib' e' ((hsame lib' hl).trans hun') ((firstOf_cons_ne hlib hl es).symm.trans he')
      · rintro ⟨lib', e', hun', he', hnone⟩
        have hl : lib' ≠ lib := by
          rintro rfl
          exact hset hun'
        exact ⟨lib', e', (hsame lib' hl).symm.trans hun', (firstOf_cons_ne hlib hl es).trans he',
          (hloads lib' e' hl).symm.trans hnone⟩

/-! ## The walk -/

/-- A finite link map from an entry on. -/
inductive Chain (entries : VA → Option LinkMapEntry) : VA → List LinkMapEntry → Prop
  | last {a : VA} {e : LinkMapEntry} (he : entries a = some e)
      (hnext : e.lNext = 0 ∨ e.lNext = uninitHex) : Chain entries a [e]
  | cons {a : VA} {e : LinkMapEntry} {es : List LinkMapEntry} (he : entries a = some e)
      (hne : e.lNext ≠ 0) (hset : e.lNext ≠ uninitHex) (h : Chain entries e.lNext es) :
      Chain entries a (e :: es)

/-- The link map has the entries `es`. -/
def Rtld.Lists (r : Rtld) (es : List LinkMapEntry) : Prop :=
  ∃ a, r.rMap = some a ∧ a ≠ 0 ∧ Chain r.entries a es

/-- The link map does not change during a scan. -/
def SameRtld (s s' : State) : Prop := s'.rtld = s.rtld

instance : IsPreorder State SameRtld where
  refl _ := rfl
  trans _ _ _ h₁ h₂ := h₂.trans h₁

instance {α : Type} (x : EngineM α) : Within SameRtld (lift x) := by
  refine ⟨fun s => ?_⟩
  unfold final lift
  cases x s.w <;> rfl

instance {α : Type} (e : Exn) (o : Option α) : Within SameRtld (orStop e o) := by
  cases o with
  | none => exact inferInstanceAs (Within SameRtld (throw _))
  | some a => exact inferInstanceAs (Within SameRtld (pure a))

instance {α : Type} (x : Except Exn α) : Within SameRtld (ofExcept x) := by
  cases x with
  | error e => exact inferInstanceAs (Within SameRtld (throw _))
  | ok a => exact inferInstanceAs (Within SameRtld (pure a))

instance (lib : Lib) (im : LinuxImage) :
    Within SameRtld (modify fun s => s.setImage lib im : LoaderM Unit) :=
  within_modify fun _ => rfl

instance (lib : Lib) (lname : CString) (lAddr : VA) : Within SameRtld (initLib lib lname lAddr) := by
  unfold initLib; infer_instance

instance : Within SameRtld (resetMpirVariables P) := by unfold resetMpirVariables; infer_instance

instance (e : LinkMapEntry) (rc : Bool) : Within SameRtld (visitEntry P e rc) := by
  unfold visitEntry
  cases e.lName with
  | none => dsimp only; infer_instance
  | some lname =>
    dsimp only
    cases P.whichLib lname with
    | none => dsimp only; infer_instance
    | some lib => cases lib <;> dsimp only <;> infer_instance

/-- **The walk** along a finite link map, with fuel for each of its entries. -/
theorem walk_chain {entries : VA → Option LinkMapEntry} {a : VA} {es : List LinkMapEntry}
    (h : Chain entries a es) : ∀ (fuel : Nat) (rc : Bool) (s : State), es.length ≤ fuel →
      s.rtld.entries = entries → walk P fuel a rc s = visitAll P es rc s := by
  have hget : ∀ s : State, (get : LoaderM State) s = .ok s s := fun _ => rfl
  induction h with
  | @last a e he hnext =>
    intro fuel rc s hf hs
    obtain ⟨fuel, rfl⟩ := Nat.exists_eq_succ_of_ne_zero
      (Nat.ne_of_gt (Nat.lt_of_lt_of_le Nat.one_pos hf))
    have hentry : orStop .tracer (s.rtld.entries a) s = .ok e s := by
      rw [hs, he]
      rfl
    have hstop : ¬(e.lNext ≠ 0 ∧ e.lNext ≠ uninitHex) := fun hc => hnext.elim hc.1 hc.2
    unfold walk
    rw [ok_bind (hget s), ok_bind hentry]
    simp only [if_neg hstop]
    rfl
  | @cons a e es he hne hset h ih =>
    intro fuel rc s hf hs
    obtain ⟨fuel, rfl⟩ := Nat.exists_eq_succ_of_ne_zero
      (Nat.ne_of_gt (Nat.lt_of_lt_of_le (Nat.succ_pos _) hf))
    have hentry : orStop .tracer (s.rtld.entries a) s = .ok e s := by
      rw [hs, he]
      rfl
    unfold walk visitAll
    rw [ok_bind (hget s), ok_bind hentry]
    simp only [if_pos (And.intro hne hset)]
    cases hv : visitEntry P e rc s with
    | error x s₁ => rw [error_bind hv, error_bind hv]
    | ok rc' s₁ =>
      have hsame : SameRtld s s₁ := Within.of_ok hv
      rw [ok_bind hv, ok_bind hv]
      refine ih fuel rc' s₁ (Nat.le_of_succ_le_succ hf) ?_
      rw [hsame]
      exact hs

theorem whichLib_ne_rmso (hc : P.cfg.needCheckLauncherSo = false) (lname : CString) :
    P.whichLib lname ≠ some .rmso := by
  unfold Setup.whichLib
  dsimp only
  rw [hc]
  split
  · exact fun h => nomatch h
  · split
    · exact fun h => nomatch h
    · exact fun h => nomatch h

/-- When the libraries have been found there is nothing to be found. -/
theorem complete_of_allFound {s : State} (h : s.allFound P) (es : List LinkMapEntry) :
    Complete P es s s := by
  intro lib e hun he
  obtain ⟨hlibc, hthread, hrmso⟩ := h
  cases lib with
  | thread => exact absurd hun hthread
  | libc => exact absurd hun hlibc
  | rmso =>
    rcases hrmso with hc | hne
    · -- no name is one of the library of the launcher
      have hlib : P.libOf e = some .rmso :=
        of_decide_eq_true (List.find?_some (p := fun e => decide (P.libOf e = some .rmso)) he)
      obtain ⟨lname, -, hw⟩ := Option.bind_eq_some_iff.mp hlib
      exact absurd hw (whichLib_ne_rmso hc lname)
    · exact absurd hun hne

/-- **`check_dependent_SOs`** terminates, and returns. -/
theorem checkDependentSOs_outcome {s : State} {es : List LinkMapEntry} {t : LwpId} {l : Lwp}
    (hg : Good P s) (h : Ready s.w t l) (hopen : RmsoOpen P s es) (hlists : s.rtld.Lists es) :
    ∃ s' rc, (∀ fuel, es.length ≤ fuel → checkDependentSOs P fuel s = .ok rc s') ∧
      Scanned P es s s' ∧ (Complete P es s s' ∨ Unreadable P es s) := by
  have hget : (get : LoaderM State) s = .ok s s := rfl
  by_cases hall : s.allFound P
  · refine ⟨s, false, fun fuel _ => catching_ok ?_, .refl hg es, Or.inl (complete_of_allFound hall es)⟩
    rw [ok_bind hget, if_pos hall]
    rfl
  · obtain ⟨a, ha, hne, hchain⟩ := hlists
    have hmap : orStop .tracer s.rtld.rMap s = .ok a s := by
      rw [ha]
      rfl
    obtain ⟨s', hscan, hend⟩ := visitAll_outcome es s false hg h hopen
    have hrun : ∀ fuel, es.length ≤ fuel → checkDependentSOs P fuel s =
        catching Stop.caught true (visitAll P es false) s := by
      intro fuel hf
      unfold checkDependentSOs catching
      rw [ok_bind hget, if_neg hall, ok_bind hmap, if_neg hne, walk_chain hchain fuel false s hf rfl]
    rcases hend with ⟨⟨rc, hok⟩, hc⟩ | ⟨herr, hu⟩
    · refine ⟨s', rc, fun fuel hf => ?_, hscan, Or.inl hc⟩
      rw [hrun fuel hf]
      exact catching_ok hok
    · refine ⟨s', true, fun fuel hf => ?_, hscan, Or.inr hu⟩
      rw [hrun fuel hf]
      exact catching_error herr rfl

/-! ## Events -/

/-- The launcher runs on between two events: it does not write over a trap, and it maps its text or
    takes it away. -/
structure Between (P : Setup) (w w' : World) : Prop where
  bps : ∀ sel, (w'.proc.bp sel).map Under.core = (w.proc.bp sel).map Under.core
  traps : ∀ sel b, w.proc.bp sel = some b → b.status = .enabled →
    w'.target.mem 0 b.addressAt = w.target.mem 0 b.addressAt
  text : ∀ x, P.cfg.text x ≠ none → w'.target.mem 0 x = w.target.mem 0 x ∨
    w'.target.mem 0 x = none ∨ w'.target.mem 0 x = P.cfg.text x

theorem Between.inserted {w w' : World} {o : Option VA} (h : Between P w w')
    (hi : Inserted P.cfg o w) : Inserted P.cfg o w' := by
  refine ⟨hi.under.env h.bps h.traps h.text, ?_, ?_⟩
  · rw [← hi.launch]
    have hcore := congrArg (Option.map fun c : VA × Word × BpStatus => (c.1, c.2.2)) (h.bps .launch)
    rw [Option.map_map, Option.map_map] at hcore
    exact hcore
  · obtain ⟨b, hb, haddr, hst⟩ := hi.loader
    have hcore := h.bps .loader
    rw [hb] at hcore
    obtain ⟨b', hb', hcore⟩ := Option.map_eq_some_iff.mp hcore
    obtain ⟨haddr', hcore⟩ := Prod.mk.inj hcore
    refine ⟨b', hb', haddr'.trans haddr, ?_⟩
    rw [(Prod.mk.inj hcore).2]
    exact hst

/-- A thread at the loader breakpoint, and what the dynamic loader shows then. -/
structure Event where
  w : World
  t : LwpId
  l : Lwp
  rtld : Rtld

def State.take (s : State) (ev : Event) : State := { s with w := ev.w, rtld := ev.rtld }

/-- An event in which no call of the tracer fails: the thread has stopped, the link map has the entries
    `es`, and what the engine touches is mapped. -/
structure Smooth (P : Setup) (s : State) (ev : Event) (es : List LinkMapEntry) : Prop where
  between : Between P s.w ev.w
  ready : Ready ev.w ev.t ev.l
  lists : ev.rtld.Lists es
  stack : Mapped (ev.w.target.mem 0) ev.l.sp
  loader : Mapped (ev.w.target.mem 0) (loaderBreakpoint P.cfg)
  rmso : RmsoOpen P (s.take ev) es

/-- The thread has executed the instruction under the loader breakpoint. -/
def Event.Completes (ev : Event) : Prop :=
  ∃ b, ev.w.proc.bp .loader = some b ∧ b.status = .disabled

/-- What an event has done to the libraries. -/
structure Bases (P : Setup) (ev : Event) (es : List LinkMapEntry) (s s' : State) : Prop where
  kept : ∀ lib, s.base lib ≠ symtabUninitAddr → s'.images lib = s.images lib
  first : ∀ lib, s.base lib = symtabUninitAddr → s'.base lib ≠ symtabUninitAddr →
    ∃ e, P.firstOf lib es = some e ∧ s'.base lib = e.lAddr ∧
      (s.take ev).load lib e = some (s'.images lib)
  whole : ev.Completes → Complete P es s s' ∨ Unreadable P es (s.take ev)

/-- What an event has done to the memory: what was mapped is mapped, and a prologue takes the loader
    breakpoint out. -/
structure Traps (ev : Event) (s' : State) : Prop where
  mapped : ∀ c, Mapped (ev.w.target.mem 0) c → Mapped (s'.w.target.mem 0) c
  prologue : ev.Completes ∨ ∃ b, s'.w.proc.bp .loader = some b ∧ b.status = .disabled

/-- A prologue does nothing to the libraries. -/
theorem Bases.refl {ev : Event} {es : List LinkMapEntry} {s s' : State} (hs : s'.images = s.images)
    (hnot : ¬ev.Completes) : Bases P ev es s s' := by
  refine ⟨fun lib _ => congrFun hs lib, fun lib hun hne => ?_, fun hc => absurd hc hnot⟩
  unfold State.base at hun hne
  rw [hs] at hne
  exact absurd hun hne

/-- **One event** at the loader breakpoint, be it the prologue or its completion. -/
theorem handleLoaderBpEvent_outcome {s : State} {ev : Event} {es : List LinkMapEntry}
    (hg : Good P s) (h : Smooth P s ev es) :
    ∃ s', (∀ fuel, es.length ≤ fuel → handleLoaderBpEvent P fuel (s.take ev) = .ok .ok s') ∧
      Good P s' ∧ Bases P ev es s s' ∧ Traps ev s' := by
  have hi : Inserted P.cfg (s.launch P) ev.w := h.between.inserted hg.inserted
  rcases isBpPrologueDone_ready h.ready hi h.loader h.stack with
    ⟨⟨w₁, hrun, hi₁, hdis, hmapped⟩, hnot⟩ | ⟨⟨w₁, hrun, hi₁, ho⟩, hdone⟩
  · -- the prologue
    refine ⟨{ s.take ev with w := w₁ }, fun fuel _ => catching_ok ?_, ⟨hi₁, hg.relocated⟩,
      .refl rfl hnot, hmapped, Or.inr hdis⟩
    rw [ok_bind (lift_ok hrun)]
    rfl
  · -- its completion
    have hg₁ : Good P { s.take ev with w := w₁ } := ⟨hi₁, hg.relocated⟩
    have h₁ : Ready w₁ ev.t ev.l := h.ready.onward ho
    have hopen : RmsoOpen P { s.take ev with w := w₁ } es := by
      intro hun e im he him im' hmem
      obtain ⟨hlaid, hmap⟩ := h.rmso hun e im he him im' hmem
      exact ⟨hlaid, hmap.onward ho⟩
    obtain ⟨s₂, rc, hcheck, hscan, hend⟩ := checkDependentSOs_outcome hg₁ h₁ hopen h.lists
    have h₂ : Ready s₂.w ev.t ev.l := h₁.onward hscan.onward
    have hcont : tracerContinue P.cfg true s₂.w = .ok () (s₂.w.setLwp ev.t ev.l.resume) :=
      tracerContinue_focused h₂.focused h₂.lwp h₂.stopped
    refine ⟨{ s₂ with w := s₂.w.setLwp ev.t ev.l.resume }, fun fuel hf => catching_ok ?_,
      ⟨hscan.good.inserted.setLwp _ _, hscan.good.relocated⟩,
      ⟨hscan.kept, hscan.first, fun _ => hend⟩, fun c hc => ?_, Or.inl hdone⟩
    · rw [ok_bind (lift_ok hrun)]
      simp only [if_true]
      rw [ok_bind (hcheck fuel hf), ok_bind (lift_ok hcont)]
      rfl
    · exact hscan.onward.mapped c (ho.mapped c hc)

/-- The engine has set both breakpoints for the launcher alone. -/
structure Start (P : Setup) (s : State) : Prop where
  images : ∀ lib, s.images lib = .new
  inserted : Inserted P.cfg (launchOf P.cfg.mainImage) s.w

/-- The states after events at the loader breakpoint. -/
inductive Events (P : Setup) (s₀ : State) : State → Prop
  | start : Events P s₀ s₀
  | event {s s' : State} {ev : Event} {es : List LinkMapEntry} {fuel : Nat} {rc : Rc}
      (h : Events P s₀ s) (hev : Smooth P s ev es) (hf : es.length ≤ fuel)
      (hrun : handleLoaderBpEvent P fuel (s.take ev) = .ok rc s') : Events P s₀ s'

theorem Start.good {s₀ : State} (h : Start P s₀) : Good P s₀ := by
  have hbase : ∀ lib, s₀.base lib = symtabUninitAddr := by
    intro lib
    unfold State.base
    rw [h.images lib]
    rfl
  constructor
  · unfold State.launch
    rw [if_pos (hbase .rmso)]
    exact h.inserted
  · exact fun lib hne => absurd (hbase lib) hne

theorem Events.good {s₀ s : State} (h₀ : Start P s₀) (h : Events P s₀ s) : Good P s := by
  induction h with
  | start => exact h₀.good
  | event h hev hf hrun ih =>
    obtain ⟨s', hok, hg, -⟩ := handleLoaderBpEvent_outcome ih hev
    cases (hok _ hf).symm.trans hrun
    exact hg

/-- What holds after an event `ev` that has led from `s` to `s'`. -/
structure Followed (P : Setup) (ev : Event) (es : List LinkMapEntry) (s s' : State) : Prop
    extends Bases P ev es s s' where
  relocated : ∀ lib, Relocated (s'.images lib)
  /-- there is one launch breakpoint, or none -/
  launch : (s'.w.proc.launchHiddenBp).map (fun b => (b.addressAt, b.status)) =
    (s'.launch P).map fun a => (a, BpStatus.enabled)
  trap : ∀ a, s'.launch P = some a → s'.w.target.mem 0 a = some 0xcc
  /-- and all other text is original: every earlier place of the launch breakpoint too -/
  original : ∀ c, Mapped (ev.w.target.mem 0) c → ∀ i : Fin 8, P.cfg.text (off c i) ≠ none →
    s'.launch P ≠ some (off c i) → off c i ≠ loaderBreakpoint P.cfg →
    s'.w.target.mem 0 (off c i) = P.cfg.text (off c i)

/-- Where the launch breakpoint is inserted there is a trap, and where no breakpoint is there is the
    original text. -/
theorem Inserted.memory {cfg : Config} {o : Option VA} {w : World} (h : Inserted cfg o w) :
    (∀ a, o = some a → w.target.mem 0 a = some 0xcc) ∧
    ∀ c, Mapped (w.target.mem 0) c → ∀ i : Fin 8, cfg.text (off c i) ≠ none → o ≠ some (off c i) →
      off c i ≠ loaderBreakpoint cfg → w.target.mem 0 (off c i) = cfg.text (off c i) := by
  constructor
  · rintro a rfl
    obtain ⟨b, hb, hcore⟩ := Option.map_eq_some_iff.mp h.launch
    obtain ⟨haddr, hen⟩ := Prod.mk.inj hcore
    rw [← haddr]
    exact h.under.trap .launch b hb hen
  · intro c hc i htext hne hloader
    obtain ⟨v, hv⟩ := Option.isSome_iff_exists.mp (hc i)
    rcases h.under.byte _ v hv htext with hv' | ⟨sel, b, hb, hen, haddr⟩
    · exact hv.trans hv'.symm
    · cases sel with
      | launch =>
        have hl := h.launch
        rw [hb] at hl
        obtain ⟨a, ha, hcore⟩ := Option.map_eq_some_iff.mp hl.symm
        rw [haddr, ha, (Prod.mk.inj hcore).1] at hne
        exact absurd rfl hne
      | loader =>
        obtain ⟨b', hb', haddr', -⟩ := h.loader
        cases hb.symm.trans hb'
        exact absurd (haddr.trans haddr') hloader

/-- **The launch breakpoint follows the library of the launcher.**  After any events at the loader
    breakpoint the next one terminates, whatever finite link map it sees.  Each library gets the base of
    the first entry with its name, once, and the launch breakpoint is at the symbol of the library that
    has been found, or else at that of the launcher. -/
theorem launch_follows {P : Setup} {s₀ s : State} {ev : Event} {es : List LinkMapEntry}
    (h₀ : Start P s₀) (h : Events P s₀ s) (hev : Smooth P s ev es) :
    ∃ s', (∀ fuel, es.length ≤ fuel → handleLoaderBpEvent P fuel (s.take ev) = .ok .ok s') ∧
      Followed P ev es s s' := by
  obtain ⟨s', hrun, hg, hbases, htraps⟩ := handleLoaderBpEvent_outcome (h.good h₀) hev
  obtain ⟨htrap, horiginal⟩ := hg.inserted.memory
  exact ⟨s', hrun, hbases, hg.relocated, hg.inserted.launch, htrap,
    fun c hc => horiginal c (htraps.mapped c hc)⟩

/-! ## A launcher with a library -/

/-- What a library has that is loaded for the first time. -/
theorem loadImage_getElem? {elf : List Shdr} {sect : Shdr} {im : LinuxImage} {b : VA}
    (hsect : symtabSect elf none = some sect) (him : loadImage .new (some elf) b = some im)
    (n : CString) : im.linkageSymtab[n]? = (sect.syms.find? fun e => e.Kept n).map fun e =>
      { linkageSymbol e with relocatedAddress := e.stValue + b } := by
  obtain ⟨elf', im₁, helf, hread, hreloc⟩ := loadImage_eq_some him
  cases helf
  exact loaded_getElem? hsect hread hreloc n

theorem noNul_librm : (0 : UInt8) ∉ [108, 105, 98, 114, 109] := by decide
theorem noNul_librmPath : (0 : UInt8) ∉ [47, 108, 105, 98, 114, 109, 46, 115, 111] := by decide

/-- The library, and the file that it is in. -/
def librm : CString := ⟨_, noNul_librm⟩
def librmPath : CString := ⟨_, noNul_librmPath⟩

/-- The name of the launch breakpoint is known, and no other. -/
def symbolNames : Sym → CString
  | .launchBreakpoint => mpirBreakpoint
  | _ => CString.empty

/-- A launcher whose library is looked for. -/
def withLibrary (im : Image) : Setup :=
  ⟨{ sample with mainImage := im, needCheckLauncherSo := true }, symbolNames, librm⟩

/-- The launch breakpoint of the library. -/
def librmEntry : ElfSym := ⟨some mpirBreakpoint, 0x12, 1, 0x20⟩

/-- A link map of one entry, for the library. -/
def oneEntry (lName : Option CString) : Rtld where
  rMap := some 0x3000
  entries := fun a => if a = 0x3000 then some ⟨0x1060, lName, 0⟩ else none
  files := fun _ => some (withTable [librmEntry])

theorem oneEntry_lists (lName : Option CString) : (oneEntry lName).Lists [⟨0x1060, lName, 0⟩] :=
  ⟨0x3000, rfl, by decide, .last rfl (Or.inl rfl)⟩

/-- A thread of the launcher that has stopped. -/
def stoppedLwp : Lwp where
  entity := .process
  mm := 0
  pc := 0x1041
  sp := 0x2100
  next := 0x1041
  run := .stopped
  traced := true
  opts := false
  report := none
  eventMsg := 0
  stopRequested := false
  stepFrom := none
  delivered := []

/-- The launcher, with the memory `m` and two breakpoints. -/
def launcherWorld (m : Mem) (launch loader : Option Bp) : World where
  target := { sampleTarget 0x1040 [] with
    lwps := Function.update (fun _ => none) 100 (some stoppedLwp), mem := fun _ => m }
  proc := { Process.start sample with
    threadCtxStack := [100], launchHiddenBp := launch, loaderHiddenBp := loader }
  lmon := .start
  log := []

/-- A breakpoint in the text of the launcher. -/
def sampleBp (a : VA) (status : BpStatus) : Bp := ⟨a, uninitHex, fun _ => 0x90, status⟩

/-- The loader breakpoint has just been passed, and the launch breakpoint is at `o`. -/
def sampleState (o : Option VA) : State where
  w := launcherWorld (fun a => if o = some a then some 0xcc else (sampleTarget 0 []).mem 0 a)
    (o.map fun a => sampleBp a .enabled) (some (sampleBp 0x1040 .disabled))
  images := fun _ => .new
  rtld := oneEntry none

/-- The next thread comes to the loader breakpoint. -/
def nextEvent (s : State) (r : Rtld) : Event where
  w := launcherWorld (s.w.target.mem 0) s.w.proc.launchHiddenBp s.w.proc.loaderHiddenBp
  t := 100
  l := stoppedLwp
  rtld := r

theorem nextEvent_smooth {P : Setup} {s : State} {r : Rtld} {es : List LinkMapEntry}
    (hlists : r.Lists es) (hstack : Mapped (s.w.target.mem 0) 0x2100)
    (hloader : Mapped (s.w.target.mem 0) (loaderBreakpoint P.cfg))
    (hrmso : RmsoOpen P (s.take (nextEvent s r)) es) : Smooth P s (nextEvent s r) es := by
  refine ⟨⟨fun sel => ?_, fun _ _ _ _ => rfl, fun _ _ => Or.inl rfl⟩, ⟨⟨⟨rfl, rfl, rfl⟩, ?_, ?_⟩, rfl⟩,
    hlists, hstack, hloader, hrmso⟩
  · cases sel <;> rfl
  · rfl
  · constructor <;> rfl

theorem sampleText (a : VA) (ha : a = 0x1000 ∨ a = 0x1040 ∨ a = 0x1080) (i : Fin 8) :
    sample.text (off a i) = some 0x90 := by
  revert i
  rcases ha with rfl | rfl | rfl <;> decide

theorem sampleState_start {im : Image} {o : Option VA} (ho : o = none ∨ o = some 0x1000)
    (him : launchOf im = o) : Start (withLibrary im) (sampleState o) := by
  have hloader : ∀ c, (sampleState o).w.proc.bp .loader = some c → c = sampleBp 0x1040 .disabled :=
    fun c hc => (Option.some.inj hc).symm
  have hlaunch : ∀ c, (sampleState o).w.proc.bp .launch = some c →
      o = some 0x1000 ∧ c = sampleBp 0x1000 .enabled := by
    intro c hc
    rcases ho with rfl | rfl
    · cases hc
    · exact ⟨rfl, (Option.some.inj hc).symm⟩
  have hap : ∀ i j : Fin 8, off (0x1000 : VA) i ≠ off (0x1040 : VA) j := by decide
  have hslots : Slots sample.text (sampleState o).w.proc.bp := by
    constructor
    · intro sel c hc i
      cases sel with
      | launch =>
        obtain ⟨-, rfl⟩ := hlaunch c hc
        exact Option.ne_none_iff_exists'.mpr ⟨_, sampleText _ (Or.inl rfl) i⟩
      | loader =>
        obtain rfl := hloader c hc
        exact Option.ne_none_iff_exists'.mpr ⟨_, sampleText _ (Or.inr (Or.inl rfl)) i⟩
    · intro sel sel' c c' hc hc' hne i j
      cases sel with
      | launch =>
        cases sel' with
        | launch => exact absurd rfl hne
        | loader =>
          obtain ⟨-, rfl⟩ := hlaunch c hc
          obtain rfl := hloader c' hc'
          exact hap i j
      | loader =>
        cases sel' with
        | loader => exact absurd rfl hne
        | launch =>
          obtain ⟨-, rfl⟩ := hlaunch c' hc'
          obtain rfl := hloader c hc
          exact (hap j i).symm
  -- only the launch breakpoint can be enabled
  have henabled : ∀ sel c, (sampleState o).w.proc.bp sel = some c → c.status = .enabled →
      o = some 0x1000 ∧ c = sampleBp 0x1000 .enabled := by
    intro sel c hc hen
    cases sel with
    | launch => exact hlaunch c hc
    | loader =>
      obtain rfl := hloader c hc
      cases hen
  refine ⟨fun _ => rfl, ⟨hslots, fun sel c hc hen i => ?_, fun sel c hc hen => ?_, fun x v hv hx => ?_⟩,
    ?_, _, rfl, rfl, Or.inr rfl⟩
  · obtain ⟨-, rfl⟩ := henabled sel c hc hen
    exact sampleText _ (Or.inl rfl) i
  · obtain ⟨rfl, rfl⟩ := henabled sel c hc hen
    rfl
  · by_cases hxo : o = some x
    · rcases ho with rfl | rfl
      · cases hxo
      · exact Or.inr ⟨.launch, _, rfl, rfl, (Option.some.inj hxo).symm⟩
    · left
      have hmem : (sampleState o).w.target.mem 0 x = (sampleTarget 0 []).mem 0 x := if_neg hxo
      obtain ⟨u, hu⟩ := Option.ne_none_iff_exists'.mp hx
      rw [hmem] at hv
      have hsome : (sampleTarget 0 []).mem 0 x = (sample.text x <|> _) := rfl
      have htext : sample.text x = some u := hu
      rw [hsome, htext] at hv
      exact hu.trans hv
  · show ((sampleState o).w.proc.launchHiddenBp).map _ = (launchOf im).map _
    rw [him]
    rcases ho with rfl | rfl <;> rfl

/-- The library is loaded, and its launch breakpoint is at 0x1080. -/
theorem librm_handled {im : LinuxImage}
    (him : loadImage .new (some (withTable [librmEntry])) 0x1060 = some im) :
    im.handled symbolNames .launchBreakpoint = some ⟨0x1080, true⟩ ∧
    ∀ sym, sym ≠ .launchBreakpoint → im.handled symbolNames sym = none := by
  have hget := loadImage_getElem? (symtabSect_withTable _) him
  constructor
  · unfold LinuxImage.handled
    rw [hget]
    rfl
  · intro sym hne
    have hname : symbolNames sym = CString.empty := by
      cases sym with
      | launchBreakpoint => exact absurd rfl hne
      | _ => rfl
    unfold LinuxImage.handled
    rw [hname, hget, List.find?_eq_none.mpr fun f _ => by simpa using not_kept_empty f]
    rfl

/-- What is written for an image of the sample is mapped and laid out. -/
theorem sample_open {im im' : Image} {m : Mem} {a : VA} (ha : a = 0x1000 ∨ a = 0x1080)
    (hlaunch : launchOf im = some a)
    (hdebug : ∀ s, im .beingDebug = some s → s.relocatedAddress = 0x2008)
    (hmap : Mapped m a) (hdata : Mapped m 0x2008) :
    Laid (withLibrary im').cfg im ∧ Open (withLibrary im').cfg im m := by
  have hslot : ∀ i : Fin 8, sample.text (off a i) = some 0x90 :=
    sampleText a (ha.imp_right Or.inr)
  have hat : ∀ a', launchOf im = some a' → a' = a := fun a' h => Option.some.inj (h.symm.trans hlaunch)
  have hvar : ∀ b n, Variable (withLibrary im').cfg im b n → b = 0x2008 ∧ n = 4 := by
    rintro b n (hs | hc | hc)
    · exact ⟨hdebug _ hs, rfl⟩
    · cases hc
    · cases hc
  constructor
  · refine ⟨fun a' h i => ?_, fun a' h => ?_, fun b n h => ?_⟩
    · rw [hat a' h]
      exact Option.ne_none_iff_exists'.mpr ⟨_, hslot i⟩
    · rw [hat a' h]
      show ∀ i j : Fin 8, off a i ≠ off (0x1040 : VA) j
      rcases ha with rfl | rfl <;> decide
    · obtain ⟨rfl, rfl⟩ := hvar b n h
      show ∀ i < 4, sample.text (off 0x2008 i) = none
      decide
  · refine ⟨fun a' h => ?_, fun b n h i hi => ?_⟩
    · rw [hat a' h]
      exact hmap
    · obtain ⟨rfl, rfl⟩ := hvar b n h
      obtain rfl : i = 0 := Nat.lt_one_iff.mp hi
      exact hdata

/-- The entry of the library, and an entry without a name. -/
def librmEntries : List LinkMapEntry := [⟨0x1060, some librmPath, 0⟩]
def namelessEntries : List LinkMapEntry := [⟨0x1060, none, 0⟩]

theorem firstOf_librm (im : Image) {lib : Lib} {e : LinkMapEntry}
    (h : (withLibrary im).firstOf lib librmEntries = some e) :
    lib = .rmso ∧ e = ⟨0x1060, some librmPath, 0⟩ := by
  have hlib : (withLibrary im).libOf ⟨0x1060, some librmPath, 0⟩ = some .rmso := rfl
  unfold librmEntries at h
  rw [firstOf_cons, hlib] at h
  by_cases hl : some Lib.rmso = some lib
  · rw [if_pos hl] at h
    exact ⟨(Option.some.inj hl).symm, (Option.some.inj h).symm⟩
  · rw [if_neg hl] at h
    cases h

theorem librm_smooth : Smooth (withLibrary sample.mainImage) (sampleState (some 0x1000))
    (nextEvent (sampleState (some 0x1000)) (oneEntry (some librmPath))) librmEntries := by
  refine nextEvent_smooth (oneEntry_lists _) (by decide +kernel) (by decide +kernel) ?_
  intro _ e im he him im' hmem
  obtain ⟨-, rfl⟩ := firstOf_librm _ he
  obtain ⟨hlaunch, hnone⟩ := librm_handled him
  rcases List.mem_pair.mp hmem with rfl | rfl
  · exact sample_open (Or.inl rfl) rfl (fun s hs => by cases hs; rfl) (by decide +kernel)
      (by decide +kernel)
  · refine sample_open (Or.inr rfl) ?_ (fun s hs => ?_) (by decide +kernel) (by decide +kernel)
    · show ((im.handled symbolNames .launchBreakpoint).filter _).map _ = _
      rw [hlaunch]
      rfl
    · cases (hnone .beingDebug (by decide)).symm.trans hs

theorem launch_follows_librm : ∃ s', (∀ fuel, librmEntries.length ≤ fuel →
      handleLoaderBpEvent (withLibrary sample.mainImage) fuel ((sampleState (some 0x1000)).take
        (nextEvent (sampleState (some 0x1000)) (oneEntry (some librmPath)))) = .ok .ok s') ∧
    Followed (withLibrary sample.mainImage)
      (nextEvent (sampleState (some 0x1000)) (oneEntry (some librmPath))) librmEntries
      (sampleState (some 0x1000)) s' :=
  launch_follows (sampleState_start (Or.inr rfl) rfl) .start librm_smooth

/-- An event after others. -/
theorem Events.next {P : Setup} {s₀ s : State} {ev : Event} {es : List LinkMapEntry} (h₀ : Start P s₀)
    (h : Events P s₀ s) (hev : Smooth P s ev es) :
    ∃ s', (∀ fuel, es.length ≤ fuel → handleLoaderBpEvent P fuel (s.take ev) = .ok .ok s') ∧
      Events P s₀ s' ∧ Bases P ev es s s' ∧ Traps ev s' := by
  obtain ⟨s', hrun, -, hbases, htraps⟩ := handleLoaderBpEvent_outcome (h.good h₀) hev
  exact ⟨s', hrun, .event h hev (Nat.le_refl _) (hrun _ (Nat.le_refl _)), hbases, htraps⟩

/-- Once the library has been found the launch breakpoint stays. -/
theorem Bases.launch {P : Setup} {s s' : State} {ev : Event} {es : List LinkMapEntry}
    (h : Bases P ev es s s') (hne : s.base .rmso ≠ symtabUninitAddr) : s'.launch P = s.launch P := by
  unfold State.launch State.base
  rw [h.kept .rmso hne]

/-- The library of the launcher has been found. -/
theorem librm_found : ∃ s, Events (withLibrary sample.mainImage) (sampleState (some 0x1000)) s ∧
    Mapped (s.w.target.mem 0) 0x2100 ∧ Mapped (s.w.target.mem 0) 0x1040 ∧
    s.base .rmso ≠ symtabUninitAddr ∧ s.launch (withLibrary sample.mainImage) = some 0x1080 := by
  obtain ⟨s, -, h, hbases, htraps⟩ :=
    Events.next (sampleState_start (Or.inr rfl) rfl) .start librm_smooth
  have hload : ∃ im, loadImage .new (some (withTable [librmEntry])) 0x1060 = some im := ⟨_, rfl⟩
  have hbase : s.base .rmso = 0x1060 := by
    rcases hbases.whole ⟨_, rfl, rfl⟩ with hc | ⟨lib, e, -, he, hnone⟩
    · exact (hc .rmso ⟨0x1060, some librmPath, 0⟩ rfl rfl).1
    · obtain ⟨rfl, rfl⟩ := firstOf_librm _ he
      obtain ⟨im, him⟩ := hload
      cases him.symm.trans hnone
  have hne : s.base .rmso ≠ symtabUninitAddr := by
    rw [hbase]
    decide
  obtain ⟨e, he, -, him⟩ := hbases.first .rmso rfl hne
  obtain ⟨-, rfl⟩ := firstOf_librm _ he
  refine ⟨s, h, htraps.mapped _ (by decide +kernel), htraps.mapped _ (by decide +kernel), hne, ?_⟩
  have hlaunch : launchOf ((s.images .rmso).handled symbolNames) = some 0x1080 := by
    unfold launchOf
    rw [(librm_handled him).1]
    rfl
  have hnames : (withLibrary sample.mainImage).names = symbolNames := rfl
  unfold State.launch
  rw [if_neg hne, hnames, hlaunch]
  rfl

/-- Then a thread passes the loader breakpoint while the library is not in the link map. -/
theorem librm_gone : ∃ s ev s', Events (withLibrary sample.mainImage) (sampleState (some 0x1000)) s ∧
    Smooth (withLibrary sample.mainImage) s ev namelessEntries ∧ ev.Completes ∧
    (∀ fuel, 1 ≤ fuel →
      handleLoaderBpEvent (withLibrary sample.mainImage) fuel (s.take ev) = .ok .ok s') ∧
    Events (withLibrary sample.mainImage) (sampleState (some 0x1000)) s' ∧
    s'.launch (withLibrary sample.mainImage) = some 0x1080 := by
  have hstart : Start (withLibrary sample.mainImage) (sampleState (some 0x1000)) :=
    sampleState_start (Or.inr rfl) rfl
  obtain ⟨s₁, h₁, hstack, hloader, hne, hlaunch⟩ := librm_found
  have hev₁ : Smooth (withLibrary sample.mainImage) s₁ (nextEvent s₁ (oneEntry none)) namelessEntries :=
    nextEvent_smooth (oneEntry_lists _) hstack hloader fun hun => absurd hun hne
  obtain ⟨s₂, hrun₂, h₂, hbases₂, htraps₂⟩ := Events.next hstart h₁ hev₁
  have hlaunch₂ := (hbases₂.launch hne).trans hlaunch
  rcases htraps₂.prologue with hc | hdis
  · exact ⟨s₁, _, s₂, h₁, hev₁, hc, hrun₂, h₂, hlaunch₂⟩
  · have hne₂ : s₂.base .rmso ≠ symtabUninitAddr := by
      unfold State.base
      rw [hbases₂.kept .rmso hne]
      exact hne
    have hev₂ : Smooth (withLibrary sample.mainImage) s₂ (nextEvent s₂ (oneEntry none))
        namelessEntries :=
      nextEvent_smooth (oneEntry_lists _) (htraps₂.mapped _ hstack) (htraps₂.mapped _ hloader)
        fun hun => absurd hun hne₂
    obtain ⟨s₃, hrun₃, h₃, hbases₃, -⟩ := Events.next hstart h₂ hev₂
    exact ⟨s₂, _, s₃, h₂, hev₂, hdis, hrun₃, h₃, (hbases₃.launch hne₂).trans hlaunch₂⟩

/-- Where neither the launcher nor a library has the symbol there is no launch breakpoint; and when the
    library of the launcher is gone again from the link map, the launch breakpoint stays where it is. -/
theorem launch_follows_counterexample :
    (∃ s₀ ev s', Start (withLibrary fun _ => none) s₀ ∧
      Smooth (withLibrary fun _ => none) s₀ ev namelessEntries ∧
      (∀ fuel, 1 ≤ fuel →
        handleLoaderBpEvent (withLibrary fun _ => none) fuel (s₀.take ev) = .ok .ok s') ∧
      s'.w.proc.launchHiddenBp = none) ∧
    ∃ s₀ s ev s', Start (withLibrary sample.mainImage) s₀ ∧
      Events (withLibrary sample.mainImage) s₀ s ∧
      Smooth (withLibrary sample.mainImage) s ev namelessEntries ∧ ev.Completes ∧
      (∀ fuel, 1 ≤ fuel →
        handleLoaderBpEvent (withLibrary sample.mainImage) fuel (s.take ev) = .ok .ok s') ∧
      (withLibrary sample.mainImage).firstOf .rmso namelessEntries = none ∧
      launchOf sample.mainImage = some 0x1000 ∧
      (s'.w.proc.launchHiddenBp).map Bp.addressAt = some 0x1080 := by
  constructor
  · have hstart : Start (withLibrary fun _ => none) (sampleState none) :=
      sampleState_start (Or.inl rfl) rfl
    have hsmooth : Smooth (withLibrary fun _ => none) (sampleState none)
        (nextEvent (sampleState none) (oneEntry none)) namelessEntries := by
      refine nextEvent_smooth (oneEntry_lists _) (by decide +kernel) (by decide +kernel) ?_
      intro _ e im he
      cases he
    obtain ⟨s', hrun, h, hbases, -⟩ := Events.next hstart .start hsmooth
    have hun : s'.base .rmso = symtabUninitAddr := by
      by_contra hne
      obtain ⟨e, he, -⟩ := hbases.first .rmso rfl hne
      cases he
    have hnone : s'.launch (withLibrary fun _ => none) = none := by
      unfold State.launch
      rw [if_pos hun]
      rfl
    have hlaunch := (h.good hstart).inserted.launch
    rw [hnone] at hlaunch
    exact ⟨_, _, s', hstart, hsmooth, hrun, Option.map_eq_none_iff.mp hlaunch⟩
  · have hstart : Start (withLibrary sample.mainImage) (sampleState (some 0x1000)) :=
      sampleState_start (Or.inr rfl) rfl
    obtain ⟨s, ev, s', h, hev, hc, hrun, h', hlaunch'⟩ := librm_gone
    have hlaunch := (h'.good hstart).inserted.launch
    rw [hlaunch'] at hlaunch
    have haddr := congrArg (Option.map Prod.fst) hlaunch
    rw [Option.map_map] at haddr
    exact ⟨_, s, ev, s', hstart, h, hev, hc, hrun, rfl, rfl, haddr⟩

end LaunchMON.Engine.LinkMap
