/-
  The configuration of resource managers: `rm_info.conf`, the files that it lists, and the manager that is
  chosen for a launcher (`sdbg_rm_map.cxx`, `sdbg_rm_map.hxx`).

  1. **Managers** — `resource_manager_t`, and the functions that fill one from the values of the keys.

  2. **The two parsers** read line by line, with the same loop and different tests.  That of
     `rm_info.conf` skips comments and empty lines.  That of a configuration file skips comments; its other
     test is for a newline, which `getline` never leaves in a line.

  3. **The matcher** — three loops, over the managers, their launchers and their launcher ids.

  4. **The grammar** — the files of the first section of a platform, the values of a key, what an
     ill-formed file is, and what it means that a manager matches.  The loops of (2) are folds over lines,
     and each fold is compared with its part of the grammar.

  5. **What is read by the grammar** (`readByGrammar_iff`): everything but the report of an ill-formed
     file, which is also made for an empty line.
-/
import LaunchMON.Engine.KillSignals
import LaunchMON.Lib.Lines
import Mathlib.Logic.Function.Basic
import Mathlib.Tactic.Tauto

namespace LaunchMON.Engine.RmConfig

open CText Lines

/-! ## Managers -/

/-- `rm_catalogue_e`. -/
inductive RmCatalogue
  | mcheckerRm | slurm | bglrm | bgprm | bgqrm | bgqSlurm | bgrm | alps | cray | orte | mpiexecHydra | gupc
  | flux | none
  deriving DecidableEq, Repr

/-- `mpir_catalogue_e`. -/
inductive MpirCatalogue
  | standard | cray | coloc | fifo | colocFifo | none
  deriving DecidableEq, Repr

/-- `id_method_e`. -/
inductive IdMethod
  | symbol | pid | unknownMethod
  deriving DecidableEq, Repr

/-- `id_from_e`. -/
inductive IdFrom
  | fromLauncher | fromUnknownSource
  deriving DecidableEq, Repr

/-- `id_datatype_e`. -/
inductive IdDatatype
  | cstring | integer32 | integer64 | unknownType
  deriving DecidableEq, Repr

/-- The union of `rm_id_t`. -/
inductive IdU
  | processId (id : ℤ)
  | symbolName (name : Option Str)
  deriving DecidableEq

/-- `rm_id_t`. -/
structure RmId where
  from' : IdFrom
  method : IdMethod
  dtype : IdDatatype
  id : IdU
  deriving DecidableEq

/-- The constructor. -/
def RmId.new : RmId := ⟨.fromUnknownSource, .unknownMethod, .unknownType, .symbolName none⟩

/-- `launch_method_e`. -/
inductive LaunchMethodE
  | mpirColoc | launchHelperMethod | launchMethodUnknown
  deriving DecidableEq, Repr

/-- `launch_method_t`. -/
structure LaunchMethod where
  launchMethod : LaunchMethodE
  launcherCommand : Str
  deriving DecidableEq

/-- `resource_manager_t`. -/
structure Rm extends ResourceManager where
  rm : RmCatalogue
  mpir : MpirCatalogue
  launchers : List Str
  launcherIds : List RmId
  jobId : RmId
  launchHelper : LaunchMethod
  failDetectionSupported : Bool
  launchString : Str
  hasLauncherSo : Bool
  launcherSoName : Str
  deriving DecidableEq

/-- The constructor. -/
def Rm.new : Rm where
  killSignals := []
  rm := .none
  mpir := .none
  launchers := []
  launcherIds := []
  jobId := .new
  launchHelper := ⟨.launchMethodUnknown, "na".toList⟩
  failDetectionSupported := false
  launchString := []
  hasLauncherSo := false
  launcherSoName := []

/-- What the parsers ask the system for: `getenv`, `access` with `R_OK`, the files, and the value of
    LMON_PREFIX at compile time. -/
structure Env where
  lmonPrefix : Option Str
  lmonRmConfigDir : Option Str
  builtinPrefix : Str
  readable : Str → Bool
  files : Str → Option Str

/-- `v.find_first_of(ch, ix)`; `none` is `npos`. -/
def findFirstOf (ch : Char) (v : Str) (ix : ℕ) : Option ℕ := ((v.drop ix).findIdx? (· = ch)).map (ix + ·)

namespace Rm

def fillRmType (rm : Rm) (v : Str) : Rm :=
  { rm with rm :=
      if v = "alps".toList then .alps
      else if v = "bglrm".toList then .bglrm
      else if v = "bgprm".toList then .bgprm
      else if v = "bgqrm".toList then .bgqrm
      else if v = "bgq_slurm".toList then .bgqSlurm
      else if v = "cray".toList then .cray
      else if v = "modelchecker".toList then .mcheckerRm
      else if v = "openrte".toList then .orte
      else if v = "slurm".toList then .slurm
      else if v = "flux".toList then .flux
      else if v = "mpiexec_hydra".toList then .mpiexecHydra
      else if v = "gupc".toList then .gupc
      else .none }

def fillMpirType (rm : Rm) (v : Str) : Rm :=
  { rm with mpir :=
      if v = "STD".toList then .standard
      else if v = "STD_CRAY".toList then .cray
      else if v = "STD_COLOC".toList then .coloc
      else if v = "STD_FIFO".toList then .fifo
      else if v = "STD_COLOC_FIFO".toList then .colocFifo
      else .none }

def fillLaunchers (rm : Rm) (vect : List Str) : Rm :=
  if vect = [] then rm else { rm with launchers := vect }

/-- `"na"`, which stands for the parts of an id that are not there. -/
def na : Str := "na".toList

/-- The parts of an id: key, method, id and data type. -/
def idParts (v : Str) : Str × Str × Str × Str :=
  match findFirstOf '|' v 0 with
  | none => (na, na, na, na)
  | some ix =>
    let key := substr v 0 (some ix)
    match findFirstOf '|' v (ix + 1) with
    | none => (key, substr v (ix + 1) none, na, na)
    | some ix2 =>
      let method := substr v (ix + 1) (some (ix2 - (ix + 1)))
      match findFirstOf '|' v (ix2 + 1) with
      | none => (key, method, substr v (ix2 + 1) none, na)
      | some ix3 => (key, method, substr v (ix2 + 1) (some (ix3 - (ix2 + 1))), substr v (ix3 + 1) none)

/-- The data type of an id. -/
def dtypeOf (dt : Str) : IdDatatype :=
  if dt = "string".toList then .cstring
  else if dt = "int32".toList ∨ dt = "integer".toList then .integer32
  else if dt = "int64".toList then .integer64
  else .unknownType

/-- `fill_id`. -/
def fillId (target : RmId) (v : Str) : RmId :=
  let (key, method, id, dt) := idParts v
  let target := { target with
    from' := if key = "RM_launcher".toList then .fromLauncher else .fromUnknownSource }
  if method = "sym".toList then
    { target with method := .symbol, id := .symbolName (some id), dtype := dtypeOf dt }
  else if method = "pid".toList then { target with method := .pid, id := .processId 0 }
  else { target with method := .unknownMethod }

def fillJobId (rm : Rm) (v : Str) : Rm := { rm with jobId := fillId rm.jobId v }

def fillLauncherId (rm : Rm) (vect : List Str) : Rm :=
  { rm with launcherIds := rm.launcherIds ++ vect.map (fillId .new) }

def fillLauncherSo (rm : Rm) (v : Str) : Rm := { rm with hasLauncherSo := true, launcherSoName := v }

/-- `fill_kill_singals`; `none` if its loop does not come to an end. -/
def fillKillSingals (rm : Rm) (v : Str) : Option Rm :=
  (rm.toResourceManager.fillKillSingals v).map fun r => { rm with toResourceManager := r }

def fillFailDetection (rm : Rm) (v : Str) : Rm :=
  { rm with failDetectionSupported := v = "true".toList }

def fillLaunchHelper (env : Env) (rm : Rm) (v : Str) : Rm :=
  if v = "mpir".toList then { rm with launchHelper := { rm.launchHelper with launchMethod := .mpirColoc } }
  else
    let v2 := if env.readable v then v
      else match env.lmonPrefix with
        | none => v
        | some pref =>
          let packaged := pref ++ "/bin/".toList ++ v
          if env.readable packaged then packaged else v
    { rm with launchHelper := ⟨.launchHelperMethod, v2⟩ }

def fillLaunchString (rm : Rm) (v : Str) : Rm := { rm with launchString := v }

end Rm

/-! ## The two parsers -/

/-- PATH_MAX. -/
def pathMax : ℕ := 4096

/-- A buffer as a string. -/
def cStr (line : Str) : Str := line.takeWhile (· ≠ '\x00')

/-- `std::map<std::string, std::vector<std::string>>`. -/
abbrev KeyValues := Str → Option (List Str)

/-- The value behind those that the key has. -/
def KeyValues.push (m : KeyValues) (key value : Str) : KeyValues :=
  Function.update m key (some ((m key).getD [] ++ [value]))

/-- The body of the loop of `parse_and_fill_rm`, with `key_value_pair` and `error_found`. -/
def parseLine : KeyValues × Bool → Str → Except (KeyValues × Bool) (KeyValues × Bool)
  | (m, errorFound), line =>
    let aLine := cStr line
    if aLine.head? = some '#' ∨ aLine.head? = some '\n' then .ok (m, errorFound)
    else match findFirstOf '=' aLine 0 with
      | some equal =>
        .ok (m.push (substr aLine 0 (some equal)) (substr aLine (equal + 1) none), errorFound)
      | none => .ok (m, true)

/-- What is done with the first value of a key, if there is one. -/
def firstOf (m : KeyValues) (key : String) (fill : Rm → Str → Rm) (rm : Rm) : Rm :=
  (m key.toList).elim rm fun values => fill rm (values.headD [])

/-- What is done with all values of a key. -/
def allOf (m : KeyValues) (key : String) (fill : Rm → List Str → Rm) (rm : Rm) : Rm :=
  (m key.toList).elim rm (fill rm)

/-- The second half of `parse_and_fill_rm`. -/
def fillRm (env : Env) (m : KeyValues) (rm : Rm) : Option Rm := do
  let rm := firstOf m "RM" Rm.fillRmType rm
  let rm := firstOf m "RM_MPIR" Rm.fillMpirType rm
  let rm := allOf m "RM_launcher" Rm.fillLaunchers rm
  let rm := allOf m "RM_launcher_id" Rm.fillLauncherId rm
  let rm := firstOf m "RM_launcher_so" Rm.fillLauncherSo rm
  let rm := firstOf m "RM_jobid" Rm.fillJobId rm
  let rm ← (m "RM_signal_for_kill".toList).elim (some rm) fun values =>
    rm.fillKillSingals (values.headD [])
  let rm := firstOf m "RM_fail_detection" Rm.fillFailDetection rm
  let rm := firstOf m "RM_launch_helper" (Rm.fillLaunchHelper env) rm
  return firstOf m "RM_launch_str" Rm.fillLaunchString rm

/-- `parse_and_fill_rm`: `error_found`, and the manager. -/
def parseAndFillRm (env : Env) (rmConfPath : Str) (rm : Rm) : Option (Bool × Rm) := do
  let (m, errorFound) ← (env.files rmConfPath).elim (some (fun _ => none, false)) fun text =>
    whileLines pathMax parseLine (text.length + 1) (.ofText text) (fun _ => none, false)
  let rm ← fillRm env m rm
  return (errorFound, rm)

/-- `plat_found`, `found` and `supported_rm_fnames`. -/
structure Confs where
  platFound : Bool
  found : Bool
  fnames : List Str

/-- The body of the loop of `read_supported_rm_confs`. -/
def confLine (osIsa : Str) (st : Confs) (line : Str) : Except Confs Confs :=
  let aLine := cStr line
  if aLine.head? = some '#' ∨ aLine.head? = none then .ok st
  else if !st.platFound then
    if aLine.head? = some '[' then
      match findFirstOf ']' aLine 1 with
      | some ix =>
        .ok (if substr aLine 1 (some (ix - 1)) = osIsa then { st with platFound := true } else st)
      | none => .ok st
    else .ok st
  else if aLine.head? = some '[' then .error st
  else .ok { st with found := true, fnames := st.fnames ++ [aLine] }

/-- `read_supported_rm_confs`. -/
def readSupportedRmConfs (env : Env) (osIsa rmInfoConfPath : Str) : Option Confs :=
  (env.files rmInfoConfPath).elim (some ⟨false, false, []⟩) fun text =>
    whileLines pathMax (confLine osIsa) (text.length + 1) (.ofText text) ⟨false, false, []⟩

/-- `rc_rm_t`, with what the matcher writes of `coloc_paramset`. -/
structure RcRm where
  resourceManager : Rm
  supportedRms : List Rm
  rmDaemonPath : Str
  rmDaemonArgs : List Str
  rmDaemonStub : Str

/-- The directory of the configuration. -/
def configDir (env : Env) : Str :=
  match env.lmonPrefix, env.lmonRmConfigDir with
  | some pref, _ => pref ++ "/etc/".toList
  | none, some dir => dir ++ "/".toList
  | none, none => env.builtinPrefix ++ "/etc/".toList

/-- `rm_info_conf_path`. -/
def rmInfoConfPath (env : Env) : Str := configDir env ++ "rm_info.conf".toList

/-- The loop of `init` over the files. -/
def initLoop (env : Env) : List Str → RcRm → Option RcRm
  | [], rc => some rc
  | fname :: fnames, rc => do
    let (_, rm) ← parseAndFillRm env (configDir env ++ fname) .new
    initLoop env fnames { rc with supportedRms := rc.supportedRms ++ [rm] }

/-- `rc_rm_t::init`. -/
def RcRm.init (env : Env) (osIsa : Str) (rc : RcRm) : Option (Bool × RcRm) := do
  let confs ← readSupportedRmConfs env osIsa (rmInfoConfPath env)
  if confs.found = false then return (false, rc)
  else if confs.fnames = [] then return (false, rc)
  else do
    let rc ← initLoop env confs.fnames rc
    return (true, rc)

/-! ## The matcher -/

/-- `basename`. -/
def basename (path : Str) : Str :=
  if path = [] then ".".toList
  else
    let rest := path.reverse.dropWhile (· = '/')
    if rest = [] then "/".toList else (rest.takeWhile (· ≠ '/')).reverse

/-- An image: the names of which it has a symbol. -/
abbrev Symtab := Str → Bool

/-- The symbol of an id is in an image that is there. -/
def inImage (symtab : Option Symtab) (id : RmId) : Bool :=
  match symtab, id.id with
  | some symtab, .symbolName (some name) => symtab name
  | _, _ => false

/-- The body of the innermost loop; `match` is the result so far. -/
def matchId (mainSymtab rmsoSymtab : Option Symtab) (matched : Bool) (id : RmId) : Bool :=
  match id.from' with
  | .fromLauncher =>
    if id.method = .symbol then
      if inImage mainSymtab id then true
      else if inImage rmsoSymtab id then true
      else matched
    else matched
  | .fromUnknownSource => matched

/-- `has_matching_signiture`. -/
def hasMatchingSigniture (lnchrpath : Str) (rm : Rm) (mainSymtab rmsoSymtab : Option Symtab) : Bool :=
  let launcherName := basename lnchrpath
  rm.launchers.foldl (fun matched launcher =>
    if launcherName = launcher ∨ launcher = "*".toList then
      rm.launcherIds.foldl (matchId mainSymtab rmsoSymtab) matched
    else matched) false

/-- The loop of `init_rm_instance`. -/
def matchLoop (lnchrpath : Str) (mainSymtab rmsoSymtab : Option Symtab) : List Rm → RcRm → Bool × RcRm
  | [], rc => (false, rc)
  | rm :: rms, rc =>
    if hasMatchingSigniture lnchrpath rm mainSymtab rmsoSymtab then
      (true, { rc with resourceManager := rm })
    else matchLoop lnchrpath mainSymtab rmsoSymtab rms rc

/-- `init_rm_instance`. -/
def RcRm.initRmInstance (rc : RcRm) (lnchrpath toolDaemonPath : Str) (toolDaemonOpts : List Str)
    (mainSymtab rmsoSymtab : Option Symtab) (beStubPath : Str) : Bool × RcRm :=
  let (found, rc) := matchLoop lnchrpath mainSymtab rmsoSymtab rc.supportedRms rc
  (found, { rc with
    rmDaemonPath := toolDaemonPath, rmDaemonArgs := toolDaemonOpts, rmDaemonStub := beStubPath })

/-! ## The grammar -/

/-- A file whose lines are shorter than PATH_MAX. -/
structure ConfFile where
  text : Str
  short : ∀ line ∈ lines text, line.length < pathMax

/-- The lines of a file, as C strings. -/
def ConfFile.lines (f : ConfFile) : List Str := (Lines.lines f.text).map cStr

/-- The platform of a line that begins a section. -/
def header (line : Str) : Option Str :=
  if line.head? = some '[' ∧ ']' ∈ line.tail then some (line.tail.takeWhile (· ≠ ']')) else none

/-- Neither blank nor a comment. -/
def meant (line : Str) : Bool := line ≠ [] ∧ line.head? ≠ some '#'

/-- The files of a section, from the line behind its header on. -/
def sectionFiles (ls : List Str) : List Str :=
  (ls.filter meant).takeWhile fun line => line.head? ≠ some '['

/-- The files of the first section of a platform. -/
def listed (osIsa : Str) (ls : List Str) : List Str :=
  sectionFiles ((ls.filter meant).dropWhile fun line => header line ≠ some osIsa).tail

/-- The key and the value of a line that has them. -/
def keyValue (line : Str) : Option (Str × Str) :=
  if line.head? = some '#' then none
  else if '=' ∈ line then some (line.takeWhile (· ≠ '='), (line.dropWhile (· ≠ '=')).tail)
  else none

/-- The values of a key, in the order of their lines. -/
def values (ls : List Str) (key : Str) : List Str :=
  (ls.filterMap keyValue).filterMap fun kv => if kv.1 = key then some kv.2 else none

/-- Some line that is neither blank nor a comment has no equals sign. -/
def IllFormed (ls : List Str) : Prop := ∃ line ∈ ls, meant line = true ∧ '=' ∉ line

/-- The map of keys that have values. -/
def keyValuesOf (vals : Str → List Str) : KeyValues := fun key =>
  if vals key = [] then none else some (vals key)

/-- The manager with the given values of the keys. -/
def Rm.ofValues (env : Env) (vals : Str → List Str) : Rm := (fillRm env (keyValuesOf vals) .new).getD .new

/-- A launcher id is found in the symbols of the launcher or of the library. -/
def Found (mainSymtab rmsoSymtab : Option Symtab) (id : RmId) : Prop :=
  id.from' = .fromLauncher ∧ id.method = .symbol ∧ ∃ name, id.id = .symbolName (some name) ∧
    ∃ symtab, (mainSymtab = some symtab ∨ rmsoSymtab = some symtab) ∧ symtab name = true

/-- The manager lists the launcher, and has an id that is found. -/
def Matches (lnchrpath : Str) (mainSymtab rmsoSymtab : Option Symtab) (rm : Rm) : Prop :=
  (basename lnchrpath ∈ rm.launchers ∨ "*".toList ∈ rm.launchers) ∧
    ∃ id ∈ rm.launcherIds, Found mainSymtab rmsoSymtab id

/-! ## Positions -/

theorem findFirstOf_none {ch : Char} {v : Str} (h : ch ∉ v) : findFirstOf ch v 0 = none := by
  rw [findFirstOf, List.drop_zero, findIdx?_absent h, Option.map_none]

/-- The first of its kind behind a front. -/
theorem findFirstOf_append {ch : Char} {part : Str} (h : ch ∉ part) (front rest : Str) :
    findFirstOf ch (front ++ (part ++ ch :: rest)) front.length = some (front.length + part.length) := by
  rw [findFirstOf, List.drop_left, findIdx?_behind h, Option.map_some]

theorem takeWhile_ne {ch : Char} {part : Str} (h : ch ∉ part) (rest : Str) :
    (part ++ ch :: rest).takeWhile (· ≠ ch) = part := by
  rw [List.takeWhile_append_of_pos fun c hc => decide_eq_true (ne_of_mem_of_not_mem hc h),
    List.takeWhile_cons_of_neg (by simp), List.append_nil]

theorem dropWhile_ne {ch : Char} {part : Str} (h : ch ∉ part) (rest : Str) :
    (part ++ ch :: rest).dropWhile (· ≠ ch) = ch :: rest := by
  rw [List.dropWhile_append_of_pos fun c hc => decide_eq_true (ne_of_mem_of_not_mem hc h),
    List.dropWhile_cons_of_neg (by simp)]

/-! ## A configuration file -/

/-- What a loop over lines of which none breaks does to a part of its state. -/
theorem foldLines_ok {α : Type} {body : α → Str → Except α α} {step : α → Str → α} :
    ∀ (ls : List Str) (a : α), (∀ a, ∀ line ∈ ls, body a line = .ok (step a line)) →
      foldLines body a ls = ls.foldl step a := by
  intro ls
  induction ls with
  | nil =>
    intro a _
    rfl
  | cons line ls ih =>
    intro a h
    rw [foldLines, h a line List.mem_cons_self, List.foldl_cons]
    exact ih _ fun a l hl => h a l (List.mem_cons_of_mem _ hl)

/-- A line as the parser takes it. -/
def parseStep (st : KeyValues × Bool) (line : Str) : KeyValues × Bool :=
  ((keyValue line).elim st.1 fun kv => st.1.push kv.1 kv.2,
    st.2 || (line.head? ≠ some '#' ∧ '=' ∉ line))

theorem parseLine_eq {line : Str} (h : '\n' ∉ line) (st : KeyValues × Bool) :
    parseLine st line = .ok (parseStep st (cStr line)) := by
  obtain ⟨m, errorFound⟩ := st
  -- `getline` has taken the newline off, so the test for a newline in front never fires
  have hnl : (cStr line).head? ≠ some '\n' := by
    intro hhead
    exact h (List.takeWhile_subset _ (List.mem_of_mem_head? hhead))
  unfold parseLine parseStep keyValue
  dsimp only
  by_cases hcom : (cStr line).head? = some '#'
  · rw [if_pos (Or.inl hcom), if_pos hcom, decide_eq_false (fun hne => hne.1 hcom), Bool.or_false]
    rfl
  · rw [if_neg (by rintro (hc | hc); exacts [hcom hc, hnl hc]), if_neg hcom]
    by_cases heq : '=' ∈ cStr line
    · obtain ⟨key, value, hline, hkey⟩ := List.eq_append_cons_of_mem heq
      have hfind : findFirstOf '=' (cStr line) 0 = some key.length := by
        have hf := findFirstOf_append hkey [] value
        rw [hline]
        simpa using hf
      have hvalue : substr (cStr line) (key.length + 1) none = value := by
        rw [hline]
        show (key ++ '=' :: value).drop (key.length + 1) = value
        simp
      have hkey' : substr (cStr line) 0 (some key.length) = key := by
        rw [hline]
        exact List.take_left
      rw [hfind]
      dsimp only
      rw [hkey', hvalue, if_pos heq, decide_eq_false (fun hne => hne.2 heq), Bool.or_false, hline,
        takeWhile_ne hkey, dropWhile_ne hkey]
      rfl
    · rw [findFirstOf_none heq, if_neg heq, decide_eq_true ⟨hcom, heq⟩, Bool.or_true]
      rfl

/-- The values behind those that are there. -/
def more (o : Option (List Str)) (vs : List Str) : Option (List Str) :=
  if vs = [] then o else some (o.getD [] ++ vs)

theorem more_append (o : Option (List Str)) (vs ws : List Str) :
    more (more o vs) ws = more o (vs ++ ws) := by
  unfold more
  by_cases hv : vs = []
  · rw [if_pos hv, hv, List.nil_append]
  · by_cases hw : ws = []
    · rw [if_pos hw, hw, List.append_nil]
    · rw [if_neg hv, if_neg hw, if_neg (List.append_ne_nil_of_left_ne_nil hv ws), Option.getD_some,
        List.append_assoc]

theorem values_append (ls ls' : List Str) (key : Str) :
    values (ls ++ ls') key = values ls key ++ values ls' key := by
  unfold values
  rw [List.filterMap_append, List.filterMap_append]

theorem push_eq_more (m : KeyValues) (kv : Str × Str) (key : Str) :
    m.push kv.1 kv.2 key = more (m key) (if kv.1 = key then [kv.2] else []) := by
  unfold KeyValues.push
  by_cases hk : kv.1 = key
  · subst hk
    rw [Function.update_self, if_pos rfl, more, if_neg (List.cons_ne_nil _ _)]
  · rw [Function.update_of_ne (Ne.symm hk), if_neg hk, more, if_pos rfl]

theorem parseStep_fst (st : KeyValues × Bool) (line key : Str) :
    (parseStep st line).1 key = more (st.1 key) (values [line] key) := by
  unfold parseStep values
  cases hkv : keyValue line with
  | none =>
    rw [List.filterMap_cons_none hkv]
    rfl
  | some kv =>
    rw [List.filterMap_cons_some hkv, List.filterMap_nil]
    show st.1.push kv.1 kv.2 key = _
    rw [push_eq_more]
    by_cases hk : kv.1 = key
    · simp [hk]
    · simp [hk]

/-- What the parser has of a key are its values. -/
theorem foldl_parseStep_fst (ls : List Str) : ∀ (st : KeyValues × Bool) (key : Str),
    (ls.foldl parseStep st).1 key = more (st.1 key) (values ls key) := by
  induction ls with
  | nil =>
    intro st key
    rfl
  | cons line ls ih =>
    intro st key
    have happ : values (line :: ls) key = values [line] key ++ values ls key := values_append [line] ls key
    rw [List.foldl_cons, ih, parseStep_fst, more_append, happ]

theorem foldl_parseStep_snd (ls : List Str) : ∀ st : KeyValues × Bool,
    (ls.foldl parseStep st).2 = true ↔ st.2 = true ∨ ∃ line ∈ ls, line.head? ≠ some '#' ∧ '=' ∉ line := by
  induction ls with
  | nil =>
    intro st
    simp
  | cons line ls ih =>
    intro st
    rw [List.foldl_cons, ih]
    unfold parseStep
    rw [Bool.or_eq_true, decide_eq_true_eq]
    simp only [List.mem_cons, exists_eq_or_imp, or_assoc]

/-- A file has been parsed: the manager depends on the values of the keys, and the report on the lines. -/
theorem parseAndFillRm_eq (env : Env) {path : Str} {f : ConfFile} (hf : env.files path = some f.text)
    (rm : Rm) : ∃ errorFound,
      parseAndFillRm env path rm = (fillRm env (keyValuesOf (values f.lines)) rm).map (errorFound, ·) ∧
      (errorFound = true ↔ ∃ line ∈ f.lines, line.head? ≠ some '#' ∧ '=' ∉ line) := by
  have hnl : ∀ line ∈ lines f.text, '\n' ∉ line := not_mem_of_mem_lines f.text
  have hloop : whileLines pathMax parseLine (f.text.length + 1) (.ofText f.text) (fun _ => none, false) =
      some (f.lines.foldl parseStep (fun _ => none, false)) := by
    rw [whileLines_eq parseLine (by decide) _ _ _ f.short (Nat.lt_succ_self _),
      foldLines_ok _ _ fun st line hline => parseLine_eq (hnl line hline) st, ConfFile.lines,
      List.foldl_map]
  have hmap : (f.lines.foldl parseStep (fun _ => none, false)).1 = keyValuesOf (values f.lines) := by
    funext key
    rw [foldl_parseStep_fst]
    rfl
  refine ⟨(f.lines.foldl parseStep (fun _ => none, false)).2, ?_, ?_⟩
  · unfold parseAndFillRm
    rw [hf, Option.elim_some, hloop, ← hmap]
    show (fillRm env _ rm).bind _ = _
    rw [Option.map_eq_bind]
    rfl
  · rw [foldl_parseStep_snd]
    simp

/-- The loop over the signals always comes to an end. -/
theorem exists_fillRm (env : Env) (m : KeyValues) (rm : Rm) : ∃ rm', fillRm env m rm = some rm' := by
  have hkill : ∀ (rm : Rm) v, ∃ rm', rm.fillKillSingals v = some rm' := by
    intro rm v
    unfold Rm.fillKillSingals
    rcases fillKillSingals_eq rm.toResourceManager v with ⟨_, -, h⟩ | ⟨_, _, _, -, h⟩
    · exact ⟨_, by rw [h, Option.map_some]⟩
    · exact ⟨_, by rw [h, Option.map_some]⟩
  unfold fillRm
  cases hm : m "RM_signal_for_kill".toList with
  | none => exact ⟨_, rfl⟩
  | some vs =>
    dsimp only [Option.elim_some]
    obtain ⟨rm', h⟩ := hkill _ (vs.headD [])
    rw [h]
    exact ⟨_, rfl⟩

theorem fillRm_eq (env : Env) (vals : Str → List Str) :
    fillRm env (keyValuesOf vals) .new = some (Rm.ofValues env vals) := by
  obtain ⟨rm, h⟩ := exists_fillRm env (keyValuesOf vals) .new
  rw [Rm.ofValues, h, Option.getD_some]

/-! ## The list of files -/

theorem header_eq {line : Str} (h : line.head? = some '[') :
    findFirstOf ']' line 1 = (header line).map (fun name => name.length + 1) ∧
      ∀ name ∈ header line, substr line 1 (some name.length) = name := by
  obtain ⟨rest, rfl⟩ : ∃ rest, line = '[' :: rest := by
    cases line with
    | nil => cases h
    | cons ch rest =>
      rw [List.head?_cons, Option.some.injEq] at h
      exact ⟨rest, by rw [h]⟩
  -- the bracket is looked for from index 1, that is in `rest`
  by_cases hmem : ']' ∈ rest
  · obtain ⟨name, behind, rfl, hname⟩ := List.eq_append_cons_of_mem hmem
    have hfind := findFirstOf_append hname ['['] behind
    have hhead : header ('[' :: (name ++ ']' :: behind)) = some name := by
      rw [header, if_pos ⟨h, hmem⟩, List.tail_cons, takeWhile_ne hname]
    rw [hhead]
    refine ⟨?_, ?_⟩
    · rw [Option.map_some, Nat.add_comm]
      exact hfind
    · rintro _ ⟨⟩
      exact List.take_left
  · have hno : rest.findIdx? (· = ']') = none :=
      List.findIdx?_eq_none_iff.mpr fun c hc => decide_eq_false (ne_of_mem_of_not_mem hc hmem)
    rw [header, if_neg fun hc => hmem hc.2]
    refine ⟨?_, by rintro _ ⟨⟩⟩
    show (rest.findIdx? (· = ']')).map _ = none
    rw [hno, Option.map_none]

theorem header_none {line : Str} (h : line.head? ≠ some '[') : header line = none := by
  exact if_neg fun hc => h hc.1

theorem meant_iff {line : Str} :
    meant line = true ↔ ¬(line.head? = some '#' ∨ line.head? = none) := by
  unfold meant
  rw [decide_eq_true_eq, not_or, List.head?_eq_none_iff, and_comm]

section ConfLine

variable {osIsa line : Str} (st : Confs)

theorem confLine_skip (h : meant (cStr line) = false) : confLine osIsa st line = .ok st :=
  if_pos (not_not.mp fun hn => Bool.eq_false_iff.mp h (meant_iff.mpr hn))

/-- In front of the section, a line does not matter unless it is the header. -/
theorem confLine_outside (h : meant (cStr line) = true) (hst : st.platFound = false) :
    confLine osIsa st line =
      .ok (if header (cStr line) = some osIsa then { st with platFound := true } else st) := by
  unfold confLine
  dsimp only
  rw [if_neg (meant_iff.mp h), hst, if_pos (by decide)]
  by_cases hsec : (cStr line).head? = some '['
  · obtain ⟨hfind, hname⟩ := header_eq hsec
    rw [if_pos hsec, hfind]
    cases hh : header (cStr line) with
    | none => rfl
    | some name =>
      have hsub : substr (cStr line) 1 (some (name.length + 1 - 1)) = name := hname name hh
      dsimp only [Option.map_some]
      rw [hsub]
      by_cases hn : name = osIsa
      · rw [if_pos hn, if_pos (congrArg some hn)]
      · rw [if_neg hn, if_neg fun he => hn (Option.some.inj he)]
  · rw [if_neg hsec, header_none hsec, if_neg (by rintro ⟨⟩)]

theorem confLine_inside (h : meant (cStr line) = true) (hst : st.platFound = true) :
    confLine osIsa st line =
      if (cStr line).head? = some '[' then .error st
      else .ok { st with found := true, fnames := st.fnames ++ [cStr line] } := by
  unfold confLine
  dsimp only
  rw [if_neg (meant_iff.mp h), hst, if_neg (by decide)]

end ConfLine

theorem sectionFiles_filter (ls : List Str) : sectionFiles (ls.filter meant) = sectionFiles ls := by
  rw [sectionFiles, List.filter_filter]
  simp only [Bool.and_self]
  rfl

/-- In the section, the files up to the next one are collected. -/
theorem foldLines_inside (osIsa : Str) : ∀ (ls : List Str) (st : Confs), st.platFound = true →
    foldLines (confLine osIsa) st ls = { st with
      found := st.found || sectionFiles (ls.map cStr) ≠ []
      fnames := st.fnames ++ sectionFiles (ls.map cStr) } := by
  intro ls
  induction ls with
  | nil =>
    intro st _
    simp [foldLines, sectionFiles]
  | cons line ls ih =>
    intro st hst
    rw [foldLines, List.map_cons]
    cases hm : meant (cStr line) with
    | false =>
      rw [confLine_skip st hm, sectionFiles, List.filter_cons_of_neg (by rw [hm]; decide)]
      exact ih st hst
    | true =>
      rw [confLine_inside st hm hst, sectionFiles, List.filter_cons_of_pos hm]
      -- the next header ends the section
      by_cases hsec : (cStr line).head? = some '['
      · rw [if_pos hsec, List.takeWhile_cons_of_neg (by simp [hsec])]
        simp
      · rw [if_neg hsec, List.takeWhile_cons_of_pos (by simp [hsec])]
        dsimp only
        rw [ih ⟨st.platFound, true, st.fnames ++ [cStr line]⟩ hst]
        simp [sectionFiles]

/-- In front of the section nothing is. -/
theorem foldLines_confLine (osIsa : Str) : ∀ ls : List Str, ∃ platFound,
    foldLines (confLine osIsa) ⟨false, false, []⟩ ls =
      ⟨platFound, listed osIsa (ls.map cStr) ≠ [], listed osIsa (ls.map cStr)⟩ := by
  intro ls
  induction ls with
  | nil => exact ⟨false, rfl⟩
  | cons line ls ih =>
    rw [foldLines, List.map_cons]
    cases hm : meant (cStr line) with
    | false =>
      rw [confLine_skip _ hm, listed, List.filter_cons_of_neg (by rw [hm]; decide)]
      exact ih
    | true =>
      rw [confLine_outside _ hm rfl, listed, List.filter_cons_of_pos hm]
      by_cases hh : header (cStr line) = some osIsa
      · rw [if_pos hh, List.dropWhile_cons_of_neg (by simp [hh]), List.tail_cons]
        dsimp only
        rw [foldLines_inside osIsa ls _ rfl, sectionFiles_filter]
        exact ⟨true, rfl⟩
      · rw [if_neg hh, List.dropWhile_cons_of_pos (by simp [hh])]
        exact ih

/-! ## The matcher -/

theorem inImage_iff {symtab : Option Symtab} {id : RmId} : inImage symtab id = true ↔
    ∃ name, id.id = .symbolName (some name) ∧ ∃ s, symtab = some s ∧ s name = true := by
  unfold inImage
  constructor
  · split
    · next s name hid =>
      intro h
      exact ⟨name, hid, s, rfl, h⟩
    · intro h
      exact Bool.noConfusion h
  · rintro ⟨name, hid, s, rfl, h⟩
    rw [hid]
    exact h

section Matcher

variable {mainSymtab rmsoSymtab : Option Symtab}

/-- A launcher id that is found makes a match. -/
theorem matchId_iff (matched : Bool) (id : RmId) :
    matchId mainSymtab rmsoSymtab matched id = true ↔ matched = true ∨ Found mainSymtab rmsoSymtab id := by
  have hfound : Found mainSymtab rmsoSymtab id ↔ id.from' = .fromLauncher ∧ id.method = .symbol ∧
      (inImage mainSymtab id = true ∨ inImage rmsoSymtab id = true) := by
    unfold Found
    rw [inImage_iff, inImage_iff, ← exists_or]
    simp only [← and_or_left, ← exists_or, ← or_and_right]
  rw [hfound]
  unfold matchId
  cases hfrom : id.from' with
  | fromUnknownSource => simp
  | fromLauncher =>
    dsimp only
    by_cases hmethod : id.method = .symbol
    · rw [if_pos hmethod]
      by_cases hmain : inImage mainSymtab id = true
      · simp [hmain, hmethod]
      · by_cases hrmso : inImage rmsoSymtab id = true
        · simp [hrmso, hmethod]
        · simp [hmain, hrmso]
    · rw [if_neg hmethod]
      simp [hmethod]

theorem foldl_matchId (ids : List RmId) : ∀ matched : Bool,
    ids.foldl (matchId mainSymtab rmsoSymtab) matched = true ↔
      matched = true ∨ ∃ id ∈ ids, Found mainSymtab rmsoSymtab id := by
  induction ids with
  | nil => simp
  | cons id ids ih =>
    intro matched
    rw [List.foldl_cons, ih, matchId_iff]
    simp only [List.mem_cons, exists_eq_or_imp, or_assoc]

/-- **The matcher** finds out whether a manager matches. -/
theorem hasMatchingSigniture_iff (lnchrpath : Str) (rm : Rm) :
    hasMatchingSigniture lnchrpath rm mainSymtab rmsoSymtab = true ↔
      Matches lnchrpath mainSymtab rmsoSymtab rm := by
  -- one launcher after the other, from what the ones before it have found
  have hfold : ∀ (launchers : List Str) (matched : Bool), launchers.foldl (fun matched launcher =>
      if basename lnchrpath = launcher ∨ launcher = "*".toList then
        rm.launcherIds.foldl (matchId mainSymtab rmsoSymtab) matched
      else matched) matched = true ↔ matched = true ∨
        (basename lnchrpath ∈ launchers ∨ "*".toList ∈ launchers) ∧
          ∃ id ∈ rm.launcherIds, Found mainSymtab rmsoSymtab id := by
    intro launchers
    induction launchers with
    | nil => simp
    | cons launcher launchers ih =>
      intro matched
      rw [List.foldl_cons, ih]
      by_cases hname : basename lnchrpath = launcher ∨ launcher = "*".toList
      · rw [if_pos hname, foldl_matchId]
        have hmem : basename lnchrpath ∈ launcher :: launchers ∨ "*".toList ∈ launcher :: launchers := by
          rcases hname with rfl | rfl
          · exact Or.inl List.mem_cons_self
          · exact Or.inr List.mem_cons_self
        rw [and_iff_right hmem]
        constructor
        · rintro (h | ⟨-, hid⟩)
          · exact h
          · exact Or.inr hid
        · exact Or.inl
      · rw [if_neg hname, List.mem_cons, List.mem_cons, eq_comm (a := "*".toList)]
        tauto
  unfold hasMatchingSigniture
  rw [hfold rm.launchers false]
  exact ⟨fun h => h.resolve_left (by decide), Or.inr⟩

/-- The first manager that matches, and no other one, is selected. -/
structure Selects (lnchrpath : Str) (mainSymtab rmsoSymtab : Option Symtab) (rc : RcRm)
    (r : Bool × RcRm) : Prop where
  found : ∀ rms rm rms', rc.supportedRms = rms ++ rm :: rms' →
    (∀ rm' ∈ rms, ¬Matches lnchrpath mainSymtab rmsoSymtab rm') →
    Matches lnchrpath mainSymtab rmsoSymtab rm → r.1 = true ∧ r.2.resourceManager = rm
  none : (∀ rm ∈ rc.supportedRms, ¬Matches lnchrpath mainSymtab rmsoSymtab rm) →
    r.1 = false ∧ r.2.resourceManager = rc.resourceManager

theorem matchLoop_of_match {lnchrpath : Str} {rm : Rm} (rms' : List Rm) (rc : RcRm)
    (hm : Matches lnchrpath mainSymtab rmsoSymtab rm) : ∀ rms : List Rm,
    (∀ rm' ∈ rms, ¬Matches lnchrpath mainSymtab rmsoSymtab rm') →
      matchLoop lnchrpath mainSymtab rmsoSymtab (rms ++ rm :: rms') rc =
        (true, { rc with resourceManager := rm }) := by
  intro rms
  induction rms with
  | nil =>
    intro _
    exact if_pos (hasMatchingSigniture_iff lnchrpath rm |>.mpr hm)
  | cons rm' rms ih =>
    intro h
    have hno : ¬hasMatchingSigniture lnchrpath rm' mainSymtab rmsoSymtab = true := fun hm =>
      h rm' List.mem_cons_self ((hasMatchingSigniture_iff lnchrpath rm').mp hm)
    rw [List.cons_append, matchLoop, if_neg hno]
    exact ih fun rm'' hrm => h rm'' (List.mem_cons_of_mem _ hrm)

theorem matchLoop_of_none {lnchrpath : Str} (rc : RcRm) : ∀ rms : List Rm,
    (∀ rm ∈ rms, ¬Matches lnchrpath mainSymtab rmsoSymtab rm) →
      matchLoop lnchrpath mainSymtab rmsoSymtab rms rc = (false, rc) := by
  intro rms
  induction rms with
  | nil =>
    intro _
    rfl
  | cons rm rms ih =>
    intro h
    have hno : ¬hasMatchingSigniture lnchrpath rm mainSymtab rmsoSymtab = true := fun hm =>
      h rm List.mem_cons_self ((hasMatchingSigniture_iff lnchrpath rm).mp hm)
    rw [matchLoop, if_neg hno]
    exact ih fun rm' hrm => h rm' (List.mem_cons_of_mem _ hrm)

theorem initRmInstance_selects (rc : RcRm) (lnchrpath toolDaemonPath : Str) (toolDaemonOpts : List Str)
    (beStubPath : Str) : Selects lnchrpath mainSymtab rmsoSymtab rc
      (rc.initRmInstance lnchrpath toolDaemonPath toolDaemonOpts mainSymtab rmsoSymtab beStubPath) where
  found rms rm rms' hrms hno hm := by
    unfold RcRm.initRmInstance
    rw [hrms, matchLoop_of_match rms' rc hm rms hno]
    exact ⟨rfl, rfl⟩
  none hno := by
    unfold RcRm.initRmInstance
    rw [matchLoop_of_none rc _ hno]
    exact ⟨rfl, rfl⟩

end Matcher

/-! ## What is read -/

/-- The system with files whose lines are short: the configuration, and the files of the managers. -/
def withFiles (env : Env) (files : Str → Option ConfFile) : Env :=
  { env with files := fun path => (files path).map ConfFile.text }

/-- The lines of a file, if it is there. -/
def linesAt (files : Str → Option ConfFile) (path : Str) : List Str := (files path).elim [] ConfFile.lines

/-- The managers of a list of files, as the values of their keys make them. -/
def managers (env : Env) (files : Str → Option ConfFile) (fnames : List Str) : List Rm :=
  fnames.map fun fname =>
    Rm.ofValues (withFiles env files) (values (linesAt files (configDir (withFiles env files) ++ fname)))

/-- The files of the first section of a platform in `rm_info.conf`. -/
def listedFiles (env : Env) (files : Str → Option ConfFile) (osIsa : Str) : List Str :=
  listed osIsa (linesAt files (rmInfoConfPath (withFiles env files)))

/-- The configuration of a platform is read by its grammar.  The manager of a file is `Rm.ofValues` of the
    values of its keys, and two neighbouring lines with different keys can be exchanged. -/
structure ReadByGrammar (env : Env) (files : Str → Option ConfFile) (osIsa : Str) : Prop where
  init : ∀ rc : RcRm, rc.init (withFiles env files) osIsa =
    some (decide (listedFiles env files osIsa ≠ []),
      { rc with supportedRms := rc.supportedRms ++ managers env files (listedFiles env files osIsa) })
  exchange : ∀ (f f' : ConfFile) (ls ls' : List Str) (line line' : Str) (kv kv' : Str × Str),
    f.lines = ls ++ line :: line' :: ls' → f'.lines = ls ++ line' :: line :: ls' →
    keyValue line = some kv → keyValue line' = some kv' → kv.1 ≠ kv'.1 → values f'.lines = values f.lines
  illFormed : ∀ fname ∈ listedFiles env files osIsa, ∀ (f : ConfFile) (rm : Rm),
    files (configDir (withFiles env files) ++ fname) = some f → ∃ errorFound rm',
      parseAndFillRm (withFiles env files) (configDir (withFiles env files) ++ fname) rm =
        some (errorFound, rm') ∧ (errorFound = true ↔ IllFormed f.lines)
  selects : ∀ (lnchrpath toolDaemonPath : Str) (toolDaemonOpts : List Str)
    (mainSymtab rmsoSymtab : Option Symtab) (beStubPath : Str) (rc : RcRm),
    Selects lnchrpath mainSymtab rmsoSymtab rc
      (rc.initRmInstance lnchrpath toolDaemonPath toolDaemonOpts mainSymtab rmsoSymtab beStubPath)

variable (env : Env) (files : Str → Option ConfFile)

theorem parseAndFillRm_manager (path : Str) : ∃ errorFound,
    parseAndFillRm (withFiles env files) path .new =
      some (errorFound, Rm.ofValues (withFiles env files) (values (linesAt files path))) := by
  cases hf : files path with
  -- a file that does not open fills from an empty table
  | none =>
    refine ⟨false, ?_⟩
    have hopen : (withFiles env files).files path = none := congrArg (Option.map ConfFile.text) hf
    have hvals : (fun _ => none : KeyValues) = keyValuesOf (values (linesAt files path)) := by
      rw [linesAt, hf]
      rfl
    unfold parseAndFillRm
    rw [hopen, Option.elim_none, hvals]
    dsimp only [Option.bind_eq_bind, Option.bind_some]
    rw [fillRm_eq]
    rfl
  | some f =>
    have hopen : (withFiles env files).files path = some f.text := congrArg (Option.map ConfFile.text) hf
    obtain ⟨errorFound, h, -⟩ := parseAndFillRm_eq _ hopen .new
    have hlines : linesAt files path = f.lines := by
      rw [linesAt, hf]
      rfl
    exact ⟨errorFound, by rw [h, fillRm_eq, hlines]; rfl⟩

theorem initLoop_eq : ∀ (fnames : List Str) (rc : RcRm), initLoop (withFiles env files) fnames rc =
    some { rc with supportedRms := rc.supportedRms ++ managers env files fnames } := by
  intro fnames
  induction fnames with
  | nil =>
    intro rc
    rw [initLoop, managers, List.map_nil, List.append_nil]
  | cons fname fnames ih =>
    intro rc
    obtain ⟨errorFound, h⟩ := parseAndFillRm_manager env files (configDir (withFiles env files) ++ fname)
    rw [initLoop, h]
    dsimp only [Option.bind_eq_bind, Option.bind_some]
    rw [ih]
    simp [managers]

theorem readSupportedRmConfs_eq (osIsa path : Str) : ∃ platFound,
    readSupportedRmConfs (withFiles env files) osIsa path =
      some ⟨platFound, listed osIsa (linesAt files path) ≠ [], listed osIsa (linesAt files path)⟩ := by
  unfold readSupportedRmConfs
  cases hf : files path with
  | none =>
    have hopen : (withFiles env files).files path = none := congrArg (Option.map ConfFile.text) hf
    rw [hopen, linesAt, hf]
    exact ⟨false, rfl⟩
  | some f =>
    have hopen : (withFiles env files).files path = some f.text := congrArg (Option.map ConfFile.text) hf
    obtain ⟨platFound, h⟩ := foldLines_confLine osIsa (lines f.text)
    rw [hopen, linesAt, hf, Option.elim_some, Option.elim_some,
      whileLines_eq _ (by decide) _ _ _ f.short (Nat.lt_succ_self _), h]
    exact ⟨platFound, rfl⟩

/-- **`init`** makes one manager for each listed file, in their order. -/
theorem init_eq (osIsa : Str) (rc : RcRm) : rc.init (withFiles env files) osIsa =
    some (decide (listedFiles env files osIsa ≠ []),
      { rc with supportedRms := rc.supportedRms ++ managers env files (listedFiles env files osIsa) }) := by
  obtain ⟨platFound, h⟩ := readSupportedRmConfs_eq env files osIsa (rmInfoConfPath (withFiles env files))
  unfold RcRm.init listedFiles
  rw [h]
  dsimp only [Option.bind_eq_bind, Option.bind_some]
  by_cases hne : listed osIsa (linesAt files (rmInfoConfPath (withFiles env files))) = []
  · rw [hne, if_pos (by simp)]
    simp [managers]
  · rw [if_neg (by simp [hne]), if_neg hne, initLoop_eq]
    simp [hne]

/-- Neighbouring lines with different keys can be exchanged. -/
theorem values_exchange {ls ls' : List Str} {line line' : Str} {kv kv' : Str × Str}
    (hkv : keyValue line = some kv) (hkv' : keyValue line' = some kv') (hne : kv.1 ≠ kv'.1) :
    values (ls ++ line' :: line :: ls') = values (ls ++ line :: line' :: ls') := by
  have hpair : ∀ key, values [line', line] key = values [line, line'] key := by
    intro key
    unfold values
    rw [List.filterMap_cons_some hkv', List.filterMap_cons_some hkv, List.filterMap_cons_some hkv,
      List.filterMap_cons_some hkv']
    by_cases h : kv.1 = key
    · have h' : kv'.1 ≠ key := fun h' => hne (h.trans h'.symm)
      simp [h, h']
    · simp [List.filterMap_cons, h]
  have hsplit : ∀ (l l' : Str) key,
      values (ls ++ l :: l' :: ls') key = values ls key ++ (values [l, l'] key ++ values ls' key) := by
    intro l l' key
    rw [← values_append, ← values_append]
    rfl
  funext key
  rw [hsplit, hsplit, hpair]

/-- **The report** is made for a file with a blank line, and for an ill-formed one. -/
theorem parseAndFillRm_report {path : Str} {f : ConfFile} (hf : files path = some f) (rm : Rm) :
    ∃ errorFound rm', parseAndFillRm (withFiles env files) path rm = some (errorFound, rm') ∧
      (errorFound = true ↔ [] ∈ f.lines ∨ IllFormed f.lines) := by
  obtain ⟨errorFound, h, herr⟩ := @parseAndFillRm_eq (withFiles env files) path f
    (congrArg (Option.map ConfFile.text) hf) rm
  obtain ⟨rm', hrm⟩ := exists_fillRm (withFiles env files) (keyValuesOf (values f.lines)) rm
  refine ⟨errorFound, rm', by rw [h, hrm]; rfl, herr.trans ⟨?_, ?_⟩⟩
  · rintro ⟨line, hline, hcom, heq⟩
    by_cases hne : line = []
    · exact Or.inl (hne ▸ hline)
    · exact Or.inr ⟨line, hline, decide_eq_true ⟨hne, hcom⟩, heq⟩
  · rintro (hline | ⟨line, hline, hm, heq⟩)
    · exact ⟨[], hline, by simp, List.not_mem_nil⟩
    · exact ⟨line, hline, (of_decide_eq_true hm).2, heq⟩

/-- **The configuration is read by its grammar exactly if** no listed file is blamed for its blank lines:
    one that has a blank line is ill-formed. -/
theorem readByGrammar_iff (osIsa : Str) : ReadByGrammar env files osIsa ↔
    ∀ fname ∈ listedFiles env files osIsa, ∀ f,
      files (configDir (withFiles env files) ++ fname) = some f → [] ∈ f.lines → IllFormed f.lines := by
  constructor
  · intro h fname hfname f hf hblank
    obtain ⟨e, rm, hrun, he⟩ := h.illFormed fname hfname f .new hf
    obtain ⟨e', rm', hrun', he'⟩ := parseAndFillRm_report env files hf .new
    cases hrun.symm.trans hrun'
    exact he.mp (he'.mpr (Or.inl hblank))
  · intro h
    refine ⟨init_eq env files osIsa, ?_, ?_, ?_⟩
    · intro f f' ls ls' line line' kv kv' hf hf' hkv hkv' hne
      rw [hf, hf', values_exchange hkv hkv' hne]
    · intro fname hfname f rm hf
      obtain ⟨e, rm', hrun, he⟩ := parseAndFillRm_report env files hf rm
      refine ⟨e, rm', hrun, he.trans ⟨?_, Or.inr⟩⟩
      rintro (hblank | hbad)
      · exact h fname hfname f hf hblank
      · exact hbad
    · intro lnchrpath toolDaemonPath toolDaemonOpts mainSymtab rmsoSymtab beStubPath rc
      exact initRmInstance_selects rc lnchrpath toolDaemonPath toolDaemonOpts beStubPath

/-- An `rm_info.conf` that lists one file, and that file, with a blank line between its two keys. -/
def infoConf : ConfFile where
  text := "[linux_x86_64]\nrm_slurm.conf\n".toList
  short := by decide +kernel

def spacedConf : ConfFile where
  text := "RM=slurm\n\nRM_MPIR=STD\n".toList
  short := by decide +kernel

def spacedFiles (path : Str) : Option ConfFile :=
  if path = "/usr/etc/rm_info.conf".toList then some infoConf
  else if path = "/usr/etc/rm_slurm.conf".toList then some spacedConf
  else none

def plainEnv : Env := ⟨none, none, "/usr".toList, fun _ => false, fun _ => none⟩

/-- The file is reported, although no line is wrong. -/
theorem spacedConf_counterexample : ¬ReadByGrammar plainEnv spacedFiles "linux_x86_64".toList := by
  intro h
  have hf : spacedFiles (configDir (withFiles plainEnv spacedFiles) ++ "rm_slurm.conf".toList) =
      some spacedConf := rfl
  obtain ⟨e, rm, hrun, he⟩ := h.illFormed "rm_slurm.conf".toList (by decide +kernel) spacedConf .new hf
  obtain ⟨e', rm', hrun', he'⟩ := parseAndFillRm_report plainEnv spacedFiles hf .new
  cases hrun.symm.trans hrun'
  obtain ⟨line, hline, hm, heq⟩ := he.mp (he'.mpr (Or.inl (by decide +kernel)))
  have hall : ∀ line ∈ spacedConf.lines, meant line = true → '=' ∈ line := by decide +kernel
  exact heq (hall line hline hm)

end LaunchMON.Engine.RmConfig
