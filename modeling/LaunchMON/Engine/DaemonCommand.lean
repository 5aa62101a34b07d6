/-
  The command that launches the daemons, and the file with their hosts: `launch_tool_daemons` of
  `sdbg_linux_launchmon.cxx`, with `set_paramset` of `sdbg_rm_map.cxx`.

  The shared key and the random number come from the command line of the engine, as one word with a
  colon in the middle.  For SLURM, Flux, GUPC and Hydra the launch string ends in the daemon's command
  line (`daemonTokens`), and that end becomes the daemon, its arguments as they are, and the two
  options, if the arguments come through (`expanded_daemonTokens`).  ALPS and Cray launch by a command
  as well, but hand the daemon to a starter of theirs, as the value of `--daemon=`.
-/
import LaunchMON.Lib.Environ
import LaunchMON.Lmonp.Proctab
import LaunchMON.Engine.LaunchString
import LaunchMON.Engine.Options
import LaunchMON.Engine.RmConfig

namespace LaunchMON.Engine

open CText CBytes Lmonp

/-! ## The code -/

/-- `LMON_HOSTS_FN_BASE`. -/
def lmonHostsFnBase : Str := "hostnamefn".toList

/-- What the engine finds on its node for the file of the hosts: the working directory, its own process
    id, and whether a file can be opened. -/
structure Node where
  getcwd : Option Str
  getpid : ℕ
  opens : Str → Bool

/-- `hnfn` of `launch_tool_daemons`, if there is a file. -/
def Node.hnfn (node : Node) : Option Str := do
  let cwd ← node.getcwd
  let tmpsuf := '.' :: decimal node.getpid
  let here := cwd ++ ['/'] ++ lmonHostsFnBase ++ tmpsuf
  let tmp := "/tmp/".toList ++ lmonHostsFnBase ++ tmpsuf
  if node.opens here then some here else if node.opens tmp then some tmp else none

/-- `is_modelchecker`. -/
def RmConfig.RcRm.isModelchecker (rc : RmConfig.RcRm) : Bool := rc.resourceManager.rm = .mcheckerRm

/-- `is_coloc_sup`. -/
def RmConfig.RcRm.isColocSup (rc : RmConfig.RcRm) : Bool :=
  rc.resourceManager.mpir = .coloc ∨ rc.resourceManager.mpir = .colocFifo

/-- `coloc_paramset`, before `set_paramset`. -/
def RmConfig.RcRm.colocParamset (rc : RmConfig.RcRm) : ColocStrParam where
  rmDaemonPath := rc.rmDaemonPath
  rmDaemonArgs := rc.rmDaemonArgs
  rmDaemonStub := rc.rmDaemonStub
  nnodes := -1
  sharedsec := none
  randomid := none
  resourceid := -1
  hnfilename := none

/-- `get_launch_helper`. -/
def RmConfig.RcRm.launchHelper (rc : RmConfig.RcRm) : LaunchMethodT where
  launchMethod := match rc.resourceManager.launchHelper.launchMethod with
    | .mpirColoc => .mpirColoc
    | .launchHelperMethod => .launchHelperMethod
    | .launchMethodUnknown => .launchMethodUnknown
  launcherCommand := rc.resourceManager.launchHelper.launcherCommand

/-- `set_paramset`. -/
def setParamset (c : ColocStrParam) (nNodes : ℤ) (secret ranId : Option Str) (resourceId : ℤ)
    (hostFileName : Option Str) : ColocStrParam :=
  match secret, ranId with
  | some secret, some ranId =>
    { c with
      nnodes := nNodes, sharedsec := some secret, randomid := some ranId, resourceid := resourceId
      hnfilename := hostFileName.or c.hnfilename }
  | _, _ => c

/-- The variables that `expand_launch_string` asks for. -/
def launchEnv (tvcmd sshcmd : Str) (env : Environ) : LaunchEnv :=
  ⟨(env "LMON_DEBUG_BES".toList).isSome, env "LMON_REMOTE_LOGIN".toList, tvcmd, sshcmd⟩

/-- What `launch_tool_daemons` makes: the file with the hosts and its contents, and the vector of the
    command that launches the daemons. -/
structure DaemonLaunch where
  hnfn : Str
  hnstream : List UInt8
  alist : List Str

/-- `launch_tool_daemons` in API mode, if it launches a command.  `env` are the variables of the engine, and
    `fuel` bounds the loop of `expand_launch_string`. -/
def launchToolDaemonsCmd (boostTokenizer : Str → Str → Str → Str → List Str) (fuel : ℕ) (node : Node)
    (tvcmd sshcmd : Str) (env : Environ) (opt : OptStruct) (rc : RmConfig.RcRm) (proctableCopy : Proctable)
    (resid : ℤ) : Option DaemonLaunch :=
  if proctableCopy.isEmpty ∨ rc.isModelchecker ∨ rc.isColocSup then none
  else do
    let words := strtok ':' opt.lmonSecInfo
    let hnfn ← node.hnfn
    let c := setParamset rc.colocParamset proctableCopy.size words[0]? words[1]? resid (some hnfn)
    let (_, alist) ← c.expandLaunchString boostTokenizer fuel (launchEnv tvcmd sshcmd env) rc.launchHelper
      rc.resourceManager.launchString
    return ⟨hnfn, proctableCopy.keys.flatMap fun host => host.bytes ++ [10], alist⟩

/-! ## The end of the launch string -/

instance : DecidablePred CleanArg := fun a =>
  @instDecidableAnd _ _ inferInstance
    (List.decidableBAll (fun ch => ch ≠ ' ' ∧ ch ≠ '"' ∧ ch ≠ '\'') a)

/-- `%d %o --lmonsharedsec=%s --lmonsecchk=%c`, as tokens: the end of `RM_launch_str` in
    `rm_slurm.conf.in`, `rm_flux.conf`, `rm_gupc.conf` and `rm_mpiexec_hydra.conf`. -/
def daemonTokens : List Str :=
  ["%d".toList, percentO, "--lmonsharedsec=%s".toList, "--lmonsecchk=%c".toList]

/-- A token that is a letter behind some text. -/
theorem expanded_letter {c : ColocStrParam} {u v : Str} {p : Char} (hu : '%' ∉ u)
    (hp : c.expandALetter p = (v, false)) (hna : v ≠ "na".toList) (hne : u ++ v ≠ []) :
    c.expanded [u ++ ['%', p]] = [u ++ v] := by
  have htok : c.expandToken (u ++ ['%', p]) = (u ++ v, false) := by
    rw [expandToken_letter hu p [], hp, if_pos hna, List.append_nil]
  unfold ColocStrParam.expanded
  rw [List.flatMap_singleton, piece_of_expandToken htok]
  exact List.filter_eq_self.mpr fun tok htok => decide_eq_true (List.mem_singleton.mp htok ▸ hne)

/-- **What the end becomes**: the daemon, its arguments, and the two options. -/
theorem expanded_daemonTokens {c : ColocStrParam} {sec chk : Str} (hsec : c.sharedsec = some sec)
    (hchk : c.randomid = some chk) (hpath : c.rmDaemonPath ≠ [] ∧ c.rmDaemonPath ≠ "na".toList)
    (hargs : ∀ a ∈ c.rmDaemonArgs, CleanArg a) (hna : sec ≠ "na".toList ∧ chk ≠ "na".toList) :
    c.expanded daemonTokens = c.rmDaemonPath :: c.rmDaemonArgs ++
      ["--lmonsharedsec=".toList ++ sec, "--lmonsecchk=".toList ++ chk] := by
  have hd : c.expanded ["%d".toList] = [c.rmDaemonPath] :=
    @expanded_letter c [] c.rmDaemonPath 'd' (by decide) rfl hpath.2 hpath.1
  have ho : c.expanded [percentO] = c.rmDaemonArgs := by
    unfold ColocStrParam.expanded
    rw [List.flatMap_singleton]
    exact piece_percentO.mpr hargs
  have hs : c.expanded ["--lmonsharedsec=%s".toList] = ["--lmonsharedsec=".toList ++ sec] := by
    refine @expanded_letter c "--lmonsharedsec=".toList sec 's' (by decide) ?_ hna.1 (by rintro ⟨⟩)
    show (streamed c.sharedsec, false) = _
    rw [hsec]
    rfl
  have hc : c.expanded ["--lmonsecchk=%c".toList] = ["--lmonsecchk=".toList ++ chk] := by
    refine @expanded_letter c "--lmonsecchk=".toList chk 'c' (by decide) ?_ hna.2 (by rintro ⟨⟩)
    show (streamed c.randomid, false) = _
    rw [hchk]
    rfl
  show c.expanded (["%d".toList] ++ ([percentO] ++ (["--lmonsharedsec=%s".toList] ++
    ["--lmonsecchk=%c".toList]))) = _
  rw [expanded_append, expanded_append, expanded_append, hd, ho, hs, hc]
  rfl

/-! ## The command -/

/-- A number as `%d` is neither empty, nor has it a colon in it. -/
theorem percentD_word (x : ℤ) : percentD x ≠ [] ∧ ':' ∉ percentD x ∧ percentD x ≠ "na".toList := by
  have hdecimal : ∀ n : ℕ, ∀ ch ∈ decimal n, ch.isDigit = true := fun n ch hch =>
    Nat.isDigit_of_mem_toDigits (by decide) (by decide) hch
  have hmem : ∀ ch ∈ percentD x, ch = '-' ∨ ch.isDigit = true := by
    intro ch hch
    unfold percentD at hch
    split at hch
    · rcases List.mem_cons.mp hch with rfl | hch
      · exact Or.inl rfl
      · exact Or.inr (hdecimal _ ch hch)
    · exact Or.inr (hdecimal _ ch hch)
  refine ⟨?_, fun h => ?_, fun h => ?_⟩
  · unfold percentD
    split
    · exact List.cons_ne_nil _ _
    · exact Nat.toDigits_ne_nil
  · rcases hmem _ h with h | h <;> cases h
  · rcases hmem 'n' (h ▸ List.mem_cons_self) with h | h <;> cases h

/-- The key and the number are taken apart again. -/
theorem secInfo_words (key : ℕ) (id : ℤ) :
    strtok ':' (percentD key ++ [':'] ++ percentD id) = [percentD key, percentD id] := by
  have hwords : ∀ w ∈ [percentD key, percentD id], w ≠ [] ∧ ':' ∉ w := by
    intro w hw
    rcases List.mem_pair.mp hw with rfl | rfl
    · exact ⟨(percentD_word _).1, (percentD_word _).2.1⟩
    · exact ⟨(percentD_word _).1, (percentD_word _).2.1⟩
  rw [← strtok_intercalate hwords (List.cons_ne_nil _ _)]
  simp [List.intercalate, List.intersperse]

/-- **The command that launches the daemons** ends with the daemon, its arguments, and the two options,
    whatever is in front of them in the launch string. -/
theorem launchToolDaemonsCmd_spec {boostTokenizer : Str → Str → Str → Str → List Str}
    (hboost : ∀ separator quote s,
      boostTokenizer [] separator quote s = escapedListSeparator separator quote s)
    {rc : RmConfig.RcRm} {opt : OptStruct} {front : Str} {key : ℕ} {id : ℤ} {node : Node} {hnfn : Str}
    {proctableCopy : Proctable} (hrm : rc.isModelchecker = false ∧ rc.isColocSup = false)
    (hstring : rc.resourceManager.launchString = front ++ ' ' :: [' '].intercalate daemonTokens)
    (hsec : opt.lmonSecInfo = percentD key ++ [':'] ++ percentD id) (hnode : node.hnfn = some hnfn)
    (htab : proctableCopy.isEmpty = false)
    (hpath : rc.rmDaemonPath ≠ [] ∧ rc.rmDaemonPath ≠ "na".toList)
    (hargs : ∀ a ∈ rc.rmDaemonArgs, CleanArg a) (tvcmd sshcmd : Str) (env : Environ) (resid : ℤ) :
    ∃ least launcher, ∀ fuel, least ≤ fuel →
      launchToolDaemonsCmd boostTokenizer fuel node tvcmd sshcmd env opt rc proctableCopy resid =
        some ⟨hnfn, proctableCopy.keys.flatMap fun host => host.bytes ++ [10],
          launcher ++ (rc.rmDaemonPath :: rc.rmDaemonArgs ++
            ["--lmonsharedsec=".toList ++ percentD key, "--lmonsecchk=".toList ++ percentD id])⟩ := by
  let c := setParamset rc.colocParamset proctableCopy.size (some (percentD key)) (some (percentD id)) resid
    (some hnfn)
  let e := launchEnv tvcmd sshcmd env
  have htokens : (front ++ ' ' :: [' '].intercalate daemonTokens).splitOn ' ' =
      front.splitOn ' ' ++ daemonTokens := by
    have hblank : ∀ tok ∈ daemonTokens, ' ' ∉ tok := by decide
    rw [List.splitOn_append_cons_self, List.splitOn_intercalate ' ' hblank (List.cons_ne_nil _ _)]
  have hend : c.expanded daemonTokens = rc.rmDaemonPath :: rc.rmDaemonArgs ++
      ["--lmonsharedsec=".toList ++ percentD key, "--lmonsecchk=".toList ++ percentD id] :=
    @expanded_daemonTokens c _ _ rfl rfl hpath hargs ⟨(percentD_word _).2.2, (percentD_word _).2.2⟩
  refine ⟨(e.helperTokens rc.launchHelper ++ (front.splitOn ' ' ++ daemonTokens)).length,
    c.expanded (e.helperTokens rc.launchHelper ++ front.splitOn ' '), fun fuel hfuel => ?_⟩
  unfold launchToolDaemonsCmd
  rw [if_neg (by rw [htab, hrm.1, hrm.2]; decide), hsec, secInfo_words, hnode, hstring]
  have hexpand := @expandLaunchString_eq boostTokenizer c hboost e rc.launchHelper
    (front ++ ' ' :: [' '].intercalate daemonTokens) fuel (by rw [htokens]; exact hfuel)
  rw [htokens, ← List.append_assoc, expanded_append _ daemonTokens, hend] at hexpand
  show (c.expandLaunchString boostTokenizer fuel e rc.launchHelper
    (front ++ ' ' :: [' '].intercalate daemonTokens)).bind _ = _
  rw [hexpand]
  rfl

end LaunchMON.Engine
