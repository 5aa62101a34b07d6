/-
  A launch of middleware daemons, from `LMON_fe_launchMwDaemons` to the tree of their connections.

  The front end tells its spawners to spawn and dials the hosts of all of them, one after the other.  Each
  remote shell starts a daemon, and each daemon has a spawner of its own and starts up to two others,
  before it waits to be dialled.  Three things have to fit together:

  1. **The daemons** (`levels_spec`).  Level by level the hosts of the daemons and what they have been
     handed are what has been there before.  So there is one daemon for each host that the front end
     dials, and the connections of COBO come up in every run.

  2. **The command lines.**  rsh and ssh join the words of a vector, and a shell on the other side takes
     them apart; so the daemons see their vectors if the words mean nothing to a shell (`ShellWord`,
     `Launch.Delivered`).  The front end puts the options with the key and the number on the command
     lines of those daemons that it starts itself.  A daemon has no arguments for its spawner, so those
     below the first two of each spawner have the name of the program and nothing else.

  3. **The master** (`middleware_launch`).  Only rank 0 answers to the front end, and it needs the key.
     The daemons on the host of rank 0 are alike to whoever dials it, so it is sure to have the key
     exactly if all of these have been started by the front end.
-/
import LaunchMON.Backend.Startup
import LaunchMON.Cobo.Bootstrap
import LaunchMON.Frontend.MwSpawners
import Mathlib.Data.Fintype.Fin

namespace LaunchMON.Middleware

open CBytes CText Cobo Descent Dial Frontend Relation

/-! ## The daemons -/

/-- The characters of a string. -/
def chars (s : CString) : Str := s.bytes.map Char.ofUInt8

section

variable (rshcmd : Str)

/-- The constructor of `spawner_rsh_t` for a vector of hosts. -/
def SpawnerRsh.ofSpawner (s : Spawner) : SpawnerRsh where
  remoteLaunchCmd := rshcmd
  launchCmdArgs := []
  daemonPath := chars s.daemonPath
  daemonArgs := s.daemonArgs.map chars
  hosts := s.hosts.map chars

/-- What the front end starts. -/
def frontLaunches (spawned : List Spawner) : List Launch :=
  spawned.flatMap fun s => (SpawnerRsh.ofSpawner rshcmd s).spawn.2

/-- What a daemon starts: `LMON_mw_init` calls `spawn` if there is a spawner. -/
def Launch.starts (l : Launch) : List Launch :=
  match lmonMwDaemonInternalInit rshcmd l.argv with
  | none => []
  | some daemonSpawner => daemonSpawner.spawn.2

/-- The daemons, level by level, with at most `depth` levels; `none` if these are not enough. -/
def levels : ℕ → List Launch → Option (List Launch)
  | _, [] => some []
  | 0, _ :: _ => none
  | depth + 1, ls => (levels depth (ls.flatMap (Launch.starts rshcmd))).map (ls ++ ·)

/-- A daemon that has a spawner for fewer than `n` hosts, all of them with good names. -/
def Launch.Fit (n : ℕ) (l : Launch) : Prop :=
  ∃ s, lmonMwDaemonInternalInit rshcmd l.argv = some s ∧ (∀ h ∈ s.hosts, GoodHost h) ∧ s.hosts.length < n

end

variable {rshcmd : Str}

theorem spawn_nil {s : SpawnerRsh} (h : s.hosts = []) : s.spawn.2 = [] := by
  unfold SpawnerRsh.spawn
  rw [if_pos h]

/-- A spawner starts daemons for its hosts, and each of these has less than half of them left. -/
theorem spawn_fit {s : SpawnerRsh} (hgood : ∀ h ∈ s.hosts, GoodHost h) {n : ℕ} (hlen : s.hosts.length < 2 * n) :
    (∀ l ∈ s.spawn.2, l.Fit rshcmd n) ∧
      (s.spawn.2.flatMap fun l => l.headhost :: l.handed rshcmd) = s.hosts := by
  by_cases hne : s.hosts = []
  · rw [spawn_nil hne, hne]
    exact ⟨fun l hl => absurd hl List.not_mem_nil, rfl⟩
  · obtain ⟨-, hchild, hall⟩ := @spawn_spec rshcmd s hne hgood
    refine ⟨fun l hl => ?_, hall⟩
    obtain ⟨s', h⟩ := hchild l hl
    have hhalf := h.half
    exact ⟨s', h.init_eq, h.good, by omega⟩

/-- **A daemon** starts others for what it has been handed. -/
theorem Launch.Fit.starts_spec {l : Launch} {n : ℕ} (h : l.Fit rshcmd (2 * n)) :
    (∀ l' ∈ l.starts rshcmd, l'.Fit rshcmd n) ∧
      ((l.starts rshcmd).flatMap fun l' => l'.headhost :: l'.handed rshcmd) = l.handed rshcmd := by
  obtain ⟨s, hinit, hgood, hlen⟩ := h
  have hstarts : l.starts rshcmd = s.spawn.2 := by rw [Launch.starts, hinit]
  have hhanded : l.handed rshcmd = s.hosts := by
    rw [Launch.handed, hinit]
    rfl
  rw [hstarts, hhanded]
  exact spawn_fit hgood hlen

theorem levels_nil (depth : ℕ) : levels rshcmd depth [] = some [] := by cases depth <;> rfl

theorem levels_succ (depth : ℕ) (ls : List Launch) : levels rshcmd (depth + 1) ls =
    (levels rshcmd depth (ls.flatMap (Launch.starts rshcmd))).map (ls ++ ·) := by
  cases ls with
  | nil =>
    rw [List.flatMap_nil, levels_nil, levels_nil]
    rfl
  | cons l ls => rfl

/-- **The whole tree below the first daemons**: one daemon for each host that they run on or have been
    handed. -/
theorem levels_spec : ∀ (depth : ℕ) (ls : List Launch), (∀ l ∈ ls, l.Fit rshcmd (2 ^ depth)) →
    ∃ below, (∀ enough, depth + 1 ≤ enough → levels rshcmd enough ls = some (ls ++ below)) ∧
      ((ls ++ below).map Launch.headhost).Perm (ls.flatMap fun l => l.headhost :: l.handed rshcmd) := by
  intro depth
  induction depth with
  | zero =>
    intro ls hfit
    have hhanded : ls.flatMap (Launch.handed rshcmd) = [] := by
      refine List.flatMap_eq_nil_iff.mpr fun l hl => ?_
      obtain ⟨s, hinit, -, hlen⟩ := hfit l hl
      rw [Launch.handed, hinit]
      show s.hosts = []
      exact List.length_eq_zero_iff.mp (by omega)
    have hstarts : ls.flatMap (Launch.starts rshcmd) = [] := by
      refine List.flatMap_eq_nil_iff.mpr fun l hl => ?_
      obtain ⟨s, hinit, -, hlen⟩ := hfit l hl
      rw [Launch.starts, hinit]
      exact spawn_nil (List.length_eq_zero_iff.mp (by omega))
    refine ⟨[], fun enough henough => ?_, ?_⟩
    · obtain ⟨more, rfl⟩ : ∃ more, enough = more + 1 := ⟨enough - 1, by omega⟩
      rw [levels_succ, hstarts, levels_nil]
      rfl
    · have hperm := List.map_append_flatMap_perm ls Launch.headhost (Launch.handed rshcmd)
      rw [hhanded, List.append_nil] at hperm
      rw [List.append_nil]
      exact hperm
  | succ depth ih =>
    intro ls hfit
    have hspec := fun l (hl : l ∈ ls) => Launch.Fit.starts_spec (n := 2 ^ depth) (by
      have h := hfit l hl
      rwa [Nat.pow_succ'] at h)
    obtain ⟨below, hlevels, hperm⟩ := ih (ls.flatMap (Launch.starts rshcmd)) fun l' hl' => by
      obtain ⟨l, hl, hstart⟩ := List.mem_flatMap.mp hl'
      exact (hspec l hl).1 l' hstart
    refine ⟨ls.flatMap (Launch.starts rshcmd) ++ below, fun enough henough => ?_, ?_⟩
    · obtain ⟨more, rfl⟩ : ∃ more, enough = more + 1 := ⟨enough - 1, by omega⟩
      rw [levels_succ, hlevels more (by omega)]
      rfl
    · -- what the next level runs on and is handed is what this one has been handed
      rw [List.flatMap_assoc, List.flatMap_congr fun l hl => (hspec l hl).2] at hperm
      rw [List.map_append]
      exact (List.Perm.append_left _ hperm).trans
        (List.map_append_flatMap_perm ls Launch.headhost (Launch.handed rshcmd))

/-- What holds of the first ones and passes from a daemon to those that it starts holds of all. -/
theorem levels_all {P : Launch → Prop} : ∀ (depth : ℕ) (ls ds : List Launch),
    levels rshcmd depth ls = some ds → (∀ l ∈ ls, P l) → (∀ l, P l → ∀ l' ∈ l.starts rshcmd, P l') →
    ∀ l ∈ ds, P l := by
  intro depth
  induction depth with
  | zero =>
    intro ls ds hlevels hfirst _
    cases ls with
    | nil =>
      cases hlevels
      exact hfirst
    | cons l ls => cases hlevels
  | succ depth ih =>
    intro ls ds hlevels hfirst hstep l hl
    rw [levels_succ] at hlevels
    obtain ⟨below, hbelow, rfl⟩ := Option.map_eq_some_iff.mp hlevels
    rcases List.mem_append.mp hl with hl | hl
    · exact hfirst l hl
    · refine ih _ _ hbelow (fun l' hl' => ?_) hstep l hl
      obtain ⟨l₀, hl₀, hstart⟩ := List.mem_flatMap.mp hl'
      exact hstep l₀ (hfirst l₀ hl₀) l' hstart

/-! ## The remote shell -/

/-- What a remote shell runs: rsh and ssh join the words of a vector with blanks, and a shell on the other
    side takes the line apart at these.  It does no more than that if the words are `ShellWord`s. -/
def remoteWords (argv : List Str) : List Str := strtok ' ' ([' '].intercalate argv)

/-- A word of letters, digits and marks that mean nothing to a shell. -/
def ShellWord (w : Str) : Prop := w ≠ [] ∧ ∀ ch ∈ w, ch.isAlphanum = true ∨ ch ∈ "-_./:=,+@%".toList

-- not by the instance for all characters, which runs through every one of them
instance : DecidablePred ShellWord := fun w =>
  @instDecidableAnd (w ≠ []) _ inferInstance
    (List.decidableBAll (fun ch => ch.isAlphanum = true ∨ ch ∈ "-_./:=,+@%".toList) w)

/-- A vector of such words is joined and taken apart to itself. -/
theorem remoteWords_eq {argv : List Str} (h : ∀ w ∈ argv, ShellWord w) (hne : argv ≠ []) :
    remoteWords argv = argv := by
  refine strtok_intercalate (fun w hw => ⟨(h w hw).1, fun hblank => ?_⟩) hne
  rcases (h w hw).2 ' ' hblank with hletter | hmark
  · exact absurd hletter (by decide)
  · exact absurd hmark (by decide)

theorem ShellWord.append {u v : Str} (hu : ShellWord u) (hv : ShellWord v) : ShellWord (u ++ v) := by
  refine ⟨fun hnil => hu.1 (List.append_eq_nil_iff.mp hnil).1, fun ch hch => ?_⟩
  rcases List.mem_append.mp hch with hch | hch
  · exact hu.2 ch hch
  · exact hv.2 ch hch

/-- The hosts of a daemon, joined, are one word. -/
theorem shellWord_intercalate : ∀ {l : List Str}, l ≠ [] → (∀ h ∈ l, ShellWord h) →
    ShellWord ([lmonHostDelim].intercalate l) := by
  intro l
  induction l with
  | nil => exact fun hne => absurd rfl hne
  | cons h l ih =>
    intro _ hwords
    have hhead := hwords h List.mem_cons_self
    by_cases hl : l = []
    · rw [hl, List.intercalate_singleton]
      exact hhead
    · rw [List.intercalate_cons_of_ne_nil hl]
      have hdelim : ShellWord [lmonHostDelim] := by decide
      exact (hhead.append hdelim).append (ih hl fun w hw => hwords w (List.mem_cons_of_mem h hw))

/-- A spawner that uses such words only, and hosts with good names. -/
structure SpawnerRsh.Worded (s : SpawnerRsh) : Prop where
  path : ShellWord s.daemonPath
  args : ∀ a ∈ s.daemonArgs, ShellWord a
  hosts : ∀ h ∈ s.hosts, ShellWord h ∧ GoodHost h

/-- A daemon that sees the vector it has been given, and whose spawner uses such words. -/
def Launch.Delivered (rshcmd : Str) (l : Launch) : Prop :=
  remoteWords l.argv = l.argv ∧ ∃ s, lmonMwDaemonInternalInit rshcmd l.argv = some s ∧ s.Worded

/-- A daemon for a segment of the hosts. -/
theorem SpawnerRsh.Worded.delivered {s : SpawnerRsh} (h : s.Worded) (headhost : Str) {start stop : ℕ}
    (hstop : stop ≤ s.hosts.length) :
    (s.executeRsh headhost (hostsArg s.hosts start stop)).Delivered rshcmd := by
  have hgood : ∀ host ∈ segment s.hosts start stop, ShellWord host ∧ GoodHost host := fun host hhost =>
    h.hosts host (mem_segment hhost)
  have harg : ShellWord (hostsArg s.hosts start stop) := by
    rw [hostsArg_eq hstop]
    refine ShellWord.append (by decide) ?_
    split
    · decide
    · next hne => exact shellWord_intercalate hne fun host hhost => (hgood host hhost).1
  refine ⟨remoteWords_eq (fun w hw => ?_) (by rintro ⟨⟩), ?_⟩
  · rcases List.mem_append.mp hw with hw | hw
    · rcases List.mem_cons.mp hw with rfl | hw
      · exact h.path
      · exact h.args w hw
    · exact List.mem_singleton.mp hw ▸ harg
  · show ∃ s', lmonMwDaemonInternalInit rshcmd (s.daemonPath :: s.daemonArgs ++ [hostsArg _ _ _]) = some s' ∧ _
    rw [hostsArg_eq hstop, init_argv]
    refine ⟨_, rfl, h.path, fun a ha => absurd ha List.not_mem_nil, fun host hhost => hgood host ?_⟩
    rwa [hosts_ofHostlist fun host hhost => (hgood host hhost).2] at hhost

/-- A spawner with such words starts only daemons that get their vectors as they are. -/
theorem SpawnerRsh.Worded.spawn {s : SpawnerRsh} (h : s.Worded) : ∀ l ∈ s.spawn.2, l.Delivered rshcmd := by
  intro l hl
  unfold SpawnerRsh.spawn at hl
  split at hl
  · exact absurd hl List.not_mem_nil
  · dsimp only at hl
    split at hl
    · rcases List.mem_pair.mp hl with rfl | rfl
      · exact h.delivered _ (Nat.div_le_self _ _)
      · exact h.delivered _ le_rfl
    · rcases List.mem_singleton.mp hl with rfl
      exact h.delivered _ (Nat.div_le_self _ _)

/-- A daemon that has been delivered starts others in the same way. -/
theorem Launch.Delivered.starts {l : Launch} (h : l.Delivered rshcmd) :
    ∀ l' ∈ l.starts rshcmd, l'.Delivered rshcmd := by
  obtain ⟨-, s, hinit, hs⟩ := h
  intro l' hl'
  rw [Launch.starts, hinit] at hl'
  exact hs.spawn l' hl'

/-! ## The command lines -/

/-- A daemon has the arguments `args`, and behind them the option for its hosts. -/
def Launch.Runs (l : Launch) (prog : Str) (args : List Str) : Prop :=
  ∃ hosts, l.argv = prog :: args ++ [rshOpt hosts]

/-- The command lines that a spawner writes. -/
theorem mem_spawn {s : SpawnerRsh} {l : Launch} (hl : l ∈ s.spawn.2) : l.Runs s.daemonPath s.daemonArgs := by
  have hruns : ∀ headhost {start stop : ℕ}, stop ≤ s.hosts.length →
      (s.executeRsh headhost (hostsArg s.hosts start stop)).Runs s.daemonPath s.daemonArgs := by
    intro headhost start stop hstop
    refine ⟨hostsText (segment s.hosts start stop), ?_⟩
    rw [hostsArg_eq hstop]
    rfl
  unfold SpawnerRsh.spawn at hl
  split at hl
  · exact absurd hl List.not_mem_nil
  · dsimp only at hl
    split at hl
    · rcases List.mem_pair.mp hl with rfl | rfl
      · exact hruns _ (Nat.div_le_self _ _)
      · exact hruns _ le_rfl
    · rcases List.mem_singleton.mp hl with rfl
      exact hruns _ (Nat.div_le_self _ _)

/-- A daemon starts others without arguments. -/
theorem Launch.Runs.starts {l : Launch} {prog : Str} {args : List Str} (h : l.Runs prog args) :
    ∀ l' ∈ l.starts rshcmd, l'.Runs prog [] := by
  obtain ⟨hosts, hargv⟩ := h
  intro l' hl'
  rw [Launch.starts, hargv, rshOpt, init_argv] at hl'
  exact mem_spawn hl'

/-- An argument that no scan takes for an option. -/
def PlainArg (arg : Str) : Prop := isRshspawnerOpt arg = false ∧ ¬Miscounted arg

instance : DecidablePred PlainArg := fun _ => inferInstanceAs (Decidable (_ ∧ _))

/-- A daemon that finds its arguments, the key and the number, whatever its environment. -/
def Launch.Keyed (rshcmd key chk : Str) (prog : Str) (user : List Str) (l : Launch) : Prop :=
  ∀ env : Env, ∃ env' c', lmonMwInitArgs rshcmd env (.ofArgs l.argv) =
      some (lmonMwDaemonInternalInit rshcmd l.argv, env', c') ∧ c'.Presents (prog :: user) ∧
    Backend.lmonDaemonGetSharedKeyAndID env' = (.ok, some key, some (atoi chk))

/-- A daemon that finds the name of its program, and the environment as it is. -/
def Launch.Bare (rshcmd : Str) (prog : Str) (l : Launch) : Prop :=
  ∀ env : Env, ∃ c', lmonMwInitArgs rshcmd env (.ofArgs l.argv) =
      some (lmonMwDaemonInternalInit rshcmd l.argv, env, c') ∧ c'.Presents [prog]

/-- The options of the front end are taken for what they are. -/
theorem Launch.Runs.keyed {l : Launch} {key chk prog : Str} {user : List Str}
    (h : l.Runs prog (user ++ [sharedsecOpt key, secchkOpt chk])) (hplain : ∀ a ∈ user, PlainArg a) :
    l.Keyed rshcmd key chk prog user := by
  obtain ⟨hosts, hargv⟩ := h
  intro env
  have hargs : ∀ a ∈ user ++ [sharedsecOpt key, secchkOpt chk], isRshspawnerOpt a = false := by
    intro a ha
    rcases List.mem_append.mp ha with ha | ha
    · exact (hplain a ha).1
    · rcases List.mem_pair.mp ha with rfl | rfl
      · exact isRshspawnerOpt_sharedsecOpt key
      · exact isRshspawnerOpt_secchkOpt chk
  have hline := presents_ofArgs l.argv
  rw [hargv] at hline
  obtain ⟨c₁, hmw, hc₁⟩ := @lmonMwInternalInit_spec rshcmd _ _ _ _ hline hargs
  obtain ⟨env', c', hrun, hc', hss, hsch⟩ := lmonDaemonInternalInit_spec hc₁ env
  refine ⟨env', c', ?_, (presents_take_iff hc').mpr fun a ha => (hplain a ha).2, ?_⟩
  · rw [lmonMwInitArgs, hargv, hmw, Option.bind_eq_bind, Option.bind_some, rshOpt, init_argv]
    dsimp only
    rw [hrun]
    rfl
  · have hkey : env' lmonShrdSecEnvname = some key := hss
    have hchk : env' lmonSecChkEnvname = some chk := hsch
    rw [Backend.lmonDaemonGetSharedKeyAndID, hkey]
    dsimp only
    rw [hchk]

/-- Without options nothing is taken from the line, and nothing is exported. -/
theorem Launch.Runs.bare {l : Launch} {prog : Str} (h : l.Runs prog []) : l.Bare rshcmd prog := by
  obtain ⟨hosts, hargv⟩ := h
  intro env
  have hline := presents_ofArgs l.argv
  rw [hargv] at hline
  obtain ⟨c₁, hmw, hc₁⟩ := @lmonMwInternalInit_spec rshcmd _ _ [] _ hline fun a ha =>
    absurd ha List.not_mem_nil
  obtain ⟨c', hstrip, hc'⟩ := hc₁.strip_eq (n := 0) (Nat.zero_le _)
  refine ⟨c', ?_, hc'⟩
  have hrun : lmonDaemonInternalInit env c₁ = some (env, c') := by
    rw [lmonDaemonInternalInit, hc₁.eachArg_eq]
    show (c₁.strip 0).bind _ = _
    rw [hstrip]
    rfl
  rw [lmonMwInitArgs, hargv, hmw, Option.bind_eq_bind, Option.bind_some, rshOpt, init_argv]
  dsimp only
  rw [hrun]
  rfl

/-- A daemon with the key is not one without. -/
theorem Launch.Keyed.not_bare {l : Launch} {key chk prog prog' : Str} {user : List Str}
    (h : l.Keyed rshcmd key chk prog user) : ¬l.Bare rshcmd prog' := by
  intro hbare
  obtain ⟨c₁, hrun, -⟩ := hbare fun _ => none
  obtain ⟨env', c', hrun', -, hkey⟩ := h fun _ => none
  rw [hrun] at hrun'
  cases hrun'
  cases hkey

/-! ## The connections -/

/-- Different strings have different characters. -/
theorem chars_injective : Function.Injective chars := by
  intro s t h
  have hchar : Function.Injective Char.ofUInt8 := by
    intro a b hab
    have hnat : a.toUInt32.toNat = b.toUInt32.toNat := congrArg Char.toNat hab
    rw [UInt8.toNat_toUInt32, UInt8.toNat_toUInt32] at hnat
    exact UInt8.toNat_inj.mp hnat
  exact CString.ext (List.map_injective_iff.mpr hchar h)

/-- The hosts of the daemons, as the front end has them. -/
theorem exists_hosts {ds : List Launch} {hostlist : List CString}
    (h : (ds.map Launch.headhost).Perm (hostlist.map chars)) :
    ∃ host : Fin ds.length → CString, (∀ j, chars (host j) = ds[j].headhost) ∧
      (List.ofFn host).Perm hostlist := by
  have hmem : ∀ j : Fin ds.length, ∃ host, chars host = ds[j].headhost := by
    intro j
    obtain ⟨host, -, hhost⟩ := List.mem_map.mp (h.mem_iff.mp (List.mem_map_of_mem (List.getElem_mem j.2)))
    exact ⟨host, hhost⟩
  choose host hhost using hmem
  refine ⟨host, hhost, (List.map_perm_map_iff chars_injective).mp ?_⟩
  rw [List.map_ofFn, show chars ∘ host = fun j : Fin ds.length => ds[j].headhost from funext hhost]
  exact (List.Perm.of_eq (List.ofFn_getElem_eq_map ds Launch.headhost)).trans h

/-- As many indices have a value as it occurs. -/
theorem card_fiber {n : ℕ} (f : Fin n → CString) (a : CString) :
    Fintype.card {i // f i = a} = (List.ofFn f).count a := by
  rw [Fintype.card_subtype]
  have h := Fin.card_filter_univ_eq_vector_get_eq_count a (List.Vector.ofFn f)
  simp only [List.Vector.get_ofFn, List.Vector.toList_ofFn] at h
  exact h

/-- One daemon for each entry of the list is what the bootstrap needs. -/
theorem staffed_of_perm {n : ℕ} {host : Fin n → CString} {hostlist : List CString}
    (h : (List.ofFn host).Perm hostlist) (hne : hostlist ≠ []) (hfit : tableSize hostlist < 2 ^ 31) :
    (bootPlan (Fin n) hne hfit).Staffed host := by
  intro a
  have hlist : List.ofFn (fun c : Fin hostlist.length => Cobo.hostOf hostlist c) = hostlist := by
    rw [show (fun c : Fin hostlist.length => Cobo.hostOf hostlist c) = fun c => hostlist[c] from
      funext fun c => hostOf_eq c.2]
    exact List.ofFn_getElem
  rw [card_fiber, h.count_eq a]
  refine Eq.trans ?_ (card_fiber (fun c : Fin hostlist.length => Cobo.hostOf hostlist c) a).symm
  rw [hlist]

/-- The daemons are connected: `rank` numbers them. -/
structure Connected (ds : List Launch) (hostlist : List CString)
    (s : Net (Fin ds.length) CString (Outcome (Fin ds.length)))
    (rank : Fin ds.length ≃ Fin hostlist.length) : Prop where
  /-- A daemon runs on the host of its rank. -/
  host_eq : ∀ j, ds[j].headhost = chars hostlist[rank j]
  /-- The front end is connected to rank 0. -/
  server_eq : ∃ fd, s.prog none = .ret (.server (some fd)) ∧ (rank fd : ℕ) = 0
  /-- A daemon has its rank, the size and the hosts, and a connection to each of its children. -/
  client_eq : ∀ j, ∃ fds, s.prog (some j) = .ret (.client (opened hostlist (rank j) fds)) ∧
    fds.map (fun i => (rank i : ℕ)) = (treeOf hostlist.length (rank j)).child

/-- Where everything has been done, the daemons are connected. -/
theorem connected_of_done {ds : List Launch} {host : Fin ds.length → CString} {hostlist : List CString}
    {hne : hostlist ≠ []} {hfit : tableSize hostlist < 2 ^ 31}
    {s : Net (Fin ds.length) CString (Outcome (Fin ds.length))} {rank : Fin ds.length ≃ Fin hostlist.length}
    (hhost : ∀ j, chars (host j) = ds[j].headhost)
    (hdone : (bootPlan (Fin ds.length) hne hfit).Done host s rank) : Connected ds hostlist s rank where
  host_eq j := by
    have haddr : host j = hostlist[rank j] := (hdone.addr_eq j).trans (hostOf_eq (rank j).2)
    rw [← hhost j, haddr]
  server_eq := hdone.starter_eq
  client_eq := hdone.prog_eq

/-- **The bootstrap** of daemons on the hosts of a list comes to its end, with every daemon connected; and
    any daemon on the first host may become rank 0. -/
theorem daemons_connect {ds : List Launch} {first : CString} {others : List CString}
    (hperm : (ds.map Launch.headhost).Perm ((first :: others).map chars))
    (hfit : tableSize (first :: others) < 2 ^ 31) {cap : ℕ∞} (hcap : 1 ≤ cap) :
    ∃ host : Fin ds.length → CString, (∀ j, chars (host j) = ds[j].headhost) ∧
      (∃ N, ∀ k s, RunN (Step host cap) k (bootNet (first :: others)) s → k ≤ N) ∧
      (∀ s, ReflTransGen (Step host cap) (bootNet (first :: others)) s → Stuck (Step host cap) s →
        ∃ rank, Connected ds (first :: others) s rank) ∧
      ∀ j : Fin ds.length, ds[j].headhost = chars first →
        ∃ s, ReflTransGen (Step host cap) (bootNet (first :: others)) s ∧ Stuck (Step host cap) s ∧
          ∃ rank, Connected ds (first :: others) s rank ∧ (rank j : ℕ) = 0 := by
  have hne : first :: others ≠ [] := List.cons_ne_nil _ _
  obtain ⟨host, hhost, hofFn⟩ := exists_hosts hperm
  have hstaff := staffed_of_perm hofFn hne hfit
  have hlen : ds.length = others.length + 1 := by
    have h := hperm.length_eq
    rwa [List.length_map, List.length_map, List.length_cons] at h
  have : Nonempty (Fin ds.length) := ⟨⟨0, by omega⟩⟩
  rw [bootNet_eq hne hfit]
  refine ⟨host, hhost, Plan.exists_bound host cap, ?_, ?_⟩
  · intro s hrun hstuck
    obtain ⟨rank, hdone⟩ := (Plan.inv_init.run hrun).done_of_stuck hcap hstaff hstuck
    exact ⟨rank, connected_of_done hhost hdone⟩
  · intro j hj
    have haddr : host j = first := chars_injective ((hhost j).trans hj)
    obtain ⟨s, hrun, hstuck, rank, hdone, hrank⟩ := Plan.exists_done_first hcap hstaff (j := j) haddr
    exact ⟨s, hrun, hstuck, rank, connected_of_done hhost hdone, hrank⟩

/-! ## The launch -/

section

variable {sec : SecurityArgs} {key chk : Str} {own : List Spawner}

/-- A request that names its hosts, with names that come through, with arguments that no scan takes for an
    option, and with nothing that the remote shell does not leave as it is. -/
structure Plain (s : Spawner) : Prop where
  rsh : s.coloc = false
  path : ShellWord (chars s.daemonPath)
  args : ∀ a ∈ s.daemonArgs, PlainArg (chars a) ∧ ShellWord (chars a)
  hosts : ∀ h ∈ s.hosts, ShellWord (chars h) ∧ GoodHost (chars h)

/-- The daemons of the front end, and what they are handed, are the hosts of the spawners. -/
theorem frontLaunches_spec (hplain : ∀ s ∈ own, Plain s) {n : ℕ}
    (hlen : (combineHosts own).length < 2 * n) :
    (∀ l ∈ frontLaunches rshcmd (own.map (Spawner.secured sec)), l.Fit rshcmd n) ∧
      ((frontLaunches rshcmd (own.map (Spawner.secured sec))).flatMap fun l =>
        l.headhost :: l.handed rshcmd) = (combineHosts own).map chars := by
  have hspec : ∀ s ∈ own, (∀ l ∈ (SpawnerRsh.ofSpawner rshcmd (s.secured sec)).spawn.2, l.Fit rshcmd n) ∧
      ((SpawnerRsh.ofSpawner rshcmd (s.secured sec)).spawn.2.flatMap fun l =>
        l.headhost :: l.handed rshcmd) = s.hosts.map chars := by
    intro s hs
    refine spawn_fit (s := SpawnerRsh.ofSpawner rshcmd (s.secured sec)) ?_ ?_
    · intro h hh
      obtain ⟨host, hhost, rfl⟩ := List.mem_map.mp hh
      exact ((hplain s hs).hosts host hhost).2
    · have hsub : s.hosts.Sublist (combineHosts own) := List.sublist_flatten_of_mem (List.mem_map_of_mem hs)
      show (s.hosts.map chars).length < 2 * n
      rw [List.length_map]
      exact hsub.length_le.trans_lt hlen
  rw [frontLaunches, List.flatMap_map, List.flatMap_assoc]
  constructor
  · intro l hl
    obtain ⟨s, hs, hl⟩ := List.mem_flatMap.mp hl
    exact (hspec s hs).1 l hl
  · rw [List.flatMap_congr fun s hs => (hspec s hs).2, combineHosts, List.map_flatMap]

/-- The daemons of the front end find the key. -/
theorem keyed_of_front (hkey : chars sec.ssec = sharedsecOpt key) (hchk : chars sec.secchk = secchkOpt chk)
    (hplain : ∀ s ∈ own, Plain s) {l : Launch}
    (hl : l ∈ frontLaunches rshcmd (own.map (Spawner.secured sec))) :
    ∃ s ∈ own, l.Keyed rshcmd key chk (chars s.daemonPath) (s.daemonArgs.map chars) ∧
      l.Runs (chars s.daemonPath) (s.daemonArgs.map chars ++ [sharedsecOpt key, secchkOpt chk]) := by
  obtain ⟨s', hs', hl⟩ := List.mem_flatMap.mp hl
  obtain ⟨s, hs, rfl⟩ := List.mem_map.mp hs'
  have hruns : l.Runs (chars s.daemonPath) (s.daemonArgs.map chars ++ [sharedsecOpt key, secchkOpt chk]) := by
    have h := mem_spawn hl
    simp only [SpawnerRsh.ofSpawner, Spawner.secured, List.map_append, List.map_cons, List.map_nil, hkey,
      hchk] at h
    exact h
  refine ⟨s, hs, hruns.keyed fun a ha => ?_, hruns⟩
  obtain ⟨arg, harg, rfl⟩ := List.mem_map.mp ha
  exact ((hplain s hs).args arg harg).1

/-- The daemons of the front end are delivered. -/
theorem delivered_of_front (hkey : chars sec.ssec = sharedsecOpt key) (hchk : chars sec.secchk = secchkOpt chk)
    (hwords : ShellWord (sharedsecOpt key) ∧ ShellWord (secchkOpt chk)) (hplain : ∀ s ∈ own, Plain s) :
    ∀ l ∈ frontLaunches rshcmd (own.map (Spawner.secured sec)), l.Delivered rshcmd := by
  intro l hl
  obtain ⟨s', hs', hl⟩ := List.mem_flatMap.mp hl
  obtain ⟨s, hs, rfl⟩ := List.mem_map.mp hs'
  have hargs : ∀ a ∈ s.daemonArgs ++ [sec.ssec, sec.secchk], ShellWord (chars a) := by
    intro a ha
    rcases List.mem_append.mp ha with ha | ha
    · exact ((hplain s hs).args a ha).2
    · rcases List.mem_pair.mp ha with rfl | rfl
      · exact hkey ▸ hwords.1
      · exact hchk ▸ hwords.2
  have hworded : (SpawnerRsh.ofSpawner rshcmd (s.secured sec)).Worded := by
    refine ⟨(hplain s hs).path, fun a ha => ?_, fun h hh => ?_⟩
    · obtain ⟨arg, harg, rfl⟩ := List.mem_map.mp ha
      exact hargs arg harg
    · obtain ⟨host, hhost, rfl⟩ := List.mem_map.mp hh
      exact (hplain s hs).hosts host hhost
  exact hworded.spawn l hl

/-- What passes from a daemon to those that it starts holds below the first level. -/
theorem runs_of_below {front below : List Launch} {depth : ℕ} {P : Launch → Prop}
    (hlevels : levels rshcmd (depth + 1) front = some (front ++ below))
    (hfront : ∀ l ∈ front, ∀ l' ∈ l.starts rshcmd, P l') (hstep : ∀ l, P l → ∀ l' ∈ l.starts rshcmd, P l') :
    ∀ l ∈ below, P l := by
  rw [levels_succ] at hlevels
  obtain ⟨ds, hds, hsplit⟩ := Option.map_eq_some_iff.mp hlevels
  obtain rfl := List.append_cancel_left hsplit
  refine levels_all depth _ _ hds (fun l' hl' => ?_) hstep
  obtain ⟨l, hl, hstart⟩ := List.mem_flatMap.mp hl'
  exact hfront l hl l' hstart

/-- The first daemon runs on the first host, so no other one does if the host is there only once. -/
theorem headhost_ne_of_below {front below : List Launch} {host : Str} {others : List Str}
    (hflat : (front.flatMap fun l => l.headhost :: l.handed rshcmd) = host :: others)
    (hperm : ((front ++ below).map Launch.headhost).Perm (host :: others)) (honce : host ∉ others) :
    ∀ l ∈ below, l.headhost ≠ host := by
  rintro l hl rfl
  cases front with
  | nil => cases hflat
  | cons l₀ front =>
    rw [List.flatMap_cons, List.cons_append] at hflat
    rw [List.cons_append, List.map_cons, (List.cons.inj hflat).1, List.perm_cons] at hperm
    exact honce (hperm.mem_iff.mp (List.mem_map_of_mem (List.mem_append_right front hl)))

/-- If there is a spawner for each request, none is refused, and each is that of a request. -/
theorem spawners_of_mapM {pMap : Lmonp.Proctable} : ∀ {rs : List DistRequest} {own : List Spawner},
    rs.mapM (DistRequest.spawner pMap) = .ok own →
    Supported pMap rs ∧ ∀ s ∈ own, ∃ r : DistRequest, r.spawner pMap = .ok s := by
  intro rs
  induction rs with
  | nil =>
    rintro own ⟨⟩
    exact ⟨fun r hr => absurd hr List.not_mem_nil, fun s hs => absurd hs List.not_mem_nil⟩
  | cons r rs ih =>
    intro own hown
    rw [List.mapM_cons] at hown
    cases hs : r.spawner pMap with
    | error lrc =>
      rw [hs] at hown
      cases hown
    | ok s =>
      rw [hs] at hown
      cases hrest : rs.mapM (DistRequest.spawner pMap) with
      | error lrc =>
        rw [hrest] at hown
        cases hown
      | ok own' =>
        rw [hrest] at hown
        cases hown
        obtain ⟨hsupp, hown'⟩ := ih hrest
        exact ⟨List.forall_mem_cons.mpr ⟨⟨s, hs⟩, hsupp⟩, List.forall_mem_cons.mpr ⟨⟨r, hs⟩, hown'⟩⟩

/-- A call with good requests tells its own spawners to spawn, and dials their hosts. -/
theorem launchMw_own {d : Desc} {c : MwCall} (hfresh : d.spawnerVector = []) (hnreq : ¬c.BadNreq)
    (hown : c.requests.mapM (DistRequest.spawner d.pMap) = .ok own) :
    (launchMw sec d c).spawned = own.map (Spawner.secured sec) ∧
      (launchMw sec d c).cobohl = combineHosts own := by
  have hsupp := (spawners_of_mapM hown).1
  rw [pushes_of_supported hsupp] at hown
  obtain rfl := Except.ok.inj hown
  obtain ⟨-, -, hspawned, hvector, hcobohl⟩ := @launchMw_supported sec d c hnreq hsupp
  have hpushed : d.spawnerVector ++ c.pushed d.pMap = pushes d.pMap c.requests := by
    rw [hfresh, List.nil_append, MwCall.pushed, if_neg hnreq]
  rw [hpushed] at hspawned hvector
  refine ⟨hspawned, ?_⟩
  rw [hcobohl, hvector, combineHosts, List.flatMap_map]
  rfl

/-- **A middleware launch.**  For a session without spawners, requests that are all `Plain`, and a list of
    hosts whose table COBO has room for:

    * within `log₂ n + 1` levels of remote shells there is one daemon for each of the `n` hosts;
    * every remote shell runs the vector that it has been given;
    * those that the front end has started find their arguments, the key and the number, and those `below`
      find the name of the program and their environment as it is;
    * every run of the bootstrap is finite, and where it ends the daemons are connected;
    * rank 0 has the key in all these runs if and only if none of the daemons `below` runs on the first
      host, which is so if the host is named once. -/
theorem middleware_launch (rshcmd : Str) (hkey : chars sec.ssec = sharedsecOpt key)
    (hchk : chars sec.secchk = secchkOpt chk) {d : Desc} {c : MwCall} (hfresh : d.spawnerVector = [])
    (hnreq : ¬c.BadNreq) (hown : c.requests.mapM (DistRequest.spawner d.pMap) = .ok own)
    (hplain : ∀ s ∈ own, Plain s) (hwords : ShellWord (sharedsecOpt key) ∧ ShellWord (secchkOpt chk))
    {first : CString} {others : List CString}
    (hhosts : (launchMw sec d c).cobohl = first :: others) (hfit : tableSize (first :: others) < 2 ^ 31)
    {cap : ℕ∞} (hcap : 1 ≤ cap) :
    ∃ front below, front = frontLaunches rshcmd (launchMw sec d c).spawned ∧
      (∀ depth, Nat.log 2 (first :: others).length + 1 ≤ depth →
        levels rshcmd depth front = some (front ++ below)) ∧
      (∀ l ∈ front ++ below, remoteWords l.argv = l.argv) ∧
      (∀ l ∈ front, ∃ s ∈ own, l.Keyed rshcmd key chk (chars s.daemonPath) (s.daemonArgs.map chars)) ∧
      (∀ l ∈ below, ∃ s ∈ own, l.Bare rshcmd (chars s.daemonPath)) ∧
      ∃ host : Fin (front ++ below).length → CString, (∀ j, chars (host j) = (front ++ below)[j].headhost) ∧
        (∃ N, ∀ k s, RunN (Step host cap) k (bootNet (first :: others)) s → k ≤ N) ∧
        (∀ s, ReflTransGen (Step host cap) (bootNet (first :: others)) s → Stuck (Step host cap) s →
          ∃ rank, Connected (front ++ below) (first :: others) s rank) ∧
        ((∀ s, ReflTransGen (Step host cap) (bootNet (first :: others)) s → Stuck (Step host cap) s →
            ∀ rank, Connected (front ++ below) (first :: others) s rank → ∀ j, (rank j : ℕ) = 0 →
              ∃ prog user, (front ++ below)[j].Keyed rshcmd key chk prog user) ↔
          ∀ l ∈ below, l.headhost ≠ chars first) ∧
        (first ∉ others → ∀ l ∈ below, l.headhost ≠ chars first) := by
  obtain ⟨hspawned, hcombined⟩ := @launchMw_own sec own d c hfresh hnreq hown
  rw [hhosts] at hcombined
  -- one daemon for each host, over all levels
  obtain ⟨hfitting, hflat⟩ := @frontLaunches_spec rshcmd sec own hplain
    (2 ^ Nat.log 2 (first :: others).length) (by
      rw [← hcombined, ← Nat.pow_succ']
      exact Nat.lt_pow_succ_log_self Nat.one_lt_two _)
  obtain ⟨below, hlevels, hperm⟩ := levels_spec _ _ hfitting
  rw [hflat, ← hcombined] at hperm
  -- which of them have options on their command lines
  have hfront := @keyed_of_front rshcmd sec key chk own hkey hchk hplain
  have hbelow : ∀ l ∈ below, ∃ s ∈ own, l.Bare rshcmd (chars s.daemonPath) := by
    have hruns := runs_of_below (P := fun l => ∃ s ∈ own, l.Runs (chars s.daemonPath) [])
      (hlevels _ le_rfl) (fun l hl l' hl' => by
        obtain ⟨s, hs, -, hrun⟩ := hfront hl
        exact ⟨s, hs, hrun.starts l' hl'⟩) (by
        rintro l ⟨s, hs, hrun⟩ l' hl'
        exact ⟨s, hs, hrun.starts l' hl'⟩)
    intro l hl
    obtain ⟨s, hs, hrun⟩ := hruns l hl
    exact ⟨s, hs, hrun.bare⟩
  have hdelivered := levels_all _ _ _ (hlevels _ le_rfl)
    (delivered_of_front hkey hchk hwords hplain) fun l hl => hl.starts
  rw [hspawned]
  obtain ⟨host, hhost, hbound, hends, hfirst⟩ := daemons_connect hperm hfit hcap
  refine ⟨_, below, rfl, hlevels, fun l hl => (hdelivered l hl).1, fun l hl => ?_, hbelow, host, hhost, hbound,
    hends, ⟨?_, ?_⟩, fun honce => ?_⟩
  · obtain ⟨s, hs, hkeyed, -⟩ := hfront hl
    exact ⟨s, hs, hkeyed⟩
  · -- a daemon below that may become rank 0 will do so in some run
    intro hmaster l hl hhead
    obtain ⟨j, hj, rfl⟩ := List.mem_iff_getElem.mp
      (List.mem_append_right (frontLaunches rshcmd (own.map (Spawner.secured sec))) hl)
    obtain ⟨s, hrun, hstuck, rank, hconn, hrank⟩ := hfirst ⟨j, hj⟩ hhead
    obtain ⟨prog, user, hkeyed⟩ := hmaster s hrun hstuck rank hconn ⟨j, hj⟩ hrank
    obtain ⟨sp, -, hbare⟩ := hbelow _ hl
    exact hkeyed.not_bare hbare
  · intro hnone s hrun hstuck rank hconn j hrank
    have hget : (first :: others)[rank j] = first := by simp [hrank]
    have hhead := hconn.host_eq j
    rw [hget] at hhead
    rcases List.mem_append.mp (List.getElem_mem j.2) with hl | hl
    · obtain ⟨sp, -, hkeyed, -⟩ := hfront hl
      exact ⟨_, _, hkeyed⟩
    · exact absurd hhead (hnone _ hl)
  · rw [← hcombined] at hflat
    exact headhost_ne_of_below hflat hperm fun hmem =>
      honce ((List.mem_map_of_injective chars_injective).mp hmem)

end

/-- The bytes of a text. -/
def ofText (s : String) : List UInt8 := s.toList.map fun c => UInt8.ofNat c.toNat

/-- One request for three hosts, with an argument. -/
def threeDaemons : MwCall where
  req := [{ hostlistRequest [.letter 0, .letter 1, .letter 2] with
    mwDaemonPath := .letter 3, dArgv := [⟨ofText "-v", by decide⟩] }]
  nreq := 1
  handshake := .ok

/-- The options of the front end. -/
def sampleSec : SecurityArgs where
  ssec := ⟨ofText "--lmonsharedsec=42", by decide⟩
  secchk := ⟨ofText "--lmonsecchk=7", by decide⟩

/-- The hosts of `threeDaemons`. -/
def threeNames : List CString := [.letter 0, .letter 1, .letter 2]

theorem middleware_launch_three : ∃ ds : List Launch,
    levels "rsh".toList 2 (frontLaunches "rsh".toList (launchMw sampleSec .init threeDaemons).spawned) =
      some ds ∧
    ∃ host : Fin ds.length → CString, (∀ j, chars (host j) = ds[j].headhost) ∧
      ∀ s, ReflTransGen (Step host 1) (bootNet threeNames) s → Stuck (Step host 1) s →
        (∃ rank, Connected ds threeNames s rank) ∧
        ∀ rank, Connected ds threeNames s rank → ∀ j, (rank j : ℕ) = 0 →
          ∃ prog user, ds[j].Keyed "rsh".toList "42".toList "7".toList prog user := by
  obtain ⟨front, below, hfront, hlevels, -, -, -, host, hhost, -, hends, hmaster, honce⟩ :=
    @middleware_launch sampleSec "42".toList "7".toList _ "rsh".toList (by decide) (by decide) .init
      threeDaemons rfl (by decide) rfl (by
        rintro s hs
        rw [List.mem_singleton.mp hs]
        exact ⟨rfl, by decide, by decide, by unfold GoodHost; decide⟩) (by decide) (.letter 0)
      [.letter 1, .letter 2] rfl (by decide) 1 le_rfl
  exact ⟨front ++ below, hfront ▸ hlevels 2 (by decide), host, hhost, fun s hrun hstuck =>
    ⟨hends s hrun hstuck, hmaster.mpr (honce (by decide)) s hrun hstuck⟩⟩

end LaunchMON.Middleware
