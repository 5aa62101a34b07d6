/-
  The tree of remote shells that starts the middleware daemons: `spawner_rsh_t` of
  `sdbg_rsh_spawner.{hxx,cxx}` and `LMON_mw_daemon_internal_init` of `lmon_mw.cxx`.

  A spawner has a list of hosts.  It starts a daemon on the first host and one on the host in the
  middle, and hands to each the part of the list that is behind its host.  The part travels as one
  argument, joined by the delimiter, and an empty part as a placeholder.  The daemon takes the argument
  apart with `strtok` and has a spawner of its own.

  The two parts and the two hosts are the list (`segments_eq`), and a part is read back as it was
  written if no name is empty, has the delimiter in it or is the placeholder (`hosts_ofHostlist`).  A
  part has less than half of the list, so a list of `n` hosts is done after `log₂ n + 1` levels
  (`spawner_tree`).

  The sizes and indices of the source are `unsigned int`; they are numbers here.
-/
import LaunchMON.Lib.Strings
import Mathlib.Algebra.Group.Nat.Defs
import Mathlib.Data.List.GetD
import Mathlib.Data.List.Perm.Basic
import Mathlib.Data.Nat.Log

namespace LaunchMON.Middleware

open CText

/-! ## The spawner -/

/-- `LMON_RSHSPAWNER_OPT`. -/
def lmonRshspawnerOpt : Str := "--lmon-rsh".toList

/-- `LMON_NO_HOST`. -/
def lmonNoHost : Str := "nohost".toList

/-- `LMON_HOST_DELIM`. -/
def lmonHostDelim : Char := ':'

/-- `spawner_rsh_t`. -/
structure SpawnerRsh where
  remoteLaunchCmd : Str
  launchCmdArgs : List Str
  daemonPath : Str
  daemonArgs : List Str
  hosts : List Str

/-- A remote shell that has been started: its command, the host, and the vector that it is given for the
    daemon there.  rsh and ssh make one line of the vector, and a shell on the host takes that apart again;
    a daemon that sees `argv` has words that survive this. -/
structure Launch where
  command : List Str
  headhost : Str
  argv : List Str

/-- `execute_rsh`. -/
def SpawnerRsh.executeRsh (s : SpawnerRsh) (headhost hostsarg : Str) : Launch where
  command := s.remoteLaunchCmd :: s.launchCmdArgs
  headhost := headhost
  argv := s.daemonPath :: s.daemonArgs ++ [hostsarg]

/-- The loop of `spawn` over the hosts of a child: those in front of the last one, each with a
    delimiter; and the index at its end. -/
def hostsLoop (hosts : List Str) (stop i : ℕ) (rsh : Str) : ℕ × Str :=
  if i + 1 < stop then hostsLoop hosts stop (i + 1) (rsh ++ (hosts.getD i [] ++ [lmonHostDelim]))
  else (i, rsh)
termination_by stop - i

/-- `leftrsh` and `rightrsh` of `spawn`: the hosts from `start` up to `stop`. -/
def hostsArg (hosts : List Str) (start stop : ℕ) : Str :=
  let opt := lmonRshspawnerOpt ++ ['=']
  let (i, rsh) := hostsLoop hosts stop start opt
  let (i, rsh) := if i + 1 = stop then (i + 1, rsh ++ hosts.getD i []) else (i, rsh)
  if i = start then rsh ++ lmonNoHost else rsh

/-- `spawner_rsh_t::spawn`: what it returns, and what it has started. -/
def SpawnerRsh.spawn (s : SpawnerRsh) : Bool × List Launch :=
  if s.hosts = [] then (false, [])
  else
    let halfhosts := s.hosts.length / 2
    let left := s.executeRsh (s.hosts.getD 0 []) (hostsArg s.hosts 1 halfhosts)
    let right := s.executeRsh (s.hosts.getD halfhosts [])
      (hostsArg s.hosts (halfhosts + 1) s.hosts.length)
    (true, if 0 < halfhosts then [left, right] else [left])

/-! ## The daemon -/

section

-- `RSHCMD`, the remote shell of the configuration
variable (rshcmd : Str)

/-- The constructor of `spawner_rsh_t` for a list of hosts in one string. -/
def SpawnerRsh.ofHostlist (dpath : Str) (dmonopts : List Str) (hlsarg : Str) : SpawnerRsh where
  remoteLaunchCmd := rshcmd
  launchCmdArgs := []
  daemonPath := dpath
  daemonArgs := dmonopts
  hosts := (strtok lmonHostDelim hlsarg).filter (· ≠ lmonNoHost)

/-- Is an argument the option with the hosts? -/
def isRshspawnerOpt (arg : Str) : Bool :=
  arg.headD '\x00' = '-' ∧ arg.drop 1 ≠ [] ∧ lmonRshspawnerOpt.isPrefixOf arg

/-- `LMON_mw_daemon_internal_init`: the spawner of a daemon.  The last option counts. -/
def lmonMwDaemonInternalInit (argv : List Str) : Option SpawnerRsh :=
  (argv.drop 1).foldl (fun daemonSpawner arg =>
    if isRshspawnerOpt arg then
      some (.ofHostlist rshcmd (argv.headD []) [] (arg.drop (1 + lmonRshspawnerOpt.length)))
    else daemonSpawner) none

/-- The hosts that a daemon goes on with. -/
def Launch.handed (l : Launch) : List Str :=
  ((lmonMwDaemonInternalInit rshcmd l.argv).map SpawnerRsh.hosts).getD []

/-- The hosts on which a spawner and the spawners of its daemons start daemons, over at most `depth`
    levels; `none` if these are not enough. -/
def spawnAll : ℕ → SpawnerRsh → Option (List Str)
  | 0, s => if s.hosts = [] then some [] else none
  | depth + 1, s => do
    let below ← s.spawn.2.mapM fun l =>
      match lmonMwDaemonInternalInit rshcmd l.argv with
      | none => some []
      | some s => spawnAll depth s
    return s.spawn.2.map Launch.headhost ++ below.flatten

end

/-! ## The hosts as an argument: the parent joins them -/

/-- A name that is read as it was written: `strtok` drops empty names and cuts at delimiters, and the
    daemon drops the placeholder. -/
def GoodHost (h : Str) : Prop := h ≠ [] ∧ lmonHostDelim ∉ h ∧ h ≠ lmonNoHost

/-- The hosts from `start` up to `stop`. -/
def segment (hosts : List Str) (start stop : ℕ) : List Str := (hosts.drop start).take (stop - start)

theorem segment_cons {hosts : List Str} {start stop : ℕ} (h : start < stop)
    (hstop : stop ≤ hosts.length) :
    segment hosts start stop = hosts.getD start [] :: segment hosts (start + 1) stop := by
  have hlt : start < hosts.length := by omega
  unfold segment
  rw [List.drop_eq_getElem_cons hlt, show stop - start = (stop - (start + 1)) + 1 by omega,
    List.take_succ_cons, List.getD_eq_getElem _ _ hlt]

theorem segment_nil {hosts : List Str} {start stop : ℕ} (h : stop ≤ start) :
    segment hosts start stop = [] := by
  unfold segment
  rw [show stop - start = 0 by omega, List.take_zero]

theorem length_segment {hosts : List Str} {start stop : ℕ} (hstop : stop ≤ hosts.length) :
    (segment hosts start stop).length = stop - start := by
  unfold segment
  rw [List.length_take, List.length_drop]
  omega

theorem mem_segment {hosts : List Str} {start stop : ℕ} {h : Str}
    (hmem : h ∈ segment hosts start stop) : h ∈ hosts :=
  List.mem_of_mem_drop (List.mem_of_mem_take hmem)

/-- The loop stops at the last host, which `spawn` puts behind what the loop has made: the two are the
    joined list.  The induction is on the number of hosts behind `i`. -/
theorem hostsLoop_spec {hosts : List Str} {stop : ℕ} (hstop : stop ≤ hosts.length) :
    ∀ (k i : ℕ) (rsh : Str), stop = i + 1 + k →
      (hostsLoop hosts stop i rsh).1 + 1 = stop ∧
      (hostsLoop hosts stop i rsh).2 ++ hosts.getD (stop - 1) [] =
        rsh ++ [lmonHostDelim].intercalate (segment hosts i stop) := by
  intro k
  induction k with
  | zero =>
    -- `i` is the last host: no turn of the loop
    intro i rsh hi
    have hlast : segment hosts i stop = [hosts.getD i []] := by
      rw [segment_cons (by omega) hstop, segment_nil (by omega)]
    rw [hostsLoop, if_neg (by omega), hlast, List.intercalate_singleton]
    exact ⟨by omega, by rw [show stop - 1 = i by omega]⟩
  | succ k ih =>
    -- a turn puts the host and a delimiter behind `rsh`
    intro i rsh hi
    have hrest : segment hosts (i + 1) stop ≠ [] := by
      rw [segment_cons (by omega) hstop]
      exact List.cons_ne_nil _ _
    rw [hostsLoop, if_pos (by omega), segment_cons (by omega) hstop,
      List.intercalate_cons_of_ne_nil hrest]
    obtain ⟨hindex, hjoin⟩ := ih (i + 1) (rsh ++ (hosts.getD i [] ++ [lmonHostDelim])) (by omega)
    refine ⟨hindex, ?_⟩
    rw [hjoin]
    simp only [List.append_assoc]

/-- The argument of a child is the option with the joined list, or with the placeholder where the part
    of the child is empty. -/
theorem hostsArg_eq {hosts : List Str} {start stop : ℕ} (hstop : stop ≤ hosts.length) :
    hostsArg hosts start stop = lmonRshspawnerOpt ++ ['='] ++
      if segment hosts start stop = [] then lmonNoHost
      else [lmonHostDelim].intercalate (segment hosts start stop) := by
  unfold hostsArg
  dsimp only
  rcases Nat.lt_or_ge start stop with hlt | hge
  · -- the loop ends at the last host, which the first test behind it appends
    obtain ⟨hindex, hjoin⟩ := hostsLoop_spec hstop (stop - (start + 1)) start
      (lmonRshspawnerOpt ++ ['=']) (by omega)
    have hne : segment hosts start stop ≠ [] := by
      rw [segment_cons hlt hstop]
      exact List.cons_ne_nil _ _
    generalize hostsLoop hosts stop start (lmonRshspawnerOpt ++ ['=']) = r at hindex hjoin ⊢
    obtain ⟨i, rsh⟩ := r
    have hi : i + 1 = stop := hindex
    have hlast : stop - 1 = i := by omega
    rw [hlast] at hjoin
    dsimp only
    rw [if_pos hi, if_neg hne, if_neg (by omega)]
    exact hjoin
  · -- an empty part: no turn, and the second test appends the placeholder
    have hloop : hostsLoop hosts stop start (lmonRshspawnerOpt ++ ['=']) =
        (start, lmonRshspawnerOpt ++ ['=']) := by rw [hostsLoop, if_neg (by omega)]
    have hlast : ¬start + 1 = stop := by omega
    rw [hloop]
    dsimp only
    rw [if_neg hlast, if_pos rfl, if_pos (segment_nil hge)]

/-! ## The hosts as an argument: the daemon takes it apart -/

section

variable {rshcmd : Str}

/-- A list of good names, joined or replaced by the placeholder, is the list of the spawner that the
    daemon makes of the argument. -/
theorem hosts_ofHostlist {l : List Str} (hgood : ∀ h ∈ l, GoodHost h) (dpath : Str)
    (dmonopts : List Str) :
    (SpawnerRsh.ofHostlist rshcmd dpath dmonopts
      (if l = [] then lmonNoHost else [lmonHostDelim].intercalate l)).hosts = l := by
  show (strtok lmonHostDelim (if l = [] then lmonNoHost else _)).filter (· ≠ lmonNoHost) = l
  split
  · next hnil =>
    -- the placeholder is one token, which is filtered out
    rw [hnil]
    decide
  · next hne =>
    rw [strtok_intercalate (fun h hh => ⟨(hgood h hh).1, (hgood h hh).2.1⟩) hne]
    refine List.filter_eq_self.mpr fun h hh => ?_
    exact decide_eq_true (hgood h hh).2.2

/-- The last argument of a daemon counts, whatever stands in front of it. -/
theorem init_argv (dpath : Str) (dargs : List Str) (arg : Str) :
    lmonMwDaemonInternalInit rshcmd (dpath :: dargs ++ [lmonRshspawnerOpt ++ ['='] ++ arg]) =
      some (.ofHostlist rshcmd dpath [] arg) := by
  have hopt : isRshspawnerOpt (lmonRshspawnerOpt ++ ['='] ++ arg) = true := by
    unfold isRshspawnerOpt
    rw [decide_eq_true_iff, List.append_assoc]
    exact ⟨rfl, by rintro ⟨⟩, List.isPrefixOf_iff_prefix.mpr (List.prefix_append _ _)⟩
  have hdrop : (lmonRshspawnerOpt ++ ['='] ++ arg).drop (1 + lmonRshspawnerOpt.length) = arg :=
    List.drop_left' rfl
  unfold lmonMwDaemonInternalInit
  rw [List.cons_append, List.drop_one, List.tail_cons, List.foldl_append, List.foldl_cons,
    List.foldl_nil, if_pos hopt, hdrop, List.headD_cons]

/-! ## One `spawn`: its daemons, and what is handed to them -/

/-- A daemon that is started for a segment goes on with that segment. -/
theorem init_executeRsh {s : SpawnerRsh} {headhost : Str} {start stop : ℕ}
    (hstop : stop ≤ s.hosts.length) (hgood : ∀ h ∈ s.hosts, GoodHost h) :
    ∃ s', lmonMwDaemonInternalInit rshcmd (s.executeRsh headhost (hostsArg s.hosts start stop)).argv =
      some s' ∧ s'.hosts = segment s.hosts start stop := by
  refine ⟨_, ?_, @hosts_ofHostlist rshcmd _ (fun h hh => hgood h (mem_segment hh)) s.daemonPath []⟩
  show lmonMwDaemonInternalInit rshcmd (s.daemonPath :: s.daemonArgs ++ [hostsArg _ _ _]) = _
  rw [hostsArg_eq hstop, init_argv]

/-- The two hosts of a `spawn`, each with the part behind it, are the list. -/
theorem segments_eq {hosts : List Str} (hhalf : 0 < hosts.length / 2) :
    hosts.getD 0 [] :: segment hosts 1 (hosts.length / 2) ++
      hosts.getD (hosts.length / 2) [] :: segment hosts (hosts.length / 2 + 1) hosts.length =
        hosts := by
  have hleft : segment hosts 0 (hosts.length / 2) = hosts.take (hosts.length / 2) := by
    rw [segment, List.drop_zero, Nat.sub_zero]
  have hright : segment hosts (hosts.length / 2) hosts.length = hosts.drop (hosts.length / 2) :=
    List.take_of_length_le (by rw [List.length_drop])
  rw [← segment_cons hhalf (by omega), ← segment_cons (by omega) le_rfl, hleft, hright,
    List.take_append_drop]

/-- A child goes on with good names, fewer than half of those of its parent. -/
structure Child (rshcmd : Str) (s : SpawnerRsh) (l : Launch) (s' : SpawnerRsh) : Prop where
  init_eq : lmonMwDaemonInternalInit rshcmd l.argv = some s'
  good : ∀ h ∈ s'.hosts, GoodHost h
  half : 2 * s'.hosts.length < s.hosts.length

theorem Child.handed_eq {s s' : SpawnerRsh} {l : Launch} (h : Child rshcmd s l s') :
    l.handed rshcmd = s'.hosts := by
  rw [Launch.handed, h.init_eq]
  rfl

/-- A child for the hosts from `start` up to `stop`. -/
theorem child_of_segment {s : SpawnerRsh} (hgood : ∀ h ∈ s.hosts, GoodHost h) (headhost : Str)
    {start stop : ℕ} (hstop : stop ≤ s.hosts.length) (hhalf : 2 * (stop - start) < s.hosts.length) :
    ∃ s', Child rshcmd s (s.executeRsh headhost (hostsArg s.hosts start stop)) s' ∧
      s'.hosts = segment s.hosts start stop := by
  obtain ⟨s', hinit, hhosts⟩ := @init_executeRsh rshcmd s headhost start stop hstop hgood
  refine ⟨s', ⟨hinit, ?_, ?_⟩, hhosts⟩
  · intro h hh
    rw [hhosts] at hh
    exact hgood h (mem_segment hh)
  · rw [hhosts, length_segment hstop]
    exact hhalf

/-- **One level**: each daemon that is started has a spawner, and the heads and what is handed to them
    are the list. -/
theorem spawn_spec {s : SpawnerRsh} (hne : s.hosts ≠ []) (hgood : ∀ h ∈ s.hosts, GoodHost h) :
    s.spawn.1 = true ∧ (∀ l ∈ s.spawn.2, ∃ s', Child rshcmd s l s') ∧
      (s.spawn.2.flatMap fun l => l.headhost :: l.handed rshcmd) = s.hosts := by
  have hlen : 0 < s.hosts.length := List.length_pos_iff.mpr hne
  obtain ⟨s₁, hleft, hhosts₁⟩ := @child_of_segment rshcmd s hgood (s.hosts.getD 0 []) 1
    (s.hosts.length / 2) (by omega) (by omega)
  obtain ⟨s₂, hright, hhosts₂⟩ := @child_of_segment rshcmd s hgood
    (s.hosts.getD (s.hosts.length / 2) []) (s.hosts.length / 2 + 1) s.hosts.length le_rfl (by omega)
  unfold SpawnerRsh.spawn
  rw [if_neg hne]
  dsimp only
  refine ⟨rfl, ?_, ?_⟩
  · -- the daemons: two, or the first one alone where the list has one host
    intro l hl
    split at hl
    · rcases List.mem_pair.mp hl with rfl | rfl
      · exact ⟨s₁, hleft⟩
      · exact ⟨s₂, hright⟩
    · rcases List.mem_singleton.mp hl with rfl
      exact ⟨s₁, hleft⟩
  · -- the lists that they go on with are the segments, so the heads and these are the list
    split
    · next hhalf =>
      rw [List.flatMap_cons, List.flatMap_cons, List.flatMap_nil, List.append_nil, hleft.handed_eq,
        hright.handed_eq, hhosts₁, hhosts₂]
      exact segments_eq hhalf
    · next hhalf =>
      -- one host: nothing is left for its daemon
      have hone : s.hosts.length = 1 := by omega
      rw [List.flatMap_singleton, hleft.handed_eq, hhosts₁, segment_nil (by omega)]
      obtain ⟨h, hh⟩ := List.length_eq_one_iff.mp hone
      rw [hh]
      rfl

/-! ## The whole tree: one daemon for each host, within `log₂ n + 1` levels -/

/-- Heads and trees of a list of daemons, when each tree is what has been handed to its daemon. -/
theorem mapM_perm {f : Launch → Option (List Str)} {handed : Launch → List Str} : ∀ ls : List Launch,
    (∀ l ∈ ls, ∃ below, f l = some below ∧ below.Perm (handed l)) →
    ∃ belows, ls.mapM f = some belows ∧
      (ls.map Launch.headhost ++ belows.flatten).Perm (ls.flatMap fun l => l.headhost :: handed l) := by
  intro ls
  induction ls with
  | nil =>
    intro _
    exact ⟨[], rfl, List.Perm.refl _⟩
  | cons l ls ih =>
    intro h
    obtain ⟨below, hbelow, hperm⟩ := h l List.mem_cons_self
    obtain ⟨belows, hbelows, hperms⟩ := ih fun l' hl' => h l' (List.mem_cons_of_mem _ hl')
    refine ⟨below :: belows, ?_, ?_⟩
    · rw [List.mapM_cons, hbelow, hbelows]
      rfl
    · rw [List.map_cons, List.flatten_cons, List.flatMap_cons, List.cons_append, List.cons_append]
      refine List.Perm.cons _ ?_
      have hswap : (ls.map Launch.headhost ++ (below ++ belows.flatten)).Perm
          (below ++ (ls.map Launch.headhost ++ belows.flatten)) := by
        rw [← List.append_assoc, ← List.append_assoc]
        exact List.Perm.append_right _ List.perm_append_comm
      exact hswap.trans (hperm.append hperms)

/-- **Within `depth` levels** a spawner with fewer than `2 ^ depth` hosts has one daemon started for each
    of them.  By induction on the levels: a child has fewer than half of the hosts. -/
theorem spawnAll_perm : ∀ (depth : ℕ) (s : SpawnerRsh), (∀ h ∈ s.hosts, GoodHost h) →
    s.hosts.length < 2 ^ depth → ∃ started, spawnAll rshcmd depth s = some started ∧
      started.Perm s.hosts := by
  intro depth
  induction depth with
  | zero =>
    -- no level is left, and no host
    intro s _ hlen
    have hnil : s.hosts = [] := List.length_eq_zero_iff.mp (by omega)
    refine ⟨[], ?_, by rw [hnil]⟩
    rw [spawnAll, if_pos hnil]
  | succ depth ih =>
    intro s hgood hlen
    by_cases hnil : s.hosts = []
    · -- without hosts `spawn` starts nothing
      refine ⟨[], ?_, by rw [hnil]⟩
      have hspawn : s.spawn = (false, []) := if_pos hnil
      rw [spawnAll, hspawn]
      rfl
    · -- the trees of the children by the induction hypothesis, put together by `mapM_perm`
      obtain ⟨-, hchild, hall⟩ := @spawn_spec rshcmd s hnil hgood
      obtain ⟨belows, hbelows, hperm⟩ := @mapM_perm (fun l =>
        match lmonMwDaemonInternalInit rshcmd l.argv with
        | none => some []
        | some s => spawnAll rshcmd depth s) (Launch.handed rshcmd) s.spawn.2 (by
          intro l hl
          obtain ⟨s', h⟩ := hchild l hl
          have hhalf := h.half
          obtain ⟨below, hbelow, hperm⟩ := ih s' h.good (by rw [Nat.pow_succ] at hlen; omega)
          refine ⟨below, ?_, ?_⟩
          · rw [h.init_eq]
            exact hbelow
          · rw [h.handed_eq]
            exact hperm)
      rw [hall] at hperm
      refine ⟨_, ?_, hperm⟩
      rw [spawnAll, hbelows]
      rfl

end

/-- **The spawner tree**: `spawn` and the spawners of the daemons start one daemon for each element of
    the list, within `log₂ n + 1` levels; and what is handed to the children is, with their hosts, the
    list of the parent. -/
theorem spawner_tree (rshcmd : Str) (s : SpawnerRsh) (hne : s.hosts ≠ [])
    (hgood : ∀ h ∈ s.hosts, GoodHost h) :
    s.spawn.1 = true ∧
    (s.spawn.2.flatMap fun l => l.headhost :: l.handed rshcmd).Perm s.hosts ∧
    ∃ started, spawnAll rshcmd (Nat.log 2 s.hosts.length + 1) s = some started ∧
      started.Perm s.hosts := by
  obtain ⟨hret, -, hall⟩ := @spawn_spec rshcmd s hne hgood
  refine ⟨hret, by rw [hall], ?_⟩
  exact spawnAll_perm _ s hgood (Nat.lt_pow_succ_log_self Nat.one_lt_two _)

/-- Four hosts, two of them the same. -/
def fourHosts : SpawnerRsh where
  remoteLaunchCmd := "rsh".toList
  launchCmdArgs := []
  daemonPath := "mwd".toList
  daemonArgs := ["-v".toList, "--lmon-rsh=x".toList]
  hosts := ["a".toList, "b".toList, "a".toList, "c1".toList]

theorem spawner_tree_fourHosts :
    fourHosts.spawn.1 = true ∧
    (fourHosts.spawn.2.flatMap fun l => l.headhost :: l.handed "rsh".toList).Perm fourHosts.hosts ∧
    ∃ started, spawnAll "rsh".toList (Nat.log 2 fourHosts.hosts.length + 1) fourHosts = some started ∧
      started.Perm fourHosts.hosts := by
  refine spawner_tree "rsh".toList fourHosts (by rintro ⟨⟩) ?_
  unfold GoodHost
  decide

end LaunchMON.Middleware
