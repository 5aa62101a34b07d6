/-
  Middleware daemons beside the back-end daemons: a launch of `spawner_coloc_t`, from
  `LMON_fe_launchMwDaemons` over `LMON_be_assist_mw_coloc` and `execute_daemon` to the tree of their
  connections.

  1. **The requests** (`assistLoop_ends`).  Every back-end daemon assists with one request after the other,
     and keeps its spawner.  `parse_mw_assist_lmonpl` sets the path but appends the arguments, so a daemon
     gets those of all requests so far.

  2. **The arguments.**  Of a request come through its arguments, the two options and an empty string, or,
     if the path or an argument is empty, what is in front of it and that (`arrived_spec`).  So the two
     options do not stand at the end any more, while as many arguments as are options are taken off there:
     the option with the key stays on the command line (`key_mem_toolArgs`).

  3. **The key.**  The environment is that of the back-end daemon, which knows its session.  So each of the
     daemons knows it too, also those whose options are lost, and whichever becomes rank 0
     (`coloc_launch`).
-/
import LaunchMON.Middleware.Coloc
import LaunchMON.Middleware.Launch

namespace LaunchMON.Middleware

open Backend CBytes Fleet Lmonp Relation Descent Dial CText Cobo Frontend

/-! ## The requests -/

/-- `spawner_coloc_t`, as a back-end daemon has it: what the requests have left. -/
structure BeSpawner where
  daemonPath : List UInt8
  daemonArgs : List (List UInt8)

/-- The spawner that `LMON_be_init` makes. -/
def BeSpawner.init : BeSpawner := ⟨[], []⟩

/-- `set_daemon_path`, and `push_back` for each argument. -/
def BeSpawner.parsed (s : BeSpawner) (r : List UInt8 × List (List UInt8)) : BeSpawner :=
  ⟨r.1, s.daemonArgs ++ r.2⟩

/-- `execute_daemon`: the vector for `execvp`, which runs its first string. -/
def BeSpawner.executeDaemon (s : BeSpawner) : List (List UInt8) := s.daemonPath :: s.daemonArgs

/-- `LMON_be_assist_mw_coloc`: the spawner, and the vector of the daemon that it starts. -/
def lmonBeAssistMwColoc (c : Calls) (d : PerDaemonData) (s : BeSpawner) :
    Assist (BeSpawner × List (List UInt8)) := do
  let r ← spawn c d
  return (s.parsed r, (s.parsed r).executeDaemon)

/-- A back-end daemon that assists with `nreq` requests: the vectors of the daemons that it starts. -/
def assistLoop (c : Calls) (d : PerDaemonData) : ℕ → BeSpawner → Assist (List (List (List UInt8)))
  | 0, _ => return []
  | nreq + 1, s => do
    let (s, av) ← lmonBeAssistMwColoc c d s
    let avs ← assistLoop c d nreq s
    return av :: avs

/-- The spawner that the front end makes for a request. -/
def SpawnerColoc.ofSpawner (beMasterSockfd : Int) (s : Spawner) : SpawnerColoc :=
  ⟨true, beMasterSockfd, s.daemonPath, s.daemonArgs⟩

/-- What comes through of the arguments of a request. -/
def arrived (s : Spawner) : List CString := behind s.daemonPath s.daemonArgs

/-- The command lines of the daemons for the requests `ss`, at each back-end daemon; `before` has come
    with earlier ones. -/
def colocLines (before : List CString) (ss : List Spawner) : List (List CString) :=
  List.ofFn fun k : Fin ss.length => ss[k].daemonPath :: (before ++ (ss.take (k + 1)).flatMap arrived)

/-- A socket that delivers messages one after the other. -/
def HearsAll : Feed → List Msg → Prop
  | _, [] => True
  | f, m :: ms => Hears f (m.hdr.bytes ++ m.payload) ∧ HearsAll (afterPayload (afterHeader f)) ms

/-- A message for each request. -/
def Requested (beMasterSockfd : Int) (malloc : ℕ → Bool) (ss : List Spawner) (ms : List Msg) : Prop :=
  List.Forall₂ (fun s m => (SpawnerColoc.ofSpawner beMasterSockfd s).assistMsg malloc = .ok m) ss ms

theorem colocLines_cons (before : List CString) (s : Spawner) (ss : List Spawner) :
    colocLines before (s :: ss) =
      (s.daemonPath :: (before ++ arrived s)) :: colocLines (before ++ arrived s) ss := by
  rw [colocLines, List.ofFn_succ]
  congr 1
  · simp
  · simp [colocLines, List.append_assoc]

/-- **All requests**: the daemons of the job assist with them together, and each starts the same ones. -/
theorem assistLoop_ends {n : ℕ} {j : Backend.Job n} {malloc : ℕ → Bool} {beMasterSockfd : Int} :
    ∀ {ss : List Spawner} {ms : List Msg}, Requested beMasterSockfd malloc ss ms →
      ∀ (f : Fin (n + 1) → Feed) (s : BeSpawner) (before : List CString),
      HearsAll (f 0) ms → (∀ m ∈ ms, ∀ i, i ≠ 0 → (j.calls i).malloc m.payload.length = true) →
      s.daemonArgs = before.map CString.bytes →
      ∃ (cs : List Fleet.Collective) (rest : Fin (n + 1) → Feed),
        Ends (fun i => (assistLoop (j.calls i) (j.daemon i) ss.length s).resolve Feed.answer (f i))
        cs fun i => .ok ((colocLines before ss).map (·.map CString.bytes), rest i) := by
  intro ss ms hreq
  induction hreq with
  | nil =>
    intro f s before _ _ _
    exact ⟨[], f, @Ends.returned n _ _ fun i => .ok ([], f i)⟩
  | @cons req m ss ms hmsg _ ih =>
    intro f s before hheard hmalloc hargs
    have hparse : parseMwAssistLmonpl m.payload =
        (req.daemonPath.bytes, (arrived req).map CString.bytes) := by
      rw [(assistMsg_eq_ok hmsg).1]
      exact parseWithin_eq_some (parseWithin_lmonpl _)
    have hspawn := spawn_ends hmsg hheard.1 (hmalloc m List.mem_cons_self)
    rw [hparse] at hspawn
    obtain ⟨cs, rest, hrest⟩ := ih (fun i => if i = 0 then afterPayload (afterHeader (f 0)) else f i)
      (s.parsed (req.daemonPath.bytes, (arrived req).map CString.bytes)) (before ++ arrived req) hheard.2
      (fun m' hm' => hmalloc m' (List.mem_cons_of_mem _ hm')) (by
        rw [List.map_append, ← hargs]
        rfl)
    refine ⟨[.broadcast 4, .broadcast m.payload.length] ++ cs, rest, ?_⟩
    have hloop : ∀ i, (assistLoop (j.calls i) (j.daemon i) (req :: ss).length s).resolve Feed.answer (f i) =
        (spawn (j.calls i) (j.daemon i)).resolve Feed.answer (f i) >>= fun r =>
          (assistLoop (j.calls i) (j.daemon i) ss.length (s.parsed r.1)).resolve Feed.answer r.2 >>=
            fun avs => .ret ((s.parsed r.1).executeDaemon :: avs.1, avs.2) := by
      intro i
      rw [List.length_cons, assistLoop, lmonBeAssistMwColoc, bind_assoc, Daemon.resolve_bind]
      refine congrArg _ (funext fun r => ?_)
      rw [pure_bind]
      dsimp only
      rw [Daemon.resolve_bind]
      rfl
    simp only [hloop]
    refine hspawn.bind ?_
    let s' := s.parsed (req.daemonPath.bytes, (arrived req).map CString.bytes)
    have hargv : (colocLines before (req :: ss)).map (·.map CString.bytes) =
        s'.executeDaemon :: (colocLines (before ++ arrived req) ss).map (·.map CString.bytes) := by
      rw [colocLines_cons, List.map_cons, List.map_cons, List.map_append, ← hargs]
      rfl
    rw [hargv]
    exact hrest.map fun avs => (s'.executeDaemon :: avs.1, avs.2)

/-! ## The arguments -/

/-- A request without an empty string, so that its options come through. -/
def Through (s : Spawner) : Prop := CString.empty ∉ s.daemonPath :: s.daemonArgs

instance : DecidablePred Through := fun s => inferInstanceAs (Decidable (_ ∉ s.daemonPath :: s.daemonArgs))

/-- Behind strings of which none is empty, the end mark comes through, too. -/
theorem behind_eq_of_not_mem : ∀ {args : List CString} {p : CString}, CString.empty ∉ p :: args →
    behind p args = args ++ [.empty] := by
  intro args
  induction args with
  | nil =>
    intro p hp
    rw [behind, if_neg fun h : p = .empty => hp (h ▸ List.mem_cons_self)]
    rfl
  | cons a args ih =>
    intro p hp
    rw [behind, if_neg fun h : p = .empty => hp (h ▸ List.mem_cons_self),
      ih fun h => hp (List.mem_cons_of_mem _ h)]
    rfl

/-- Behind an empty string nothing comes through. -/
theorem behind_prefix : ∀ {args : List CString} {p : CString} (more : List CString),
    CString.empty ∈ p :: args → behind p (args ++ more) <+: args := by
  intro args
  induction args with
  | nil =>
    intro p more hp
    have hempty : p = .empty := (List.mem_singleton.mp hp).symm
    have hnil : behind p ([] ++ more) = [] := by
      cases more <;> exact if_pos hempty
    rw [hnil]
  | cons a args ih =>
    intro p more hp
    rw [List.cons_append, behind]
    split
    · exact List.nil_prefix
    · rename_i hne
      rw [List.cons_prefix_cons]
      refine ⟨rfl, ih more ?_⟩
      rcases List.mem_cons.mp hp with heq | hmem
      · exact absurd heq.symm hne
      · exact hmem

section

variable {sec : SecurityArgs} {key chk : Str}

theorem ne_empty_of_chars {s : CString} {c : Char} {str : Str} (h : chars s = c :: str) : s ≠ .empty := by
  rintro rfl
  cases h

/-- **What comes through of a request**: all, the options and an empty string; or a part of the arguments. -/
theorem arrived_spec (hkey : chars sec.ssec = sharedsecOpt key) (hchk : chars sec.secchk = secchkOpt chk)
    (s : Spawner) :
    (Through s → arrived (s.secured sec) = s.daemonArgs ++ [sec.ssec, sec.secchk, .empty]) ∧
      (¬Through s → arrived (s.secured sec) <+: s.daemonArgs) := by
  constructor
  · intro hthrough
    have hnot : CString.empty ∉ s.daemonPath :: (s.daemonArgs ++ [sec.ssec, sec.secchk]) := by
      intro hmem
      rw [← List.cons_append] at hmem
      rcases List.mem_append.mp hmem with hmem | hmem
      · exact hthrough hmem
      · rcases List.mem_pair.mp hmem with heq | heq
        · exact ne_empty_of_chars hkey heq.symm
        · exact ne_empty_of_chars hchk heq.symm
    show behind s.daemonPath (s.daemonArgs ++ [sec.ssec, sec.secchk]) = _
    rw [behind_eq_of_not_mem hnot, List.append_assoc]
    rfl
  · exact fun hnot => behind_prefix _ (not_not.mp hnot)

/-- The arguments that have come with the requests `own`. -/
def arrivedArgs (sec : SecurityArgs) (own : List Spawner) : List CString :=
  own.flatMap fun s => arrived (s.secured sec)

/-- Those that the tool finds: as many are taken off at the end as there are options among them. -/
def toolArgs (sec : SecurityArgs) (own : List Spawner) : List CString :=
  (arrivedArgs sec own).take ((arrivedArgs sec own).length - 2 * own.countP Through)

/-- An argument that comes through is one of the user, an option or empty. -/
theorem plain_of_arrived (hkey : chars sec.ssec = sharedsecOpt key) (hchk : chars sec.secchk = secchkOpt chk)
    {own : List Spawner} (hplain : ∀ s ∈ own, ∀ a ∈ s.daemonArgs, PlainArg (chars a)) {a : CString}
    (ha : a ∈ arrivedArgs sec own) :
    PlainArg (chars a) ∨ chars a = sharedsecOpt key ∨ chars a = secchkOpt chk := by
  obtain ⟨s, hs, ha⟩ := List.mem_flatMap.mp ha
  obtain ⟨hthrough, hnot⟩ := arrived_spec hkey hchk s
  by_cases h : Through s
  · rw [hthrough h] at ha
    rcases List.mem_append.mp ha with ha | ha
    · exact Or.inl (hplain s hs a ha)
    · simp only [List.mem_cons, List.not_mem_nil, or_false] at ha
      obtain rfl | rfl | rfl := ha
      · exact Or.inr (Or.inl hkey)
      · exact Or.inr (Or.inr hchk)
      · exact Or.inl (by decide)
  · exact Or.inl (hplain s hs a ((hnot h).subset ha))

theorem miscounted_sharedsecOpt (key : Str) : Miscounted (sharedsecOpt key) :=
  ⟨rfl, by rintro ⟨⟩, Or.inl (List.prefix_append _ _)⟩

theorem miscounted_secchkOpt (chk : Str) : Miscounted (secchkOpt chk) :=
  ⟨rfl, by rintro ⟨⟩, Or.inr (List.prefix_append _ _)⟩

theorem miscounts_eq_zero {args : List Str} (h : ∀ a ∈ args, PlainArg a) : miscounts args = 0 := by
  rw [miscounts, List.countP_eq_zero]
  exact fun a ha => by
    rw [decide_eq_true_iff]
    exact (h a ha).2

/-- The options among what comes through of a request. -/
theorem miscounts_arrived (hkey : chars sec.ssec = sharedsecOpt key) (hchk : chars sec.secchk = secchkOpt chk)
    {s : Spawner} (hplain : ∀ a ∈ s.daemonArgs, PlainArg (chars a)) :
    miscounts ((arrived (s.secured sec)).map chars) = if Through s then 2 else 0 := by
  obtain ⟨hthrough, hnot⟩ := arrived_spec hkey hchk s
  have hzero : ∀ args : List CString, args ⊆ s.daemonArgs → miscounts (args.map chars) = 0 := by
    intro args hargs
    refine miscounts_eq_zero fun a ha => ?_
    obtain ⟨b, hb, rfl⟩ := List.mem_map.mp ha
    exact hplain b (hargs hb)
  split
  · next h =>
    have hopts : miscounts [sharedsecOpt key, secchkOpt chk, chars .empty] = 2 := by
      rw [miscounts, List.countP_cons_of_pos, List.countP_cons_of_pos]
      · rfl
      · exact decide_eq_true (miscounted_secchkOpt chk)
      · exact decide_eq_true (miscounted_sharedsecOpt key)
    rw [hthrough h, List.map_append, List.map_cons, List.map_cons, List.map_cons, hkey, hchk]
    exact List.countP_append.trans (congrArg₂ (· + ·) (hzero _ fun _ ha => ha) hopts)
  · next h => exact hzero _ (hnot h).subset

/-- The options among what has come through, and that it is at least as long as they are many. -/
theorem miscounts_arrivedArgs (hkey : chars sec.ssec = sharedsecOpt key)
    (hchk : chars sec.secchk = secchkOpt chk) {own : List Spawner}
    (hplain : ∀ s ∈ own, ∀ a ∈ s.daemonArgs, PlainArg (chars a)) :
    miscounts ((arrivedArgs sec own).map chars) = 2 * own.countP Through ∧
      2 * own.countP Through ≤ (arrivedArgs sec own).length := by
  have hcount : miscounts ((arrivedArgs sec own).map chars) = 2 * own.countP Through := by
    induction own with
    | nil => rfl
    | cons s own ih =>
      obtain ⟨hs, hown⟩ := List.forall_mem_cons.mp hplain
      have hsplit : miscounts ((arrivedArgs sec (s :: own)).map chars) =
          miscounts ((arrived (s.secured sec)).map chars) + miscounts ((arrivedArgs sec own).map chars) := by
        rw [arrivedArgs, List.flatMap_cons, List.map_append]
        exact List.countP_append
      rw [hsplit, miscounts_arrived hkey hchk hs, ih hown, List.countP_cons]
      by_cases h : Through s
      · rw [if_pos h, if_pos (decide_eq_true h)]
        omega
      · rw [if_neg h, if_neg (by rw [decide_eq_true_iff]; exact h), Nat.zero_add, Nat.add_zero]
  refine ⟨hcount, ?_⟩
  rw [← hcount]
  exact List.countP_le_length.trans_eq (List.length_map _)

/-- **The key on the command line**: the tool finds it there if a request has come through. -/
theorem key_mem_toolArgs (hkey : chars sec.ssec = sharedsecOpt key)
    (hchk : chars sec.secchk = secchkOpt chk) : ∀ {own : List Spawner},
    (∀ s ∈ own, ∀ a ∈ s.daemonArgs, PlainArg (chars a)) →
    (sec.ssec ∈ toolArgs sec own ↔ ∃ s ∈ own, Through s) := by
  intro own
  induction own with
  | nil => exact fun _ => iff_of_false List.not_mem_nil fun ⟨_, h, _⟩ => List.not_mem_nil h
  | cons s own ih =>
    intro hplain
    obtain ⟨hs, hown⟩ := List.forall_mem_cons.mp hplain
    obtain ⟨-, hlen⟩ := miscounts_arrivedArgs hkey hchk hown
    obtain ⟨hthrough, hnot⟩ := arrived_spec hkey hchk s
    have hsplit : arrivedArgs sec (s :: own) = arrived (s.secured sec) ++ arrivedArgs sec own :=
      List.flatMap_cons
    by_cases h : Through s
    · refine iff_of_true ?_ ⟨s, List.mem_cons_self, h⟩
      have hcons : arrivedArgs sec (s :: own) =
          (s.daemonArgs ++ [sec.ssec]) ++ ([sec.secchk, .empty] ++ arrivedArgs sec own) := by
        rw [hsplit, hthrough h, List.append_assoc, List.append_assoc]
        rfl
      have hlength : (arrivedArgs sec (s :: own)).length =
          s.daemonArgs.length + 3 + (arrivedArgs sec own).length := by
        rw [hsplit, hthrough h, List.length_append, List.length_append]
        rfl
      -- behind the option there is more than is taken off
      have hkept : (s.daemonArgs ++ [sec.ssec]).length ≤
          (arrivedArgs sec (s :: own)).length - 2 * (s :: own).countP Through := by
        rw [hlength, List.length_append, List.length_singleton, List.countP_cons, if_pos (decide_eq_true h)]
        omega
      rw [toolArgs, hcons, List.take_append, List.take_of_length_le (hcons ▸ hkept)]
      exact List.mem_append_left _ (List.mem_append_right _ List.mem_cons_self)
    · have habsent : sec.ssec ∉ arrived (s.secured sec) := by
        intro hmem
        have hplainArg := hs _ ((hnot h).subset hmem)
        rw [hkey] at hplainArg
        exact hplainArg.2 (miscounted_sharedsecOpt key)
      have htool : toolArgs sec (s :: own) = arrived (s.secured sec) ++ toolArgs sec own := by
        have hfit : (arrived (s.secured sec)).length + (arrivedArgs sec own).length - 2 * own.countP Through -
            (arrived (s.secured sec)).length = (arrivedArgs sec own).length - 2 * own.countP Through := by
          omega
        rw [toolArgs, hsplit, List.countP_cons, if_neg (by rw [decide_eq_true_iff]; exact h), Nat.add_zero,
          List.length_append, List.take_append, List.take_of_length_le (by omega), hfit]
        rfl
      rw [htool, List.mem_append, or_iff_right habsent, ih hown]
      simp [h]

/-! ## The daemons -/

/-- A daemon that knows its session. -/
def Knows (key chk : Str) (env : Env) : Prop :=
  lmonDaemonGetSharedKeyAndID env = (.ok, some key, some (atoi chk))

theorem knows_iff {env : Env} : Knows key chk env ↔
    env toolSsEnv = some key ∧ ∃ chk', env toolSchEnv = some chk' ∧ atoi chk' = atoi chk := by
  show lmonDaemonGetSharedKeyAndID env = _ ↔ env lmonShrdSecEnvname = _ ∧ ∃ _, env lmonSecChkEnvname = _ ∧ _
  unfold lmonDaemonGetSharedKeyAndID
  cases env lmonShrdSecEnvname with
  | none => simp
  | some sk =>
    cases env lmonSecChkEnvname with
    | none => simp
    | some charId => simp

/-- The scan of a daemon leaves what it knows. -/
theorem exportOpt_knows {s : Env × ℕ} {arg : Str}
    (harg : PlainArg arg ∨ arg = sharedsecOpt key ∨ arg = secchkOpt chk) (h : Knows key chk s.1) :
    Knows key chk (exportOpt s arg).1 := by
  obtain ⟨hss, chk', hsch, hatoi⟩ := knows_iff.mp h
  rcases harg with hplain | rfl | rfl
  · rw [exportOpt_of_not hplain.2]
    exact h
  · rw [exportOpt_sharedsec, knows_iff]
    dsimp only
    refine ⟨?_, chk', ?_, hatoi⟩
    · rw [Function.update_self]
    · rw [Function.update_of_ne (by decide)]
      exact hsch
  · rw [exportOpt_secchk, knows_iff]
    dsimp only
    refine ⟨?_, chk, ?_, rfl⟩
    · rw [Function.update_of_ne (by decide)]
      exact hss
    · rw [Function.update_self]

theorem isRshspawnerOpt_of_arrived {arg : Str}
    (harg : PlainArg arg ∨ arg = sharedsecOpt key ∨ arg = secchkOpt chk) : isRshspawnerOpt arg = false := by
  rcases harg with hplain | rfl | rfl
  · exact hplain.1
  · exact isRshspawnerOpt_sharedsecOpt key
  · exact isRshspawnerOpt_secchkOpt chk

/-- **A colocated daemon** has no spawner; it loses as many arguments as it counts options, and it knows
    what it has inherited. -/
theorem colocDaemon_init (rshcmd prog : Str) {args : List Str}
    (hargs : ∀ a ∈ args, PlainArg a ∨ a = sharedsecOpt key ∨ a = secchkOpt chk)
    (hcount : miscounts args ≤ args.length) {env : Env} (henv : Knows key chk env) :
    ∃ env' c', lmonMwInitArgs rshcmd env (.ofArgs (prog :: args)) = some (none, env', c') ∧
      c'.Presents (prog :: args.take (args.length - miscounts args)) ∧ Knows key chk env' := by
  have hnone : ∀ a ∈ args, isRshspawnerOpt a = false := fun a ha => isRshspawnerOpt_of_arrived (hargs a ha)
  obtain ⟨c₁, hmw, hc₁⟩ := @lmonMwInternalInit_eq rshcmd _ _ _ (presents_ofArgs (prog :: args))
  rw [List.countP_eq_zero.mpr fun a ha => by rw [hnone a ha]; exact Bool.noConfusion, Nat.sub_zero,
    List.take_of_length_le (by rw [List.length_cons])] at hc₁
  have hspawner : lmonMwDaemonInternalInit rshcmd (prog :: args) = none := by
    refine List.foldlRecOn (motive := fun daemonSpawner => daemonSpawner = none) args _ rfl ?_
    intro daemonSpawner hd a ha
    rw [if_neg (by rw [hnone a ha]; exact Bool.noConfusion)]
    exact hd
  have hcounted : (args.foldl exportOpt (env, 0)).2 = miscounts args :=
    (foldl_exportOpt_count args (env, 0)).trans (Nat.zero_add _)
  obtain ⟨c', hstrip, hc'⟩ := hc₁.strip_eq (n := miscounts args) (by rw [List.length_cons]; omega)
  have hrun : lmonDaemonInternalInit env c₁ = some ((args.foldl exportOpt (env, 0)).1, c') := by
    have hscan : c₁.eachArg (fun s arg => some (exportOpt s arg)) (env, 0) =
        some (args.foldl exportOpt (env, 0)) := by
      rw [hc₁.eachArg_eq]
      exact List.foldlM_pure
    rw [lmonDaemonInternalInit, hscan, Option.bind_eq_bind, Option.bind_some, hcounted, hstrip]
    rfl
  have hknows : Knows key chk (args.foldl exportOpt (env, 0)).1 :=
    List.foldlRecOn (motive := fun s => Knows key chk s.1) args exportOpt (b := (env, 0)) henv
      fun s hs a ha => exportOpt_knows (hargs a ha) hs
  refine ⟨_, c', ?_, ?_, hknows⟩
  · rw [lmonMwInitArgs, hmw, hspawner, Option.bind_eq_bind, Option.bind_some]
    dsimp only
    rw [hrun]
    rfl
  · rw [List.length_cons, Nat.sub_add_comm hcount, List.take_succ_cons] at hc'
    exact hc'

/-! ## The launch -/

/-- A request to run beside the back-end daemons, with arguments that no scan takes for an option. -/
structure PlainColoc (s : Spawner) : Prop where
  coloc : s.coloc = true
  args : ∀ a ∈ s.daemonArgs, PlainArg (chars a)

/-- The daemons of a launch: for each request one beside each back-end daemon, without a remote shell. -/
def colocLaunches {n : ℕ} (host : Fin (n + 1) → CString) (ss : List Spawner) : List Launch :=
  (colocLines [] ss).flatMap fun line => List.ofFn fun i => ⟨[], chars (host i), line.map chars⟩

/-- A daemon that starts no others, knows its session, and whose tool finds `args`. -/
def Launch.Joins (rshcmd key chk : Str) (env : Env) (args : List Str) (l : Launch) : Prop :=
  ∃ env' c', lmonMwInitArgs rshcmd env (.ofArgs l.argv) = some (none, env', c') ∧ c'.Presents args ∧
    Knows key chk env'

/-- Each spawner starts one daemon on each host. -/
theorem headhost_colocLaunches {n : ℕ} (host : Fin (n + 1) → CString) (ss : List Spawner) :
    (colocLaunches host ss).map Launch.headhost = ss.flatMap fun _ => (List.ofFn host).map chars := by
  have hline : ∀ (before : List CString) (ss : List Spawner),
      ((colocLines before ss).flatMap fun _ => (List.ofFn host).map chars) =
        ss.flatMap fun _ => (List.ofFn host).map chars := by
    intro before ss
    induction ss generalizing before with
    | nil => rfl
    | cons s ss ih => rw [colocLines_cons, List.flatMap_cons, List.flatMap_cons, ih]
  rw [colocLaunches, List.map_flatMap, ← hline []]
  refine List.flatMap_congr fun line _ => ?_
  rw [List.map_ofFn, List.map_ofFn]
  rfl

/-- A request to run beside the back-end daemons is for the hosts of the process table. -/
theorem hosts_of_coloc {pMap : Proctable} {r : DistRequest} {s : Spawner} (h : r.spawner pMap = .ok s)
    (hcoloc : s.coloc = true) : s.hosts = pMap.keys := by
  unfold DistRequest.spawner at h
  split at h
  · split at h
    · cases h
      rfl
    · cases h
  · split at h
    · cases h
    · split at h
      · cases h
      · split at h
        · split at h
          · split at h
            · cases h
              cases hcoloc
            · cases h
          · cases h
        · cases h

/-- The daemons join, whatever of their arguments has come through. -/
theorem joins_of_mem (rshcmd : Str) (hkey : chars sec.ssec = sharedsecOpt key)
    (hchk : chars sec.secchk = secchkOpt chk) {own : List Spawner} (hplain : ∀ s ∈ own, PlainColoc s) {n : ℕ}
    {host : Fin (n + 1) → CString} {env : Fin (n + 1) → Env} (henv : ∀ i, Knows key chk (env i)) {l : Launch}
    (hl : l ∈ colocLaunches host (own.map (Spawner.secured sec))) :
    ∃ (i : Fin (n + 1)) (k : Fin own.length), l.headhost = chars (host i) ∧ l.Joins rshcmd key chk (env i)
      ((own[k].daemonPath :: toolArgs sec (own.take (k + 1))).map chars) := by
  obtain ⟨line, hline, hl⟩ := List.mem_flatMap.mp hl
  obtain ⟨i, rfl⟩ := List.mem_ofFn.mp hl
  obtain ⟨⟨k, hk'⟩, rfl⟩ := List.mem_ofFn.mp hline
  have hk : k < own.length := hk'.trans_eq (List.length_map _)
  refine ⟨i, ⟨k, hk⟩, rfl, ?_⟩
  have hplain' : ∀ s ∈ own.take (k + 1), ∀ a ∈ s.daemonArgs, PlainArg (chars a) := fun s hs =>
    (hplain s (List.mem_of_mem_take hs)).args
  obtain ⟨hcount, hlen⟩ := miscounts_arrivedArgs hkey hchk hplain'
  have hargs : ∀ a ∈ (arrivedArgs sec (own.take (k + 1))).map chars,
      PlainArg a ∨ a = sharedsecOpt key ∨ a = secchkOpt chk := by
    intro a ha
    obtain ⟨b, hb, rfl⟩ := List.mem_map.mp ha
    exact plain_of_arrived hkey hchk hplain' hb
  obtain ⟨env', c', hrun, hc', hknows⟩ := colocDaemon_init rshcmd (chars own[k].daemonPath) hargs (by
    rw [hcount, List.length_map]
    exact hlen) (henv i)
  have hchars : (((own.map (Spawner.secured sec))[k].daemonPath ::
      ([] ++ ((own.map (Spawner.secured sec)).take (k + 1)).flatMap arrived)).map chars) =
      chars own[k].daemonPath :: (arrivedArgs sec (own.take (k + 1))).map chars := by
    rw [List.nil_append, ← List.map_take, List.flatMap_map, List.map_cons]
    simp only [List.getElem_map]
    rfl
  refine ⟨env', c', ?_, ?_, hknows⟩
  · dsimp only [Fin.getElem_fin]
    rw [hchars]
    exact hrun
  · rw [hcount, List.length_map, ← List.map_take] at hc'
    exact hc'

end

/-- A session whose job runs on two hosts. -/
def twoNodes : Desc :=
  { Desc.init with pMap := ((∅ : Proctable).insert (.letter 0) []).insert (.letter 1) [] }

/-- A request to run there. -/
def besideBackend : MwCall where
  req := [{ hostlistRequest [] with
    md := 1, mwDaemonPath := .letter 3, dArgv := [.letter 4] }]
  nreq := 1
  handshake := .ok

/-- Its spawner, as it is told to spawn. -/
def besideSpawner : Spawner where
  coloc := true
  daemonPath := .letter 3
  daemonArgs := [.letter 4]
  hosts := [.letter 0, .letter 1]

/-- The message to the back end. -/
def besideMsg : Msg :=
  let req := SpawnerColoc.ofSpawner 3 (besideSpawner.secured sampleSec)
  ⟨setMsgHeader .fetobe FeToBeMsg.febeAssistMwColoc.ctorIdx 0 0 0 0 0 (UInt32.ofNat req.plsize) 0, req.lmonpl⟩

/-- Two back-end daemons whose master finds it. -/
def besideJob : Backend.Job 1 where
  calls _ := wellCalls
  hosts _ := []
  feed :=
    { headers := fun _ => (true, besideMsg.hdr)
      payloads := fun _ => some besideMsg.payload
      sent := fun _ => true }

/-- The hosts of the two. -/
def besideHost (i : Fin 2) : CString := .letter i

end LaunchMON.Middleware
