/-
  The options that LaunchMON puts behind the arguments of a daemon, and how the daemon takes them off
  again: `LMON_daemon_internal_init` of `lmon_daemon_internal.cxx`, in front of it for the middleware
  `LMON_mw_daemon_internal_init` of `lmon_mw.cxx`, and `LMON_assist_ICCL_MW_init` of `lmon_fe.cxx` and
  `execute_rsh` of `sdbg_rsh_spawner.cxx` for the order.

  Both functions COUNT the options wherever they stand, and then TRUNCATE the vector by the count.  That
  takes off the options as long as they are the last ones, and as long as nothing else is counted.

    (1) A command line presents a list of arguments if `argc` is their number and `argv` has them and a
        `NULL` behind them.  What is behind the `NULL` does not matter, and the second function finds
        there what the first one has left.
    (2) The scan of a line that presents `args` is a fold over `args` (`eachArg_eq`).
    (3) To strip `n` leaves a line that presents `args` without the last `n` (`strip_eq`).  All writes
        stay within the vector: the last one goes to the slot of the old `NULL`.
    (4) So the tool sees its arguments if and only if the count is the number of the appended options
        (`daemon_commandline`).

  The count is wrong for an argument such as `-xlmonsecchk=1`: the test of `LMON_daemon_internal_init`
  looks at the first character and at what begins at the third one.  The second one has to be there,
  but need not be a dash.
-/
import LaunchMON.Middleware.Spawner
import Mathlib.Data.List.Infix
import Mathlib.Logic.Function.Basic

namespace LaunchMON.Middleware

open CText

/-! ## The vector -/

/-- `argc` and the slots of `argv`; a slot without a string is `NULL`. -/
structure CmdLine where
  argc : ℕ
  argv : List (Option Str)

/-- The vector that `main` gets. -/
def CmdLine.ofArgs (args : List Str) : CmdLine where
  argc := args.length
  argv := args.map some ++ [none]

/-- `nargv[i]`, if it is a string. -/
def CmdLine.arg (c : CmdLine) (i : ℕ) : Option Str := c.argv[i]?.join

/-- `nargv[i] = x`, which must not be behind the vector. -/
def putSlot (argv : List (Option Str)) (i : ℕ) (x : Option Str) : Option (List (Option Str)) :=
  if i < argv.length then some (argv.set i x) else none

/-- The loop `for (i = 1; i < (*argc); ++i)` over the strings. -/
def CmdLine.eachArg {σ : Type} (c : CmdLine) (body : σ → Str → Option σ) (s : σ) : Option σ :=
  (List.range' 1 (c.argc - 1)).foldlM (fun s i => do body s (← c.arg i)) s

/-- `"LMONNOOP%d=%d"`. -/
def lmonNoop (i : ℕ) : Str := "LMONNOOP".toList ++ decimal i ++ ['='] ++ decimal i

/-- The end of both functions: `(*argc) -= n_lmonopt`, a `NULL` there, and a filler in each slot behind
    it. -/
def CmdLine.strip (c : CmdLine) (nLmonopt : ℕ) : Option CmdLine := do
  let argc := c.argc - nLmonopt
  let argv ← putSlot c.argv argc none
  let argv ← (List.range' 1 nLmonopt).foldlM (fun argv i => putSlot argv (argc + i) (some (lmonNoop i)))
    argv
  return { argc := argc, argv := argv }

/-! ## The options -/

/-- The variables of the environment. -/
abbrev Env := Str → Option Str

/-- `TOOL_SS_ENV`. -/
def toolSsEnv : Str := "LMON_SHARED_SECRET".toList

/-- `TOOL_SCH_ENV`. -/
def toolSchEnv : Str := "LMON_SEC_CHK".toList

/-- What `LMON_daemon_internal_init` looks for behind the first two characters. -/
def lmonsharedsec : Str := "lmonsharedsec=".toList

/-- See `lmonsharedsec`. -/
def lmonsecchk : Str := "lmonsecchk=".toList

/-- The body of the loop of `LMON_daemon_internal_init`: the environment and `n_lmonopt`. -/
def exportOpt (s : Env × ℕ) (arg : Str) : Env × ℕ :=
  if arg.headD '\x00' = '-' ∧ arg.drop 1 ≠ [] then
    if lmonsharedsec.isPrefixOf (arg.drop 2) then
      (Function.update s.1 toolSsEnv (some ((arg.drop 2).drop 14)), s.2 + 1)
    else if lmonsecchk.isPrefixOf (arg.drop 2) then
      (Function.update s.1 toolSchEnv (some ((arg.drop 2).drop 11)), s.2 + 1)
    else s
  else s

/-- `LMON_daemon_internal_init`, up to the command line. -/
def lmonDaemonInternalInit (env : Env) (c : CmdLine) : Option (Env × CmdLine) := do
  let s ← c.eachArg (fun s arg => some (exportOpt s arg)) (env, 0)
  let c ← c.strip s.2
  return (s.1, c)

section

variable (rshcmd : Str)

/-- The body of the loop of `LMON_mw_daemon_internal_init`: `daemon_spawner` and `n_lmonopt`. -/
def takeSpawner (c : CmdLine) (s : Option SpawnerRsh × ℕ) (arg : Str) : Option (Option SpawnerRsh × ℕ) :=
  if isRshspawnerOpt arg then do
    let prog ← c.arg 0
    return (some (.ofHostlist rshcmd prog [] (arg.drop (1 + lmonRshspawnerOpt.length))), s.2 + 1)
  else some s

/-- `LMON_mw_daemon_internal_init`, with the command line. -/
def lmonMwInternalInit (c : CmdLine) : Option (Option SpawnerRsh × CmdLine) := do
  let s ← c.eachArg (takeSpawner rshcmd c) (none, 0)
  let c ← c.strip s.2
  return (s.1, c)

/-- `LMON_mw_init`, what it does to the command line: the two functions one behind the other. -/
def lmonMwInitArgs (env : Env) (c : CmdLine) : Option (Option SpawnerRsh × Env × CmdLine) := do
  let (spawner, c) ← lmonMwInternalInit rshcmd c
  let (env, c) ← lmonDaemonInternalInit env c
  return (spawner, env, c)

end

/-- `"--lmonsharedsec=%s"`. -/
def sharedsecOpt (sec : Str) : Str := "--".toList ++ lmonsharedsec ++ sec

/-- `"--lmonsecchk=%d"`. -/
def secchkOpt (chk : Str) : Str := "--".toList ++ lmonsecchk ++ chk

/-- `"--lmon-rsh=hosts"`. -/
def rshOpt (hosts : Str) : Str := lmonRshspawnerOpt ++ ['='] ++ hosts

/-- `LMON_assist_ICCL_MW_init` for one spawner: the two options at the end of its daemon arguments. -/
def SpawnerRsh.assist (s : SpawnerRsh) (sec chk : Str) : SpawnerRsh :=
  { s with daemonArgs := s.daemonArgs ++ [sharedsecOpt sec, secchkOpt chk] }

/-! ## What a line presents -/

/-- The arguments in their order, and a `NULL`. -/
def CmdLine.Presents (c : CmdLine) (args : List Str) : Prop :=
  c.argc = args.length ∧ args.map some ++ [none] <+: c.argv

theorem presents_ofArgs (args : List Str) : (CmdLine.ofArgs args).Presents args :=
  ⟨rfl, List.prefix_refl _⟩

/-- A line does not present two lists. -/
theorem CmdLine.Presents.unique {c : CmdLine} {args args' : List Str} (h : c.Presents args)
    (h' : c.Presents args') : args = args' := by
  have hlen : args.length = args'.length := h.1.symm.trans h'.1
  have hlen' : (args.map some ++ [none]).length = (args'.map some ++ [none]).length := by
    simp only [List.length_append, List.length_map, hlen]
  have heq : args.map some ++ [none] = args'.map some ++ [none] :=
    (List.prefix_of_prefix_length_le h.2 h'.2 hlen'.le).eq_of_length hlen'
  have hmap : args.map some = args'.map some := List.append_cancel_right heq
  exact (List.map_inj_right fun _ _ h => Option.some.inj h).mp hmap

/-- The strings of a line are the elements of the list that it presents. -/
theorem CmdLine.Presents.arg_eq {c : CmdLine} {args : List Str} (h : c.Presents args) {i : ℕ}
    (hi : i < args.length) : c.arg i = some args[i] := by
  obtain ⟨rest, hrest⟩ := h.2
  have hslot : c.argv[i]? = some (some args[i]) := by
    rw [← hrest, List.append_assoc, List.getElem?_append_left (by rw [List.length_map]; exact hi),
      List.getElem?_map, List.getElem?_eq_getElem hi]
    rfl
  rw [CmdLine.arg, hslot]
  rfl

/-- The vector has a null pointer behind the list. -/
theorem CmdLine.Presents.length_lt {c : CmdLine} {args : List Str} (h : c.Presents args) :
    args.length < c.argv.length := by
  have hle := h.2.length_le
  rw [List.length_append, List.length_map, List.length_singleton] at hle
  omega

/-- **The scan** of a line is a fold over its arguments behind the first one. -/
theorem CmdLine.Presents.eachArg_eq {σ : Type} {c : CmdLine} {args : List Str} (h : c.Presents args)
    (body : σ → Str → Option σ) (s : σ) : c.eachArg body s = (args.drop 1).foldlM body s := by
  -- the scan from index `i` is the fold over what stands behind it; induction on how much is left
  have hscan : ∀ (n i : ℕ) (s : σ), i + n = args.length →
      (List.range' i n).foldlM (fun s i => do body s (← c.arg i)) s = (args.drop i).foldlM body s := by
    intro n
    induction n with
    | zero =>
      intro i s hi
      rw [List.drop_of_length_le (by omega)]
      rfl
    | succ n ih =>
      intro i s hi
      have hlt : i < args.length := by omega
      rw [List.range'_succ, List.foldlM_cons, List.drop_eq_getElem_cons hlt, List.foldlM_cons,
        h.arg_eq hlt]
      show (body s args[i]).bind _ = (body s args[i]).bind _
      congr 1
      funext s'
      exact ih (i + 1) s' (by omega)
  unfold CmdLine.eachArg
  rw [h.1]
  cases args with
  | nil => rfl
  | cons a as => exact hscan as.length 1 s (by rw [List.length_cons]; omega)

/-! ## Stripping -/

/-- Writes behind a prefix, within the vector. -/
theorem putSlots_prefix {p : List (Option Str)} {k : ℕ} : ∀ (is : List ℕ) (argv : List (Option Str)),
    p <+: argv → (∀ i ∈ is, p.length ≤ k + i ∧ k + i < argv.length) →
    ∃ argv', is.foldlM (fun argv i => putSlot argv (k + i) (some (lmonNoop i))) argv = some argv' ∧
      p <+: argv' := by
  intro is
  induction is with
  | nil =>
    intro argv hp _
    exact ⟨argv, rfl, hp⟩
  | cons i is ih =>
    intro argv hp his
    obtain ⟨hbehind, hin⟩ := his i List.mem_cons_self
    -- the slot lies behind `p`, so filling it leaves `p` in front
    have hset : p <+: argv.set (k + i) (some (lmonNoop i)) := by
      obtain ⟨rest, rfl⟩ := hp
      rw [List.set_append_right _ _ hbehind]
      exact List.prefix_append _ _
    obtain ⟨argv', hrun, hp'⟩ := ih _ hset fun j hj => by
      rw [List.length_set]
      exact his j (List.mem_cons_of_mem _ hj)
    refine ⟨argv', ?_, hp'⟩
    rw [List.foldlM_cons, putSlot, if_pos hin]
    exact hrun

/-- **To strip** takes the last arguments off, and writes within the vector. -/
theorem CmdLine.Presents.strip_eq {c : CmdLine} {args : List Str} (h : c.Presents args) {n : ℕ}
    (hn : n ≤ args.length) :
    ∃ c', c.strip n = some c' ∧ c'.Presents (args.take (args.length - n)) := by
  have hlen := h.length_lt
  have hput : putSlot c.argv (c.argc - n) none = some (c.argv.set (c.argc - n) none) := by
    rw [putSlot, if_pos (by rw [h.1]; omega)]
  -- the null that ends the shortened vector cuts the old one after its kept arguments
  have hkept : (args.take (args.length - n)).map some ++ [none] <+: c.argv.set (c.argc - n) none := by
    obtain ⟨rest, hrest⟩ := h.2
    have hsplit : c.argv = (args.take (args.length - n)).map some ++
        ((args.drop (args.length - n)).map some ++ [none] ++ rest) := by
      rw [← hrest, ← List.append_assoc, ← List.append_assoc, ← List.map_append, List.take_append_drop]
    have hat : ((args.take (args.length - n)).map some).length = c.argc - n := by
      rw [List.length_map, List.length_take, h.1]
      omega
    rw [hsplit, List.set_append_right _ _ hat.le, hat, Nat.sub_self]
    obtain ⟨x, xs, hx⟩ := List.exists_cons_of_ne_nil
      (show (args.drop (args.length - n)).map some ++ [none] ++ rest ≠ [] by
        rw [List.append_assoc]
        exact List.append_ne_nil_of_right_ne_nil _ (List.cons_ne_nil _ _))
    rw [hx, List.set_cons_zero, List.prefix_append_right_inj]
    exact ⟨xs, rfl⟩
  have hkeptLen : ((args.take (args.length - n)).map some ++ [none]).length = c.argc - n + 1 := by
    rw [List.length_append, List.length_map, List.length_take, List.length_singleton, h.1]
    omega
  -- the fillers go behind that null, one for each argument taken off
  obtain ⟨argv', hfill, hp⟩ := putSlots_prefix (k := c.argc - n) (List.range' 1 n) _ hkept (by
    intro i hi
    have hi' := List.mem_range'_1.mp hi
    rw [hkeptLen, List.length_set]
    have := h.1
    omega)
  refine ⟨{ argc := c.argc - n, argv := argv' }, ?_, ?_, hp⟩
  · rw [CmdLine.strip, hput, Option.bind_eq_bind, Option.bind_some, hfill]
    rfl
  · show c.argc - n = _
    rw [List.length_take, h.1]
    omega

/-! ## What is counted -/

/-- An argument that begins like an option of LaunchMON. -/
def BeginsLikeOption (arg : Str) : Prop :=
  sharedsecOpt [] <+: arg ∨ secchkOpt [] <+: arg ∨ lmonRshspawnerOpt <+: arg

/-- An argument that is counted as an option of LaunchMON because of what begins at its third
    character. -/
def Miscounted (arg : Str) : Prop :=
  arg.headD '\x00' = '-' ∧ arg.drop 1 ≠ [] ∧
    (lmonsharedsec <+: arg.drop 2 ∨ lmonsecchk <+: arg.drop 2)

instance : DecidablePred BeginsLikeOption := fun arg =>
  inferInstanceAs (Decidable (sharedsecOpt [] <+: arg ∨ secchkOpt [] <+: arg ∨ lmonRshspawnerOpt <+: arg))

instance : DecidablePred Miscounted := fun arg =>
  inferInstanceAs (Decidable (arg.headD '\x00' = '-' ∧ arg.drop 1 ≠ [] ∧
    (lmonsharedsec <+: arg.drop 2 ∨ lmonsecchk <+: arg.drop 2)))

theorem exportOpt_of_not {arg : Str} (h : ¬Miscounted arg) (s : Env × ℕ) : exportOpt s arg = s := by
  unfold exportOpt
  split
  · next hdash =>
    rw [if_neg, if_neg]
    · intro hsec
      exact h ⟨hdash.1, hdash.2, Or.inr (List.isPrefixOf_iff_prefix.mp hsec)⟩
    · intro hsec
      exact h ⟨hdash.1, hdash.2, Or.inl (List.isPrefixOf_iff_prefix.mp hsec)⟩
  · rfl

theorem exportOpt_count {arg : Str} (h : Miscounted arg) (s : Env × ℕ) :
    (exportOpt s arg).2 = s.2 + 1 := by
  obtain ⟨hminus, hsecond, hopt⟩ := h
  unfold exportOpt
  rw [if_pos ⟨hminus, hsecond⟩]
  split
  · rfl
  · next hshared =>
    have hchk : lmonsecchk <+: arg.drop 2 := by
      rcases hopt with h | h
      · exact absurd (List.isPrefixOf_iff_prefix.mpr h) hshared
      · exact h
    rw [if_pos (List.isPrefixOf_iff_prefix.mpr hchk)]

theorem exportOpt_sharedsec (s : Env × ℕ) (sec : Str) :
    exportOpt s (sharedsecOpt sec) = (Function.update s.1 toolSsEnv (some sec), s.2 + 1) := by
  have hdrop : (sharedsecOpt sec).drop 2 = lmonsharedsec ++ sec := rfl
  unfold exportOpt
  rw [hdrop, if_pos ⟨rfl, by rintro ⟨⟩⟩, if_pos (List.isPrefixOf_iff_prefix.mpr (List.prefix_append _ _))]
  rfl

theorem exportOpt_secchk (s : Env × ℕ) (chk : Str) :
    exportOpt s (secchkOpt chk) = (Function.update s.1 toolSchEnv (some chk), s.2 + 1) := by
  have hdrop : (secchkOpt chk).drop 2 = lmonsecchk ++ chk := rfl
  unfold exportOpt
  rw [hdrop, if_pos ⟨rfl, by rintro ⟨⟩⟩, if_neg (by rintro ⟨⟩),
    if_pos (List.isPrefixOf_iff_prefix.mpr (List.prefix_append _ _))]
  rfl

/-- What the scan counts among the arguments of the user. -/
def miscounts (user : List Str) : ℕ := user.countP fun a => decide (Miscounted a)

/-- The scan over the arguments of the user: the count. -/
theorem foldl_exportOpt_count (user : List Str) : ∀ s : Env × ℕ,
    (user.foldl exportOpt s).2 = s.2 + miscounts user := by
  induction user with
  | nil =>
    intro s
    rfl
  | cons a user ih =>
    intro s
    rw [List.foldl_cons, ih, miscounts, miscounts, List.countP_cons]
    by_cases ha : Miscounted a
    · rw [exportOpt_count ha, if_pos (decide_eq_true ha)]
      omega
    · rw [exportOpt_of_not ha, if_neg (by rw [decide_eq_true_iff]; exact ha)]
      omega

/-! ## The two functions -/

/-- `LMON_daemon_internal_init` on arguments with the two options behind them: the variables hold the
    values of the options, and as many arguments are lost as have been miscounted. -/
theorem lmonDaemonInternalInit_spec {c : CmdLine} {prog : Str} {user : List Str} {sec chk : Str}
    (h : c.Presents (prog :: user ++ [sharedsecOpt sec, secchkOpt chk])) (env : Env) :
    ∃ env' c', lmonDaemonInternalInit env c = some (env', c') ∧
      c'.Presents ((prog :: user).take (user.length + 1 - miscounts user)) ∧
      env' toolSsEnv = some sec ∧ env' toolSchEnv = some chk := by
  have hscan : c.eachArg (fun s arg => some (exportOpt s arg)) (env, 0) =
      some ((user ++ [sharedsecOpt sec, secchkOpt chk]).foldl exportOpt (env, 0)) := by
    rw [h.eachArg_eq]
    exact List.foldlM_pure
  obtain ⟨env₁, n₁, huser⟩ : ∃ env₁ n₁, user.foldl exportOpt (env, 0) = (env₁, n₁) := ⟨_, _, rfl⟩
  -- the user's own arguments may be counted too: those are the ones lost besides the two options
  have hcount : n₁ = miscounts user := by
    have := foldl_exportOpt_count user (env, 0)
    rw [huser] at this
    exact this.trans (Nat.zero_add _)
  have hle : miscounts user ≤ user.length := List.countP_le_length
  have hlen : (prog :: user ++ [sharedsecOpt sec, secchkOpt chk]).length = user.length + 3 := by
    rw [List.length_append, List.length_cons]
    rfl
  obtain ⟨c', hstrip, hpresents⟩ := h.strip_eq (n := n₁ + 2) (by omega)
  refine ⟨Function.update (Function.update env₁ toolSsEnv (some sec)) toolSchEnv (some chk), c',
    ?_, ?_, ?_, ?_⟩
  · unfold lmonDaemonInternalInit
    rw [hscan, List.foldl_append, huser, List.foldl_cons, exportOpt_sharedsec, List.foldl_cons,
      exportOpt_secchk, List.foldl_nil, Option.bind_eq_bind, Option.bind_some]
    dsimp only
    rw [hstrip]
    rfl
  · rw [hlen, List.take_append_of_le_length (by rw [List.length_cons]; omega)] at hpresents
    have hkept : user.length + 3 - (n₁ + 2) = user.length + 1 - miscounts user := by omega
    rw [← hkept]
    exact hpresents
  · rw [Function.update_of_ne (by decide), Function.update_self]
  · rw [Function.update_self]

section

variable {rshcmd : Str}

/-- `LMON_mw_daemon_internal_init` on any line: its spawner is the one of `lmonMwDaemonInternalInit`, and
    it takes off as many arguments as are options for hosts. -/
theorem lmonMwInternalInit_eq {c : CmdLine} {prog : Str} {args : List Str}
    (h : c.Presents (prog :: args)) :
    ∃ c', lmonMwInternalInit rshcmd c = some (lmonMwDaemonInternalInit rshcmd (prog :: args), c') ∧
      c'.Presents ((prog :: args).take (args.length + 1 - args.countP isRshspawnerOpt)) := by
  have hprog : c.arg 0 = some prog := h.arg_eq (Nat.succ_pos _)
  -- the last matching option builds the spawner, and every one of them is counted off the vector
  have hscan : ∀ (as : List Str) (s : Option SpawnerRsh × ℕ),
      as.foldlM (takeSpawner rshcmd c) s = some (as.foldl (fun daemonSpawner arg =>
        if isRshspawnerOpt arg then
          some (.ofHostlist rshcmd prog [] (arg.drop (1 + lmonRshspawnerOpt.length)))
        else daemonSpawner) s.1, s.2 + as.countP isRshspawnerOpt) := by
    intro as
    induction as with
    | nil =>
      intro s
      rfl
    | cons a as ih =>
      intro s
      rw [List.foldlM_cons, List.foldl_cons, List.countP_cons, takeSpawner]
      by_cases ha : isRshspawnerOpt a = true
      · rw [if_pos ha, if_pos ha, if_pos ha, hprog, Option.bind_eq_bind, Option.bind_eq_bind,
          Option.bind_some]
        refine (ih _).trans ?_
        rw [Nat.add_right_comm, Nat.add_assoc]
      · rw [if_neg ha, if_neg ha, if_neg ha]
        exact ih s
  have hle : args.countP isRshspawnerOpt ≤ args.length := List.countP_le_length
  obtain ⟨c', hstrip, hc'⟩ := h.strip_eq (n := 0 + args.countP isRshspawnerOpt)
    (by rw [List.length_cons]; omega)
  refine ⟨c', ?_, ?_⟩
  · unfold lmonMwInternalInit
    rw [h.eachArg_eq, List.drop_one, List.tail_cons, hscan, Option.bind_eq_bind, Option.bind_some]
    dsimp only
    rw [hstrip]
    rfl
  · rw [Nat.zero_add, List.length_cons] at hc'
    exact hc'

/-- `LMON_mw_daemon_internal_init` on arguments with the option for the hosts behind them. -/
theorem lmonMwInternalInit_spec {c : CmdLine} {prog : Str} {args : List Str} {hosts : Str}
    (h : c.Presents (prog :: args ++ [rshOpt hosts])) (hargs : ∀ a ∈ args, isRshspawnerOpt a = false) :
    ∃ c', lmonMwInternalInit rshcmd c = some (some (.ofHostlist rshcmd prog [] hosts), c') ∧
      c'.Presents (prog :: args) := by
  have hopt : isRshspawnerOpt (rshOpt hosts) = true := by
    unfold isRshspawnerOpt
    rw [decide_eq_true_iff, rshOpt, List.append_assoc]
    exact ⟨rfl, by rintro ⟨⟩, List.isPrefixOf_iff_prefix.mpr (List.prefix_append _ _)⟩
  have hcount : (args ++ [rshOpt hosts]).countP isRshspawnerOpt = 1 := by
    rw [List.countP_append, List.countP_singleton, if_pos hopt,
      List.countP_eq_zero.mpr fun a ha => by rw [hargs a ha]; exact Bool.noConfusion]
  obtain ⟨c', hrun, hc'⟩ := @lmonMwInternalInit_eq rshcmd _ _ (args ++ [rshOpt hosts]) h
  refine ⟨c', ?_, ?_⟩
  · rw [hrun, ← List.cons_append]
    exact congrArg (fun s => some (s, c')) (init_argv prog args hosts)
  · have hkept : (prog :: args ++ [rshOpt hosts]).take (args.length + 1) = prog :: args :=
      List.take_left' List.length_cons
    rw [hcount, List.length_append, List.length_singleton, Nat.add_sub_cancel, ← List.cons_append,
      hkept] at hc'
    exact hc'

/-- The argument of a host list, as `spawn` makes it. -/
def hostsText (hosts : List Str) : Str :=
  if hosts = [] then lmonNoHost else [lmonHostDelim].intercalate hosts

/-- What `LMON_assist_ICCL_MW_init` and `execute_rsh` make of a spawner: the program, the arguments of
    the user, the two options and the option for the hosts, in this order. -/
theorem argv_executeRsh (s : SpawnerRsh) (sec chk headhost : Str) {start stop : ℕ}
    (hstop : stop ≤ s.hosts.length) :
    ((s.assist sec chk).executeRsh headhost (hostsArg s.hosts start stop)).argv =
      s.daemonPath :: s.daemonArgs ++ [sharedsecOpt sec, secchkOpt chk] ++
        [rshOpt (hostsText (segment s.hosts start stop))] := by
  rw [hostsArg_eq hstop]
  rfl

/-! ## The command line of the tool -/

/-- What a tool is to find: its arguments, and the two values in the environment. -/
def Served (env : Env) (c : CmdLine) (args : List Str) (sec chk : Str) : Prop :=
  c.Presents args ∧ env toolSsEnv = some sec ∧ env toolSchEnv = some chk

/-- Arguments are kept if and only if none is miscounted. -/
theorem presents_take_iff {c : CmdLine} {prog : Str} {user : List Str}
    (h : c.Presents ((prog :: user).take (user.length + 1 - miscounts user))) :
    c.Presents (prog :: user) ↔ ∀ a ∈ user, ¬Miscounted a := by
  have hle : miscounts user ≤ user.length := List.countP_le_length
  have hzero : miscounts user = 0 ↔ ∀ a ∈ user, ¬Miscounted a := by
    unfold miscounts
    rw [List.countP_eq_zero]
    simp only [decide_eq_true_iff]
  rw [← hzero]
  constructor
  · intro h'
    have hlen := congrArg List.length (h.unique h')
    rw [List.length_take, List.length_cons] at hlen
    omega
  · intro hnone
    rw [hnone, Nat.sub_zero, List.take_of_length_le (by rw [List.length_cons])] at h
    exact h

theorem isRshspawnerOpt_of_not {arg : Str} (h : ¬BeginsLikeOption arg) : isRshspawnerOpt arg = false := by
  rw [← Bool.not_eq_true]
  intro hopt
  obtain ⟨-, -, hp⟩ := of_decide_eq_true hopt
  exact h (Or.inr (Or.inr (List.isPrefixOf_iff_prefix.mp hp)))

theorem isRshspawnerOpt_sharedsecOpt (sec : Str) : isRshspawnerOpt (sharedsecOpt sec) = false :=
  decide_eq_false fun h => Bool.noConfusion h.2.2

theorem isRshspawnerOpt_secchkOpt (chk : Str) : isRshspawnerOpt (secchkOpt chk) = false :=
  decide_eq_false fun h => Bool.noConfusion h.2.2

/-- **The command line of a daemon**: for arguments that do not begin like an option, followed by the
    options of LaunchMON, both sequences of functions run within the vector; the tool finds its arguments
    and the values if and only if none of the arguments is miscounted; and the middleware's spawner gets
    the text of its option, which is read back as the list that has been written. -/
theorem daemon_commandline (prog : Str) (user : List Str) (huser : ∀ a ∈ user, ¬BeginsLikeOption a)
    (sec chk hosts : Str) (env : Env) :
    (∃ env' c', lmonDaemonInternalInit env
        (.ofArgs (prog :: user ++ [sharedsecOpt sec, secchkOpt chk])) = some (env', c') ∧
      (Served env' c' (prog :: user) sec chk ↔ ∀ a ∈ user, ¬Miscounted a)) ∧
    ∃ spawner env' c', lmonMwInitArgs rshcmd env
        (.ofArgs (prog :: user ++ [sharedsecOpt sec, secchkOpt chk, rshOpt hosts])) =
          some (some spawner, env', c') ∧
      spawner = .ofHostlist rshcmd prog [] hosts ∧
      (∀ l : List Str, (∀ h ∈ l, GoodHost h) → hosts = hostsText l → spawner.hosts = l) ∧
      (Served env' c' (prog :: user) sec chk ↔ ∀ a ∈ user, ¬Miscounted a) := by
  have hserved : ∀ c : CmdLine, c.Presents (prog :: user ++ [sharedsecOpt sec, secchkOpt chk]) →
      ∃ env' c', lmonDaemonInternalInit env c = some (env', c') ∧
        (Served env' c' (prog :: user) sec chk ↔ ∀ a ∈ user, ¬Miscounted a) := by
    intro c hc
    obtain ⟨env', c', hrun, hc', hss, hsch⟩ := lmonDaemonInternalInit_spec hc env
    refine ⟨env', c', hrun, ?_⟩
    rw [← presents_take_iff hc']
    exact ⟨fun h => h.1, fun h => ⟨h, hss, hsch⟩⟩
  refine ⟨hserved _ (presents_ofArgs _), ?_⟩
  -- neither security option begins like the spawner's, so only the last argument is taken
  have hargs : ∀ a ∈ user ++ [sharedsecOpt sec, secchkOpt chk], isRshspawnerOpt a = false := by
    intro a ha
    rcases List.mem_append.mp ha with ha | ha
    · exact isRshspawnerOpt_of_not (huser a ha)
    · rcases List.mem_pair.mp ha with rfl | rfl
      · exact isRshspawnerOpt_sharedsecOpt sec
      · exact isRshspawnerOpt_secchkOpt chk
  have hline : prog :: user ++ [sharedsecOpt sec, secchkOpt chk, rshOpt hosts] =
      prog :: (user ++ [sharedsecOpt sec, secchkOpt chk]) ++ [rshOpt hosts] := by
    simp only [List.cons_append, List.append_assoc, List.nil_append]
  have hpresents := presents_ofArgs (prog :: user ++ [sharedsecOpt sec, secchkOpt chk, rshOpt hosts])
  rw [hline] at hpresents ⊢
  obtain ⟨c₁, hmw, hc₁⟩ := @lmonMwInternalInit_spec rshcmd _ _ _ _ hpresents hargs
  -- with it gone, the daemon's own initialisation sees the same line as in the first part
  obtain ⟨env', c', hrun, hiff⟩ := hserved c₁ hc₁
  refine ⟨_, env', c', ?_, rfl, ?_, hiff⟩
  · unfold lmonMwInitArgs
    rw [hmw, Option.bind_eq_bind, Option.bind_some]
    dsimp only
    rw [hrun]
    rfl
  · intro l hgood hl
    rw [hl]
    exact hosts_ofHostlist hgood prog []

end

/-- Two arguments of a user, neither of which is counted. -/
theorem daemon_commandline_two :
    (∃ env' c', lmonDaemonInternalInit (fun _ => none)
        (.ofArgs ("toold".toList :: ["-v".toList, "--port=7".toList] ++
          [sharedsecOpt "k7".toList, secchkOpt "42".toList])) = some (env', c') ∧
      (Served env' c' ("toold".toList :: ["-v".toList, "--port=7".toList]) "k7".toList "42".toList ↔
        ∀ a ∈ ["-v".toList, "--port=7".toList], ¬Miscounted a)) ∧
    ∃ spawner env' c', lmonMwInitArgs "rsh".toList (fun _ => none)
        (.ofArgs ("toold".toList :: ["-v".toList, "--port=7".toList] ++
          [sharedsecOpt "k7".toList, secchkOpt "42".toList, rshOpt "n1:n2".toList])) =
          some (some spawner, env', c') ∧
      spawner = .ofHostlist "rsh".toList "toold".toList [] "n1:n2".toList ∧
      (∀ l : List Str, (∀ h ∈ l, GoodHost h) → "n1:n2".toList = hostsText l → spawner.hosts = l) ∧
      (Served env' c' ("toold".toList :: ["-v".toList, "--port=7".toList]) "k7".toList "42".toList ↔
        ∀ a ∈ ["-v".toList, "--port=7".toList], ¬Miscounted a) :=
  daemon_commandline _ _ (by decide) _ _ _ _

/-- An argument with a letter where an option has its second dash: the tool loses it. -/
theorem daemon_commandline_counterexample :
    ¬∀ (prog : Str) (user : List Str), (∀ a ∈ user, ¬BeginsLikeOption a) →
      ∀ (sec chk : Str) (env : Env), ∃ env' c', lmonDaemonInternalInit env
        (.ofArgs (prog :: user ++ [sharedsecOpt sec, secchkOpt chk])) = some (env', c') ∧
      Served env' c' (prog :: user) sec chk := by
  intro h
  obtain ⟨env', c', hrun, hpresents, -⟩ := h "toold".toList ["-xlmonsecchk=1".toList] (by decide)
    "k7".toList "42".toList (fun _ => none)
  have hargc : (lmonDaemonInternalInit (fun _ => none)
      (.ofArgs ("toold".toList :: ["-xlmonsecchk=1".toList] ++
        [sharedsecOpt "k7".toList, secchkOpt "42".toList]))).map (fun r => r.2.argc) = some 1 := by
    decide +kernel
  rw [hrun] at hargc
  exact absurd (hpresents.1.symm.trans (Option.some.inj hargc)) (by decide)

end LaunchMON.Middleware
