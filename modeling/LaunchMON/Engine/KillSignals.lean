/-
  The signals that kill a resource manager: `fill_kill_singals`, `resolve_signal` and `graceful_rmkill`
  of `sdbg_rm_map.cxx`.

  The configuration has the names of the signals in one string, with bars between them.

  1. **The loop** looks for the next bar from `ix` on, resolves what is in front of it, and goes on
     behind it.  But the second argument of `substr` is a length, and the code gives it the position of
     the bar.  The two are the same for the first name only; the last one goes to the end of the string
     in any case.

  2. **What comes of it** (`fillLoop_behind`).  Each name between the first and the last is read with at
     least one character too many, and that character is a bar.  No signal has a name with a bar, so
     all of them are resolved to -1.

  3. **When this is right** (`killSignals_iff`): exactly if none of the names between the first and the
     last is one that `resolve_signal` knows.
-/
import LaunchMON.Lib.Strings

namespace LaunchMON.Engine

open CText

/-! ## The code -/

/-- `resource_manager_t`, as far as it is about killing. -/
structure ResourceManager where
  killSignals : List ℤ
  deriving DecidableEq

/-- `resolve_signal`. -/
def resolveSignal (v : Str) : ℤ :=
  if v = "SIGINT".toList then 2 else if v = "SIGTERM".toList then 15 else -1

/-- `v.find_first_of("|", ix)`; `none` is `npos`. -/
def findFirstBar (v : Str) (ix : ℕ) : Option ℕ := ((v.drop ix).findIdx? (· = '|')).map (ix + ·)

/-- `v.substr(ix, n)`, where `none` is `npos`. -/
def substr (v : Str) (ix : ℕ) (n : Option ℕ) : Str := n.elim (v.drop ix) fun n => (v.drop ix).take n

/-- The loop of `fill_kill_singals`, and the name behind it, for at most `fuel` names. -/
def fillLoop (v : Str) : ℕ → ℕ → List ℤ → Option (List ℤ)
  | 0, _, _ => none
  | fuel + 1, ix, killSignals =>
    match findFirstBar v ix with
    | some ix2 => fillLoop v fuel (ix2 + 1) (killSignals ++ [resolveSignal (substr v ix (some ix2))])
    | none => some (killSignals ++ [resolveSignal (substr v ix none)])

/-- `fill_kill_singals`.  A string has at most one bar for each of its characters. -/
def ResourceManager.fillKillSingals (rm : ResourceManager) (v : Str) : Option ResourceManager :=
  (fillLoop v (v.length + 1) 0 rm.killSignals).map ResourceManager.mk

/-- `graceful_rmkill`: its result, and the calls of `kill`. -/
def ResourceManager.gracefulRmkill (rm : ResourceManager) (pid : ℤ) : Bool × List (ℤ × ℤ) :=
  if pid < 0 then (false, []) else (true, rm.killSignals.map fun i => (pid, i))

/-! ## The names -/

/-- The names of the configuration. -/
def signalNames (v : Str) : List Str := v.splitOn '|'

/-- The names between the first and the last. -/
def innerNames (v : Str) : List Str := (signalNames v).tail.dropLast

/-- A string is one name, or a name and the string behind the bar. -/
theorem first_bar (v : Str) : '|' ∉ v ∨ ∃ name rest, v = name ++ '|' :: rest ∧ '|' ∉ name := by
  by_cases hmem : '|' ∈ v
  · obtain ⟨name, rest, rfl, hname⟩ := List.eq_append_cons_of_mem hmem
    exact Or.inr ⟨name, rest, rfl, hname⟩
  · exact Or.inl hmem

theorem findFirstBar_none {front rest : Str} (h : '|' ∉ rest) :
    findFirstBar (front ++ rest) front.length = none := by
  rw [findFirstBar, List.drop_left, findIdx?_absent h, Option.map_none]

theorem findFirstBar_some {front name : Str} (h : '|' ∉ name) (rest : Str) :
    findFirstBar (front ++ (name ++ '|' :: rest)) front.length = some (front.length + name.length) := by
  rw [findFirstBar, List.drop_left, findIdx?_behind h, Option.map_some]

/-- No signal has a name with a bar. -/
theorem resolveSignal_bar {v : Str} (h : '|' ∈ v) : resolveSignal v = -1 := by
  unfold resolveSignal
  rw [if_neg, if_neg]
  · rintro rfl
    exact absurd h (by decide)
  · rintro rfl
    exact absurd h (by decide)

/-! ## The loop -/

/-- **Behind the first bar** each name but the last is resolved to -1.  What is read of it goes on to
    the bar behind it, because `ix` is not zero any more. -/
theorem fillLoop_behind (v : Str) : ∀ (fuel : ℕ) (front rest : Str) (killSignals : List ℤ),
    v = front ++ rest → front ≠ [] → rest.length < fuel → ∃ inner last,
      signalNames rest = inner ++ [last] ∧ fillLoop v fuel front.length killSignals =
        some (killSignals ++ (inner.map (fun _ => -1) ++ [resolveSignal last])) := by
  intro fuel
  induction fuel with
  | zero =>
    intro front rest killSignals _ _ hfuel
    exact absurd hfuel (Nat.not_lt_zero _)
  | succ fuel ih =>
    intro front rest killSignals hv hne hfuel
    rcases first_bar rest with hno | ⟨name, rest, rfl, hname⟩
    · refine ⟨[], rest, List.splitOn_eq_singleton hno, ?_⟩
      rw [fillLoop, hv, findFirstBar_none hno]
      show some (killSignals ++ [resolveSignal ((front ++ rest).drop front.length)]) = _
      rw [List.drop_left]
      rfl
    · have hpos : 0 < front.length := List.length_pos_iff.mpr hne
      have hread : '|' ∈ substr v front.length (some (front.length + name.length)) := by
        show '|' ∈ (v.drop front.length).take (front.length + name.length)
        obtain ⟨k, hk⟩ : ∃ k, front.length = k + 1 := ⟨front.length - 1, by omega⟩
        rw [hv, List.drop_left, Nat.add_comm, List.take_length_add_append, hk, List.take_succ_cons]
        exact List.mem_append_right _ List.mem_cons_self
      rw [List.length_append, List.length_cons] at hfuel
      obtain ⟨inner, last, hnames, hloop⟩ := ih (front ++ name ++ ['|']) rest (killSignals ++ [-1])
        (by rw [hv, List.append_assoc, List.append_assoc]; rfl) (by simp) (by omega)
      refine ⟨name :: inner, last, ?_, ?_⟩
      · rw [signalNames, List.splitOn_append_cons_self_of_not_mem hname]
        exact congrArg (name :: ·) hnames
      · have hlen : (front ++ name ++ ['|']).length = front.length + name.length + 1 := by
          rw [List.length_append, List.length_append]
          rfl
        rw [hlen] at hloop
        rw [fillLoop, hv, findFirstBar_some hname, ← hv]
        dsimp only
        rw [resolveSignal_bar hread, hloop, List.append_assoc]
        rfl

/-- **What the code makes of a string**: one signal for one name; else the first and the last as they
    are, and -1 for each between them. -/
theorem fillKillSingals_eq (rm : ResourceManager) (v : Str) :
    (∃ name, signalNames v = [name] ∧
        rm.fillKillSingals v = some ⟨rm.killSignals ++ [resolveSignal name]⟩) ∨
      ∃ first inner last, signalNames v = first :: (inner ++ [last]) ∧ rm.fillKillSingals v =
        some ⟨rm.killSignals ++ (resolveSignal first :: (inner.map (fun _ => -1) ++ [resolveSignal last]))⟩ := by
  unfold ResourceManager.fillKillSingals
  rw [fillLoop]
  rcases first_bar v with hno | ⟨name, rest, rfl, hname⟩
  · refine Or.inl ⟨v, List.splitOn_eq_singleton hno, ?_⟩
    rw [show findFirstBar v 0 = none from @findFirstBar_none [] v hno]
    rfl
  · have hbar : findFirstBar (name ++ '|' :: rest) 0 = some name.length := by
      have h := @findFirstBar_some [] name hname rest
      rwa [List.nil_append, List.length_nil, Nat.zero_add] at h
    have hread : substr (name ++ '|' :: rest) 0 (some name.length) = name := List.take_left
    obtain ⟨inner, last, hnames, hloop⟩ := fillLoop_behind (name ++ '|' :: rest)
      (name ++ '|' :: rest).length (name ++ ['|']) rest (rm.killSignals ++ [resolveSignal name])
      (by rw [List.append_assoc]; rfl) (by simp) (by simp; omega)
    refine Or.inr ⟨name, inner, last, ?_, ?_⟩
    · rw [signalNames, List.splitOn_append_cons_self_of_not_mem hname]
      exact congrArg (name :: ·) hnames
    · have hlen : (name ++ ['|']).length = name.length + 1 := List.length_append
      rw [hlen] at hloop
      rw [hbar]
      dsimp only
      rw [hread, hloop, List.append_assoc]
      rfl

/-! ## The signals that are asked for -/

/-- The manager has been told the signals of a string, and sends them. -/
structure KillsWith (rm : ResourceManager) (v : Str) : Prop where
  filled : rm.fillKillSingals v = some ⟨rm.killSignals ++ (signalNames v).map resolveSignal⟩
  sends : ∀ pid, 0 ≤ pid → (rm.fillKillSingals v).map (fun rm => rm.gracefulRmkill pid) =
    some (true, (rm.killSignals ++ (signalNames v).map resolveSignal).map fun i => (pid, i))

theorem killsWith_of_filled {rm : ResourceManager} {v : Str}
    (h : rm.fillKillSingals v = some ⟨rm.killSignals ++ (signalNames v).map resolveSignal⟩) :
    KillsWith rm v := by
  refine ⟨h, fun pid hpid => ?_⟩
  rw [h, Option.map_some, ResourceManager.gracefulRmkill, if_neg (by omega)]

/-- **Which strings are understood**: those in which no name between the first and the last is one of a
    signal that `resolve_signal` knows. -/
theorem killSignals_iff (rm : ResourceManager) (v : Str) :
    KillsWith rm v ↔ ∀ name ∈ innerNames v, name ≠ "SIGINT".toList ∧ name ≠ "SIGTERM".toList := by
  have hunknown : ∀ name, resolveSignal name = -1 ↔
      name ≠ "SIGINT".toList ∧ name ≠ "SIGTERM".toList := by
    intro name
    unfold resolveSignal
    split
    · next h => exact iff_of_false (by decide) fun hn => hn.1 h
    · next hint =>
      split
      · next h => exact iff_of_false (by decide) fun hn => hn.2 h
      · next hterm => exact iff_of_true rfl ⟨hint, hterm⟩
  rcases fillKillSingals_eq rm v with ⟨name, hnames, hfill⟩ | ⟨first, inner, last, hnames, hfill⟩
  · refine iff_of_true (killsWith_of_filled (by rw [hfill, hnames]; rfl)) ?_
    intro n hn
    rw [innerNames, hnames] at hn
    exact absurd hn List.not_mem_nil
  · have hinner : innerNames v = inner := by
      rw [innerNames, hnames, List.tail_cons, List.dropLast_concat]
    rw [hinner]
    constructor
    · intro h
      have hfilled := h.filled
      rw [hfill, hnames] at hfilled
      simp only [List.map_cons, List.map_append, List.map_nil, Option.some.injEq,
        ResourceManager.mk.injEq, List.append_cancel_left_eq, List.cons.injEq, true_and,
        List.append_cancel_right_eq, List.map_inj_left] at hfilled
      exact fun name hname => (hunknown name).mp (hfilled name hname).symm
    · intro h
      refine killsWith_of_filled ?_
      have hmap : inner.map (fun _ => (-1 : ℤ)) = inner.map resolveSignal :=
        List.map_congr_left fun name hname => ((hunknown name).mpr (h name hname)).symm
      rw [hfill, hnames, hmap, List.map_cons, List.map_append]
      rfl

/-- Three signals, of which the second is lost. -/
theorem killSignals_counterexample :
    (ResourceManager.mk []).fillKillSingals "SIGINT|SIGTERM|SIGINT".toList = some ⟨[2, -1, 2]⟩ ∧
      (signalNames "SIGINT|SIGTERM|SIGINT".toList).map resolveSignal = [2, 15, 2] ∧
      ¬KillsWith (ResourceManager.mk []) "SIGINT|SIGTERM|SIGINT".toList := by
  have hfill : (ResourceManager.mk []).fillKillSingals "SIGINT|SIGTERM|SIGINT".toList =
      some ⟨[2, -1, 2]⟩ := by decide
  have hnames : (signalNames "SIGINT|SIGTERM|SIGINT".toList).map resolveSignal = [2, 15, 2] := by decide
  refine ⟨hfill, hnames, fun h => ?_⟩
  have hfilled := h.filled
  rw [hfill, hnames] at hfilled
  exact absurd hfilled (by decide)

end LaunchMON.Engine
