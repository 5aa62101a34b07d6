/-
  Process control of the back end: `LMON_be_procctl_init` stops the processes of a daemon and
  `LMON_be_procctl_initdone` lets go of them.

  1. **The calls.**  With slurm and flux the processes of a job that is being launched are attached with
     ptrace and waited for, and the others get a SIGSTOP.  A run is the list of the system calls it makes
     with their answers.  What the operating system answers is given as one stream for each kind of call
     and each entry of the process table.

  2. **The loop around waitpid.**  It ends when waitpid returns the process, and only then: an error
     other than EINTR makes the return code LMON_EINVAL and does not leave the loop.  So it ends exactly
     when one of the answers is a success (`waitLoop_sound`, `waitLoop_returns`), and the code is what it
     was exactly when everything before that answer is an EINTR.

  3. **What is undone.**  The first call takes every value of `islaunch` but 0 for a launch, and the
     second only 1.  A process that was attached under another value stays attached.

  4. **The result.**  Both calls keep their promises exactly under `Undoable` (`procctl_undone_iff`).
-/
import LaunchMON.Engine.RmConfig
import LaunchMON.Lmonp.Proctab

namespace LaunchMON.Backend.Procctl

open Engine.RmConfig Lmonp

/-! ## System calls -/

/-- The system calls of this layer. -/
inductive Request
  | attach | wait | sigstop | detach
  deriving DecidableEq, Repr

/-- How a system call ends: with a success, with EINTR, or with another error. -/
inductive Answer
  | ok | eintr | error
  deriving DecidableEq, Repr

/-- The operating system: its answer to the `k`-th call of a kind for entry `i`.  Signals do not
    interrupt a call for ever. -/
structure Os where
  answer : Request → ℕ → ℕ → Answer
  interrupts : ∀ r i k, ∃ j, k ≤ j ∧ answer r i j ≠ .eintr

/-- A system call for an entry of the table, with the process id it is made for. -/
structure Call where
  req : Request
  entry : ℕ
  pid : Int32
  answer : Answer
  deriving DecidableEq

/-- What a function of this layer leaves behind. -/
structure Run where
  rc : LmonRc
  calls : List Call

/-- An entry of the process table, and its place. -/
abbrev Entry := ProcdescExt × ℕ

/-- `ptab[0]`, …, `ptab[psize - 1]`. -/
def entries (ptab : List ProcdescExt) : List Entry := ptab.zipIdx

/-- The call `r` for `e` is among the calls of the run and was answered by `a`. -/
def Run.Did (run : Run) (r : Request) (e : Entry) (a : Answer) : Prop :=
  ⟨r, e.2, e.1.pid, a⟩ ∈ run.calls

/-! ## Generic and ptrace -/

/-- `while (waitpid(pid, &status, 0) != pid)`, with the code that is kept meanwhile and the answers.
    EINTR goes around without a trace, any other error goes around with LMON_EINVAL. -/
def waitLoop : (ℕ → Answer) → ℕ → LmonRc → Option (LmonRc × List Answer)
  | _, 0, _ => none
  | answer, fuel + 1, err =>
    match answer 0 with
    | .ok => some (err, [.ok])
    | .eintr => (waitLoop (fun k => answer (k + 1)) fuel err).map fun r => (r.1, .eintr :: r.2)
    | .error => (waitLoop (fun k => answer (k + 1)) fuel .einval).map fun r => (r.1, .error :: r.2)

/-- The loop of `LMON_be_procctl_init_ptrace`. -/
def attachLoop (os : Os) (fuel : ℕ) : List Entry → LmonRc → Option Run
  | [], err => some ⟨err, []⟩
  | e :: es, err =>
    match os.answer .attach e.2 0 with
    | .ok => do
      let waited ← waitLoop (os.answer .wait e.2) fuel err
      let rest ← attachLoop os fuel es waited.1
      some ⟨rest.rc,
        ⟨.attach, e.2, e.1.pid, .ok⟩ :: (waited.2.map (Call.mk .wait e.2 e.1.pid) ++ rest.calls)⟩
    | a => do
      -- `local_cond` is LMON_EINVAL, so nothing is waited for
      let rest ← attachLoop os fuel es .einval
      some ⟨rest.rc, ⟨.attach, e.2, e.1.pid, a⟩ :: rest.calls⟩

/-- `LMON_be_procctl_init_ptrace`. -/
def lmonBeProcctlInitPtrace (os : Os) (fuel : ℕ) (ptab : List ProcdescExt) : Option Run :=
  attachLoop os fuel (entries ptab) .ok

/-- One call for every entry; a failure is kept as LMON_EINVAL.  The loops around kill and around
    PTRACE_DETACH. -/
def sendLoop (os : Os) (r : Request) : List Entry → LmonRc → Run
  | [], rc => ⟨rc, []⟩
  | e :: es, rc =>
    let a := os.answer r e.2 0
    let rest := sendLoop os r es (if a = .ok then rc else .einval)
    ⟨rest.rc, ⟨r, e.2, e.1.pid, a⟩ :: rest.calls⟩

/-- `LMON_be_procctl_stop_generic`. -/
def lmonBeProcctlStopGeneric (os : Os) (ptab : List ProcdescExt) : Run :=
  sendLoop os .sigstop (entries ptab) .ok

/-- `LMON_be_procctl_init_generic`. -/
def lmonBeProcctlInitGeneric (os : Os) (ptab : List ProcdescExt) : Run :=
  lmonBeProcctlStopGeneric os ptab

/-- `LMON_be_procctl_initdone_generic`. -/
def lmonBeProcctlInitdoneGeneric : Run := ⟨.ok, []⟩

/-- The loop of `LMON_be_procctl_initdone_ptrace` that takes the trap events. -/
def harvestLoop (os : Os) (fuel : ℕ) : List Entry → LmonRc → Option Run
  | [], rc => some ⟨rc, []⟩
  | e :: es, rc => do
    let waited ← waitLoop (os.answer .wait e.2) fuel rc
    let rest ← harvestLoop os fuel es waited.1
    some ⟨rest.rc, waited.2.map (Call.mk .wait e.2 e.1.pid) ++ rest.calls⟩

/-- The lines of `LMON_be_procctl_initdone_ptrace` that are there if LMON_SLURM_MPAO_WR is defined. -/
def harvest (mpaoWr : Bool) (os : Os) (fuel : ℕ) (ptab : List ProcdescExt) : Option Run :=
  if mpaoWr then harvestLoop os fuel (entries ptab) .ok else some ⟨.ok, []⟩

/-- `LMON_be_procctl_initdone_ptrace`. -/
def lmonBeProcctlInitdonePtrace (mpaoWr : Bool) (os : Os) (fuel : ℕ) (ptab : List ProcdescExt) :
    Option Run := do
  let harvested ← harvest mpaoWr os fuel ptab
  -- the code of the stop is not looked at
  let stopped := lmonBeProcctlStopGeneric os ptab
  let detached := sendLoop os .detach (entries ptab) harvested.rc
  some ⟨detached.rc, harvested.calls ++ stopped.calls ++ detached.calls⟩

/-! ## The choice by the resource manager -/

/-- How the library was built and what the code for the Blue Gene systems does, which has files of its
    own. -/
structure Site where
  mpaoWr : Bool
  initBg : List ProcdescExt → Int32 → Option Run
  initBgq : List ProcdescExt → Int32 → Option Run
  initdoneBg : List ProcdescExt → Int32 → Option Run
  initdoneBgq : List ProcdescExt → Int32 → Option Run

/-- `dontstop_fastpath` after `LMON_be_procctl_init` has looked at its argument. -/
def fastpath (dontstopFastpath dontstop : Int32) : Int32 :=
  if dontstop = 0 ∨ dontstop = 1 then dontstop else dontstopFastpath

/-- `LMON_be_procctl_init`. -/
def lmonBeProcctlInit (site : Site) (dontstopFastpath : Int32) (rmtype : RmCatalogue) (os : Os)
    (fuel : ℕ) (ptab : List ProcdescExt) (islaunch dontstop : Int32) : Option Run :=
  match rmtype with
  | .slurm | .flux =>
    if islaunch ≠ 0 then lmonBeProcctlInitPtrace os fuel ptab
    else some (lmonBeProcctlInitGeneric os ptab)
  | .orte | .alps | .cray | .gupc | .mpiexecHydra => some (lmonBeProcctlInitGeneric os ptab)
  | .bglrm | .bgprm => site.initBg ptab islaunch
  | .bgqrm | .bgqSlurm =>
    if fastpath dontstopFastpath dontstop ≠ 0 then some ⟨.ok, []⟩ else site.initBgq ptab islaunch
  | .mcheckerRm | .bgrm | .none => some ⟨.einval, []⟩

/-- `LMON_be_procctl_initdone`. -/
def lmonBeProcctlInitdone (site : Site) (dontstopFastpath : Int32) (rmtype : RmCatalogue) (os : Os)
    (fuel : ℕ) (ptab : List ProcdescExt) (islaunch : Int32) : Option Run :=
  match rmtype with
  | .slurm | .flux =>
    if islaunch = 1 then lmonBeProcctlInitdonePtrace site.mpaoWr os fuel ptab
    else some lmonBeProcctlInitdoneGeneric
  | .orte | .alps | .cray | .gupc | .mpiexecHydra => some lmonBeProcctlInitdoneGeneric
  | .bglrm | .bgprm => site.initdoneBg ptab islaunch
  | .bgqrm | .bgqSlurm =>
    if dontstopFastpath ≠ 0 then some ⟨.ok, []⟩ else site.initdoneBgq ptab islaunch
  | .mcheckerRm | .bgrm | .none => some ⟨.einval, []⟩

/-! ## The loop around waitpid -/

/-- Some call succeeds. -/
def Answered (answer : ℕ → Answer) : Prop := ∃ k, answer k = .ok

/-- Some call succeeds, and the calls before it were interrupted. -/
def Clean (answer : ℕ → Answer) : Prop := ∃ k, answer k = .ok ∧ ∀ j, j < k → answer j = .eintr

theorem answered_tail {answer : ℕ → Answer} (h : answer 0 ≠ .ok) :
    Answered answer ↔ Answered fun k => answer (k + 1) := by
  constructor
  · rintro ⟨k, hk⟩
    cases k with
    | zero => exact absurd hk h
    | succ k => exact ⟨k, hk⟩
  · rintro ⟨k, hk⟩
    exact ⟨k + 1, hk⟩

theorem clean_of_ok {answer : ℕ → Answer} (h : answer 0 = .ok) : Clean answer :=
  ⟨0, h, fun j hj => absurd hj (Nat.not_lt_zero j)⟩

theorem clean_tail {answer : ℕ → Answer} (h : answer 0 = .eintr) :
    Clean answer ↔ Clean fun k => answer (k + 1) := by
  constructor
  · rintro ⟨k, hk, hbefore⟩
    cases k with
    | zero => exact absurd (h.symm.trans hk) (by decide)
    | succ k => exact ⟨k, hk, fun j hj => hbefore (j + 1) (by omega)⟩
  · rintro ⟨k, hk, hbefore⟩
    refine ⟨k + 1, hk, ?_⟩
    intro j hj
    cases j with
    | zero => exact h
    | succ j => exact hbefore j (by omega)

theorem not_clean_of_error {answer : ℕ → Answer} (h : answer 0 = .error) : ¬Clean answer := by
  rintro ⟨k, hk, hbefore⟩
  cases k with
  | zero => exact absurd (h.symm.trans hk) (by decide)
  | succ k => exact absurd (h.symm.trans (hbefore 0 (by omega))) (by decide)

theorem Clean.answered {answer : ℕ → Answer} (h : Clean answer) : Answered answer := by
  obtain ⟨k, hk, -⟩ := h
  exact ⟨k, hk⟩

/-- A loop that ends has had a success, which is its last answer, and keeps the code exactly when it has
    seen nothing else but interruptions. -/
theorem waitLoop_sound : ∀ (fuel : ℕ) (answer : ℕ → Answer) (err : LmonRc) (r : LmonRc × List Answer),
    waitLoop answer fuel err = some r →
      Answered answer ∧ .ok ∈ r.2 ∧ (r.1 = .ok ↔ err = .ok ∧ Clean answer) := by
  intro fuel
  induction fuel with
  | zero =>
    intro answer err r h
    cases h
  | succ fuel ih =>
    intro answer err r h
    unfold waitLoop at h
    split at h
    · rename_i hok
      cases h
      exact ⟨⟨0, hok⟩, List.mem_singleton.mpr rfl, (and_iff_left (clean_of_ok hok)).symm⟩
    -- interrupted: the wait is made again and the code is kept
    · rename_i hintr
      obtain ⟨r, hr, rfl⟩ := Option.map_eq_some_iff.mp h
      obtain ⟨hans, hmem, hrc⟩ := ih _ _ _ hr
      refine ⟨(answered_tail (by rw [hintr]; decide)).mpr hans, List.mem_cons_of_mem _ hmem, ?_⟩
      rw [clean_tail hintr]
      exact hrc
    -- an error is kept in the code, but the loop still goes round until a wait succeeds
    · rename_i herror
      obtain ⟨r, hr, rfl⟩ := Option.map_eq_some_iff.mp h
      obtain ⟨hans, hmem, hrc⟩ := ih _ _ _ hr
      refine ⟨(answered_tail (by rw [herror]; decide)).mpr hans, List.mem_cons_of_mem _ hmem, ?_⟩
      constructor
      · intro hok
        exact absurd (hrc.mp hok).1 (by decide)
      · rintro ⟨-, hclean⟩
        exact absurd hclean (not_clean_of_error herror)

/-- More fuel changes nothing. -/
theorem waitLoop_mono : ∀ (fuel m : ℕ), fuel ≤ m → ∀ (answer : ℕ → Answer) (err : LmonRc)
    (r : LmonRc × List Answer), waitLoop answer fuel err = some r → waitLoop answer m err = some r := by
  intro fuel
  induction fuel with
  | zero =>
    intro m hm answer err r h
    cases h
  | succ fuel ih =>
    intro m hm answer err r h
    obtain ⟨m, rfl⟩ : ∃ n, m = n + 1 := ⟨m - 1, by omega⟩
    have hle : fuel ≤ m := by omega
    unfold waitLoop at h ⊢
    split at h
    · exact h
    · obtain ⟨r, hr, rfl⟩ := Option.map_eq_some_iff.mp h
      exact Option.map_eq_some_iff.mpr ⟨r, ih m hle _ _ _ hr, rfl⟩
    · obtain ⟨r, hr, rfl⟩ := Option.map_eq_some_iff.mp h
      exact Option.map_eq_some_iff.mpr ⟨r, ih m hle _ _ _ hr, rfl⟩

/-- One success ends the loop. -/
theorem waitLoop_returns : ∀ (k : ℕ) (answer : ℕ → Answer) (err : LmonRc), answer k = .ok →
    ∃ r, waitLoop answer (k + 1) err = some r := by
  intro k
  induction k with
  | zero =>
    intro answer err h
    unfold waitLoop
    rw [h]
    exact ⟨_, rfl⟩
  | succ k ih =>
    intro answer err h
    unfold waitLoop
    split
    · exact ⟨_, rfl⟩
    · obtain ⟨r, hr⟩ := ih (fun j => answer (j + 1)) err h
      exact ⟨_, Option.map_eq_some_iff.mpr ⟨r, hr, rfl⟩⟩
    · obtain ⟨r, hr⟩ := ih (fun j => answer (j + 1)) .einval h
      exact ⟨_, Option.map_eq_some_iff.mpr ⟨r, hr, rfl⟩⟩

/-! ## The loops over the table -/

theorem sendLoop_rc (os : Os) (r : Request) : ∀ (es : List Entry) (rc : LmonRc),
    (sendLoop os r es rc).rc = .ok ↔ rc = .ok ∧ ∀ e ∈ es, os.answer r e.2 0 = .ok := by
  intro es
  induction es with
  | nil =>
    intro rc
    exact (and_iff_left fun e he => absurd he List.not_mem_nil).symm
  | cons e es ih =>
    intro rc
    show (sendLoop os r es _).rc = .ok ↔ _
    rw [ih, List.forall_mem_cons]
    by_cases h : os.answer r e.2 0 = .ok
    · rw [if_pos h, and_iff_right h]
    · rw [if_neg h]
      exact iff_of_false (fun hrc => absurd hrc.1 (by decide)) fun hrc => h hrc.2.1

/-- Every entry is sent to, and nothing else. -/
theorem sendLoop_calls (os : Os) (r : Request) : ∀ (es : List Entry) (rc : LmonRc),
    (sendLoop os r es rc).calls = es.map fun e => ⟨r, e.2, e.1.pid, os.answer r e.2 0⟩ := by
  intro es
  induction es with
  | nil =>
    intro rc
    rfl
  | cons e es ih =>
    intro rc
    exact congrArg (_ :: ·) (ih _)

theorem sendLoop_did (os : Os) (r : Request) {es : List Entry} {e : Entry} (he : e ∈ es) (rc : LmonRc)
    (a : Answer) : (sendLoop os r es rc).Did r e a ↔ os.answer r e.2 0 = a := by
  unfold Run.Did
  rw [sendLoop_calls, List.mem_map]
  constructor
  · rintro ⟨e', -, h⟩
    obtain ⟨-, hplace, -, ha⟩ := Call.mk.inj h
    rw [← ha, hplace]
  · rintro rfl
    exact ⟨e, he, rfl⟩

/-- What a finished run of the loop around PTRACE_ATTACH has done. -/
structure Attached (os : Os) (es : List Entry) (err : LmonRc) (run : Run) : Prop where
  answered : ∀ e ∈ es, os.answer .attach e.2 0 = .ok → Answered (os.answer .wait e.2)
  code : run.rc = .ok ↔
    err = .ok ∧ ∀ e ∈ es, os.answer .attach e.2 0 = .ok ∧ Clean (os.answer .wait e.2)
  did : ∀ e ∈ es, run.Did .attach e (os.answer .attach e.2 0)
  waited : ∀ e ∈ es, os.answer .attach e.2 0 = .ok → run.Did .wait e .ok
  honest : ∀ c ∈ run.calls, c.req = .attach → c.answer = os.answer .attach c.entry 0

/-- A finished run of the loop around PTRACE_ATTACH has attached what could be attached, and has
    collected the stop of everything it has attached. -/
theorem attachLoop_sound (os : Os) (fuel : ℕ) : ∀ (es : List Entry) (err : LmonRc) (run : Run),
    attachLoop os fuel es err = some run → Attached os es err run := by
  intro es
  induction es with
  | nil =>
    intro err run h
    cases h
    have hnone : ∀ {P : Entry → Prop}, ∀ e ∈ ([] : List Entry), P e :=
      fun e he => absurd he List.not_mem_nil
    exact ⟨hnone, (and_iff_left hnone).symm, hnone, hnone, fun c hc => absurd hc List.not_mem_nil⟩
  | cons e es ih =>
    intro err run h
    unfold attachLoop at h
    split at h
    -- attached: the waits for this task come before everything the rest of the loop does
    · rename_i hok
      obtain ⟨waited, hwait, h⟩ := Option.bind_eq_some_iff.mp h
      obtain ⟨rest, hrest, h⟩ := Option.bind_eq_some_iff.mp h
      cases h
      obtain ⟨hans, hmem, hrc⟩ := waitLoop_sound _ _ _ _ hwait
      have hes := ih _ _ hrest
      have hbehind : ∀ c ∈ rest.calls, c ∈ (⟨.attach, e.2, e.1.pid, .ok⟩ : Call) ::
          (waited.2.map (Call.mk .wait e.2 e.1.pid) ++ rest.calls) :=
        fun c hc => List.mem_cons_of_mem _ (List.mem_append_right _ hc)
      constructor
      case answered => exact List.forall_mem_cons.mpr ⟨fun _ => hans, hes.answered⟩
      case code =>
        show rest.rc = .ok ↔ _
        rw [hes.code, hrc, List.forall_mem_cons, and_iff_right hok, and_assoc]
      case did =>
        refine List.forall_mem_cons.mpr ⟨?_, fun e' he' => hbehind _ (hes.did e' he')⟩
        rw [hok]
        exact List.mem_cons_self
      case waited =>
        refine List.forall_mem_cons.mpr
          ⟨fun _ => ?_, fun e' he' hat => hbehind _ (hes.waited e' he' hat)⟩
        exact List.mem_cons_of_mem _ (List.mem_append_left _ (List.mem_map_of_mem hmem))
      case honest =>
        intro c hc hreq
        rcases List.mem_cons.mp hc with rfl | hc
        · exact hok.symm
        · rcases List.mem_append.mp hc with hc | hc
          · obtain ⟨a, -, rfl⟩ := List.mem_map.mp hc
            exact absurd (show Request.wait = .attach from hreq) (by decide)
          · exact hes.honest c hc hreq
    -- not attached: nothing is waited for, and LMON_EINVAL is kept to the end
    · rename_i hfail
      obtain ⟨rest, hrest, h⟩ := Option.bind_eq_some_iff.mp h
      cases h
      have hes := ih _ _ hrest
      constructor
      case answered => exact List.forall_mem_cons.mpr ⟨fun hok => absurd hok hfail, hes.answered⟩
      case code =>
        refine iff_of_false (fun hrc => ?_) fun hrc => hfail (hrc.2 e List.mem_cons_self).1
        exact absurd (hes.code.mp hrc).1 (by decide)
      case did =>
        exact List.forall_mem_cons.mpr
          ⟨List.mem_cons_self, fun e' he' => List.mem_cons_of_mem _ (hes.did e' he')⟩
      case waited =>
        exact List.forall_mem_cons.mpr ⟨fun hok => absurd hok hfail,
          fun e' he' hat => List.mem_cons_of_mem _ (hes.waited e' he' hat)⟩
      case honest =>
        intro c hc hreq
        rcases List.mem_cons.mp hc with rfl | hc
        · rfl
        · exact hes.honest c hc hreq

/-- The loop ends if every process that is attached answers some waitpid. -/
theorem attachLoop_returns (os : Os) : ∀ (es : List Entry) (err : LmonRc),
    (∀ e ∈ es, os.answer .attach e.2 0 = .ok → Answered (os.answer .wait e.2)) →
      ∃ fuel, ∀ m, fuel ≤ m → ∃ run, attachLoop os m es err = some run := by
  intro es
  induction es with
  | nil =>
    intro err h
    exact ⟨0, fun m hm => ⟨_, rfl⟩⟩
  | cons e es ih =>
    intro err h
    obtain ⟨hhead, htail⟩ := List.forall_mem_cons.mp h
    by_cases hok : os.answer .attach e.2 0 = .ok
    · obtain ⟨k, hk⟩ := hhead hok
      obtain ⟨waited, hwait⟩ := waitLoop_returns k _ err hk
      obtain ⟨fuel, hfuel⟩ := ih waited.1 htail
      -- enough for this task's waits and for the rest of the table
      refine ⟨max (k + 1) fuel, ?_⟩
      intro m hm
      obtain ⟨rest, hrest⟩ := hfuel m (by omega)
      unfold attachLoop
      rw [hok]
      show ∃ run, (waitLoop _ m err).bind _ = some run
      rw [waitLoop_mono _ m (by omega) _ _ _ hwait, Option.bind_some, hrest]
      exact ⟨_, rfl⟩
    · obtain ⟨fuel, hfuel⟩ := ih .einval htail
      refine ⟨fuel, ?_⟩
      intro m hm
      obtain ⟨rest, hrest⟩ := hfuel m hm
      unfold attachLoop
      split
      · rename_i h
        exact absurd h hok
      · rw [hrest]
        exact ⟨_, rfl⟩

theorem harvestLoop_sound (os : Os) (fuel : ℕ) : ∀ (es : List Entry) (rc : LmonRc) (run : Run),
    harvestLoop os fuel es rc = some run → ∀ e ∈ es, Answered (os.answer .wait e.2) := by
  intro es
  induction es with
  | nil =>
    intro rc run h e he
    exact absurd he List.not_mem_nil
  | cons e es ih =>
    intro rc run h
    unfold harvestLoop at h
    obtain ⟨waited, hwait, h⟩ := Option.bind_eq_some_iff.mp h
    obtain ⟨rest, hrest, -⟩ := Option.bind_eq_some_iff.mp h
    exact List.forall_mem_cons.mpr ⟨(waitLoop_sound _ _ _ _ hwait).1, ih _ _ hrest⟩

theorem harvestLoop_returns (os : Os) : ∀ (es : List Entry) (rc : LmonRc),
    (∀ e ∈ es, Answered (os.answer .wait e.2)) →
      ∃ fuel, ∀ m, fuel ≤ m → ∃ run, harvestLoop os m es rc = some run := by
  intro es
  induction es with
  | nil =>
    intro rc h
    exact ⟨0, fun m hm => ⟨_, rfl⟩⟩
  | cons e es ih =>
    intro rc h
    obtain ⟨⟨k, hk⟩, htail⟩ := List.forall_mem_cons.mp h
    obtain ⟨waited, hwait⟩ := waitLoop_returns k _ rc hk
    obtain ⟨fuel, hfuel⟩ := ih waited.1 htail
    refine ⟨max (k + 1) fuel, ?_⟩
    intro m hm
    obtain ⟨rest, hrest⟩ := hfuel m (by omega)
    unfold harvestLoop
    show ∃ run, (waitLoop _ m rc).bind _ = some run
    rw [waitLoop_mono _ m (by omega) _ _ _ hwait, Option.bind_some, hrest]
    exact ⟨_, rfl⟩

/-- `LMON_be_procctl_initdone_ptrace` sends a SIGSTOP and a PTRACE_DETACH for every entry, once it gets
    past its waits. -/
theorem initdonePtrace_did {mpaoWr : Bool} {os : Os} {fuel : ℕ} {ptab : List ProcdescExt} {run : Run}
    (h : lmonBeProcctlInitdonePtrace mpaoWr os fuel ptab = some run) :
    ∀ e ∈ entries ptab, (∃ a, run.Did .sigstop e a) ∧ ∃ a, run.Did .detach e a := by
  unfold lmonBeProcctlInitdonePtrace at h
  obtain ⟨harvested, -, h⟩ := Option.bind_eq_some_iff.mp h
  cases h
  intro e he
  have hstop := (sendLoop_did os .sigstop he .ok _).mpr rfl
  have hdetach := (sendLoop_did os .detach he harvested.rc _).mpr rfl
  exact ⟨⟨_, List.mem_append_left _ (List.mem_append_right _ hstop)⟩,
    ⟨_, List.mem_append_right _ hdetach⟩⟩

theorem initdonePtrace_returns_iff (mpaoWr : Bool) (os : Os) (ptab : List ProcdescExt) :
    (∃ fuel run, lmonBeProcctlInitdonePtrace mpaoWr os fuel ptab = some run) ↔
      (mpaoWr = true → ∀ e ∈ entries ptab, Answered (os.answer .wait e.2)) := by
  constructor
  · rintro ⟨fuel, run, h⟩ rfl
    unfold lmonBeProcctlInitdonePtrace at h
    obtain ⟨harvested, hharvest, -⟩ := Option.bind_eq_some_iff.mp h
    exact harvestLoop_sound os fuel _ _ _ hharvest
  · intro h
    cases mpaoWr with
    | false => exact ⟨0, _, rfl⟩
    | true =>
      obtain ⟨fuel, hfuel⟩ := harvestLoop_returns os (entries ptab) .ok (h rfl)
      obtain ⟨harvested, hharvest⟩ := hfuel fuel le_rfl
      exact ⟨fuel, _, Option.bind_eq_some_iff.mpr ⟨harvested, hharvest, rfl⟩⟩

/-! ## The result -/

/-- The resource managers whose launches are attached with ptrace. -/
abbrev PtraceRm := { rmtype : RmCatalogue // rmtype = .slurm ∨ rmtype = .flux }

theorem init_eq (site : Site) (dontstopFastpath : Int32) (rm : PtraceRm) (os : Os) (fuel : ℕ)
    (ptab : List ProcdescExt) (islaunch dontstop : Int32) :
    lmonBeProcctlInit site dontstopFastpath rm.1 os fuel ptab islaunch dontstop =
      if islaunch ≠ 0 then lmonBeProcctlInitPtrace os fuel ptab
      else some (lmonBeProcctlInitGeneric os ptab) := by
  obtain ⟨rmtype, rfl | rfl⟩ := rm
  · rfl
  · rfl

theorem initdone_eq (site : Site) (dontstopFastpath : Int32) (rm : PtraceRm) (os : Os) (fuel : ℕ)
    (ptab : List ProcdescExt) (islaunch : Int32) :
    lmonBeProcctlInitdone site dontstopFastpath rm.1 os fuel ptab islaunch =
      if islaunch = 1 then lmonBeProcctlInitdonePtrace site.mpaoWr os fuel ptab
      else some lmonBeProcctlInitdoneGeneric := by
  obtain ⟨rmtype, rfl | rfl⟩ := rm
  · rfl
  · rfl

/-- What a finished call of `LMON_be_procctl_init` is to have done.  In launch mode every process is
    attached and its stop is collected, otherwise every process gets a SIGSTOP; the return code says
    whether all that went well, and a failure keeps no other process from its turn. -/
structure Stopped (ptab : List ProcdescExt) (islaunch : Int32) (run : Run) : Prop where
  code : run.rc = .ok ↔ ∀ e ∈ entries ptab,
    if islaunch ≠ 0 then run.Did .attach e .ok ∧ run.Did .wait e .ok else run.Did .sigstop e .ok
  handled : ∀ e ∈ entries ptab,
    if islaunch ≠ 0 then (∃ a, run.Did .attach e a) ∧ (run.Did .attach e .ok → run.Did .wait e .ok)
    else ∃ a, run.Did .sigstop e a

/-- `LMON_be_procctl_init` returns and keeps its promises, and `LMON_be_procctl_initdone`, called with
    the same `islaunch`, returns and lets go of what was attached.  `os` answers the first call and
    `done` the second. -/
def ControlUndone (site : Site) (dontstopFastpath : Int32) (rm : PtraceRm) (os done : Os)
    (ptab : List ProcdescExt) (islaunch dontstop : Int32) : Prop :=
  ∃ fuel run, lmonBeProcctlInit site dontstopFastpath rm.1 os fuel ptab islaunch dontstop = some run ∧
    Stopped ptab islaunch run ∧
    ∀ e ∈ entries ptab, run.Did .attach e .ok →
      ∃ fuel run', lmonBeProcctlInitdone site (fastpath dontstopFastpath dontstop) rm.1 done fuel ptab
          islaunch = some run' ∧
        (∃ a, run'.Did .sigstop e a) ∧ ∃ a, run'.Did .detach e a

/-- When launch-mode control is undone.  `stops`: a waitpid for an attached process succeeds at last.
    `clean`: where all can be attached, no waitpid reports an error before that.  `launch` and `harvest`:
    where something can be attached, `islaunch` is 1, and the waits of the second call, in a library that
    makes them, succeed at last. -/
structure Undoable (site : Site) (os done : Os) (ptab : List ProcdescExt) (islaunch : Int32) :
    Prop where
  stops : ∀ e ∈ entries ptab, os.answer .attach e.2 0 = .ok → Answered (os.answer .wait e.2)
  clean : (∀ e ∈ entries ptab, os.answer .attach e.2 0 = .ok) →
    ∀ e ∈ entries ptab, Clean (os.answer .wait e.2)
  launch : ∀ e ∈ entries ptab, os.answer .attach e.2 0 = .ok → islaunch = 1
  harvest : ∀ e ∈ entries ptab, os.answer .attach e.2 0 = .ok → site.mpaoWr = true →
    ∀ e' ∈ entries ptab, Answered (done.answer .wait e'.2)

/-- Outside launch mode every process gets its SIGSTOP, and there is nothing to undo. -/
theorem generic_undone (site : Site) (dontstopFastpath : Int32) (rm : PtraceRm) (os done : Os)
    (ptab : List ProcdescExt) (dontstop : Int32) :
    ControlUndone site dontstopFastpath rm os done ptab 0 dontstop := by
  refine ⟨0, _, init_eq site dontstopFastpath rm os 0 ptab 0 dontstop, ⟨?_, ?_⟩, ?_⟩
  · show (sendLoop os .sigstop (entries ptab) .ok).rc = .ok ↔ _
    rw [sendLoop_rc, and_iff_right rfl]
    exact forall₂_congr fun e he => (sendLoop_did os .sigstop he .ok .ok).symm
  · intro e he
    exact ⟨_, (sendLoop_did os .sigstop he .ok _).mpr rfl⟩
  · intro e he hattach
    have hmem : _ ∈ (sendLoop os .sigstop (entries ptab) .ok).calls := hattach
    rw [sendLoop_calls] at hmem
    obtain ⟨e', -, h⟩ := List.mem_map.mp hmem
    exact absurd (Call.mk.inj h).1 (by decide)

/-- What a finished run did to an entry is what the operating system answered. -/
theorem Attached.did_iff {os : Os} {es : List Entry} {err : LmonRc} {run : Run}
    (h : Attached os es err run) {e : Entry} (he : e ∈ es) :
    run.Did .attach e .ok ↔ os.answer .attach e.2 0 = .ok := by
  constructor
  · intro hdid
    exact (h.honest _ hdid rfl).symm
  · intro hok
    have hdid := h.did e he
    rwa [hok] at hdid

/-- A finished run of `LMON_be_procctl_init_ptrace` keeps all promises but one: the code is wrong if all
    could be attached and a waitpid reported an error. -/
theorem attached_stopped_iff {os : Os} {ptab : List ProcdescExt} {islaunch : Int32} {run : Run}
    (hlaunch : islaunch ≠ 0) (h : Attached os (entries ptab) .ok run) :
    Stopped ptab islaunch run ↔
      ((∀ e ∈ entries ptab, os.answer .attach e.2 0 = .ok) →
        ∀ e ∈ entries ptab, Clean (os.answer .wait e.2)) := by
  -- an attached task is always waited for, so only the attach decides
  have hcode : (∀ e ∈ entries ptab,
      if islaunch ≠ 0 then run.Did .attach e .ok ∧ run.Did .wait e .ok else run.Did .sigstop e .ok) ↔
      ∀ e ∈ entries ptab, os.answer .attach e.2 0 = .ok := by
    refine forall₂_congr fun e he => ?_
    rw [if_pos hlaunch, h.did_iff he]
    exact and_iff_left_of_imp (h.waited e he)
  constructor
  · intro hst hall e he
    exact ((h.code.mp (hst.code.mpr (hcode.mpr hall))).2 e he).2
  · intro hclean
    constructor
    case code =>
      rw [hcode, h.code, and_iff_right rfl]
      constructor
      · intro hall e he
        exact (hall e he).1
      · intro hall e he
        exact ⟨hall e he, hclean hall e he⟩
    case handled =>
      intro e he
      rw [if_pos hlaunch]
      exact ⟨⟨_, h.did e he⟩, fun hdid => h.waited e he ((h.did_iff he).mp hdid)⟩

/-- **When process control is undone.**  Outside launch mode it always is.  In launch mode it is exactly
    under `Undoable`. -/
theorem procctl_undone_iff (site : Site) (dontstopFastpath : Int32) (rm : PtraceRm) (os done : Os)
    (ptab : List ProcdescExt) (islaunch dontstop : Int32) :
    ControlUndone site dontstopFastpath rm os done ptab islaunch dontstop ↔
      (islaunch ≠ 0 → Undoable site os done ptab islaunch) := by
  constructor
  · rintro ⟨fuel, run, hinit, hst, hdone⟩ hlaunch
    rw [init_eq, if_pos hlaunch] at hinit
    have hrun := attachLoop_sound os fuel _ _ _ hinit
    -- one attached task is enough to make the release necessary, and it must then return
    have hundo : ∀ e ∈ entries ptab, os.answer .attach e.2 0 = .ok → islaunch = 1 ∧
        (site.mpaoWr = true → ∀ e' ∈ entries ptab, Answered (done.answer .wait e'.2)) := by
      intro e he hok
      obtain ⟨fuel', run', hinitdone, -, a, hdetach⟩ := hdone e he ((hrun.did_iff he).mpr hok)
      rw [initdone_eq] at hinitdone
      split at hinitdone
      · rename_i hone
        exact ⟨hone, (initdonePtrace_returns_iff _ _ _).mp ⟨fuel', run', hinitdone⟩⟩
      · cases hinitdone
        exact absurd hdetach List.not_mem_nil
    exact ⟨hrun.answered, (attached_stopped_iff hlaunch hrun).mp hst, fun e he hok => (hundo e he hok).1,
      fun e he hok => (hundo e he hok).2⟩
  · intro h
    by_cases hlaunch : islaunch = 0
    · subst hlaunch
      exact generic_undone site dontstopFastpath rm os done ptab dontstop
    · have hundo := h hlaunch
      obtain ⟨fuel, hfuel⟩ := attachLoop_returns os (entries ptab) .ok hundo.stops
      obtain ⟨run, hinit⟩ := hfuel fuel le_rfl
      have hrun := attachLoop_sound os fuel _ _ _ hinit
      refine ⟨fuel, run, ?_, (attached_stopped_iff hlaunch hrun).mpr hundo.clean, ?_⟩
      · rw [init_eq, if_pos hlaunch]
        exact hinit
      · intro e he hattach
        have hok := (hrun.did_iff he).mp hattach
        obtain ⟨fuel', run', hinitdone⟩ := (initdonePtrace_returns_iff site.mpaoWr done ptab).mpr
          (hundo.harvest e he hok)
        refine ⟨fuel', run', ?_, initdonePtrace_did hinitdone e he⟩
        rw [initdone_eq, if_pos (hundo.launch e he hok)]
        exact hinitdone

/-- An operating system that gives one answer to each kind of call. -/
def steady (answer : Request → Answer) (h : ∀ r, answer r ≠ .eintr) : Os :=
  ⟨fun r _ _ => answer r, fun r _ k => ⟨k, le_rfl, h r⟩⟩

/-- Every waitpid fails, with ECHILD say. -/
def noChild : Os := steady (fun r => if r = .wait then .error else .ok) (by intro r; cases r <;> decide)

/-- Everything succeeds. -/
def willing : Os := steady (fun _ => .ok) (fun _ => by decide)

/-- A library without LMON_SLURM_MPAO_WR, on a system that is not a Blue Gene. -/
def plain : Site := ⟨false, fun _ _ => none, fun _ _ => none, fun _ _ => none, fun _ _ => none⟩

/-- One process of a slurm job that is attached and for which waitpid keeps failing: the call does not
    return.  One process, no failure at all and 2 for `islaunch`: it is attached for ever. -/
theorem procctl_undone_counterexample :
    ¬ControlUndone plain 0 ⟨.slurm, Or.inl rfl⟩ noChild noChild
        [⟨.empty, .empty, 7, 0, 0⟩] 1 0 ∧
      ¬ControlUndone plain 0 ⟨.slurm, Or.inl rfl⟩ willing willing
        [⟨.empty, .empty, 7, 0, 0⟩] 2 0 := by
  constructor
  · rintro ⟨fuel, run, hinit, -, -⟩
    obtain ⟨k, hk⟩ := (attachLoop_sound noChild fuel _ _ _ hinit).answered _ List.mem_cons_self rfl
    exact absurd (show Answer.error = .ok from hk) (by decide)
  · rintro ⟨fuel, run, hinit, -, hdone⟩
    have hrun := attachLoop_sound willing fuel _ _ _ hinit
    obtain ⟨fuel', run', hinitdone, -, a, hdetach⟩ :=
      hdone _ List.mem_cons_self ((hrun.did_iff List.mem_cons_self).mpr rfl)
    cases hinitdone
    exact absurd hdetach List.not_mem_nil

end LaunchMON.Backend.Procctl
