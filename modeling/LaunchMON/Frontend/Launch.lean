/-
  `LMON_fe_launchAndSpawnDaemons` and `LMON_fe_attachAndSpawnDaemons`, from the engine's connection to
  the handshake with the back end, beside the watchdog thread.

  The call waits until the watchdog has the process table, and then runs
  `LMON_fe_beHandshakeSequence`, which takes three things from the descriptor: `spawned` and the
  process table when it begins, and the entry of the resource manager in the middle.  Both calls wait
  with `if` and not with `while`: the attaching one looks at `spawned` again once it has given the
  mutex back, the launching one goes on with whatever has woken it.  The resource manager comes with a
  message of its own that nobody waits for.

  The watchdog is the one of `Frontend.Watchdog`; here its handlers have their payloads.  What the
  handshake finds is kept in a log, so that a statement about every run is one about the logs.
-/
import LaunchMON.Frontend.Watchdog

namespace LaunchMON.Frontend

open Machine

/-! ## The call -/

/-- The two calls that start the engine. -/
inductive SpawnCall
  | launch
  | attach
  deriving DecidableEq, Repr

/-- Where the call stands.  In `leaving` it has the mutex and is done with the wait; in `calling` its
    next instruction enters the handshake, which in `shaking` has not come to the resource manager
    yet. -/
inductive SpawnPc
  | idle
  | entering (c : SpawnCall)
  | checking (c : SpawnCall)
  | starting (c : SpawnCall)
  | relocking (c : SpawnCall)
  | testing (c : SpawnCall)
  | parking (c : SpawnCall)
  | waiting (c : SpawnCall)
  | woken (c : SpawnCall) (late : Bool)
  | leaving (c : SpawnCall)
  | rechecking
  | calling (c : SpawnCall)
  | shaking (c : SpawnCall)
  | over (c : SpawnCall)
  deriving DecidableEq, Repr

/-- `pthread_cond_signal`. -/
def SpawnPc.signalled : SpawnPc → SpawnPc
  | .waiting c => .woken c false
  | a => a

/-- What the handshake has found: the flag and whether there is a process table, when it begins, or the
    index into the supported resource managers. -/
inductive Found
  | entry (spawned proctab : Bool)
  | rm (indexToCurInstance : Int)
  deriving DecidableEq, Repr

/-- The descriptor, the two threads, and what has been: the types in the RMINFO messages that have been
    read, and what the handshakes have found. -/
structure Launching where
  session : Session
  proctab : Bool
  rmSupportedTypes : List UInt32
  indexToCurInstance : Int
  mutex : Owner
  api : SpawnPc
  watchdog : Watchdog
  rminfos : List UInt32
  log : List Found
  deriving DecidableEq, Repr

/-- A session that has been created, on a platform with some resource managers. -/
def Launching.init (rmSupportedTypes : List UInt32) : Launching :=
  ⟨{ Session.init with registered := true }, false, rmSupportedTypes, -1, .nobody, .idle, .absent, [], []⟩

/-- `LMON_handle_rminfo_event`: its result and `index_to_cur_instance`. -/
def handleRminfo (rmSupportedTypes : List UInt32) (indexToCurInstance : Int) (read : Bool)
    (rmType : UInt32) : Bool × Int :=
  if read = false then (false, indexToCurInstance)
  else match rmSupportedTypes.findIdx? (· = rmType) with
    | some i => (true, i)
    | none => (false, indexToCurInstance)

/-! ## The steps -/

/-- What happens next; `handle` has whether the payload could be read, and the type that an RMINFO
    message has for the resource manager. -/
inductive SpawnEvent
  | call (c : SpawnCall)
  | lock
  | check
  | openEngine (ok : Bool)
  | test
  | wait (ok : Bool)
  | spurious
  | timeout
  | reacquire
  | unlock
  | recheck
  | enter
  | lookup
  | finish
  | read (m : Option FetofeType)
  | watchdogLock
  | handle (read : Bool) (rmType : UInt32)
  | watchdogUnlock
  deriving DecidableEq, Repr

/-- A move of the call.  One that has waited in vain returns with an error, and so does the handshake
    at any moment (`finish`). -/
def Launching.stepApi (s : Launching) : SpawnEvent → Option Launching
  | .call c => if s.api = .idle then some { s with api := .entering c } else none
  | .lock =>
    match s.api with
    | .entering c =>
      if s.mutex = .nobody then some { s with api := .checking c, mutex := .api } else none
    | .relocking c =>
      if s.mutex = .nobody then some { s with api := .testing c, mutex := .api } else none
    | _ => none
  | .check =>
    match s.api with
    | .checking c =>
      some { s with api := if s.session.registered then .starting c else .idle, mutex := .nobody }
    | _ => none
  | .openEngine ok =>
    match s.api with
    | .starting c =>
      if ok = false then some { s with api := .idle }
      else if s.watchdog = .absent ∨ s.watchdog = .exited then
        some { s with api := .relocking c, watchdog := .reading }
      else none
    | _ => none
  | .test =>
    match s.api with
    | .testing c => some { s with api := if s.session.spawned then .leaving c else .parking c }
    | _ => none
  | .wait ok =>
    match s.api with
    | .parking c => some { s with api := if ok then .waiting c else .idle, mutex := .nobody }
    | _ => none
  | .spurious =>
    match s.api with
    | .waiting c => some { s with api := .woken c false }
    | _ => none
  | .timeout =>
    match s.api with
    | .waiting c | .woken c _ => some { s with api := .woken c true }
    | _ => none
  | .reacquire =>
    match s.api with
    | .woken c late =>
      if s.mutex ≠ .nobody then none
      else if late then some { s with api := .idle }
      else some { s with api := .leaving c, mutex := .api }
    | _ => none
  | .unlock =>
    match s.api with
    | .leaving .launch => some { s with api := .calling .launch, mutex := .nobody }
    | .leaving .attach => some { s with api := .rechecking, mutex := .nobody }
    | _ => none
  | .recheck =>
    match s.api with
    | .rechecking => some { s with api := if s.session.spawned then .calling .attach else .idle }
    | _ => none
  | .enter =>
    match s.api with
    | .calling c =>
      some { s with api := .shaking c, log := s.log ++ [.entry s.session.spawned s.proctab] }
    | _ => none
  | .lookup =>
    match s.api with
    | .shaking c => some { s with api := .over c, log := s.log ++ [.rm s.indexToCurInstance] }
    | _ => none
  | .finish =>
    match s.api with
    | .shaking _ | .over _ => some { s with api := .idle }
    | _ => none
  | _ => none

/-- The handler of a message: its result and `index_to_cur_instance`. -/
def Launching.handler (s : Launching) (m : FetofeType) (read : Bool) (rmType : UInt32) : Bool × Int :=
  if m = .rminfo then handleRminfo s.rmSupportedTypes s.indexToCurInstance read rmType
  else (read, s.indexToCurInstance)

/-- The critical section of the watchdog. -/
def Launching.handled (s : Launching) (m : FetofeType) (read : Bool) (rmType : UInt32) : Launching :=
  let r := s.handler m read rmType
  let o := s.session.handle r.1 m
  { s with
    session := o.session
    proctab := s.proctab || (m = .proctableAvail && read)
    indexToCurInstance := r.2
    rminfos := if m = .rminfo ∧ read then s.rminfos ++ [rmType] else s.rminfos
    api := if o.signal then s.api.signalled else s.api
    watchdog := .unlocking o.leave }

/-- A move of the watchdog. -/
def Launching.stepWatchdog (s : Launching) : SpawnEvent → Option Launching
  | .read m =>
    match s.watchdog with
    | .reading => some { s with watchdog := m.elim .exited Watchdog.dispatch }
    | _ => none
  | .watchdogLock =>
    match s.watchdog with
    | .locking m =>
      if s.mutex = .nobody then some { s with watchdog := .holding m, mutex := .watchdog } else none
    | _ => none
  | .handle read rmType =>
    match s.watchdog with
    | .holding m => some (s.handled m read rmType)
    | _ => none
  | .watchdogUnlock =>
    match s.watchdog with
    | .unlocking leave =>
      some { s with mutex := .nobody, watchdog := if leave then .exited else .reading }
    | _ => none
  | _ => none

def Launching.step (s : Launching) (e : SpawnEvent) : Option Launching :=
  match e with
  | .read _ | .watchdogLock | .handle _ _ | .watchdogUnlock => s.stepWatchdog e
  | _ => s.stepApi e

/-! ## Complete launch information, and the steps that break it -/

/-- What the handshake needs to find. -/
def Found.Complete (rmSupportedTypes : List UInt32) : Found → Prop
  | .entry spawned proctab => spawned = true ∧ proctab = true
  | .rm i => 0 ≤ i ∧ i < rmSupportedTypes.length

/-- The messages that take `spawned` back. -/
def FetofeType.daemonsGone : FetofeType → Bool
  | .bedmonExited | .mwdmonExited => true
  | _ => false

/-- The call goes on to the handshake without looking at `spawned` again. -/
def SpawnPc.committed : SpawnPc → Bool
  | .leaving .launch | .calling _ => true
  | _ => false

/-- A launching call that comes back from its wait in time, whatever has woken it, finds the daemons
    spawned; no daemon exits between the last look at `spawned` and the handshake; and the handshake
    comes to the resource manager after an RMINFO message with a supported one. -/
def Launching.Guard (s : Launching) : SpawnEvent → Prop
  | .reacquire => s.api = .woken .launch false → s.session.spawned = true
  | .handle _ _ =>
    match s.watchdog with
    | .holding m => s.api.committed = true → m.daemonsGone = false
    | _ => True
  | .lookup => ∃ t ∈ s.rminfos, t ∈ s.rmSupportedTypes
  | _ => True

instance Launching.decidableGuard (s : Launching) (e : SpawnEvent) : Decidable (s.Guard e) :=
  match e with
  | .reacquire => inferInstanceAs (Decidable (s.api = .woken .launch false → s.session.spawned = true))
  | .handle _ _ =>
    match h : s.watchdog with
    | .holding m => decidable_of_iff (s.api.committed = true → m.daemonsGone = false) (by
        unfold Launching.Guard
        dsimp only
        rw [h])
    | .absent | .reading | .locking _ | .unlocking _ | .exited =>
      isTrue (by
        unfold Launching.Guard
        dsimp only
        rw [h]
        trivial)
  | .lookup => inferInstanceAs (Decidable (∃ t ∈ s.rminfos, t ∈ s.rmSupportedTypes))
  | .call _ | .lock | .check | .openEngine _ | .test | .wait _ | .spurious | .timeout | .unlock
  | .recheck | .enter | .finish | .read _ | .watchdogLock | .watchdogUnlock => isTrue trivial

/-! ## One step -/

theorem Session.handle_keeps {d : Session} {m : FetofeType} (hm : m.daemonsGone = false) (ok : Bool)
    (hd : d.spawned = true) : (d.handle ok m).session.spawned = true := by
  cases m with
  | proctableAvail =>
    cases ok with
    | true => rfl
    | false => exact hd
  | bedmonExited | mwdmonExited => cases hm
  | _ => exact hd

theorem Session.handle_spawned {d : Session} {m : FetofeType} {ok : Bool}
    (h : (d.handle ok m).session.spawned = true) :
    d.spawned = true ∨ (m = .proctableAvail ∧ ok = true) := by
  cases m with
  | proctableAvail =>
    cases ok with
    | true => exact Or.inr ⟨rfl, rfl⟩
    | false => exact Or.inl h
  | bedmonExited | mwdmonExited => cases h
  | _ => exact Or.inl h

/-- A signal commits nobody. -/
theorem SpawnPc.committed_signalled {a : SpawnPc} (h : a.signalled.committed = true) :
    a.committed = true := by
  cases a with
  | waiting c => cases h
  | _ => exact h

/-- The index is valid once a supported type has been read, and no sooner. -/
def IndexKnown (rmSupportedTypes : List UInt32) (indexToCurInstance : Int) (rminfos : List UInt32) :
    Prop :=
  (0 ≤ indexToCurInstance ∧ indexToCurInstance < rmSupportedTypes.length) ↔
    ∃ t ∈ rminfos, t ∈ rmSupportedTypes

theorem IndexKnown.handleRminfo {types rminfos : List UInt32} {i : Int}
    (h : IndexKnown types i rminfos) (t : UInt32) :
    IndexKnown types (handleRminfo types i true t).2 (rminfos ++ [t]) := by
  unfold IndexKnown at h ⊢
  simp only [List.mem_append, List.mem_singleton, or_and_right, exists_or, exists_eq_left]
  unfold Frontend.handleRminfo
  rw [if_neg (by rintro ⟨⟩)]
  cases hfind : types.findIdx? (· = t) with
  | none =>
    dsimp only
    have hnot : t ∉ types := by
      intro ht
      have := List.findIdx?_eq_none_iff.mp hfind t ht
      simp at this
    rw [h]
    exact ⟨Or.inl, fun hor => hor.resolve_right hnot⟩
  | some j =>
    dsimp only
    obtain ⟨hj, ht, -⟩ := List.findIdx?_eq_some_iff_getElem.mp hfind
    have hmem : t ∈ types := by
      rw [← of_decide_eq_true ht]
      exact List.getElem_mem hj
    exact ⟨fun _ => Or.inr hmem, fun _ => ⟨Int.natCast_nonneg j, Int.ofNat_lt.mpr hj⟩⟩

/-- What holds in every state. -/
structure Launching.Inv (s : Launching) : Prop where
  committed : s.api.committed = true → s.session.spawned = true
  proctab : s.session.spawned = true → s.proctab = true
  index : IndexKnown s.rmSupportedTypes s.indexToCurInstance s.rminfos
  log : ∀ o ∈ s.log, o.Complete s.rmSupportedTypes

/-- The critical section of the watchdog. -/
theorem Launching.Inv.handled {s : Launching} (h : s.Inv) {m : FetofeType}
    (hcomm : s.api.committed = true → m.daemonsGone = false) (read : Bool) (rmType : UInt32) :
    (s.handled m read rmType).Inv where
  committed := by
    intro hc
    have hc' : s.api.committed = true := by
      by_cases hsig : (s.session.handle (s.handler m read rmType).1 m).signal = true
      · have hapi : (s.handled m read rmType).api = s.api.signalled := if_pos hsig
        rw [hapi] at hc
        exact SpawnPc.committed_signalled hc
      · have hapi : (s.handled m read rmType).api = s.api := if_neg hsig
        rwa [hapi] at hc
    exact Session.handle_keeps (hcomm hc') _ (h.committed hc')
  proctab := by
    intro hsp
    show (s.proctab || (m = .proctableAvail && read)) = true
    rcases Session.handle_spawned hsp with hd | ⟨rfl, hok⟩
    · rw [h.proctab hd]
      rfl
    · have hread : read = true := hok
      rw [hread]
      simp
  index := by
    show IndexKnown _ (s.handler m read rmType).2 (if m = .rminfo ∧ read then _ else _)
    unfold Launching.handler
    by_cases hm : m = .rminfo
    · rw [if_pos hm]
      cases read with
      | false =>
        rw [if_neg (fun hc => Bool.false_ne_true hc.2)]
        exact h.index
      | true =>
        rw [if_pos ⟨hm, rfl⟩]
        exact h.index.handleRminfo rmType
    · rw [if_neg hm, if_neg fun hc => hm hc.1]
      exact h.index
  log := h.log

/-- A move of the call that enters no handshake and looks nothing up. -/
theorem Launching.Inv.moved {s s' : Launching} (h : s.Inv)
    (hc : s'.api.committed = true → s'.session.spawned = true) (hs : s'.session = s.session)
    (hp : s'.proctab = s.proctab) (ht : s'.rmSupportedTypes = s.rmSupportedTypes)
    (hi : s'.indexToCurInstance = s.indexToCurInstance) (hr : s'.rminfos = s.rminfos)
    (hl : s'.log = s.log) : s'.Inv where
  committed := hc
  proctab := by rw [hs, hp]; exact h.proctab
  index := by rw [ht, hi, hr]; exact h.index
  log := by rw [hl, ht]; exact h.log

/-- A move of the call that finds something. -/
theorem Launching.Inv.logged {s s' : Launching} {o : Found} (h : s.Inv)
    {a : SpawnPc} (hc : a.committed = true → s.session.spawned = true)
    (ho : o.Complete s.rmSupportedTypes) (hs : { s with api := a, log := s.log ++ [o] } = s') :
    s'.Inv where
  committed := by rw [← hs]; exact hc
  proctab := by rw [← hs]; exact h.proctab
  index := by rw [← hs]; exact h.index
  log := by
    rw [← hs]
    intro o' ho'
    rcases List.mem_append.mp ho' with ho' | ho'
    · exact h.log o' ho'
    · rw [List.mem_singleton.mp ho']
      exact ho

/-- A step of the call.  It commits itself with the flag in its hand. -/
theorem Launching.Inv.stepApi {s s' : Launching} {e : SpawnEvent} (h : s.Inv) (hG : s.Guard e)
    (hs : s.stepApi e = some s') : s'.Inv := by
  have hcomm := h.committed
  cases e <;> simp only [Launching.stepApi] at hs
  case call c =>
    split at hs
    · cases hs
      exact h.moved (by rintro ⟨⟩) rfl rfl rfl rfl rfl rfl
    · cases hs
  case lock =>
    split at hs
    all_goals try cases hs
    all_goals
      split at hs
      · cases hs
        exact h.moved (by rintro ⟨⟩) rfl rfl rfl rfl rfl rfl
      · cases hs
  case check =>
    split at hs
    · cases hs
      refine h.moved ?_ rfl rfl rfl rfl rfl rfl
      dsimp only
      split <;> rintro ⟨⟩
    · cases hs
  case openEngine ok =>
    split at hs
    · split at hs
      · cases hs
        exact h.moved (by rintro ⟨⟩) rfl rfl rfl rfl rfl rfl
      · split at hs
        · cases hs
          exact h.moved (by rintro ⟨⟩) rfl rfl rfl rfl rfl rfl
        · cases hs
    · cases hs
  case test =>
    split at hs
    · cases hs
      refine h.moved ?_ rfl rfl rfl rfl rfl rfl
      dsimp only
      split
      · next hsp => exact fun _ => hsp
      · rintro ⟨⟩
    · cases hs
  case wait ok =>
    split at hs
    · cases hs
      refine h.moved ?_ rfl rfl rfl rfl rfl rfl
      dsimp only
      split <;> rintro ⟨⟩
    · cases hs
  case spurious =>
    split at hs
    · cases hs
      exact h.moved (by rintro ⟨⟩) rfl rfl rfl rfl rfl rfl
    · cases hs
  case timeout =>
    split at hs
    all_goals try cases hs
    all_goals exact h.moved (by rintro ⟨⟩) rfl rfl rfl rfl rfl rfl
  case reacquire =>
    split at hs
    · next c late hapi =>
      split at hs
      · cases hs
      · split at hs
        · cases hs
          exact h.moved (by rintro ⟨⟩) rfl rfl rfl rfl rfl rfl
        · next hlate =>
          cases hs
          refine h.moved ?_ rfl rfl rfl rfl rfl rfl
          rw [Bool.not_eq_true] at hlate
          subst hlate
          cases c with
          -- it does not look at the flag, but the guard does
          | launch => exact fun _ => hG hapi
          | attach => rintro ⟨⟩
    · cases hs
  case unlock =>
    split at hs
    · next hapi =>
      cases hs
      refine h.moved (fun _ => ?_) rfl rfl rfl rfl rfl rfl
      rw [hapi] at hcomm
      exact hcomm rfl
    · cases hs
      exact h.moved (by rintro ⟨⟩) rfl rfl rfl rfl rfl rfl
    · cases hs
  case recheck =>
    split at hs
    · cases hs
      refine h.moved ?_ rfl rfl rfl rfl rfl rfl
      dsimp only
      split
      · next hsp => exact fun _ => hsp
      · rintro ⟨⟩
    · cases hs
  case enter =>
    split at hs
    · next c hapi =>
      cases hs
      rw [hapi] at hcomm
      -- only a call that has found the daemons spawned comes here, so the table has come too
      have hsp := hcomm rfl
      exact h.logged (a := .shaking c) (o := .entry _ _) (by rintro ⟨⟩) ⟨hsp, h.proctab hsp⟩ rfl
    · cases hs
  case lookup =>
    split at hs
    · next c hapi =>
      cases hs
      exact h.logged (a := .over c) (o := .rm _) (by rintro ⟨⟩) (h.index.mpr hG) rfl
    · cases hs
  case finish =>
    split at hs
    all_goals try cases hs
    all_goals exact h.moved (by rintro ⟨⟩) rfl rfl rfl rfl rfl rfl
  all_goals cases hs

/-- A step of the watchdog. -/
theorem Launching.Inv.stepWatchdog {s s' : Launching} {e : SpawnEvent} (h : s.Inv) (hG : s.Guard e)
    (hs : s.stepWatchdog e = some s') : s'.Inv := by
  unfold Launching.stepWatchdog at hs
  cases e <;> dsimp only at hs
  case read m =>
    split at hs
    · cases hs
      exact h.moved h.committed rfl rfl rfl rfl rfl rfl
    · cases hs
  case watchdogLock =>
    split at hs
    · split at hs
      · cases hs
        exact h.moved h.committed rfl rfl rfl rfl rfl rfl
      · cases hs
    · cases hs
  case handle read rmType =>
    split at hs
    · next m hw =>
      cases hs
      unfold Launching.Guard at hG
      dsimp only at hG
      rw [hw] at hG
      exact h.handled hG read rmType
    · cases hs
  case watchdogUnlock =>
    split at hs
    · cases hs
      exact h.moved h.committed rfl rfl rfl rfl rfl rfl
    · cases hs
  all_goals cases hs

theorem Launching.Inv.step {s s' : Launching} {e : SpawnEvent} (h : s.Inv) (hG : s.Guard e)
    (hs : s.step e = some s') : s'.Inv := by
  unfold Launching.step at hs
  cases e <;> first | exact h.stepWatchdog hG hs | exact h.stepApi hG hs

theorem Launching.Inv.init (rmSupportedTypes : List UInt32) : (Launching.init rmSupportedTypes).Inv where
  committed := by rintro ⟨⟩
  proctab := by rintro ⟨⟩
  index := by
    constructor
    · rintro ⟨h, -⟩
      exact absurd (show (0 : Int) ≤ -1 from h) (by decide)
    · rintro ⟨t, ht, -⟩
      exact absurd ht List.not_mem_nil
  log := fun o ho => absurd ho List.not_mem_nil

/-! ## Runs -/

/-- **Complete launch information**: in a run where a launching call does not come back from its wait in
    time before the daemons are spawned, no daemon exits between the last look at `spawned` and the
    handshake, and the handshake comes to the resource manager after the engine's message about it,
    whatever a handshake has found is complete. -/
theorem handshake_complete {rmSupportedTypes : List UInt32} {s : Launching}
    (h : Run Launching.step Launching.Guard (.init rmSupportedTypes) s) :
    ∀ o ∈ s.log, o.Complete s.rmSupportedTypes :=
  (h.invariant (Launching.Inv.init rmSupportedTypes) fun _ _ _ h hG hs => h.step hG hs).log

/-- A call that goes to sleep. -/
def sleeping (c : SpawnCall) : List SpawnEvent :=
  [.call c, .lock, .check, .openEngine true, .lock, .test, .wait true]

/-- The watchdog takes in a message. -/
def message (m : FetofeType) (rmType : UInt32) : List SpawnEvent :=
  [.read (some m), .watchdogLock, .handle true rmType, .watchdogUnlock]

/-- The call wakes up by itself, but the process table is there before it comes back.  Resource manager 4 is
    the second of two; its message comes when the handshake has begun. -/
def launchInTime : List SpawnEvent :=
  sleeping .launch ++ [.spurious] ++ message .proctableAvail 0 ++ [.reacquire, .unlock, .enter] ++
    message .rminfo 4 ++ [.lookup]

theorem handshake_complete_inTime : ∃ s, runAll Launching.step (.init [3, 4]) launchInTime = some s ∧
    s.log = [.entry true true, .rm 1] ∧ ∀ o ∈ s.log, o.Complete s.rmSupportedTypes := by
  have h : runIf Launching.step Launching.Guard (.init [3, 4]) launchInTime =
      runAll Launching.step (.init [3, 4]) launchInTime := by decide
  obtain ⟨s, hs, hlog⟩ : ∃ s, runAll Launching.step (.init [3, 4]) launchInTime = some s ∧
      s.log = [.entry true true, .rm 1] := ⟨_, rfl, rfl⟩
  exact ⟨s, hs, hlog, handshake_complete (Run.of_runIf _ (h.trans hs))⟩

/-- The handshake is faster than the message about the resource manager. -/
def launchTooEarly : List SpawnEvent :=
  sleeping .launch ++ message .proctableAvail 0 ++ [.reacquire, .unlock, .enter, .lookup]

/-- The engine stops tracing before there is a process table. -/
def launchStopped : List SpawnEvent :=
  sleeping .launch ++ message .stopTracing 0 ++ [.reacquire, .unlock, .enter]

/-- **The index is -1** when the handshake comes to it before the watchdog has read the next message;
    and a launching call that another message has woken enters the handshake with nothing at all. -/
theorem handshake_counterexample :
    (∃ s, Run Launching.step (fun _ _ => True) (.init [3, 4]) s ∧
      ∃ o ∈ s.log, o = .rm (-1) ∧ ¬ o.Complete s.rmSupportedTypes) ∧
    (∃ s, Run Launching.step (fun _ _ => True) (.init [3, 4]) s ∧
      ∃ o ∈ s.log, o = .entry false false ∧ ¬ o.Complete s.rmSupportedTypes) := by
  constructor
  · refine ⟨_, Run.of_runAll (show runAll _ _ launchTooEarly = _ from rfl), .rm (-1), ?_, rfl, ?_⟩
    · decide
    · rintro ⟨h, -⟩
      exact absurd h (by decide)
  · refine ⟨_, Run.of_runAll (show runAll _ _ launchStopped = _ from rfl), .entry false false, ?_, rfl,
      ?_⟩
    · decide
    · rintro ⟨⟨⟩, -⟩

end LaunchMON.Frontend
