/-
  The watchdog thread of a front-end session, and the calls of the API that wait for it.

  `LMON_fetofe_watchdog_thread` reads the messages of the engine and writes what they say into flags
  of the session descriptor; a call such as `LMON_fe_detach` sends a request to the engine and waits
  on the condition variable of the session until its flag is set.  Flags and waits are under one
  mutex.  The wait is timed, so that a call which is never woken does come back, but with an error
  and after the whole timeout: it is *stuck* when its flag is there, or cannot come any more because
  the watchdog is gone, and no signal is on its way.

  Two threads, so a state holds where each of them stands, and a step moves one of them
  (`LaunchMON.Machine`).  A critical section of the watchdog is one step, since nobody else reads the
  descriptor in the middle of it; taking the mutex and giving it back are steps of their own.

  The watchdog signals on five of its messages.  It also leaves without a signal: when the read
  fails, when a handler fails, on a type it does not know, and on the three messages that say that
  the job is gone, which set `killed` and tell nobody.  `Guard` names the steps that go wrong;
  `never_stuck` says that a run without them never leaves a call stuck, `guard_exact` that each of
  them does.
-/
import LaunchMON.Lib.Machine

namespace LaunchMON.Frontend

open Machine

/-! ## The session descriptor, and what the watchdog does with a message -/

/-- The flags of `lmon_session_desc_t`. -/
structure Session where
  registered : Bool
  spawned : Bool
  detached : Bool
  killed : Bool
  deriving DecidableEq, Repr

/-- `LMON_destroy_sess` and `LMON_init_sess`. -/
def Session.init : Session := ⟨false, false, false, false⟩

/-- `msg.type.fetofe_type`; `other` is every type without a case of its own. -/
inductive FetofeType
  | stopAtLaunchBpSpawned
  | stopAtFirstAttach
  | proctableAvail
  | resourcehandleAvail
  | rminfo
  | detachDone
  | killDone
  | stopTracing
  | bedmonExited
  | mwdmonExited
  | exited
  | terminated
  | stopAtLaunchBpAbort
  | other
  deriving DecidableEq, Repr

/-- What a critical section of the watchdog ends with: the descriptor, whether it has signalled the
    condition variable, and whether the thread leaves its loop. -/
structure Outcome where
  session : Session
  signal : Bool
  leave : Bool
  deriving DecidableEq, Repr

/-- `LMON_fetofe_watchdog_thread`: the critical section of a case of its `switch`.  `ok` is the result
    of `LMON_handle_proctab_event` and its two siblings; the cases without a handler ignore it. -/
def Session.handle (d : Session) (ok : Bool) : FetofeType → Outcome
  | .proctableAvail =>
    if ok then ⟨{ d with spawned := true }, true, false⟩ else ⟨d, false, true⟩
  | .resourcehandleAvail | .rminfo => ⟨d, false, !ok⟩
  | .detachDone | .stopTracing => ⟨{ d with detached := true }, true, true⟩
  | .killDone => ⟨{ d with killed := true }, true, true⟩
  | .bedmonExited | .mwdmonExited => ⟨{ d with detached := true, spawned := false }, true, true⟩
  | .exited | .terminated | .stopAtLaunchBpAbort => ⟨{ d with killed := true }, false, true⟩
  | .stopAtLaunchBpSpawned | .stopAtFirstAttach => ⟨d, false, false⟩
  | .other => ⟨d, false, true⟩

/-- Where the watchdog thread stands. -/
inductive Watchdog
  | absent
  | reading
  | locking (m : FetofeType)
  | holding (m : FetofeType)
  | unlocking (leave : Bool)
  | exited
  deriving DecidableEq, Repr

/-- The thread once it has the header of a message: two types need no lock, and one that it does not
    know ends it. -/
def Watchdog.dispatch : FetofeType → Watchdog
  | .stopAtLaunchBpSpawned | .stopAtFirstAttach => .reading
  | .other => .exited
  | m => .locking m

/-! ## The calls of the API -/

/-- The calls that wait for the watchdog. -/
inductive Call
  | detach
  | kill
  | shutdownDaemons
  | launchAndSpawnDaemons
  | attachAndSpawnDaemons
  deriving DecidableEq, Repr

/-- The check at the head of a call. -/
def Call.check (d : Session) : Call → Bool
  | .detach | .kill => d.registered && !d.detached && !d.killed
  | .shutdownDaemons | .launchAndSpawnDaemons | .attachAndSpawnDaemons => d.registered

/-- The flag that a call waits for. -/
def Call.flag (d : Session) : Call → Bool
  | .detach | .shutdownDaemons => d.detached
  | .kill => d.killed
  | .launchAndSpawnDaemons | .attachAndSpawnDaemons => d.spawned

/-- A call that starts the engine and its watchdog. -/
def Call.starts : Call → Bool
  | .launchAndSpawnDaemons | .attachAndSpawnDaemons => true
  | .detach | .kill | .shutdownDaemons => false

/-- The session that a call leaves. -/
def Call.finish (d : Session) : Call → Session
  | .kill | .shutdownDaemons => .init
  | .detach | .launchAndSpawnDaemons | .attachAndSpawnDaemons => d

/-- Where the thread of the API stands: `waiting` is inside of `pthread_cond_timedwait` with no signal
    for it, `woken` still inside but on its way out, by a signal or too late. -/
inductive Api
  | idle
  | entering (c : Call)
  | checking (c : Call)
  | starting (c : Call)
  | relocking (c : Call)
  | sending (c : Call)
  | testing (c : Call)
  | parking (c : Call)
  | waiting (c : Call)
  | woken (c : Call) (late : Bool)
  | finishing (c : Call)
  deriving DecidableEq, Repr

/-- Who has `eventMutex`. -/
inductive Owner
  | nobody
  | api
  | watchdog
  deriving DecidableEq, Repr

structure State where
  session : Session
  mutex : Owner
  api : Api
  watchdog : Watchdog
  deriving DecidableEq, Repr

/-- `pthread_cond_signal`: only the thread of the API ever waits. -/
def Api.signalled : Api → Api
  | .waiting c => .woken c false
  | a => a

/-- The next instruction of the API after its wait: `while` in three of the calls, `if` in the two
    that start the engine. -/
def Call.resume (c : Call) (late : Bool) : Api :=
  if late || c.starts then .finishing c else .testing c

/-! ## The steps -/

/-- What happens next: a move of the API, a move of the watchdog, or one of the two ways out of a
    timed wait that need no signal. -/
inductive Event
  | createSession
  | call (c : Call)
  | lock
  | check
  | openEngine (ok : Bool)
  | send (ok : Bool)
  | test
  | wait (ok : Bool)
  | spurious
  | timeout
  | reacquire
  | finish
  | read (m : Option FetofeType)
  | watchdogLock
  | handle (ok : Bool)
  | watchdogUnlock
  deriving DecidableEq, Repr

/-- A move of the thread of the API.  `openEngine` is `LMON_fe_acceptEngine` and the creation of the
    watchdog; a request goes out only where there is a connection to the engine, and a call whose
    request does not go out returns with the mutex. -/
def State.stepApi (s : State) : Event → Option State
  | .createSession =>
    if s.api = .idle ∧ s.mutex = .nobody then
      some { s with session := { s.session with registered := true } }
    else none
  | .call c => if s.api = .idle then some { s with api := .entering c } else none
  | .lock =>
    match s.api with
    | .entering c =>
      if s.mutex = .nobody then some { s with api := .checking c, mutex := .api } else none
    | .relocking c =>
      if s.mutex = .nobody then some { s with api := .testing c, mutex := .api } else none
    | _ => none
  | .check =>
    match s.api with
    | .checking c =>
      if c.check s.session = false then some { s with api := .idle, mutex := .nobody }
      else if c.starts then some { s with api := .starting c, mutex := .nobody }
      else some { s with api := .sending c }
    | _ => none
  | .openEngine ok =>
    match s.api with
    | .starting c =>
      if ok = false then some { s with api := .idle }
      else if s.watchdog = .absent ∨ s.watchdog = .exited then
        some { s with api := .relocking c, watchdog := .reading }
      else none
    | _ => none
  | .send ok =>
    match s.api with
    | .sending c =>
      if ok = false then some { s with api := .idle }
      else if s.watchdog ≠ .absent then some { s with api := .testing c }
      else none
    | _ => none
  | .test =>
    match s.api with
    | .testing c => some { s with api := if c.flag s.session then .finishing c else .parking c }
    | _ => none
  | .wait ok =>
    match s.api with
    | .parking c =>
      if ok then some { s with api := .waiting c, mutex := .nobody }
      else some { s with api := .finishing c }
    | _ => none
  | .spurious =>
    match s.api with
    | .waiting c => some { s with api := .woken c false }
    | _ => none
  | .timeout =>
    match s.api with
    | .waiting c | .woken c _ => some { s with api := .woken c true }
    | _ => none
  | .reacquire =>
    match s.api with
    | .woken c late =>
      if s.mutex = .nobody then some { s with api := c.resume late, mutex := .api } else none
    | _ => none
  | .finish =>
    match s.api with
    | .finishing c => some { s with session := c.finish s.session, api := .idle, mutex := .nobody }
    | _ => none
  | _ => none

/-- A move of the watchdog. -/
def State.stepWatchdog (s : State) : Event → Option State
  | .read m =>
    match s.watchdog with
    | .reading => some { s with watchdog := m.elim .exited Watchdog.dispatch }
    | _ => none
  | .watchdogLock =>
    match s.watchdog with
    | .locking m =>
      if s.mutex = .nobody then some { s with watchdog := .holding m, mutex := .watchdog } else none
    | _ => none
  | .handle ok =>
    match s.watchdog with
    | .holding m =>
      let o := s.session.handle ok m
      some { s with
        session := o.session
        api := if o.signal then s.api.signalled else s.api
        watchdog := .unlocking o.leave }
    | _ => none
  | .watchdogUnlock =>
    match s.watchdog with
    | .unlocking leave =>
      some { s with mutex := .nobody, watchdog := if leave then .exited else .reading }
    | _ => none
  | _ => none

def State.step (s : State) (e : Event) : Option State :=
  match e with
  | .read _ | .watchdogLock | .handle _ | .watchdogUnlock => s.stepWatchdog e
  | _ => s.stepApi e

/-- A fresh slot of `sess.sessionDescArray`. -/
def State.init : State := ⟨.init, .nobody, .idle, .absent⟩

/-! ## Stuck calls, and the steps that make them -/

/-- A call is blocked with no signal on its way, and either its flag is set or nobody is left to set
    it. -/
def State.Stuck (s : State) : Prop :=
  ∃ c, s.api = .waiting c ∧ (c.flag s.session = true ∨ s.watchdog = .exited)

instance (s : State) : Decidable s.Stuck :=
  match h : s.api with
  | .waiting c => decidable_of_iff (c.flag s.session = true ∨ s.watchdog = .exited)
      ⟨fun hc => ⟨c, h, hc⟩, fun ⟨_, hc, h'⟩ => by rw [h] at hc; cases hc; exact h'⟩
  | .idle | .entering _ | .checking _ | .starting _ | .relocking _ | .sending _ | .testing _
  | .parking _ | .woken _ _ | .finishing _ => isFalse fun ⟨_, hc, _⟩ => by rw [h] at hc; cases hc

/-- The thread of the API is inside of its wait and nothing has woken it. -/
def Api.Waits (a : Api) : Prop := ∃ c, a = .waiting c

/-- The messages after which the watchdog leaves without a signal: the three that say that the job is gone,
    one of a type that it does not know, and one whose payload its handler does not take. -/
def FetofeType.silent (ok : Bool) : FetofeType → Bool
  | .exited | .terminated | .stopAtLaunchBpAbort | .other => true
  | .proctableAvail | .resourcehandleAvail | .rminfo => !ok
  | .stopAtLaunchBpSpawned | .stopAtFirstAttach | .detachDone | .killDone | .stopTracing
  | .bedmonExited | .mwdmonExited => false

theorem Session.handle_silent (d : Session) (ok : Bool) (m : FetofeType) :
    ((d.handle ok m).leave && !(d.handle ok m).signal) = m.silent ok := by
  cases m <;> cases ok <;> rfl

/-- The critical section that the watchdog is in will end it without a signal. -/
def State.leavesSilently (s : State) (ok : Bool) : Bool :=
  match s.watchdog with
  | .holding m => m.silent ok
  | _ => false

/-- The watchdog leaves without a signal only while no call waits, and no call goes to sleep once the
    watchdog is gone. -/
def State.Guard (s : State) : Event → Prop
  | .read m => m.elim .exited Watchdog.dispatch = .exited → ¬ s.api.Waits
  | .handle ok => s.leavesSilently ok = true → ¬ s.api.Waits
  | .wait ok => ok = true → s.watchdog ≠ .exited
  | _ => True

instance (a : Api) : Decidable a.Waits :=
  match a with
  | .waiting c => isTrue ⟨c, rfl⟩
  | .idle | .entering _ | .checking _ | .starting _ | .relocking _ | .sending _ | .testing _
  | .parking _ | .woken _ _ | .finishing _ => isFalse fun ⟨_, h⟩ => nomatch h

instance (s : State) (e : Event) : Decidable (s.Guard e) :=
  match e with
  | .read m => inferInstanceAs
      (Decidable (m.elim .exited Watchdog.dispatch = .exited → ¬ s.api.Waits))
  | .handle ok => inferInstanceAs (Decidable (s.leavesSilently ok = true → ¬ s.api.Waits))
  | .wait ok => inferInstanceAs (Decidable (ok = true → s.watchdog ≠ .exited))
  | .createSession | .call _ | .lock | .check | .openEngine _ | .send _ | .test | .spurious
  | .timeout | .reacquire | .finish | .watchdogLock | .watchdogUnlock => isTrue trivial

/-! ## One step -/

/-- Between taking and giving back the mutex. -/
def Api.owns : Api → Bool
  | .checking _ | .sending _ | .testing _ | .parking _ | .finishing _ => true
  | .idle | .entering _ | .starting _ | .relocking _ | .waiting _ | .woken _ _ => false

def Watchdog.owns : Watchdog → Bool
  | .holding _ | .unlocking _ => true
  | .absent | .reading | .locking _ | .exited => false

/-- What holds in every state: who has the mutex, and what a call that parks or waits knows. -/
structure Inv (s : State) : Prop where
  watchdog_owns : s.watchdog.owns = true ↔ s.mutex = .watchdog
  api_owns : s.api.owns = true → s.mutex = .api
  parking : ∀ c, s.api = .parking c → c.flag s.session = false
  waiting : ∀ c, s.api = .waiting c →
    c.flag s.session = false ∧ s.watchdog ≠ .exited ∧ s.watchdog ≠ .unlocking true

/-- A critical section that neither signals nor ends the thread leaves the flags alone. -/
theorem Session.handle_quiet {d : Session} {ok : Bool} {m : FetofeType}
    (hs : (d.handle ok m).signal = false) (hl : (d.handle ok m).leave = false) :
    (d.handle ok m).session = d := by
  cases m <;> cases ok <;> simp_all [Session.handle]

theorem Api.signalled_waits (a : Api) : ¬ a.signalled.Waits := by
  rintro ⟨c, h⟩
  cases a <;> cases h

theorem Watchdog.dispatch_owns (m : FetofeType) : (Watchdog.dispatch m).owns = false := by
  cases m <;> rfl

/-- While a call owns the mutex the watchdog is not inside of a critical section. -/
theorem Inv.apart {s : State} (h : Inv s) (ha : s.api.owns = true) : s.watchdog.owns = false := by
  cases hw : s.watchdog.owns with
  | false => rfl
  | true =>
    have := h.watchdog_owns.mp hw
    rw [h.api_owns ha] at this
    cases this

/-- A move of the API that neither parks nor waits: the watchdog stays on its side of the mutex. -/
theorem Inv.moved {s s' : State} (h : Inv s) (hw : s'.watchdog.owns = s.watchdog.owns)
    (hm : s'.mutex = .watchdog ↔ s.mutex = .watchdog) (ho : s'.api.owns = true → s'.mutex = .api)
    (hp : ∀ c, s'.api ≠ .parking c) (hq : ¬ s'.api.Waits) : Inv s' where
  watchdog_owns := by rw [hw, h.watchdog_owns, hm]
  api_owns := ho
  parking c hc := absurd hc (hp c)
  waiting c hc := absurd ⟨c, hc⟩ hq

/-- A step of the API.  Only `test` parks, with the flag it has just read, and only `wait` waits. -/
theorem Inv.stepApi {s s' : State} {e : Event} (h : Inv s) (hG : s.Guard e)
    (hs : s.stepApi e = some s') : Inv s' := by
  obtain ⟨session, mutex, api, watchdog⟩ := s
  have ho := h.api_owns
  cases e <;> simp only [State.stepApi] at hs
  case createSession =>
    split at hs
    · rename_i hidle
      obtain ⟨rfl, rfl⟩ := hidle
      cases hs
      exact h.moved rfl Iff.rfl (by rintro ⟨⟩) (by rintro c ⟨⟩) (by rintro ⟨c, ⟨⟩⟩)
    · cases hs
  case call c =>
    split at hs
    · cases hs
      exact h.moved rfl Iff.rfl (by rintro ⟨⟩) (by rintro c ⟨⟩) (by rintro ⟨c, ⟨⟩⟩)
    · cases hs
  case lock =>
    split at hs
    all_goals try cases hs
    all_goals
      split at hs
      · rename_i hfree
        cases hfree
        cases hs
        exact h.moved rfl (by simp) (fun _ => rfl) (by rintro c ⟨⟩) (by rintro ⟨c, ⟨⟩⟩)
      · cases hs
  case check =>
    split at hs
    · rename_i c
      cases (ho rfl : mutex = .api)
      split at hs
      · cases hs
        exact h.moved rfl (by simp) (by rintro ⟨⟩) (by rintro c ⟨⟩) (by rintro ⟨c, ⟨⟩⟩)
      · split at hs
        · cases hs
          exact h.moved rfl (by simp) (by rintro ⟨⟩) (by rintro c ⟨⟩) (by rintro ⟨c, ⟨⟩⟩)
        · cases hs
          exact h.moved rfl Iff.rfl (fun _ => rfl) (by rintro c ⟨⟩) (by rintro ⟨c, ⟨⟩⟩)
    · cases hs
  case openEngine ok =>
    split at hs
    · split at hs
      · cases hs
        exact h.moved rfl Iff.rfl (by rintro ⟨⟩) (by rintro c ⟨⟩) (by rintro ⟨c, ⟨⟩⟩)
      · split at hs
        · rename_i hw
          cases hs
          refine h.moved ?_ Iff.rfl (by rintro ⟨⟩) (by rintro c ⟨⟩) (by rintro ⟨c, ⟨⟩⟩)
          rcases hw with hw | hw <;> cases hw <;> rfl
        · cases hs
    · cases hs
  case send ok =>
    split at hs
    · cases (ho rfl : mutex = .api)
      split at hs
      · cases hs
        exact h.moved rfl Iff.rfl (by rintro ⟨⟩) (by rintro c ⟨⟩) (by rintro ⟨c, ⟨⟩⟩)
      · split at hs
        · cases hs
          exact h.moved rfl Iff.rfl (fun _ => rfl) (by rintro c ⟨⟩) (by rintro ⟨c, ⟨⟩⟩)
        · cases hs
    · cases hs
  case test =>
    split at hs
    · rename_i c
      cases hs
      cases hc : c.flag session with
      | false =>
        refine ⟨h.watchdog_owns, fun _ => ho rfl, ?_, (by rintro _ ⟨⟩)⟩
        rintro _ ⟨⟩
        exact hc
      | true => exact h.moved rfl Iff.rfl (fun _ => ho rfl) (by rintro c ⟨⟩) (by rintro ⟨c, ⟨⟩⟩)
    · cases hs
  case wait ok =>
    split at hs
    · rename_i c
      have hapart := h.apart rfl
      cases (ho rfl : mutex = .api)
      split at hs
      · -- the mutex goes back with the flag still as `test` has read it
        cases hs
        refine ⟨by rw [hapart]; simp, (by rintro ⟨⟩), (by rintro _ ⟨⟩), ?_⟩
        rintro _ ⟨⟩
        refine ⟨h.parking c rfl, hG ‹_›, ?_⟩
        rintro rfl
        cases hapart
      · cases hs
        exact h.moved rfl Iff.rfl (fun _ => rfl) (by rintro c ⟨⟩) (by rintro ⟨c, ⟨⟩⟩)
    · cases hs
  case spurious | timeout =>
    split at hs
    all_goals try cases hs
    all_goals exact h.moved rfl Iff.rfl (by rintro ⟨⟩) (by rintro c ⟨⟩) (by rintro ⟨c, ⟨⟩⟩)
  case reacquire =>
    split at hs
    · rename_i c late
      split at hs
      · rename_i hfree
        cases hfree
        cases hs
        have hr : c.resume late = .finishing c ∨ c.resume late = .testing c := by
          cases hl : late || c.starts <;> simp [Call.resume, hl]
        rcases hr with hr | hr <;> rw [hr] <;>
          exact h.moved rfl (by simp) (fun _ => rfl) (by rintro c ⟨⟩) (by rintro ⟨c, ⟨⟩⟩)
      · cases hs
    · cases hs
  case finish =>
    split at hs
    · cases (ho rfl : mutex = .api)
      cases hs
      exact h.moved rfl (by simp) (by rintro ⟨⟩) (by rintro c ⟨⟩) (by rintro ⟨c, ⟨⟩⟩)
    · cases hs
  all_goals cases hs

/-- A step of the watchdog.  It touches the flags only inside of its critical section, and there a call
    that waits is woken, or the flags stay, or `Guard` rules the step out. -/
theorem Inv.stepWatchdog {s s' : State} {e : Event} (h : Inv s) (hG : s.Guard e)
    (hs : s.stepWatchdog e = some s') : Inv s' := by
  obtain ⟨session, mutex, api, watchdog⟩ := s
  have hw := h.watchdog_owns
  cases e <;> simp only [State.stepWatchdog] at hs
  case read m =>
    split at hs
    · cases hs
      have hout : (m.elim .exited Watchdog.dispatch : Watchdog).owns = false := by
        cases m with
        | none => rfl
        | some m => exact Watchdog.dispatch_owns m
      refine ⟨?_, h.api_owns, h.parking, fun c hc => ⟨(h.waiting c hc).1, ?_, ?_⟩⟩
      · show (m.elim .exited Watchdog.dispatch : Watchdog).owns = true ↔ mutex = .watchdog
        rw [hout, ← hw]
        simp [Watchdog.owns]
      · exact fun hx => hG hx ⟨c, hc⟩
      · intro hx
        change (m.elim .exited Watchdog.dispatch : Watchdog) = .unlocking true at hx
        rw [hx] at hout
        cases hout
    · cases hs
  case watchdogLock =>
    split at hs
    · rename_i m
      split at hs
      · rename_i hfree
        cases hfree
        cases hs
        refine ⟨by simp [Watchdog.owns], fun ha => ?_, h.parking, fun c hc => ?_⟩
        · cases h.api_owns ha
        · exact ⟨(h.waiting c hc).1, by rintro ⟨⟩, by rintro ⟨⟩⟩
      · cases hs
    · cases hs
  case handle ok =>
    split at hs
    · rename_i m
      cases hs
      cases (hw.mp rfl : mutex = .watchdog)
      -- the watchdog has the mutex here, so no call does
      have hidle : api.owns = false := by
        cases ha : api.owns with
        | false => rfl
        | true => cases h.api_owns ha
      have hidle' : api.signalled.owns = false := by
        cases api <;> exact hidle
      refine ⟨by simp [Watchdog.owns], fun ha => ?_, fun c hc => ?_, fun c hc => ?_⟩
      · dsimp only at ha
        split at ha
        · rw [hidle'] at ha
          cases ha
        · rw [hidle] at ha
          cases ha
      · dsimp only at hc
        split at hc
        · rw [hc] at hidle'
          cases hidle'
        · rw [hc] at hidle
          cases hidle
      · dsimp only at hc
        split at hc
        · exact absurd ⟨c, hc⟩ api.signalled_waits
        · rename_i hsig
          have hsig := Bool.eq_false_iff.mpr hsig
          have hstay : (session.handle ok m).leave = false := by
            cases hl : (session.handle ok m).leave with
            | false => rfl
            | true =>
              have hsilent : m.silent ok = true := by
                rw [← session.handle_silent, hl, hsig]
                rfl
              exact absurd ⟨c, hc⟩ (hG hsilent)
          dsimp only
          rw [Session.handle_quiet hsig hstay, hstay]
          exact ⟨(h.waiting c hc).1, by rintro ⟨⟩, by rintro ⟨⟩⟩
    · cases hs
  case watchdogUnlock =>
    split at hs
    · rename_i leave
      cases hs
      cases (hw.mp rfl : mutex = .watchdog)
      refine ⟨?_, fun ha => ?_, h.parking, fun c hc => ?_⟩
      · cases leave <;> simp [Watchdog.owns]
      · cases h.api_owns ha
      · obtain ⟨hf, -, hl⟩ := h.waiting c hc
        cases leave with
        | false => exact ⟨hf, by rintro ⟨⟩, by rintro ⟨⟩⟩
        | true => exact absurd rfl hl
    · cases hs
  all_goals cases hs

theorem Inv.step {s s' : State} {e : Event} (h : Inv s) (hG : s.Guard e) (hs : s.step e = some s') :
    Inv s' := by
  unfold State.step at hs
  split at hs
  all_goals first | exact h.stepWatchdog hG hs | exact h.stepApi hG hs

theorem Inv.init : Inv State.init where
  watchdog_owns := by decide
  api_owns := by decide
  parking := by rintro c ⟨⟩
  waiting := by rintro c ⟨⟩

/-- An invariant state has no stuck call. -/
theorem Inv.not_stuck {s : State} (h : Inv s) : ¬ s.Stuck := by
  rintro ⟨c, hc, hbad⟩
  obtain ⟨hf, hw, -⟩ := h.waiting c hc
  rcases hbad with hbad | hbad
  · rw [hf] at hbad
    cases hbad
  · exact hw hbad

/-! ## Runs -/

/-- **No call is stuck** in a run where the watchdog leaves without a signal only while nobody waits,
    and nobody goes to sleep after it has left. -/
theorem never_stuck {s : State} (h : Run State.step State.Guard State.init s) : ¬ s.Stuck :=
  (h.invariant Inv.init fun _ _ _ h hG hs => h.step hG hs).not_stuck

/-- **The condition is exact**: a step that breaks it leaves a call stuck, at once or as soon as the
    watchdog has given the mutex back. -/
theorem guard_exact {s s' : State} {e : Event} (hG : ¬ s.Guard e) (hs : s.step e = some s') :
    s'.Stuck ∨ ∃ s'', s'.step .watchdogUnlock = some s'' ∧ s''.Stuck := by
  obtain ⟨session, mutex, api, watchdog⟩ := s
  cases e <;> simp only [State.Guard, not_true, ne_eq, not_not, Classical.not_imp] at hG
  case read m =>
    -- the watchdog ends while a call waits: nobody is left to signal it
    obtain ⟨hx, c, rfl⟩ := hG
    left
    simp only [State.step, State.stepWatchdog] at hs
    split at hs
    · cases hs
      exact ⟨c, rfl, Or.inr hx⟩
    · cases hs
  case handle ok =>
    right
    simp only [State.step, State.stepWatchdog] at hs
    split at hs
    · rename_i m
      -- it makes up its mind to end without a signal, and is gone with the unlock
      obtain ⟨hsilent, c, rfl⟩ := hG
      have hboth : m.silent ok = true := hsilent
      rw [← session.handle_silent, Bool.and_eq_true, Bool.not_eq_true'] at hboth
      obtain ⟨hl, hsig⟩ := hboth
      cases hs
      refine ⟨_, rfl, c, ?_, Or.inr ?_⟩
      · dsimp only
        rw [hsig]
        rfl
      · dsimp only
        rw [hl]
        rfl
    · cases hs
  case wait ok =>
    -- the call starts to wait when the watchdog has ended already
    obtain ⟨rfl, rfl⟩ := hG
    left
    simp only [State.step, State.stepApi] at hs
    split at hs
    · rename_i c
      cases hs
      exact ⟨c, rfl, Or.inr rfl⟩
    · cases hs

/-! ## A job that ends while it is being killed -/

/-- A session whose job has been launched. -/
def launched : List Event :=
  [.createSession, .call .launchAndSpawnDaemons, .lock, .check, .openEngine true, .lock, .test,
    .wait true, .read (some .proctableAvail), .watchdogLock, .handle true, .watchdogUnlock, .reacquire,
    .finish]

/-- A call that sends its request and goes to sleep. -/
def request (c : Call) : List Event := [.call c, .lock, .check, .send true, .test, .wait true]

/-- Kill a job: the engine says `m`. -/
def killing (m : FetofeType) : List Event :=
  launched ++ request .kill ++ [.read (some m), .watchdogLock, .handle true, .watchdogUnlock]

/-- The engine has killed the job. -/
theorem never_stuck_kill :
    ∃ s, runAll State.step State.init (killing .killDone) = some s ∧ ¬ s.Stuck := by
  have h : runIf State.step State.Guard State.init (killing .killDone) =
      runAll State.step State.init (killing .killDone) := by decide
  obtain ⟨s, hs⟩ : ∃ s, runAll State.step State.init (killing .killDone) = some s := ⟨_, rfl⟩
  exact ⟨s, hs, never_stuck (Run.of_runIf _ (h.trans hs))⟩

/-- **The job ends by itself** while `LMON_fe_kill` waits for the engine to kill it: the watchdog sets
    the flag that the call waits for, and goes. -/
theorem stuck_counterexample :
    ∃ s, Run State.step (fun _ _ => True) State.init s ∧ s.Stuck :=
  ⟨_, Run.of_runAll (show runAll _ _ (killing .exited) = _ from rfl), by decide⟩

end LaunchMON.Frontend
