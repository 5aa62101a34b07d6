/-
  Who has a session descriptor: the watchdogs and the calls of the API, over all sessions.

  A watchdog keeps a pointer to the descriptor that it was started for.  `LMON_fe_kill` and
  `LMON_fe_shutdownDaemons` destroy and re-initialise that descriptor when they come back from their
  wait, and `LMON_fe_createSession` grants it to somebody else.  The source says in a comment that
  this does not happen as long as the watchdog is alive.  Here the descriptor counts how often it has
  been granted or taken back (`tenure`), and a watchdog remembers the count with which it was started.

  A slot has the descriptor of one session and the thread of the API that is busy with it; what such a
  thread and a watchdog do is `State.stepApi` and `State.stepWatchdog`.  New are the table of slots,
  the number of watchdogs, which is not bounded, and the data that their messages bring.  A watchdog
  that has left its loop does not touch the descriptor any more and counts as gone.

  In a session with one engine a wait that ends because the flag is set is safe: only the last critical
  section of its watchdog sets the flag, and the call has the mutex when it reads it (`SlotInv.test`).
  With a second engine (`again`) the flag may be that of the other watchdog, and a wait that has been
  given up says nothing about any watchdog.
-/
import LaunchMON.Frontend.Calls

namespace LaunchMON.Frontend

open Machine Lmonp

/-! ## Slots and watchdogs -/

/-- What the handlers of the watchdog write besides the flags. -/
structure EngineData where
  proctabMsg : Option Msg
  resourceHandle : Option UInt64
  rmLauncherPid : Option Int
  indexToCurInstance : Int

def EngineData.init : EngineData := ⟨none, none, none, -1⟩

/-- `LMON_handle_proctab_event`, `LMON_handle_resourcehandle_event` and `LMON_handle_rminfo_event`, with
    what the message brings; `ok` as for `Session.handle`.  The pid of the launcher is stored as soon as
    the payload has been read, also where the type is not supported and the handler fails. -/
def EngineData.handle (d : EngineData) (m : FetofeType) (ok : Bool) (msg : EngineData) : EngineData :=
  match m with
  | .proctableAvail => if ok then { d with proctabMsg := msg.proctabMsg } else d
  | .resourcehandleAvail => if ok then { d with resourceHandle := msg.resourceHandle } else d
  | .rminfo =>
    { d with
      rmLauncherPid := msg.rmLauncherPid.or d.rmLauncherPid
      indexToCurInstance := if ok then msg.indexToCurInstance else d.indexToCurInstance }
  | _ => d

/-- An element of `sess.sessionDescArray`, with the thread of the API that works on it; `connected`
    tells whether there is a connection to an engine, and `again` whether it is not the first one. -/
structure Slot where
  session : Session
  data : EngineData
  connected : Bool
  again : Bool
  mutex : Owner
  api : Api
  tenure : ℕ

/-- A watchdog, with the slot and the tenure it was started for. -/
structure Dog where
  slot : ℕ
  tenure : ℕ
  pc : Watchdog

/-- In its loop. -/
def Dog.alive (d : Dog) : Bool := d.pc ≠ .absent ∧ d.pc ≠ .exited

structure System where
  slots : ℕ → Slot
  sessionPtrIndex : ℕ
  dogs : ℕ → Dog
  started : ℕ

/-- `LMON_fe_init`. -/
def System.init : System where
  slots _ := ⟨.init, .init, false, false, .nobody, .idle, 0⟩
  sessionPtrIndex := 0
  dogs _ := ⟨0, 0, .absent⟩
  started := 0

/-- A watchdog in its loop, with a pointer to a slot. -/
def On (dogs : ℕ → Dog) (i k : ℕ) : Prop := (dogs k).slot = i ∧ (dogs k).alive = true

instance decidableOn (dogs : ℕ → Dog) (i k : ℕ) : Decidable (On dogs i k) :=
  inferInstanceAs (Decidable (_ ∧ _))

/-! ## The steps -/

/-- The calls that destroy the descriptor. -/
def Call.destroys : Call → Bool
  | .kill | .shutdownDaemons => true
  | .detach | .launchAndSpawnDaemons | .attachAndSpawnDaemons => false

/-- A slot as the thread of the API sees it. -/
def Slot.view (x : Slot) (pc : Watchdog) : State := ⟨x.session, x.mutex, x.api, pc⟩

def Slot.put (x : Slot) (s : State) : Slot :=
  { x with session := s.session, mutex := s.mutex, api := s.api }

/-- A move of the API on a slot: the connection to an engine and the end of a call apart, it is the one
    of a single session. -/
def Slot.stepApi (x : Slot) : Event → Option Slot
  | .createSession => none
  | .openEngine ok =>
    match x.api with
    | .starting c =>
      some { x with
        api := if ok then .relocking c else .idle
        connected := x.connected || ok
        again := x.again || (x.connected && ok) }
    | _ => none
  | .finish =>
    match x.api with
    | .finishing c =>
      if c.destroys then some ⟨.init, .init, false, false, .nobody, .idle, x.tenure + 1⟩
      else some { x with api := .idle, mutex := .nobody }
    | _ => none
  | e => ((x.view (if x.connected then .reading else .absent)).stepApi e).map x.put

/-- `LMON_fe_createSession`, on the slot at the index. -/
def System.createSession (s : System) (ok : Bool) : Option System :=
  let x := s.slots s.sessionPtrIndex
  if x.mutex ≠ .nobody then none
  else if x.session.registered = true ∨ ok = false then some s
  else
    let x' := { x with session := { x.session with registered := true }, tenure := x.tenure + 1 }
    some { s with
      slots := Function.update s.slots s.sessionPtrIndex x'
      sessionPtrIndex := (s.sessionPtrIndex + 1) % maxLmonSession }

inductive SysEvent
  | createSession (ok : Bool)
  | api (i : ℕ) (e : Event)
  | dog (k : ℕ) (e : Event) (msg : EngineData)

/-- A move of the API on slot `i`; `pthread_create` makes a watchdog. -/
def System.stepApi (s : System) (i : ℕ) (e : Event) : Option System :=
  ((s.slots i).stepApi e).map fun x =>
    let s' := { s with slots := Function.update s.slots i x }
    if e = .openEngine true then
      { s' with
        dogs := Function.update s.dogs s.started ⟨i, (s.slots i).tenure, .reading⟩
        started := s.started + 1 }
    else s'

/-- What a message brings, if the watchdog is in the critical section of one. -/
def Slot.receive (x : Slot) (pc : Watchdog) (e : Event) (msg : EngineData) : EngineData :=
  match pc, e with
  | .holding m, .handle ok => x.data.handle m ok msg
  | _, _ => x.data

/-- A move of watchdog `k`, on the slot that it points to. -/
def System.stepDog (s : System) (k : ℕ) (e : Event) (msg : EngineData) : Option System :=
  let d := s.dogs k
  let x := s.slots d.slot
  ((x.view d.pc).stepWatchdog e).map fun s' =>
    { s with
      slots := Function.update s.slots d.slot { x.put s' with data := x.receive d.pc e msg }
      dogs := Function.update s.dogs k { d with pc := s'.watchdog } }

def System.step (s : System) : SysEvent → Option System
  | .createSession ok => s.createSession ok
  | .api i e => s.stepApi i e
  | .dog k e msg => s.stepDog k e msg

/-- A call that destroys the descriptor gives its wait up, after an error or a time-out. -/
def Api.givesUp : Api → Event → Bool
  | .parking c, .wait ok => !ok && c.destroys
  | .woken c late, .reacquire => late && c.destroys
  | _, _ => false

/-- A call that destroys the descriptor finds its flag set. -/
def Api.findsSet : Api → Session → Event → Bool
  | .testing c, session, .test => c.flag session && c.destroys
  | _, _, _ => false

/-- A call that destroys the descriptor stops waiting, and no argument about one watchdog covers it: it
    gives its wait up, or it finds its flag set in a session with more than one engine. -/
def Slot.abandons (x : Slot) (e : Event) : Bool :=
  x.api.givesUp e || (x.again && x.api.findsSet x.session e)

/-- Where `LMON_fe_kill` or `LMON_fe_shutdownDaemons` gives its wait up, and where it finds its flag set in
    a session with more than one engine, the watchdogs of the session are gone already. -/
def System.Guard (s : System) : SysEvent → Prop
  | .api i e => (s.slots i).abandons e = true → ∀ k < s.started, ¬ On s.dogs i k
  | _ => True

instance System.decidableGuard (s : System) (e : SysEvent) : Decidable (s.Guard e) :=
  match e with
  | .api i e => inferInstanceAs (Decidable ((s.slots i).abandons e = true → ∀ k < s.started, ¬ On s.dogs i k))
  | .createSession _ | .dog _ _ _ => isTrue trivial

/-! ## One slot -/

/-- What holds of a slot and the watchdogs.  `gone` carries the argument for a session with one engine: a
    flag that ends a wait is set by a watchdog that is about to give the mutex back for the last time. -/
structure SlotInv (i : ℕ) (x : Slot) (dogs : ℕ → Dog) : Prop where
  tenant : ∀ k, On dogs i k →
    (dogs k).tenure = x.tenure ∧ x.session.registered = true ∧ x.connected = true
  exclusive : ∀ k l, On dogs i k → On dogs i l → (dogs k).pc.owns = true → (dogs l).pc.owns = true → k = l
  one : x.again = false → ∀ k l, On dogs i k → On dogs i l → k = l
  dog_owns : ∀ k, On dogs i k → (dogs k).pc.owns = true → x.mutex = .watchdog
  api_owns : x.api.owns = true → x.mutex = .api
  gone : x.again = false → ∀ k, On dogs i k → x.session.killed = true ∨ x.session.detached = true →
    (dogs k).pc = .unlocking true
  fresh : x.connected = false →
    x.session.killed = false ∧ x.session.detached = false ∧ x.again = false
  starting : ∀ c, x.api = .starting c → x.session.registered = true
  finishing : ∀ c, x.api = .finishing c → c.destroys = true → ∀ k, ¬ On dogs i k

variable {i : ℕ} {x x' : Slot} {dogs dogs' : ℕ → Dog}

/-- While a call has the mutex no watchdog of the slot is inside of a critical section. -/
theorem SlotInv.apart (h : SlotInv i x dogs) (ha : x.api.owns = true) (k : ℕ) (hk : On dogs i k) :
    (dogs k).pc.owns = false := by
  cases hd : (dogs k).pc.owns with
  | false => rfl
  | true =>
    have hm := h.dog_owns k hk hd
    rw [h.api_owns ha] at hm
    cases hm

/-- A slot does not care about other slots' watchdogs. -/
theorem SlotInv.congr (h : SlotInv i x dogs) (hd : ∀ k, On dogs' i k → dogs' k = dogs k) :
    SlotInv i x dogs' := by
  have hon : ∀ k, On dogs' i k → On dogs i k := by
    intro k hk
    have hk' := hk
    unfold On at hk' ⊢
    rwa [hd k hk] at hk'
  constructor
  · intro k hk
    rw [hd k hk]
    exact h.tenant k (hon k hk)
  · intro k l hk hl
    rw [hd k hk, hd l hl]
    exact h.exclusive k l (hon k hk) (hon l hl)
  · exact fun hagain k l hk hl => h.one hagain k l (hon k hk) (hon l hl)
  · intro k hk
    rw [hd k hk]
    exact h.dog_owns k (hon k hk)
  · exact h.api_owns
  · intro hagain k hk
    rw [hd k hk]
    exact h.gone hagain k (hon k hk)
  · exact h.fresh
  · exact h.starting
  · exact fun c hc hdes k hk => h.finishing c hc hdes k (hon k hk)

/-- A slot without a watchdog. -/
theorem SlotInv.vacant (hno : ∀ k, ¬ On dogs i k) (ha : x.api.owns = true → x.mutex = .api)
    (hf : x.connected = false →
      x.session.killed = false ∧ x.session.detached = false ∧ x.again = false)
    (hs : ∀ c, x.api = .starting c → x.session.registered = true) : SlotInv i x dogs where
  tenant k hk := absurd hk (hno k)
  exclusive k _ hk := absurd hk (hno k)
  one _ k _ hk := absurd hk (hno k)
  dog_owns k hk _ := absurd hk (hno k)
  api_owns := ha
  gone _ k hk _ := absurd hk (hno k)
  fresh := hf
  starting := hs
  finishing _ _ _ := hno

/-- A move of the API that leaves the flags, and the mutex to a watchdog that has it. -/
theorem SlotInv.moved (h : SlotInv i x dogs) {m : Owner} {a : Api}
    (hm : x.mutex = .watchdog → m = .watchdog) (ha : a.owns = true → m = .api)
    (hs : ∀ c, a = .starting c → x.session.registered = true)
    (hf : ∀ c, a = .finishing c → c.destroys = true → ∀ k, ¬ On dogs i k) :
    SlotInv i { x with mutex := m, api := a } dogs where
  tenant := h.tenant
  exclusive := h.exclusive
  one := h.one
  dog_owns k hk ho := hm (h.dog_owns k hk ho)
  api_owns := ha
  gone := h.gone
  fresh := h.fresh
  starting := hs
  finishing := hf

/-- A call looks at its flag.  If it is set and there has been one engine, the watchdog that has set it has
    given the mutex back for the last time. -/
theorem SlotInv.test (h : SlotInv i x dogs) {c : Call} (hagain : x.again = false) (hapi : x.api = .testing c)
    (hflag : c.flag x.session = true) (hdes : c.destroys = true) (k : ℕ) : ¬ On dogs i k := by
  intro hk
  have hset : x.session.killed = true ∨ x.session.detached = true := by
    cases c with
    | kill => exact Or.inl hflag
    | shutdownDaemons => exact Or.inr hflag
    | _ => cases hdes
  have howns : x.api.owns = true := by rw [hapi]; rfl
  have hapart := h.apart howns k hk
  rw [h.gone hagain k hk hset] at hapart
  cases hapart

/-- The moves of a call that are those of a single session. -/
theorem SlotInv.stepCall {e : Event} {pc : Watchdog} {t : State} (h : SlotInv i x dogs)
    (hleft : x.abandons e = true → ∀ k, ¬ On dogs i k) (hcreate : e ≠ .createSession)
    (hopen : ∀ ok, e ≠ .openEngine ok) (hfinish : e ≠ .finish)
    (ht : (x.view pc).stepApi e = some t) : SlotInv i (x.put t) dogs := by
  have hgives : x.api.givesUp e = true → ∀ k, ¬ On dogs i k := fun hg =>
    hleft (by rw [Slot.abandons, hg, Bool.true_or])
  obtain ⟨session, data, connected, again, mutex, api, tenure⟩ := x
  have howns := h.api_owns
  change (State.mk session mutex api pc).stepApi e = some t at ht
  cases e <;> simp only [State.stepApi] at ht
  case createSession => exact absurd rfl hcreate
  case openEngine ok => exact absurd rfl (hopen ok)
  case finish => exact absurd rfl hfinish
  case call c =>
    split at ht
    · cases ht
      exact h.moved id (by rintro ⟨⟩) (by rintro _ ⟨⟩) (by rintro _ ⟨⟩)
    · cases ht
  case lock =>
    split at ht
    all_goals try cases ht
    all_goals
      split at ht
      · next hfree =>
        cases ht
        exact h.moved (fun hm => by rw [hfree] at hm; cases hm) (fun _ => rfl) (by rintro _ ⟨⟩) (by rintro _ ⟨⟩)
      · cases ht
  case check =>
    split at ht
    · next c =>
      -- the check is made with the mutex held
      have hm : mutex = .api := howns rfl
      split at ht
      · cases ht
        exact h.moved (fun hw => by rw [hm] at hw; cases hw) (by rintro ⟨⟩) (by rintro _ ⟨⟩) (by rintro _ ⟨⟩)
      · next hcheck =>
        split at ht
        · next hstarts =>
          cases ht
          refine h.moved (fun hw => by rw [hm] at hw; cases hw) (by rintro ⟨⟩) (fun _ _ => ?_) (by rintro _ ⟨⟩)
          cases c with
          | launchAndSpawnDaemons | attachAndSpawnDaemons => exact eq_true_of_ne_false hcheck
          | _ => cases hstarts
        · cases ht
          exact h.moved id (fun _ => hm) (by rintro _ ⟨⟩) (by rintro _ ⟨⟩)
    · cases ht
  case send ok =>
    split at ht
    · next c =>
      have hm : mutex = .api := howns rfl
      split at ht
      · cases ht
        exact h.moved id (by rintro ⟨⟩) (by rintro _ ⟨⟩) (by rintro _ ⟨⟩)
      · split at ht
        · cases ht
          exact h.moved id (fun _ => hm) (by rintro _ ⟨⟩) (by rintro _ ⟨⟩)
        · cases ht
    · cases ht
  case test =>
    split at ht
    · next c =>
      have hm : mutex = .api := howns rfl
      cases ht
      refine h.moved id (fun _ => hm) ?_ ?_
      · dsimp only
        split <;> rintro _ ⟨⟩
      · dsimp only
        split
        · next hflag =>
          rintro _ ⟨⟩ hdes
          cases again with
          | false => exact h.test rfl rfl hflag hdes
          | true =>
            refine hleft ?_
            show (_ || (true && (c.flag session && c.destroys))) = true
            rw [hflag, hdes, Bool.and_self, Bool.and_self, Bool.or_true]
        · rintro _ ⟨⟩
    · cases ht
  case wait ok =>
    split at ht
    · next c =>
      have hm : mutex = .api := howns rfl
      split at ht
      · cases ht
        exact h.moved (fun hw => by rw [hm] at hw; cases hw) (by rintro ⟨⟩) (by rintro _ ⟨⟩) (by rintro _ ⟨⟩)
      · next hok =>
        cases ht
        refine h.moved id (fun _ => hm) (by rintro _ ⟨⟩) ?_
        -- a wait that fails gives the session up, which the hypothesis allows only with no watchdog on it
        rintro _ ⟨⟩ hdes
        apply hgives
        rw [Bool.eq_false_iff.mpr hok]
        exact hdes
    · cases ht
  case spurious =>
    split at ht
    · cases ht
      exact h.moved id (by rintro ⟨⟩) (by rintro _ ⟨⟩) (by rintro _ ⟨⟩)
    · cases ht
  case timeout =>
    split at ht
    all_goals try cases ht
    all_goals exact h.moved id (by rintro ⟨⟩) (by rintro _ ⟨⟩) (by rintro _ ⟨⟩)
  case reacquire =>
    split at ht
    · next c late =>
      split at ht
      · next hfree =>
        cases ht
        refine h.moved (fun hm => by rw [hfree] at hm; cases hm) (fun _ => rfl) ?_ ?_
        · unfold Call.resume
          split <;> rintro _ ⟨⟩
        · unfold Call.resume
          split
          · next hout =>
            rintro _ ⟨⟩ hdes
            apply hgives
            cases c with
            | kill | shutdownDaemons =>
              cases late with
              | true => rfl
              | false => cases hout
            | _ => cases hdes
          · rintro _ ⟨⟩
      · cases ht
    · cases ht
  all_goals cases ht

/-- A step of the API that starts no watchdog. -/
theorem SlotInv.stepApi {e : Event} (h : SlotInv i x dogs) (he : e ≠ .openEngine true)
    (hleft : x.abandons e = true → ∀ k, ¬ On dogs i k) (hs : x.stepApi e = some x') :
    SlotInv i x' dogs := by
  cases e <;> simp only [Slot.stepApi] at hs
  case createSession => cases hs
  case openEngine ok =>
    cases ok with
    | true => exact absurd rfl he
    | false =>
      split at hs
      · cases hs
        rw [Bool.or_false, Bool.and_false, Bool.or_false]
        exact h.moved (a := .idle) id (by rintro ⟨⟩) (by rintro _ ⟨⟩) (by rintro _ ⟨⟩)
      · cases hs
  case finish =>
    split at hs
    · next c hapi =>
      split at hs
      · next hdes =>
        cases hs
        exact .vacant (h.finishing c hapi hdes) (by rintro ⟨⟩) (fun _ => ⟨rfl, rfl, rfl⟩)
          (by rintro _ ⟨⟩)
      · have hm := h.api_owns (by rw [hapi]; rfl)
        cases hs
        exact h.moved (by rw [hm]; rintro ⟨⟩) (by rintro ⟨⟩) (by rintro _ ⟨⟩) (by rintro _ ⟨⟩)
    · cases hs
  all_goals
    obtain ⟨t, ht, rfl⟩ := Option.map_eq_some_iff.mp hs
    exact h.stepCall hleft (by rintro ⟨⟩) (by rintro _ ⟨⟩) (by rintro ⟨⟩) ht

/-- A session gets a watchdog. -/
theorem SlotInv.openEngine {n : ℕ} {c : Call} (h : SlotInv i x dogs) (hapi : x.api = .starting c) :
    SlotInv i { x with api := .relocking c, connected := true, again := x.again || x.connected }
      (Function.update dogs n ⟨i, x.tenure, .reading⟩) := by
  have hcases : ∀ k, On (Function.update dogs n ⟨i, x.tenure, .reading⟩) i k → k = n ∨ k ≠ n ∧ On dogs i k := by
    intro k hk
    by_cases hkn : k = n
    · exact Or.inl hkn
    · unfold On at hk
      rw [Function.update_of_ne hkn] at hk
      exact Or.inr ⟨hkn, hk⟩
  -- in a session that has had no engine there is no watchdog, and no flag is set
  have hfirst : (x.again || x.connected) = false → ∀ k, ¬ On dogs i k := by
    intro hno k hk
    rw [(h.tenant k hk).2.2, Bool.or_true] at hno
    cases hno
  have hnew : (x.again || x.connected) = false →
      ∀ k, On (Function.update dogs n ⟨i, x.tenure, .reading⟩) i k → k = n :=
    fun hno k hk => (hcases k hk).resolve_right fun hold => hfirst hno k hold.2
  constructor
  · intro k hk
    rcases hcases k hk with rfl | ⟨hne, hold⟩
    · rw [Function.update_self]
      exact ⟨rfl, h.starting c hapi, rfl⟩
    · rw [Function.update_of_ne hne]
      exact ⟨(h.tenant k hold).1, (h.tenant k hold).2.1, rfl⟩
  · intro k l hk hl hko hlo
    rcases hcases k hk with rfl | ⟨hkn, hkold⟩
    · rw [Function.update_self] at hko
      cases hko
    · rcases hcases l hl with rfl | ⟨hln, hlold⟩
      · rw [Function.update_self] at hlo
        cases hlo
      · rw [Function.update_of_ne hkn] at hko
        rw [Function.update_of_ne hln] at hlo
        exact h.exclusive k l hkold hlold hko hlo
  · intro hno k l hk hl
    rw [hnew hno k hk, hnew hno l hl]
  · intro k hk howns
    rcases hcases k hk with rfl | ⟨hne, hold⟩
    · rw [Function.update_self] at howns
      cases howns
    · rw [Function.update_of_ne hne] at howns
      exact h.dog_owns k hold howns
  · rintro ⟨⟩
  · intro hno k _ hset
    obtain ⟨hkilled, hdetached, -⟩ := h.fresh (Bool.or_eq_false_iff.mp hno).2
    rcases hset with hset | hset
    · rw [show x.session.killed = true from hset] at hkilled
      cases hkilled
    · rw [show x.session.detached = true from hset] at hdetached
      cases hdetached
  · rintro ⟨⟩
  · rintro _ ⟨⟩
  · rintro _ ⟨⟩

/-- The flags that end a wait are set by a critical section after which the watchdog leaves. -/
theorem Session.handle_leaves {d : Session} {m : FetofeType} {ok : Bool} (hk : d.killed = false)
    (hd : d.detached = false) (hset : (d.handle ok m).session.killed = true ∨
      (d.handle ok m).session.detached = true) : (d.handle ok m).leave = true := by
  cases m with
  | detachDone | killDone | stopTracing | bedmonExited | mwdmonExited | exited | terminated
  | stopAtLaunchBpAbort | other => rfl
  | proctableAvail =>
    cases ok with
    | true => rcases hset with hset | hset <;> simp_all [Session.handle]
    | false => rfl
  | _ => rcases hset with hset | hset <;> simp_all [Session.handle]

theorem Session.handle_registered (d : Session) (m : FetofeType) (ok : Bool) :
    (d.handle ok m).session.registered = d.registered := by
  cases m with
  | proctableAvail => cases ok <;> rfl
  | _ => rfl

theorem Api.owns_signalled (a : Api) (h : a.signalled.owns = true) : a.owns = true := by
  cases a with
  | waiting c => cases h
  | _ => exact h

theorem Api.signalled_finishing {c : Call} (a : Api) (h : a.signalled = .finishing c) :
    a = .finishing c := by
  cases a with
  | waiting c => cases h
  | _ => exact h

/-- A step of one watchdog of a slot; no other one has the mutex then. -/
theorem SlotInv.kept {k : ℕ} {t : State} {data : EngineData} (h : SlotInv i x dogs)
    (hk : On dogs i k) (hreg : t.session.registered = x.session.registered)
    (hdog : t.watchdog.owns = true → t.mutex = .watchdog) (hapi : t.api.owns = true → t.mutex = .api)
    (hother : ∀ l, l ≠ k → On dogs i l → (dogs l).pc.owns = true →
      t.mutex = .watchdog ∧ t.watchdog.owns = false)
    (hgone : x.again = false → t.session.killed = true ∨ t.session.detached = true →
      t.watchdog = .unlocking true ∨ t.watchdog = .exited)
    (hfin : ∀ c, t.api = .finishing c → x.api = .finishing c) :
    SlotInv i { x.put t with data := data }
      (Function.update dogs k { dogs k with pc := t.watchdog }) := by
  have hcases : ∀ l, On (Function.update dogs k { dogs k with pc := t.watchdog }) i l →
      l = k ∨ l ≠ k ∧ On dogs i l := by
    intro l hl
    by_cases hlk : l = k
    · exact Or.inl hlk
    · unfold On at hl
      rw [Function.update_of_ne hlk] at hl
      exact Or.inr ⟨hlk, hl⟩
  have hsole : x.again = false →
      ∀ l, On (Function.update dogs k { dogs k with pc := t.watchdog }) i l → l = k :=
    fun hagain l hl => (hcases l hl).elim id fun hold => h.one hagain l k hold.2 hk
  obtain ⟨htenure, hregistered, hconn⟩ := h.tenant k hk
  constructor
  · intro l hl
    rcases hcases l hl with rfl | ⟨hne, hold⟩
    · rw [Function.update_self]
      exact ⟨htenure, hreg.trans hregistered, hconn⟩
    · rw [Function.update_of_ne hne]
      exact ⟨(h.tenant l hold).1, hreg.trans hregistered, hconn⟩
  · intro l l' hl hl' ho ho'
    rcases hcases l hl with rfl | ⟨hne, hold⟩ <;> rcases hcases l' hl' with rfl | ⟨hne', hold'⟩
    · rfl
    · rw [Function.update_self] at ho
      rw [Function.update_of_ne hne'] at ho'
      cases (hother l' hne' hold' ho').2.symm.trans ho
    · rw [Function.update_of_ne hne] at ho
      rw [Function.update_self] at ho'
      cases (hother l hne hold ho).2.symm.trans ho'
    · rw [Function.update_of_ne hne] at ho
      rw [Function.update_of_ne hne'] at ho'
      exact h.exclusive l l' hold hold' ho ho'
  · intro hagain l l' hl hl'
    rw [hsole hagain l hl, hsole hagain l' hl']
  · intro l hl howns
    rcases hcases l hl with rfl | ⟨hne, hold⟩
    · rw [Function.update_self] at howns
      exact hdog howns
    · rw [Function.update_of_ne hne] at howns
      exact (hother l hne hold howns).1
  · exact hapi
  · intro hagain l hl hset
    have hl' := hl
    rw [hsole hagain l hl] at hl' ⊢
    unfold On at hl'
    rw [Function.update_self] at hl' ⊢
    rcases hgone hagain hset with hpc | hpc
    · exact hpc
    · have halive := hl'.2
      unfold Dog.alive at halive
      rw [decide_eq_true_iff] at halive
      exact absurd hpc halive.2
  · intro hc
    rw [show x.connected = false from hc] at hconn
    cases hconn
  · intro c hc
    exact hreg.trans hregistered
  · intro c hc hdes
    exact absurd hk (h.finishing c (hfin c hc) hdes k)

/-- A step of a watchdog, on its slot. -/
theorem SlotInv.stepDog {k : ℕ} {e : Event} {t : State} {data : EngineData} (h : SlotInv i x dogs)
    (hslot : (dogs k).slot = i) (ht : (x.view (dogs k).pc).stepWatchdog e = some t) :
    SlotInv i { x.put t with data := data }
      (Function.update dogs k { dogs k with pc := t.watchdog }) := by
  have halive : ∀ pc, (dogs k).pc = pc → pc ≠ .absent → pc ≠ .exited → On dogs i k := by
    intro pc hpc h1 h2
    refine ⟨hslot, ?_⟩
    unfold Dog.alive
    rw [hpc, decide_eq_true_iff]
    exact ⟨h1, h2⟩
  -- a flag that ends a wait is not set before the one watchdog is done
  have hclear : x.again = false → ∀ pc, (dogs k).pc = pc → On dogs i k → pc ≠ .unlocking true →
      ¬ (x.session.killed = true ∨ x.session.detached = true) := by
    intro hagain pc hpc hk hne hset
    exact hne (hpc.symm.trans (h.gone hagain k hk hset))
  -- while this one is inside of a critical section, no other one is
  have hothers : ∀ pc, (dogs k).pc = pc → pc.owns = true → On dogs i k → ∀ l, l ≠ k → On dogs i l →
      ¬ (dogs l).pc.owns = true := by
    intro pc hpc howns hk l hne hl ho
    exact hne (h.exclusive l k hl hk ho (by rw [hpc]; exact howns))
  have hmutex := h.dog_owns
  obtain ⟨session, dat, connected, again, mutex, api, tenure⟩ := x
  change (State.mk session mutex api (dogs k).pc).stepWatchdog e = some t at ht
  cases e <;> simp only [State.stepWatchdog] at ht
  case read m =>
    split at ht
    · next hpc =>
      have hk := halive _ hpc (by rintro ⟨⟩) (by rintro ⟨⟩)
      cases ht
      have hout : (m.elim .exited Watchdog.dispatch : Watchdog).owns = false := by
        cases m with
        | none => rfl
        | some m => exact Watchdog.dispatch_owns m
      refine h.kept hk rfl (fun ho => ?_) h.api_owns (fun l _ hl ho => ⟨hmutex l hl ho, hout⟩)
        (fun hagain hset => ?_) (fun _ hc => hc)
      · rw [show (m.elim .exited Watchdog.dispatch : Watchdog).owns = true from ho] at hout
        cases hout
      · exact absurd hset (hclear hagain _ hpc hk (by rintro ⟨⟩))
    · cases ht
  case watchdogLock =>
    split at ht
    · next m hpc =>
      have hk := halive _ hpc (by rintro ⟨⟩) (by rintro ⟨⟩)
      split at ht
      · next hfree =>
        cases ht
        refine h.kept hk rfl (fun _ => rfl) (fun ho => ?_) (fun l _ hl ho => ?_) (fun hagain hset => ?_)
          (fun _ hc => hc)
        · have hm : mutex = .api := h.api_owns ho
          rw [hfree] at hm
          cases hm
        · have hm : mutex = .watchdog := hmutex l hl ho
          rw [hfree] at hm
          cases hm
        · exact absurd hset (hclear hagain _ hpc hk (by rintro ⟨⟩))
      · cases ht
    · cases ht
  case handle ok =>
    split at ht
    · next m hpc =>
      have hk := halive _ hpc (by rintro ⟨⟩) (by rintro ⟨⟩)
      have hm := h.dog_owns k hk (by rw [hpc]; rfl)
      cases ht
      refine h.kept hk (Session.handle_registered _ _ _) (fun _ => hm) (fun ho => ?_)
        (fun l hne hl ho => absurd ho (hothers _ hpc rfl hk l hne hl)) (fun hagain hset => ?_) (fun c hc => ?_)
      · have ha : api.owns = true := by
          revert ho
          dsimp only
          split
          · exact api.owns_signalled
          · exact id
        have hm' := h.api_owns ha
        rw [hm] at hm'
        cases hm'
      · have hflags := hclear hagain _ hpc hk (by rintro ⟨⟩)
        rw [not_or, Bool.not_eq_true, Bool.not_eq_true] at hflags
        left
        show Watchdog.unlocking (session.handle ok m).leave = _
        rw [Session.handle_leaves hflags.1 hflags.2 hset]
      · revert hc
        dsimp only
        split
        · exact api.signalled_finishing
        · exact id
    · cases ht
  case watchdogUnlock =>
    split at ht
    · next leave hpc =>
      have hk := halive _ hpc (by rintro ⟨⟩) (by rintro ⟨⟩)
      have hm := h.dog_owns k hk (by rw [hpc]; rfl)
      cases ht
      refine h.kept hk rfl (fun ho => ?_) (fun ho => ?_)
        (fun l hne hl ho => absurd ho (hothers _ hpc rfl hk l hne hl)) (fun hagain hset => ?_) (fun _ hc => hc)
      · cases leave <;> cases ho
      · rw [h.api_owns ho] at hm
        cases hm
      · cases leave with
        | true => exact Or.inr rfl
        | false => exact absurd hset (hclear hagain _ hpc hk (by rintro ⟨⟩))
    · cases ht
  all_goals cases ht

/-! ## All slots -/

/-- What holds in every state: of each slot, and of the watchdogs that there are not yet. -/
structure System.Inv (s : System) : Prop where
  slots : ∀ i, SlotInv i (s.slots i) s.dogs
  unborn : ∀ k, s.started ≤ k → (s.dogs k).pc = .absent

theorem System.Inv.init : System.init.Inv where
  slots i := .vacant (fun k hk => by cases hk.2) (by rintro ⟨⟩) (fun _ => ⟨rfl, rfl, rfl⟩) (by rintro _ ⟨⟩)
  unborn _ _ := rfl

theorem System.Inv.not_on {s : System} (h : s.Inv) {i : ℕ} (hno : ∀ k < s.started, ¬ On s.dogs i k)
    (k : ℕ) : ¬ On s.dogs i k := by
  rcases Nat.lt_or_ge k s.started with hlt | hge
  · exact hno k hlt
  · intro hk
    have halive := hk.2
    unfold Dog.alive at halive
    rw [h.unborn k hge] at halive
    cases halive

/-- One slot changes, and no watchdog. -/
theorem System.Inv.updated {s : System} (h : s.Inv) {i : ℕ} {x : Slot} (hx : SlotInv i x s.dogs) (j : ℕ) :
    SlotInv j (Function.update s.slots i x j) s.dogs := by
  by_cases hj : j = i
  · subst hj
    rw [Function.update_self]
    exact hx
  · rw [Function.update_of_ne hj]
    exact h.slots j

theorem System.Inv.createSession {s s' : System} {ok : Bool} (h : s.Inv)
    (hs : s.createSession ok = some s') : s'.Inv := by
  unfold System.createSession at hs
  dsimp only at hs
  split at hs
  · cases hs
  · split at hs
    · cases hs
      exact h
    · next hreg =>
      rw [not_or, Bool.not_eq_true, Bool.not_eq_false] at hreg
      cases hs
      refine ⟨h.updated ?_, h.unborn⟩
      have hi := h.slots s.sessionPtrIndex
      -- nobody holds a pointer to a descriptor that is free
      refine .vacant (fun k hk => ?_) hi.api_owns hi.fresh (fun _ _ => rfl)
      have hheld := (hi.tenant k hk).2.1
      rw [hreg.1] at hheld
      cases hheld

theorem System.Inv.stepApi {s s' : System} {i : ℕ} {e : Event} (h : s.Inv) (hG : s.Guard (.api i e))
    (hs : s.stepApi i e = some s') : s'.Inv := by
  obtain ⟨x, hx, rfl⟩ := Option.map_eq_some_iff.mp hs
  by_cases he : e = .openEngine true
  · subst he
    rw [if_pos rfl]
    simp only [Slot.stepApi] at hx
    split at hx
    · next c hapi =>
      cases hx
      refine ⟨fun j => ?_, fun k hk => ?_⟩
      · by_cases hj : j = i
        · subst hj
          dsimp only
          rw [Function.update_self, Bool.or_true, Bool.and_true]
          exact (h.slots j).openEngine hapi
        · dsimp only
          rw [Function.update_of_ne hj]
          refine (h.slots j).congr fun k hk => Function.update_of_ne ?_ _ _
          rintro rfl
          unfold On at hk
          rw [Function.update_self] at hk
          exact hj hk.1.symm
      · have hne : k ≠ s.started := by
          have hk' : s.started + 1 ≤ k := hk
          omega
        dsimp only
        rw [Function.update_of_ne hne]
        exact h.unborn k (Nat.le_of_succ_le hk)
    · cases hx
  · rw [if_neg he]
    exact ⟨h.updated ((h.slots i).stepApi he (fun hg => h.not_on (hG hg)) hx), h.unborn⟩

theorem System.Inv.stepDog {s s' : System} {k : ℕ} {e : Event} {msg : EngineData} (h : s.Inv)
    (hs : s.stepDog k e msg = some s') : s'.Inv := by
  obtain ⟨t, ht, rfl⟩ := Option.map_eq_some_iff.mp hs
  refine ⟨fun j => ?_, fun l hl => ?_⟩
  · by_cases hj : j = (s.dogs k).slot
    · subst hj
      dsimp only
      rw [Function.update_self]
      exact (h.slots _).stepDog rfl ht
    · dsimp only
      rw [Function.update_of_ne hj]
      refine (h.slots j).congr fun l hl => Function.update_of_ne ?_ _ _
      rintro rfl
      unfold On at hl
      rw [Function.update_self] at hl
      exact hj hl.1.symm
  · have hne : l ≠ k := by
      rintro rfl
      have habsent := h.unborn l hl
      rw [habsent] at ht
      cases e <;> cases ht
    dsimp only
    rw [Function.update_of_ne hne]
    exact h.unborn l hl

theorem System.Inv.step {s s' : System} {e : SysEvent} (h : s.Inv) (hG : s.Guard e)
    (hs : s.step e = some s') : s'.Inv := by
  cases e with
  | createSession ok => exact h.createSession hs
  | api i e => exact h.stepApi hG hs
  | dog k e msg => exact h.stepDog hs

/-! ## Runs -/

/-- **A live watchdog owns its session.**  In a run where `LMON_fe_kill` and `LMON_fe_shutdownDaemons` give
    their wait up only when the watchdogs have left, and find their flag set in a session with a second
    engine only then, a descriptor is neither granted nor taken back while a watchdog is alive that has a pointer to
    it; and a watchdog changes the descriptor of the session that it was started for and no other. -/
theorem watchdog_owns_session {s : System} (h : Run System.step System.Guard .init s) :
    (∀ k, (s.dogs k).alive = true → (s.slots (s.dogs k).slot).tenure = (s.dogs k).tenure) ∧
    ∀ k e msg s', s.step (.dog k e msg) = some s' → ∀ i, s'.slots i ≠ s.slots i →
      (s.dogs k).slot = i ∧ (s.dogs k).tenure = (s.slots i).tenure := by
  have hinv : s.Inv := h.invariant System.Inv.init fun _ _ _ h hG hs => h.step hG hs
  refine ⟨fun k hk => ((hinv.slots _).tenant k ⟨rfl, hk⟩).1.symm, ?_⟩
  intro k e msg s' hs i hi
  obtain ⟨t, ht, rfl⟩ := Option.map_eq_some_iff.mp hs
  have hslot : (s.dogs k).slot = i := by
    by_contra hne
    exact hi (Function.update_of_ne (Ne.symm hne) _ _)
  have halive : (s.dogs k).alive = true := by
    unfold Dog.alive
    rw [decide_eq_true_iff]
    constructor
    · intro hpc
      rw [hpc] at ht
      cases e <;> cases ht
    · intro hpc
      rw [hpc] at ht
      cases e <;> cases ht
  exact ⟨hslot, ((hinv.slots i).tenant k ⟨hslot, halive⟩).1⟩

/-- A session with an engine. -/
def connecting : List SysEvent :=
  [.createSession true, .api 0 (.call .launchAndSpawnDaemons), .api 0 .lock, .api 0 .check,
    .api 0 (.openEngine true), .api 0 .lock, .api 0 .test, .api 0 (.wait true),
    .dog 0 (.read (some .proctableAvail)) .init, .dog 0 .watchdogLock .init,
    .dog 0 (.handle true) ⟨some ⟨setMsgHeader .fetofe 5 0 0 0 0 0 0 0, []⟩, none, none, -1⟩,
    .dog 0 .watchdogUnlock .init, .api 0 .reacquire, .api 0 .finish]

/-- `LMON_fe_kill` goes to sleep. -/
def sendingKill : List SysEvent :=
  [.api 0 (.call .kill), .api 0 .lock, .api 0 .check, .api 0 (.send true), .api 0 .test,
    .api 0 (.wait true)]

/-- The engine answers in time. -/
def killedInTime : List SysEvent :=
  connecting ++ sendingKill ++ [.dog 0 (.read (some .killDone)) .init, .dog 0 .watchdogLock .init,
    .dog 0 (.handle true) .init, .dog 0 .watchdogUnlock .init, .api 0 .reacquire, .api 0 .test,
    .api 0 .finish]

theorem watchdog_owns_session_inTime :
    ∃ s, runIf System.step System.Guard .init killedInTime = some s ∧ (s.slots 0).tenure = 2 ∧
      (∀ k, (s.dogs k).alive = true → (s.slots (s.dogs k).slot).tenure = (s.dogs k).tenure) ∧
      ∀ k e msg s', s.step (.dog k e msg) = some s' → ∀ i, s'.slots i ≠ s.slots i →
        (s.dogs k).slot = i ∧ (s.dogs k).tenure = (s.slots i).tenure := by
  have hrun : (runIf System.step System.Guard .init killedInTime).map (fun s => (s.slots 0).tenure) =
      some 2 := by decide +kernel
  obtain ⟨s, hs, ht⟩ := Option.map_eq_some_iff.mp hrun
  exact ⟨s, hs, ht, watchdog_owns_session (Run.of_runIf _ hs)⟩

/-- The engine does not answer in time. -/
def killedTooLate : List SysEvent :=
  connecting ++ sendingKill ++ [.api 0 .timeout, .api 0 .reacquire, .api 0 .finish]

/-- The watchdog goes on with the next message. -/
def exitedLater : List SysEvent :=
  [.dog 0 (.read (some .exited)) .init, .dog 0 .watchdogLock .init, .dog 0 (.handle true) .init]

/-- **After a time-out** `LMON_fe_kill` destroys the descriptor under a live watchdog, which then writes
    `killed` into the new one. -/
theorem watchdog_owns_session_counterexample :
    ∃ s s', Run System.step (fun _ _ => True) .init s ∧ (s.dogs 0).alive = true ∧
      (s.slots (s.dogs 0).slot).tenure ≠ (s.dogs 0).tenure ∧ (s.slots 0).session.killed = false ∧
      runAll System.step s exitedLater = some s' ∧ (s'.slots 0).session.killed = true := by
  have hkill : (runAll System.step .init killedTooLate).map (fun s => ((s.dogs 0).alive,
      (s.slots (s.dogs 0).slot).tenure, (s.dogs 0).tenure, (s.slots 0).session.killed)) =
        some (true, 2, 1, false) := by decide +kernel
  have hlater : (runAll System.step .init (killedTooLate ++ exitedLater)).map
      (fun s => (s.slots 0).session.killed) = some true := by decide +kernel
  obtain ⟨s, hs, hobs⟩ := Option.map_eq_some_iff.mp hkill
  obtain ⟨s', hs', hset⟩ := Option.map_eq_some_iff.mp hlater
  rw [runAll_append, hs] at hs'
  rw [Prod.mk.injEq, Prod.mk.injEq, Prod.mk.injEq] at hobs
  obtain ⟨halive, hslot, hdog, hclear⟩ := hobs
  exact ⟨s, s', Run.of_runAll hs, halive, by rw [hslot, hdog]; decide, hclear, hs', hset⟩

end LaunchMON.Frontend
