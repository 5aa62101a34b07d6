/-
  A session and its engine, together.

  The watchdog reads what the engine says, and the engine reads what the calls of the API ask for, over
  one connection.  A state puts the front end (`State`) beside the engine (`Engine.Sys`) with what is
  between them: the requests that the engine has not read, and how many of its messages the watchdog
  has.  A step is a step of one of the two sides, or moves a message; any interleaving is a run.

  The engine's side of a run is a run of the engine, so what it says is a conversation and a completion
  message is the answer to a request (`Link.Sound`).  The front end's side says how far the watchdog has
  come in that conversation (`Joint.Inv`).  Together: the watchdog knows every message it is sent and
  goes only when nothing is left to hear or when it could not take a message, a flag of the session is
  never set for nothing, and an engine that has ended is heard to its end.

  Three messages have a payload, and a handler of the watchdog that may fail: on an empty process table,
  on a resource manager that the front end does not support, for want of memory.  What a handler returns
  is left open.
-/
import LaunchMON.Engine.Messages
import LaunchMON.Frontend.Ownership

namespace LaunchMON.Frontend

open Machine Lmonp

/-! ## The connection -/

/-- The types that have a case in the `switch` of `LMON_fetofe_watchdog_thread`. -/
def fetofeType : FeToFeMsg → FetofeType
  | .stopAtLaunchBpSpawned => .stopAtLaunchBpSpawned
  | .stopAtFirstAttach => .stopAtFirstAttach
  | .proctableAvail => .proctableAvail
  | .resourcehandleAvail => .resourcehandleAvail
  | .rminfo => .rminfo
  | .detachDone => .detachDone
  | .killDone => .killDone
  | .stopTracing => .stopTracing
  | .bedmonExited => .bedmonExited
  | .mwdmonExited => .mwdmonExited
  | .exited => .exited
  | .terminated => .terminated
  | .stopAtLaunchBpAbort => .stopAtLaunchBpAbort
  | _ => .other

/-- The messages with a payload, for which the watchdog has a handler that may fail. -/
def FetofeType.hasHandler : FetofeType → Bool
  | .proctableAvail | .resourcehandleAvail | .rminfo => true
  | _ => false

/-- The request that a call writes to the engine. -/
def Call.request : Call → Option FeToFeMsg
  | .detach => some .detach
  | .kill => some .kill
  | .shutdownDaemons => some .shutdownbe
  | .launchAndSpawnDaemons | .attachAndSpawnDaemons => none

/-- `commDesc[fe_engine_conn]`, from both ends: what the engine has not read yet, all that the front
    end has written, the number of messages that the watchdog has read, whether one of its handlers has
    failed, and whether the front end has closed its end.  `before` is the session when the engine was
    accepted. -/
structure Link where
  cfg : Engine.Config
  engine : Engine.Sys
  inbox : List FeToFeMsg
  asked : List FeToFeMsg
  heard : Nat
  failed : Bool
  closed : Bool
  before : Session

/-- What the engine has said, its acknowledgement of the connection aside. -/
def Link.said (l : Link) : List FeToFeMsg := Engine.messages l.engine.w.log

def Link.write (l : Link) (m : FeToFeMsg) : Link :=
  { l with inbox := l.inbox ++ [m], asked := l.asked ++ [m] }

/-- The front end's end of the connection after a move of its own; `LMON_destroy_sess` closes it, and a
    handler of the watchdog that fails is remembered. -/
def Link.after (l : Link) (s : State) : Event → Link
  | .handle false =>
    match s.watchdog with
    | .holding m => { l with failed := l.failed || m.hasHandler }
    | _ => l
  | .send true =>
    match s.api with
    | .sending c => c.request.elim l l.write
    | _ => l
  | .finish =>
    match s.api with
    | .finishing c => { l with closed := l.closed || c.destroys }
    | _ => l
  | _ => l

/-! ## The steps -/

structure Joint where
  fe : State
  link : Option Link

/-- What happens next.  `openEngine` is `LMON_fe_acceptEngine` with an engine that has just begun its
    loop, `contLaunchBp` the request that `LMON_fe_beHandshakeSequence` writes; with `hangUp` the engine
    finds the connection closed. -/
inductive Act
  | fe (e : Event)
  | openEngine (cfg : Engine.Config) (T : Engine.Target)
  | contLaunchBp
  | read
  | endOfFile
  | engine (a : Engine.Label)
  | receive
  | hangUp

/-- Moves of the front end that need nothing from the engine; a request needs a connection. -/
def Joint.permits (s : Joint) : Event → Bool
  | .openEngine ok => !ok
  | .read _ => false
  | .send true => s.link.any fun l => !l.closed
  | _ => true

/-- The engine reads its end of the connection. -/
def readsFe : Engine.Label → Bool
  | .fe _ => true
  | _ => false

def Joint.step (s : Joint) : Act → Option Joint
  | .fe e => do
    guard (s.permits e = true)
    let fe ← s.fe.step e
    some ⟨fe, s.link.map fun l => l.after s.fe e⟩
  | .openEngine cfg T => do
    let fe ← s.fe.step (.openEngine true)
    some ⟨fe, some ⟨cfg, .start cfg T, [], [], 0, false, false, s.fe.session⟩⟩
  | .contLaunchBp => do
    let l ← s.link
    guard (s.fe.api = .idle ∧ l.closed = false)
    some { s with link := some (l.write .contLaunchBp) }
  | .read => do
    let l ← s.link
    let m ← l.said[l.heard]?
    let fe ← s.fe.step (.read (some (fetofeType m)))
    some ⟨fe, some { l with heard := l.heard + 1 }⟩
  | .endOfFile => do
    let l ← s.link
    guard (l.closed = true ∨ l.engine.mode = .ended ∧ l.heard = l.said.length)
    let fe ← s.fe.step (.read none)
    some { s with fe := fe }
  | .engine a => do
    let l ← s.link
    guard (readsFe a = false)
    let e ← l.engine.step l.cfg a
    some { s with link := some { l with engine := e } }
  | .receive => do
    let l ← s.link
    let m ← l.inbox.head?
    let e ← l.engine.step l.cfg (.fe (.msg m))
    some { s with link := some { l with engine := e, inbox := l.inbox.tail } }
  | .hangUp => do
    let l ← s.link
    guard (l.closed = true)
    let e ← l.engine.step l.cfg (.fe .disconnected)
    some { s with link := some { l with engine := e } }

/-- Before the first call. -/
def Joint.init : Joint := ⟨.init, none⟩

/-- An engine begins with a launcher that it traces. -/
def Joint.Guard (_ : Joint) : Act → Prop
  | .openEngine cfg T => Engine.Launched cfg T
  | _ => True

/-! ## The engine's side -/

/-- The request of the front end that the engine has recorded, if it was one. -/
def asks : Engine.Request → Option FeToFeMsg
  | .detach => some .detach
  | .shutdown => some .shutdownbe
  | .kill => some .kill
  | .disconnect | .daemonExit | .engineSignal => none

/-- The engine is in a run of its own, and knows only what the front end has asked. -/
structure Link.Sound (l : Link) : Prop where
  run : ∃ s₀, Engine.Initial l.cfg s₀ ∧ Engine.Run l.cfg (fun _ _ => True) s₀ l.engine
  inbox : ∀ m ∈ l.inbox, m ∈ l.asked
  records : ∀ r m, l.engine.w.proc.Records r → asks r = some m → m ∈ l.asked
  heard : l.heard ≤ l.said.length

/-- A step takes back nothing of what the engine has said. -/
theorem Link.Sound.grows {l : Link} (h : l.Sound) {a : Engine.Label} {e : Engine.Sys}
    (hs : l.engine.step l.cfg a = some e) :
    ∃ ms, Engine.messages e.w.log = l.said ++ ms := by
  obtain ⟨s₀, h₀, hrun⟩ := h.run
  exact (Engine.Sys.step_messages (Engine.Run.kin h₀ hrun (Engine.Sys.step_alive hs)).1 hs).1

theorem Link.Sound.conversed {l : Link} (h : l.Sound) : l.engine.Conversed l.cfg := by
  obtain ⟨s₀, h₀, hrun⟩ := h.run
  exact Engine.Sys.Conversed.of_run h₀ hrun

/-- A request that is pending is recorded. -/
theorem Link.Sound.recorded {l : Link} (h : l.Sound) (hreq : l.engine.w.proc.requested = true) :
    ∃ r, l.engine.w.proc.Records r := by
  obtain ⟨s₀, h₀, hrun⟩ := h.run
  cases Engine.Phase.of_run h₀ hrun with
  | none hnone =>
    rw [hnone] at hreq
    cases hreq
  | pending r _ hr => exact ⟨r, hr⟩
  | answered r _ hr => exact ⟨r, hr⟩

/-- A request of the front end is a message of the front end. -/
theorem request_asks {cfg : Engine.Config} {a : Engine.Label} {r : Engine.Request} {m : FeToFeMsg}
    (ha : a.request cfg = some r) (hm : asks r = some m) : a = .fe (.msg m) := by
  cases a with
  | fe i =>
    cases i with
    | msg t =>
      cases t <;> simp only [Engine.Label.request, reduceCtorEq, Option.ite_none_right_eq_some] at ha
      all_goals
        obtain ⟨-, rfl⟩ := (by simpa using ha : cfg.apiMode = true ∧ _ = r)
        cases hm
        rfl
    | disconnected =>
      obtain ⟨-, rfl⟩ := (by simpa [Engine.Label.request] using ha : cfg.apiMode = true ∧ _ = r)
      cases hm
    | illFormed => cases ha
  | pollTool =>
    obtain ⟨-, rfl⟩ := (by simpa [Engine.Label.request] using ha : cfg.failDetectSup = true ∧ _ = r)
    cases hm
  | signal =>
    cases ha
    cases hm
  | env | poll | idle => cases ha

/-- The engine takes a step, and if it reads a message then one that has been asked. -/
theorem Link.Sound.engine {l : Link} (h : l.Sound) {a : Engine.Label} {e : Engine.Sys}
    (hs : l.engine.step l.cfg a = some e) (ha : ∀ m, a = .fe (.msg m) → m ∈ l.asked) :
    Link.Sound { l with engine := e } where
  run := by
    obtain ⟨s₀, h₀, hrun⟩ := h.run
    exact ⟨s₀, h₀, hrun.step trivial hs⟩
  inbox := h.inbox
  records r m hr hm := by
    rcases Engine.step_outcome hs with hq | ⟨r', hreq, -, hr', -⟩ | ⟨hreq, -, hrep⟩
    · exact h.records r m ⟨hq.kill ▸ hr.1, hq.detach ▸ hr.2.1, hq.reason ▸ hr.2.2⟩ hm
    · -- the step has made the request, so it has read it
      cases hr.unique hr'
      exact ha m (request_asks hreq hm)
    · -- the step has answered the request that was there
      obtain ⟨r₀, hr₀⟩ := h.recorded hreq
      have hr' : e.w.proc.Records r₀ := (hrep r₀ hr₀).elim (fun hq => hq.records hr₀) And.left
      cases hr.unique hr'
      exact h.records r m hr₀ hm
  heard := by
    obtain ⟨ms, hms⟩ := h.grows hs
    show l.heard ≤ (Engine.messages e.w.log).length
    rw [hms, List.length_append]
    exact Nat.le_add_right_of_le h.heard

/-- An engine reads the head of its inbox. -/
theorem Link.Sound.receive {l : Link} (h : l.Sound) {m : FeToFeMsg} {e : Engine.Sys}
    (hm : l.inbox.head? = some m) (hs : l.engine.step l.cfg (.fe (.msg m)) = some e) :
    Link.Sound { l with engine := e, inbox := l.inbox.tail } := by
  have he : Link.Sound { l with engine := e } := h.engine hs fun m' hm' => by
    cases hm'
    exact h.inbox m (List.mem_of_mem_head? hm)
  exact ⟨he.run, fun m hm => h.inbox m (List.mem_of_mem_tail hm), he.records, he.heard⟩

theorem Link.Sound.write {l : Link} (h : l.Sound) (m : FeToFeMsg) : (l.write m).Sound where
  run := h.run
  inbox m' hm' := by
    rcases List.mem_append.mp hm' with hm' | hm'
    · exact List.mem_append_left _ (h.inbox m' hm')
    · exact List.mem_append_right _ hm'
  records r m' hr hm' := List.mem_append_left _ (h.records r m' hr hm')
  heard := h.heard

theorem Link.Sound.after {l : Link} (h : l.Sound) (s : State) (e : Event) : (l.after s e).Sound := by
  unfold Link.after
  split
  · split
    · exact ⟨h.run, h.inbox, h.records, h.heard⟩
    · exact h
  · split
    · rename_i c _
      cases c.request with
      | none => exact h
      | some m => exact h.write m
    · exact h
  · split
    · exact ⟨h.run, h.inbox, h.records, h.heard⟩
    · exact h
  · exact h

theorem Link.Sound.opened {cfg : Engine.Config} {T : Engine.Target} (h : Engine.Launched cfg T)
    (d : Session) : Link.Sound ⟨cfg, .start cfg T, [], [], 0, false, false, d⟩ where
  run := ⟨_, ⟨T, h, rfl⟩, .refl⟩
  inbox m hm := by cases hm
  records r m hr hm := by
    have hreq : Engine.Process.requested (.start cfg) = true := hr.requested
    cases hreq
  heard := Nat.le_refl 0

/-! ## What the messages mean -/

/-- The watchdog leaves its loop with the message. -/
def leavesWith (m : FeToFeMsg) : Bool := (Session.init.handle true (fetofeType m)).leave

/-- The watchdog knows what it is sent, and goes with the messages that close. -/
theorem Link.Sound.known {l : Link} (h : l.Sound) {m : FeToFeMsg} (hm : m ∈ l.said) :
    fetofeType m ≠ .other ∧ leavesWith m = Engine.closes m := by
  obtain ⟨closed, hconv, -⟩ := h.conversed
  rcases hconv.mem hm with hm | hm | hm
  · have : ∀ m ∈ Engine.announcement .stopAtFirstAttach,
        fetofeType m ≠ .other ∧ leavesWith m = Engine.closes m := by decide
    exact this m hm
  · have : ∀ m ∈ Engine.announcement .stopAtLaunchBpSpawned,
        fetofeType m ≠ .other ∧ leavesWith m = Engine.closes m := by decide
    exact this m hm
  · revert hm
    cases m <;> decide

/-- The answer to a kill is sent only where a kill has been asked, -/
theorem Link.Sound.killDone {l : Link} (h : l.Sound) (hm : .killDone ∈ l.said) : .kill ∈ l.asked := by
  obtain ⟨s₀, h₀, hrun⟩ := h.run
  obtain ⟨r, hr, hreply⟩ := Engine.replied_of_run h₀ hrun hm rfl
  cases r <;> cases hreply
  exact h.records .kill _ hr rfl

/-- and that to a detach where a detach or a shutdown has been. -/
theorem Link.Sound.detachDone {l : Link} (h : l.Sound) (hm : .detachDone ∈ l.said) :
    .detach ∈ l.asked ∨ .shutdownbe ∈ l.asked := by
  obtain ⟨s₀, h₀, hrun⟩ := h.run
  obtain ⟨r, hr, hreply⟩ := Engine.replied_of_run h₀ hrun hm rfl
  cases r <;> cases hreply
  · exact Or.inl (h.records .detach _ hr rfl)
  · exact Or.inr (h.records .shutdown _ hr rfl)

/-! ## The front end's side -/

/-- The flags that messages set. -/
inductive Flag
  | spawned
  | detached
  | killed

def Session.get (d : Session) : Flag → Bool
  | .spawned => d.spawned
  | .detached => d.detached
  | .killed => d.killed

/-- The message sets the flag. -/
def sets (m : FeToFeMsg) (f : Flag) : Bool := (Session.init.handle true (fetofeType m)).session.get f

/-- A move of the front end that needs nothing from the engine. -/
inductive State.Moves (s s' : State) (e : Event) : Prop
  | api (hw : s'.watchdog = s.watchdog) (hd : ∀ f, s'.session.get f = true → s.session.get f = true)
  | lock (m : FetofeType) (hw : s.watchdog = .locking m) (hw' : s'.watchdog = .holding m)
      (hd : s'.session = s.session)
  | handle (m : FetofeType) (ok : Bool) (he : e = .handle ok) (hw : s.watchdog = .holding m)
      (hw' : s'.watchdog = .unlocking (s.session.handle ok m).leave)
      (hd : s'.session = (s.session.handle ok m).session)
  | unlock (leave : Bool) (hw : s.watchdog = .unlocking leave)
      (hw' : s'.watchdog = if leave then .exited else .reading) (hd : s'.session = s.session)

theorem State.stepApi_moves {s s' : State} {e : Event} (he : e ≠ .openEngine true)
    (h : s.stepApi e = some s') : s.Moves s' e := by
  cases e <;> simp only [State.stepApi] at h
  case createSession =>
    split at h
    · cases h
      exact .api rfl fun f => by cases f <;> exact id
    · cases h
  case finish =>
    split at h
    · rename_i c _
      cases h
      refine .api rfl fun f => ?_
      cases c <;> cases f <;> first | exact id | exact Bool.noConfusion
    · cases h
  case openEngine ok =>
    cases ok with
    | true => exact absurd rfl he
    | false =>
      split at h
      · cases h
        exact .api rfl fun _ => id
      · cases h
  all_goals
    repeat' split at h
    all_goals first
      | (cases h; exact .api rfl fun _ => id)
      | cases h

theorem State.stepWatchdog_moves {s s' : State} {e : Event} (hr : ∀ m, e ≠ .read m)
    (h : s.stepWatchdog e = some s') : s.Moves s' e := by
  cases e <;> simp only [State.stepWatchdog] at h
  case read m => exact absurd rfl (hr m)
  case watchdogLock =>
    split at h
    · rename_i m hw
      split at h
      · cases h
        exact .lock m hw rfl rfl
      · cases h
    · cases h
  case handle ok =>
    split at h
    · rename_i m hw
      cases h
      exact .handle m ok rfl hw rfl rfl
    · cases h
  case watchdogUnlock =>
    split at h
    · rename_i leave hw
      cases h
      exact .unlock leave hw rfl rfl
    · cases h
  all_goals cases h

theorem Joint.fe_moves {s : Joint} {fe : State} {e : Event} (hp : s.permits e = true)
    (h : s.fe.step e = some fe) : s.fe.Moves fe e := by
  have hr : ∀ m, e ≠ .read m := by
    rintro m rfl
    cases hp
  have ho : e ≠ .openEngine true := by
    rintro rfl
    cases hp
  unfold State.step at h
  split at h
  · exact State.stepWatchdog_moves hr h
  · exact State.stepWatchdog_moves hr h
  · exact State.stepWatchdog_moves hr h
  · exact State.stepWatchdog_moves hr h
  · exact State.stepApi_moves ho h

/-- The engine has ended, and the watchdog has read all that it has said. -/
def Link.Finished (l : Link) : Prop := l.engine.mode = .ended ∧ l.heard = l.said.length

/-- Where the watchdog stands is where the messages that it has read have brought it. -/
def Link.Follows (l : Link) : Watchdog → Prop
  | .absent => False
  | .reading => True
  | .locking t | .holding t => ∃ k m, l.heard = k + 1 ∧ l.said[k]? = some m ∧ fetofeType m = t
  | .unlocking leave => leave = true → l.failed = true ∨ l.Finished
  | .exited => l.closed = true ∨ l.failed = true ∨ l.Finished

/-- A flag was there when the connection was opened, or a message that has been read sets it. -/
def Link.Explains (l : Link) (d : Session) : Prop :=
  ∀ f, d.get f = true → l.before.get f = true ∨ ∃ m ∈ l.said.take l.heard, sets m f = true

structure Joint.Inv (s : Joint) : Prop where
  unlinked : s.link = none → s.fe.watchdog = .absent
  linked : ∀ l, s.link = some l → l.Sound ∧ l.Follows s.fe.watchdog ∧ l.Explains s.fe.session

theorem Link.after_eq (l : Link) (s : State) (e : Event) : ∃ inbox asked failed closed,
    l.after s e =
        { l with inbox := inbox, asked := asked, failed := failed, closed := closed } ∧
      (l.failed = true → failed = true) ∧ (l.closed = true → closed = true) := by
  unfold Link.after
  split
  · split
    · exact ⟨_, _, _, _, rfl, fun h => by rw [h, Bool.true_or], id⟩
    · exact ⟨_, _, _, _, rfl, id, id⟩
  · split
    · rename_i c _
      cases c.request with
      | none => exact ⟨_, _, _, _, rfl, id, id⟩
      | some m => exact ⟨_, _, _, _, rfl, id, id⟩
    · exact ⟨_, _, _, _, rfl, id, id⟩
  · split
    · exact ⟨_, _, _, _, rfl, id, fun h => by rw [h, Bool.true_or]⟩
    · exact ⟨_, _, _, _, rfl, id, id⟩
  · exact ⟨_, _, _, _, rfl, id, id⟩

/-- What the front end writes, or that it closes its end, changes nothing of what has been heard. -/
theorem Link.Follows.after {l : Link} {w : Watchdog} (h : l.Follows w) (s : State) (e : Event) :
    (l.after s e).Follows w := by
  obtain ⟨inbox, asked, failed, closed, heq, hf, hc⟩ := l.after_eq s e
  rw [heq]
  cases w with
  | exited => exact h.imp hc (Or.imp_left hf)
  | unlocking leave => exact fun hleave => (h hleave).imp_left hf
  | _ => exact h

theorem Link.Follows.write {l : Link} {w : Watchdog} (h : l.Follows w) (m : FeToFeMsg) :
    (l.write m).Follows w := by
  cases w <;> exact h

theorem Link.Explains.after {l : Link} {d : Session} (h : l.Explains d) (s : State) (e : Event) :
    (l.after s e).Explains d := by
  obtain ⟨inbox, asked, failed, closed, heq, -, -⟩ := l.after_eq s e
  rw [heq]
  exact h

/-- The watchdog leaves with a message because of its type, or because its handler has failed. -/
theorem Session.handle_leave {d : Session} {ok : Bool} {m : FetofeType}
    (h : (d.handle ok m).leave = true) :
    (Session.init.handle true m).leave = true ∨ ok = false ∧ m.hasHandler = true := by
  cases ok <;> cases m <;> first | exact Or.inl rfl | exact Or.inr ⟨rfl, rfl⟩ | cases h

/-- A handler that fails sets no flag. -/
theorem Session.handle_get {d : Session} {ok : Bool} {m : FetofeType} {f : Flag}
    (h : (d.handle ok m).session.get f = true) :
    d.get f = true ∨ (Session.init.handle true m).session.get f = true := by
  cases ok <;> cases m <;> cases f <;> first | exact Or.inl h | exact Or.inr rfl | cases h

/-- The watchdog in its critical section. -/
theorem Link.Sound.moved {l : Link} (h : l.Sound) {s s' : State} {e : Event}
    (hf : l.Follows s.watchdog) (hx : l.Explains s.session) (hs : s.Moves s' e) :
    (l.after s e).Follows s'.watchdog ∧ (l.after s e).Explains s'.session := by
  cases hs with
  | api hw hd => exact ⟨(hw ▸ hf).after s e, Link.Explains.after (fun f hf' => hx f (hd f hf')) s e⟩
  | lock t hw hw' hd =>
    rw [hw] at hf
    rw [hw', hd]
    exact ⟨Link.Follows.after (w := .holding t) hf s e, hx.after s e⟩
  | handle t ok he hw hw' hd =>
    subst he
    rw [hw] at hf
    obtain ⟨k, m, hk, hm, rfl⟩ := hf
    have hmem : m ∈ l.said.take l.heard := by
      rw [hk]
      exact List.mem_of_getElem? (by rwa [List.getElem?_take_of_lt (Nat.lt_succ_self k)])
    rw [hw', hd]
    constructor
    · intro hleave
      rcases Session.handle_leave hleave with hleave | ⟨rfl, hhandler⟩
      · -- a message with which the watchdog leaves closes the conversation
        have hclose := (h.known (List.mem_of_getElem? hm)).2.symm.trans hleave
        obtain ⟨hended, hlast⟩ := h.conversed.closes_last hm hclose
        obtain ⟨inbox, asked, failed, closed, heq, -, -⟩ := l.after_eq s (.handle ok)
        rw [heq]
        exact Or.inr ⟨hended, hk.trans hlast⟩
      · refine Or.inl ?_
        simp only [Link.after, hw, hhandler, Bool.or_true]
    · exact Link.Explains.after (fun f hf' => (Session.handle_get hf').elim (hx f) fun hsets =>
        Or.inr ⟨m, hmem, hsets⟩) s _
  | unlock leave hw hw' hd =>
    rw [hw] at hf
    rw [hw', hd]
    refine ⟨Link.Follows.after ?_ s e, hx.after s e⟩
    cases leave with
    | true => exact Or.inr (hf rfl)
    | false => trivial

/-! ## One step -/

/-- An engine that takes a step has not ended, and takes back nothing of what it has said. -/
theorem Link.grows {l : Link} {d : Session} {w : Watchdog} (h : l.Sound) (hf : l.Follows w)
    (hx : l.Explains d) {a : Engine.Label} {e : Engine.Sys} (hs : l.engine.step l.cfg a = some e)
    (inbox : List FeToFeMsg) : Link.Follows { l with engine := e, inbox := inbox } w ∧
      Link.Explains { l with engine := e, inbox := inbox } d := by
  have halive : ¬ l.Finished := fun hfin => Engine.Sys.step_alive hs hfin.1
  have hleft : l.failed = true ∨ l.Finished → l.failed = true := fun h => h.resolve_right halive
  obtain ⟨ms, hms⟩ := h.grows hs
  have hgrow : Link.said { l with engine := e, inbox := inbox } = l.said ++ ms := hms
  have hlater : ∀ t, (∃ k m, l.heard = k + 1 ∧ l.said[k]? = some m ∧ fetofeType m = t) →
      ∃ k m, l.heard = k + 1 ∧ (l.said ++ ms)[k]? = some m ∧ fetofeType m = t := by
    rintro t ⟨k, m, hk, hm, ht⟩
    exact ⟨k, m, hk, by rw [List.getElem?_append_left (List.getElem?_eq_some_iff.mp hm).1, hm], ht⟩
  constructor
  · cases w with
    | absent => exact hf
    | reading => trivial
    | locking t =>
      show ∃ k m, l.heard = k + 1 ∧ _ ∧ _
      rw [hgrow]
      exact hlater t hf
    | holding t =>
      show ∃ k m, l.heard = k + 1 ∧ _ ∧ _
      rw [hgrow]
      exact hlater t hf
    | unlocking leave => exact fun hleave => Or.inl (hleft (hf hleave))
    | exited => exact hf.imp_right fun h => Or.inl (hleft h)
  · intro f hd
    show _ ∨ ∃ m ∈ (Link.said { l with engine := e, inbox := inbox }).take l.heard, _
    rw [hgrow, List.take_append_of_le_length h.heard]
    exact hx f hd

/-- The watchdog takes the next message, and knows it. -/
theorem Link.Sound.dispatched {l : Link} (h : l.Sound) {m : FeToFeMsg}
    (hm : l.said[l.heard]? = some m) :
    Link.Follows { l with heard := l.heard + 1 } (Watchdog.dispatch (fetofeType m)) := by
  have hknown := (h.known (List.mem_of_getElem? hm)).1
  have hlock : ∃ k m', l.heard + 1 = k + 1 ∧ l.said[k]? = some m' ∧ fetofeType m' = fetofeType m :=
    ⟨l.heard, m, rfl, hm, rfl⟩
  cases ht : fetofeType m with
  | other => exact absurd ht hknown
  | stopAtLaunchBpSpawned => trivial
  | stopAtFirstAttach => trivial
  | _ =>
    rw [ht] at hlock
    exact hlock

theorem Link.Explains.later {l : Link} {d : Session} (h : l.Explains d) :
    Link.Explains { l with heard := l.heard + 1 } d := by
  intro f hd
  refine (h f hd).imp id fun ⟨m, hm, hset⟩ => ⟨m, ?_, hset⟩
  exact (List.take_subset_take_left _ (Nat.le_succ l.heard)) hm

theorem State.step_read {s s' : State} {m : Option FetofeType} (h : s.step (.read m) = some s') :
    s.watchdog = .reading ∧ s' = { s with watchdog := m.elim .exited Watchdog.dispatch } := by
  simp only [State.step, State.stepWatchdog] at h
  split at h
  · cases h
    exact ⟨‹_›, rfl⟩
  · cases h

theorem State.step_openEngine {s s' : State} (h : s.step (.openEngine true) = some s') :
    s'.watchdog = .reading ∧ s'.session = s.session := by
  simp only [State.step, State.stepApi] at h
  split at h
  · rw [if_neg (by decide)] at h
    split at h
    · cases h
      exact ⟨rfl, rfl⟩
    · cases h
  · cases h

theorem Joint.Inv.linked_iff {fe : State} {l : Link} :
    Joint.Inv ⟨fe, some l⟩ ↔ l.Sound ∧ l.Follows fe.watchdog ∧ l.Explains fe.session := by
  constructor
  · exact fun h => h.linked l rfl
  · intro h
    refine ⟨fun hn => (by cases hn), fun l' hl' => ?_⟩
    cases hl'
    exact h

/-- **A step** of either side, or of a message between them. -/
theorem Joint.Inv.step {s s' : Joint} {a : Act} (h : s.Inv) (hG : s.Guard a)
    (hs : s.step a = some s') : s'.Inv := by
  obtain ⟨fe, link⟩ := s
  cases a with
  | fe e =>
    obtain ⟨hp, hs⟩ := Engine.guard_bind_eq_some.mp hs
    obtain ⟨fe', hfe, hs⟩ := Option.bind_eq_some_iff.mp hs
    cases hs
    have hmoves := Joint.fe_moves hp hfe
    cases link with
    | none =>
      refine ⟨fun _ => ?_, fun l hl => by cases hl⟩
      have habsent : fe.watchdog = .absent := h.unlinked rfl
      cases hmoves with
      | api hw => exact hw.trans habsent
      | lock _ hw | handle _ _ _ hw | unlock _ hw =>
        rw [habsent] at hw
        cases hw
    | some l =>
      obtain ⟨hsound, hf, hx⟩ := Joint.Inv.linked_iff.mp h
      exact Joint.Inv.linked_iff.mpr ⟨hsound.after fe e, hsound.moved hf hx hmoves⟩
  | openEngine cfg T =>
    obtain ⟨fe', hfe, hs⟩ := Option.bind_eq_some_iff.mp hs
    cases hs
    obtain ⟨hw, hd⟩ := State.step_openEngine hfe
    refine Joint.Inv.linked_iff.mpr ⟨.opened hG _, by rw [hw]; trivial, fun f hf => Or.inl ?_⟩
    rwa [hd] at hf
  | contLaunchBp =>
    obtain ⟨l, rfl, hs⟩ := Option.bind_eq_some_iff.mp hs
    obtain ⟨-, hs⟩ := Engine.guard_bind_eq_some.mp hs
    cases hs
    obtain ⟨hsound, hf, hx⟩ := Joint.Inv.linked_iff.mp h
    exact Joint.Inv.linked_iff.mpr ⟨hsound.write _, hf.write _, hx⟩
  | read =>
    obtain ⟨l, rfl, hs⟩ := Option.bind_eq_some_iff.mp hs
    obtain ⟨m, hm, hs⟩ := Option.bind_eq_some_iff.mp hs
    obtain ⟨fe', hfe, hs⟩ := Option.bind_eq_some_iff.mp hs
    cases hs
    obtain ⟨hsound, hf, hx⟩ := Joint.Inv.linked_iff.mp h
    obtain ⟨-, rfl⟩ := State.step_read hfe
    have hlt : l.heard < l.said.length := (List.getElem?_eq_some_iff.mp hm).1
    exact Joint.Inv.linked_iff.mpr
      ⟨⟨hsound.run, hsound.inbox, hsound.records, hlt⟩, hsound.dispatched hm, hx.later⟩
  | endOfFile =>
    obtain ⟨l, rfl, hs⟩ := Option.bind_eq_some_iff.mp hs
    obtain ⟨heof, hs⟩ := Engine.guard_bind_eq_some.mp hs
    obtain ⟨fe', hfe, hs⟩ := Option.bind_eq_some_iff.mp hs
    cases hs
    obtain ⟨hsound, hf, hx⟩ := Joint.Inv.linked_iff.mp h
    obtain ⟨-, rfl⟩ := State.step_read hfe
    exact Joint.Inv.linked_iff.mpr ⟨hsound, heof.imp_right Or.inr, hx⟩
  | engine a =>
    obtain ⟨l, rfl, hs⟩ := Option.bind_eq_some_iff.mp hs
    obtain ⟨ha, hs⟩ := Engine.guard_bind_eq_some.mp hs
    obtain ⟨e, he, hs⟩ := Option.bind_eq_some_iff.mp hs
    cases hs
    obtain ⟨hsound, hf, hx⟩ := Joint.Inv.linked_iff.mp h
    obtain ⟨hf', hx'⟩ := Link.grows hsound hf hx he l.inbox
    refine Joint.Inv.linked_iff.mpr ⟨hsound.engine he fun m hm => ?_, hf', hx'⟩
    cases hm
    cases ha
  | receive =>
    obtain ⟨l, rfl, hs⟩ := Option.bind_eq_some_iff.mp hs
    obtain ⟨m, hm, hs⟩ := Option.bind_eq_some_iff.mp hs
    obtain ⟨e, he, hs⟩ := Option.bind_eq_some_iff.mp hs
    cases hs
    obtain ⟨hsound, hf, hx⟩ := Joint.Inv.linked_iff.mp h
    obtain ⟨hf', hx'⟩ := Link.grows hsound hf hx he l.inbox.tail
    exact Joint.Inv.linked_iff.mpr ⟨hsound.receive hm he, hf', hx'⟩
  | hangUp =>
    obtain ⟨l, rfl, hs⟩ := Option.bind_eq_some_iff.mp hs
    obtain ⟨-, hs⟩ := Engine.guard_bind_eq_some.mp hs
    obtain ⟨e, he, hs⟩ := Option.bind_eq_some_iff.mp hs
    cases hs
    obtain ⟨hsound, hf, hx⟩ := Joint.Inv.linked_iff.mp h
    obtain ⟨hf', hx'⟩ := Link.grows hsound hf hx he l.inbox
    exact Joint.Inv.linked_iff.mpr ⟨hsound.engine he fun m hm => (by cases hm), hf', hx'⟩

/-! ## A session that attaches and detaches -/

/-- The watchdog takes a message for which it needs the mutex. -/
def takes : List Act := [.read, .fe .watchdogLock, .fe (.handle true), .fe .watchdogUnlock]

/-- The front end attaches to a launcher of one task, the engine announces the task, and a detach is
    asked for and answered; the answer has not been read. -/
def attaching : List Act :=
  [.fe .createSession, .fe (.call .attachAndSpawnDaemons), .fe .lock, .fe .check,
    .openEngine Engine.attachedSample (Engine.sampleTarget 0x1010 Engine.oneTask),
    .engine (.poll 100)] ++ takes ++ [.fe .lock, .fe .test, .fe .finish] ++ takes ++ takes ++
  [.read, .fe (.call .detach), .fe .lock, .fe .check, .fe (.send true), .fe .test, .fe (.wait true),
    .receive, .engine (.env (.signal 100 Engine.sigstop)), .engine (.poll 100)]

/-- What a run shows of its last state. -/
structure Seen where
  fe : State
  said : List FeToFeMsg
  asked : List FeToFeMsg
  heard : Nat
  failed : Bool
  closed : Bool
  mode : Engine.Mode
  before : Session
  deriving DecidableEq

def Joint.seen (s : Joint) : Option Seen := s.link.map fun l =>
  ⟨s.fe, l.said, l.asked, l.heard, l.failed, l.closed, l.engine.mode, l.before⟩

theorem attaching_guard : ∀ a ∈ attaching ++ takes, ∀ s : Joint, s.Guard a := by
  simp only [attaching, takes, List.cons_append, List.nil_append, List.forall_mem_cons, Joint.Guard,
    implies_true, true_and, List.not_mem_nil, false_implies, and_true]
  exact fun _ => Engine.attachedSample_launched _ _

/-- What is seen at the end of a list of acts that begins the session above. -/
theorem attaching_run {as : List Act} {o : Seen} (has : ∀ a ∈ as, a ∈ attaching ++ takes)
    (h : (runAll Joint.step Joint.init as).bind Joint.seen = some o) : ∃ s l,
    Run Joint.step Joint.Guard Joint.init s ∧ s.link = some l ∧
      (⟨s.fe, l.said, l.asked, l.heard, l.failed, l.closed, l.engine.mode, l.before⟩ : Seen) = o := by
  obtain ⟨s, hs, hseen⟩ := Option.bind_eq_some_iff.mp h
  obtain ⟨l, hl, ho⟩ := Option.map_eq_some_iff.mp hseen
  exact ⟨s, l, Run.of_runAll_meets as (fun a ha => attaching_guard a (has a ha)) hs, hl, ho⟩

/-- The watchdog has read the answer. -/
theorem attached_seen : (runAll Joint.step Joint.init (attaching ++ takes)).bind Joint.seen = some
    { fe := ⟨⟨true, true, true, false⟩, .nobody, .woken .detach false, .exited⟩
      said := Engine.announcement .stopAtFirstAttach ++ [.detachDone]
      asked := [.detach]
      heard := 5
      failed := false
      closed := false
      mode := .ended
      before := ⟨true, false, false, false⟩ } := by
  decide +kernel

/-- The answer is still to be read. -/
theorem attaching_seen : (runAll Joint.step Joint.init attaching).bind Joint.seen = some
    { fe := ⟨⟨true, true, false, false⟩, .nobody, .waiting .detach, .reading⟩
      said := Engine.announcement .stopAtFirstAttach ++ [.detachDone]
      asked := [.detach]
      heard := 4
      failed := false
      closed := false
      mode := .ended
      before := ⟨true, false, false, false⟩ } := by
  decide +kernel

/-! ## Runs -/

theorem Joint.Inv.of_run {s : Joint} (h : Run Joint.step Joint.Guard Joint.init s) : s.Inv :=
  h.invariant ⟨fun _ => rfl, fun _ hl => by cases hl⟩ fun _ _ _ h hG hs => h.step hG hs

/-- **Everything the engine says is heard.**  The watchdog knows the type of every message that it is
    sent; and it leaves its loop only when the front end itself has closed the connection, or when the
    handler of a message with a payload has failed, or when the engine has ended and there is nothing
    left to read. -/
theorem watchdog_hears {s : Joint} {l : Link} (h : Run Joint.step Joint.Guard Joint.init s)
    (hl : s.link = some l) :
    (∀ m ∈ l.said, fetofeType m ≠ .other) ∧
    (s.fe.watchdog = .exited ∨ s.fe.watchdog = .unlocking true →
      l.closed = true ∨ l.failed = true ∨ l.engine.mode = .ended ∧ l.heard = l.said.length) := by
  obtain ⟨hsound, hf, -⟩ := (Joint.Inv.of_run h).linked l hl
  refine ⟨fun m hm => (hsound.known hm).1, ?_⟩
  rintro (hw | hw) <;> rw [hw] at hf
  · exact hf
  · exact Or.inr (hf rfl)

theorem watchdog_hears_detach : ∃ s l, Run Joint.step Joint.Guard Joint.init s ∧ s.link = some l ∧
    s.fe.watchdog = .exited ∧ l.closed = false ∧ l.failed = false ∧
    (l.closed = true ∨ l.failed = true ∨ l.engine.mode = .ended ∧ l.heard = l.said.length) := by
  obtain ⟨s, l, hrun, hl, ho⟩ := attaching_run (fun _ => id) attached_seen
  have hw : s.fe.watchdog = .exited := congrArg (fun o : Seen => o.fe.watchdog) ho
  exact ⟨s, l, hrun, hl, hw, congrArg Seen.closed ho, congrArg Seen.failed ho,
    (watchdog_hears hrun hl).2 (Or.inl hw)⟩

/-- The messages that set `killed` and `detached` close, and say which. -/
theorem Link.Sound.sets_killed {l : Link} (h : l.Sound) {m : FeToFeMsg} (hm : m ∈ l.said)
    (hs : sets m .killed = true) : Engine.closes m = true ∧
      (.killDone ∈ l.said ∧ .kill ∈ l.asked ∨ .exited ∈ l.said ∨ .stopAtLaunchBpAbort ∈ l.said) := by
  have hclose := (h.known hm).2
  cases m <;> cases hs
  · exact ⟨rfl, Or.inr (Or.inr hm)⟩
  · cases hclose
  · exact ⟨rfl, Or.inr (Or.inl hm)⟩
  · exact ⟨rfl, Or.inl ⟨hm, h.killDone hm⟩⟩

theorem Link.Sound.sets_detached {l : Link} (h : l.Sound) {m : FeToFeMsg} (hm : m ∈ l.said)
    (hs : sets m .detached = true) : Engine.closes m = true ∧
      (.detachDone ∈ l.said ∧ (.detach ∈ l.asked ∨ .shutdownbe ∈ l.asked) ∨ .stopTracing ∈ l.said ∨
        .bedmonExited ∈ l.said) := by
  cases m <;> cases hs
  · exact ⟨rfl, Or.inl ⟨hm, h.detachDone hm⟩⟩
  · exact ⟨rfl, Or.inr (Or.inl hm)⟩
  · exact ⟨rfl, Or.inr (Or.inr hm)⟩
  · -- no request has this reply
    obtain ⟨s₀, h₀, hrun⟩ := h.run
    obtain ⟨r, -, hreply⟩ := Engine.replied_of_run h₀ hrun hm rfl
    cases r <;> cases hreply

theorem Link.Sound.sets_spawned {m : FeToFeMsg} (hs : sets m .spawned = true) :
    m = .proctableAvail := by
  cases m <;> first | rfl | cases hs

/-- Only one message closes. -/
theorem Link.Sound.closes_unique {l : Link} (h : l.Sound) {m m' : FeToFeMsg} (hm : m ∈ l.said)
    (hm' : m' ∈ l.said) (hc : Engine.closes m = true) (hc' : Engine.closes m' = true) : m = m' := by
  obtain ⟨k, hk⟩ := List.getElem?_of_mem hm
  obtain ⟨k', hk'⟩ := List.getElem?_of_mem hm'
  have hlast := (h.conversed.closes_last hk hc).2
  have hlast' := (h.conversed.closes_last hk' hc').2
  have heq : k = k' := by omega
  rw [heq, hk'] at hk
  exact (Option.some.inj hk).symm

/-- The moves of the watchdog by itself. -/
def Act.OfWatchdog : Act → Prop
  | .read | .endOfFile | .fe .watchdogLock | .fe (.handle _) | .fe .watchdogUnlock => True
  | _ => False

/-- What a list of messages, each with what its handler returns, makes of a session, up to the first with
    which the watchdog leaves. -/
def Session.handleAll (d : Session) : List (FetofeType × Bool) → Session
  | [] => d
  | (t, ok) :: ts =>
    if (d.handle ok t).leave then (d.handle ok t).session else (d.handle ok t).session.handleAll ts

/-- The message that the watchdog has read and not handled. -/
def Watchdog.inHand : Watchdog → List FetofeType
  | .locking t | .holding t => [t]
  | .absent | .reading | .unlocking _ | .exited => []

/-- What the watchdog has not handled yet; nothing if it has left its loop. -/
def Joint.pending (s : Joint) : List FetofeType :=
  match s.fe.watchdog with
  | .exited | .unlocking true => []
  | w => w.inHand ++ s.link.elim [] fun l => (l.said.drop l.heard).map fetofeType

/-- The front end has not closed the connection. -/
def Joint.Open (s : Joint) : Prop := ∀ l, s.link = some l → l.closed = false

/-- The watchdog runs by itself, over an open connection. -/
abbrev Drains (s s' : Joint) : Prop := Run Joint.step (fun s a => a.OfWatchdog ∧ s.Open) s s'

theorem Joint.open_of {f : State} {l : Link} (h : l.closed = false) : Joint.Open ⟨f, some l⟩ := by
  intro l' hl'
  cases hl'
  exact h

/-- The watchdog gives the mutex back. -/
theorem drains_unlocking {f : State} {l : Link} {leave : Bool} (hopen : l.closed = false)
    (hw : f.watchdog = .unlocking leave) :
    ∃ fe', Drains ⟨f, some l⟩ ⟨fe', some l⟩ ∧ fe'.mutex = .nobody ∧ fe'.session = f.session ∧
      fe'.watchdog = if leave then .exited else .reading := by
  refine ⟨{ f with mutex := .nobody, watchdog := if leave then .exited else .reading },
    .next (e := .fe .watchdogUnlock) .start ⟨trivial, Joint.open_of hopen⟩ ?_, rfl, rfl, rfl⟩
  simp only [Joint.step, State.step, State.stepWatchdog, hw]
  rfl

/-- Where a handled message leaves the watchdog: it reads on over the same connection, or is gone. -/
structure Handled (l : Link) (d : Session) (t : FetofeType) (ok : Bool) (fe' : State) (l' : Link) :
    Prop where
  free : fe'.mutex = .nobody
  session : fe'.session = (d.handle ok t).session
  stays : (d.handle ok t).leave = false → fe'.watchdog = .reading ∧ l' = l
  leaves : (d.handle ok t).leave = true → fe'.watchdog = .exited

theorem Session.handler_of_stays {d : Session} {t : FetofeType} (h : (d.handle false t).leave = false) :
    t.hasHandler = false := by
  cases t <;> first | rfl | cases h

theorem drains_holding {f : State} {l : Link} {t : FetofeType} (ok : Bool) (hopen : l.closed = false)
    (hw : f.watchdog = .holding t) :
    ∃ fe' l', Drains ⟨f, some l⟩ ⟨fe', some l'⟩ ∧ Handled l f.session t ok fe' l' := by
  have hopen' : (l.after f (.handle ok)).closed = false := by
    cases ok with
    | true => exact hopen
    | false => simpa only [Link.after, hw] using hopen
  obtain ⟨fe', hrun, hm, hd, hw'⟩ := drains_unlocking (f := { f with
      session := (f.session.handle ok t).session
      api := if (f.session.handle ok t).signal then f.api.signalled else f.api
      watchdog := .unlocking (f.session.handle ok t).leave }) hopen' rfl
  refine ⟨fe', _, Run.trans (.next (e := .fe (.handle ok)) .start ⟨trivial, Joint.open_of hopen⟩ ?_) hrun,
    hm, hd, fun hstay => ⟨by rw [hw', hstay]; rfl, ?_⟩, fun hleave => by rw [hw', hleave]; rfl⟩
  · simp only [Joint.step, State.step, State.stepWatchdog, hw]
    rfl
  · cases ok with
    | true => rfl
    | false => simp only [Link.after, hw, Session.handler_of_stays hstay, Bool.or_false]

theorem drains_locking {f : State} {l : Link} {t : FetofeType} (ok : Bool) (hopen : l.closed = false)
    (hw : f.watchdog = .locking t) (hfree : f.mutex = .nobody) :
    ∃ fe' l', Drains ⟨f, some l⟩ ⟨fe', some l'⟩ ∧ Handled l f.session t ok fe' l' := by
  obtain ⟨fe', l', hrun, h⟩ := drains_holding (f := { f with
      watchdog := .holding t, mutex := .watchdog }) ok hopen rfl
  refine ⟨fe', l', Run.trans (.next (e := .fe .watchdogLock) .start ⟨trivial, Joint.open_of hopen⟩ ?_)
    hrun, h⟩
  simp only [Joint.step, State.step, State.stepWatchdog, hw, hfree]
  rfl

/-- One turn of the loop of the watchdog. -/
theorem Link.Sound.drains_turn {l : Link} (h : l.Sound) {fe : State} {m : FeToFeMsg} (ok : Bool)
    (hopen : l.closed = false) (hm : l.said[l.heard]? = some m) (hw : fe.watchdog = .reading)
    (hfree : fe.mutex = .nobody) : ∃ fe' l', Drains ⟨fe, some l⟩ ⟨fe', some l'⟩ ∧
      Handled { l with heard := l.heard + 1 } fe.session (fetofeType m) ok fe' l' := by
  have hread : Drains ⟨fe, some l⟩
      ⟨{ fe with watchdog := Watchdog.dispatch (fetofeType m) },
        some { l with heard := l.heard + 1 }⟩ := by
    refine .next (e := .read) .start ⟨trivial, Joint.open_of hopen⟩ ?_
    show (l.said[l.heard]?).bind _ = _
    rw [hm]
    simp only [Option.bind_some, State.step, State.stepWatchdog, hw]
    rfl
  have hlocked : Watchdog.dispatch (fetofeType m) = .locking (fetofeType m) →
      ∃ fe' l', Drains ⟨fe, some l⟩ ⟨fe', some l'⟩ ∧
        Handled { l with heard := l.heard + 1 } fe.session (fetofeType m) ok fe' l' := by
    intro hlock
    rw [hlock] at hread
    obtain ⟨fe', l', hrun, h'⟩ := drains_locking (l := { l with heard := l.heard + 1 })
      (f := { fe with watchdog := .locking (fetofeType m) }) ok hopen rfl hfree
    exact ⟨fe', l', hread.trans hrun, h'⟩
  cases ht : fetofeType m with
  | other => exact absurd ht (h.known (List.mem_of_getElem? hm)).1
  | stopAtLaunchBpSpawned =>
    rw [ht] at hread
    exact ⟨_, _, hread, hfree, rfl, fun _ => ⟨rfl, rfl⟩, fun hleave => by cases hleave⟩
  | stopAtFirstAttach =>
    rw [ht] at hread
    exact ⟨_, _, hread, hfree, rfl, fun _ => ⟨rfl, rfl⟩, fun hleave => by cases hleave⟩
  | _ =>
    rw [ht] at hlocked
    exact hlocked rfl

/-- The watchdog has handled the message that it had read last, and what it does then. -/
theorem Handled.drains {l l' : Link} {d : Session} {t : FetofeType} {ok : Bool} {fe' : State} {s : Joint}
    {ts : List (FetofeType × Bool)} (h : Handled l d t ok fe' l') (hrun : Drains s ⟨fe', some l'⟩)
    (hread : fe'.watchdog = .reading → ∃ s', Drains ⟨fe', some l⟩ s' ∧ s'.fe.watchdog = .exited ∧
      s'.fe.session = fe'.session.handleAll ts) :
    ∃ s', Drains s s' ∧ s'.fe.watchdog = .exited ∧ s'.fe.session = d.handleAll ((t, ok) :: ts) := by
  cases hleave : (d.handle ok t).leave with
  | false =>
    obtain ⟨hw, rfl⟩ := h.stays hleave
    obtain ⟨s', hrun', hw', hd'⟩ := hread hw
    refine ⟨s', hrun.trans hrun', hw', ?_⟩
    rw [hd', h.session, Session.handleAll, hleave]
    rfl
  | true =>
    refine ⟨_, hrun, h.leaves hleave, ?_⟩
    rw [Session.handleAll, hleave]
    exact h.session

theorem drains_reading {fe : State} {l : Link} {oks : List Bool} (h : l.Sound) (hopen : l.closed = false)
    (hw : fe.watchdog = .reading) (hfree : fe.mutex = .nobody) (hended : l.engine.mode = .ended)
    (hlen : oks.length = l.said.length - l.heard) :
    ∃ s', Drains ⟨fe, some l⟩ s' ∧ s'.fe.watchdog = .exited ∧
      s'.fe.session = fe.session.handleAll (((l.said.drop l.heard).map fetofeType).zip oks) := by
  induction oks generalizing fe l with
  | nil =>
    have hall : l.heard = l.said.length := Nat.le_antisymm h.heard (Nat.le_of_sub_eq_zero hlen.symm)
    refine ⟨⟨{ fe with watchdog := .exited }, some l⟩, .next (e := .endOfFile) .start
      ⟨trivial, Joint.open_of hopen⟩ ?_, rfl, ?_⟩
    · refine Engine.guard_bind_eq_some.mpr ⟨Or.inr ⟨hended, hall⟩, ?_⟩
      simp only [State.step, State.stepWatchdog, hw]
      rfl
    · rw [List.zip_nil_right]
      rfl
  | cons ok oks ih =>
    have hlt : l.heard < l.said.length := by
      rw [List.length_cons] at hlen
      omega
    have hm : l.said[l.heard]? = some l.said[l.heard] := List.getElem?_eq_getElem hlt
    obtain ⟨fe', l', hrun, hhandled⟩ := h.drains_turn ok hopen hm hw hfree
    have hsound : Link.Sound { l with heard := l.heard + 1 } := ⟨h.run, h.inbox, h.records, hlt⟩
    rw [List.drop_eq_getElem_cons hlt, List.map_cons, List.zip_cons_cons]
    refine hhandled.drains hrun fun hreading => ih hsound hopen hreading hhandled.free hended ?_
    show oks.length = l.said.length - (l.heard + 1)
    rw [List.length_cons] at hlen
    omega

/-- **An engine that has ended is heard to its end.**  When the engine has ended and the front end has
    not closed the connection, the watchdog can run to its end by itself as soon as the mutex is free,
    whatever its handlers return, and the session is then what the messages that were left make of it, up
    to the first whose handler fails. -/
theorem watchdog_drains {s : Joint} {l : Link} (h : Run Joint.step Joint.Guard Joint.init s)
    (hl : s.link = some l) (hopen : l.closed = false) (hended : l.engine.mode = .ended)
    (hfree : s.fe.mutex = .nobody ∨ s.fe.watchdog.owns = true) {oks : List Bool}
    (hoks : oks.length = s.pending.length) :
    ∃ s', Drains s s' ∧ s'.fe.watchdog = .exited ∧
      s'.fe.session = s.fe.session.handleAll (s.pending.zip oks) := by
  obtain ⟨hsound, hf, -⟩ := (Joint.Inv.of_run h).linked l hl
  obtain ⟨fe, link⟩ := s
  cases hl
  cases hw : fe.watchdog with
  | absent =>
    rw [hw] at hf
    exact hf.elim
  | reading =>
    have hm : fe.mutex = .nobody := hfree.resolve_right (by rw [hw]; decide)
    simp only [Joint.pending, hw, Watchdog.inHand, List.nil_append, Option.elim_some, List.length_map,
      List.length_drop] at hoks ⊢
    exact drains_reading hsound hopen hw hm hended hoks
  | locking t =>
    rw [hw] at hf
    obtain ⟨k, m, hk, hm, rfl⟩ := hf
    have hnobody : fe.mutex = .nobody := hfree.resolve_right (by rw [hw]; exact Bool.noConfusion)
    simp only [Joint.pending, hw, Watchdog.inHand, List.singleton_append, Option.elim_some,
      List.length_cons, List.length_map, List.length_drop] at hoks ⊢
    match oks with
    | ok :: oks =>
      obtain ⟨fe', l', hrun, hhandled⟩ := drains_locking ok hopen hw hnobody
      exact hhandled.drains hrun fun hreading =>
        drains_reading hsound hopen hreading hhandled.free hended (Nat.succ.inj hoks)
  | holding t =>
    rw [hw] at hf
    obtain ⟨k, m, hk, hm, rfl⟩ := hf
    simp only [Joint.pending, hw, Watchdog.inHand, List.singleton_append, Option.elim_some,
      List.length_cons, List.length_map, List.length_drop] at hoks ⊢
    match oks with
    | ok :: oks =>
      obtain ⟨fe', l', hrun, hhandled⟩ := drains_holding ok hopen hw
      exact hhandled.drains hrun fun hreading =>
        drains_reading hsound hopen hreading hhandled.free hended (Nat.succ.inj hoks)
  | unlocking leave =>
    obtain ⟨fe', hrun, hfree', hd, hw'⟩ := drains_unlocking hopen hw
    cases leave with
    | true =>
      refine ⟨_, hrun, hw', ?_⟩
      simp only [Joint.pending, hw, List.zip_nil_left]
      exact hd
    | false =>
      simp only [Joint.pending, hw, Watchdog.inHand, List.nil_append, Option.elim_some, List.length_map,
        List.length_drop] at hoks ⊢
      obtain ⟨s', hrun', h'⟩ := drains_reading hsound hopen hw' hfree' hended hoks
      rw [hd] at h'
      exact ⟨s', hrun.trans hrun', h'⟩
  | exited =>
    refine ⟨_, .start, hw, ?_⟩
    simp only [Joint.pending, hw, List.zip_nil_left]
    rfl

theorem watchdog_drains_detach : ∃ s s', Run Joint.step Joint.Guard Joint.init s ∧
    s.fe.session.detached = false ∧ Drains s s' ∧ s'.fe.watchdog = .exited ∧
    s'.fe.session = ⟨true, true, true, false⟩ := by
  obtain ⟨s, l, hrun, hl, ho⟩ :=
    attaching_run (fun _ => List.mem_append_left takes) attaching_seen
  have hfe := congrArg Seen.fe ho
  have hsaid := congrArg Seen.said ho
  have hheard := congrArg Seen.heard ho
  have hclosed := congrArg Seen.closed ho
  have hmode := congrArg Seen.mode ho
  dsimp only at hfe hsaid hheard hclosed hmode
  have hpending : s.pending = [.detachDone] := by
    rw [Joint.pending, hl, hfe]
    show [] ++ (l.said.drop l.heard).map fetofeType = _
    rw [hsaid, hheard]
    rfl
  obtain ⟨s', hdrains, hw, hd⟩ := @watchdog_drains s l hrun hl hclosed hmode
    (Or.inl (congrArg State.mutex hfe)) [true] (by rw [hpending]; rfl)
  refine ⟨s, s', hrun, congrArg (fun fe : State => fe.session.detached) hfe, hdrains, hw, ?_⟩
  rw [hd, hpending, hfe]
  rfl

end LaunchMON.Frontend
