/-
  The descriptors of `cobo_connect_hostname`: which one does it return, and what becomes of the others?

  The function scans the ports of a host, again and again, until an exchange completes or the time limit
  has expired.  Its result is the variable of the last attempt: `cobo_connect` sets it on every port, to
  -1 or to a socket, and a socket whose exchange has failed is closed but not forgotten.

  1. **Program**: `coboConnect`, `scanPorts`, `connectLoop` and `coboConnectHostname`, against any
     outcome of every call.  The attempts of a scan are given by what the calls find; the scans that are
     given are those before the time limit.  `Sockets` counts what happens to each descriptor, numbered
     as they are opened.

  2. **Invariant** (`Kept`): as long as no exchange has completed, every descriptor has been closed
     once.  It holds from attempt to attempt (`scanPorts_spec`).

  3. **Result** (`connectHostname_usable`): the function keeps its promise, unless the last attempt
     before the time limit has reached a server and failed there.

  The timeouts grow from scan to scan; here an attempt may fail at any of them.
-/
import LaunchMON.Cobo.Connect

namespace LaunchMON.Cobo

open Wire Handshake Function

/-! ## What the calls find -/

/-- `poll` for a connection in progress, once it has not been interrupted; the socket then has an error,
    or none, or `getsockopt` fails. -/
inductive Polled
  | failed
  | timedOut
  | event (soError : Option ℕ)

/-- A `connect` that does not block. -/
inductive Connecting
  | failed
  | immediate
  | inProgress (polled : Polled)

/-- An attempt at one port: `socket`, `connect`, the handshake, and what can be read and written behind
    it. -/
structure Attempt where
  socket : Bool
  connect : Connecting
  handshake : Rc
  line : Line

/-! ## Descriptors -/

/-- How many descriptors have been opened, how often each has been closed, and whether the exchange on
    it has completed. -/
structure Sockets where
  opened : ℕ
  closes : ℕ → ℕ
  completed : ℕ → Bool

def Sockets.init : Sockets := ⟨0, fun _ => 0, fun _ => false⟩

/-- `socket`. -/
def Sockets.socket (w : Sockets) : Sockets := { w with opened := w.opened + 1 }

/-- `close`. -/
def Sockets.close (w : Sockets) (s : ℕ) : Sockets := { w with closes := update w.closes s (w.closes s + 1) }

/-- The acknowledgement has been written. -/
def Sockets.complete (w : Sockets) (s : ℕ) : Sockets := { w with completed := update w.completed s true }

/-! ## The function -/

/-- `cobo_connect_w_timeout`: does it return 0? -/
def coboConnectWTimeout : Connecting → Bool
  | .failed => false
  | .immediate => true
  | .inProgress .failed => false
  | .inProgress .timedOut => false
  | .inProgress (.event none) => false
  | .inProgress (.event (some err)) => err = 0

/-- `cobo_connect`: the socket, or `none` for -1. -/
def coboConnect (a : Attempt) (w : Sockets) : Option ℕ × Sockets :=
  if a.socket = false then (none, w)
  else
    let s := w.opened
    let w := w.socket
    if coboConnectWTimeout a.connect = false then (none, w.close s) else (some s, w)

/-- What becomes of a connection: the handshake, the ids, the acknowledgement. -/
def Attempt.verdict (coboSessionid : UInt32) (a : Attempt) : Verdict :=
  ((afterHandshakeClient coboSessionid a.handshake).serve a.line).1

/-- The process has aborted, or the result so far and whether it is connected. -/
inductive Scanned
  | aborted
  | done (s : Option ℕ) (connected : Bool) (w : Sockets)

section

variable (coboSessionid : UInt32)

/-- `cobo_connect_hostname`: the loop over the ports. -/
def scanPorts : List Attempt → Option ℕ → Sockets → Scanned
  | [], s, w => .done s false w
  | a :: as, _, w =>
    match coboConnect a w with
    | (none, w) => scanPorts as none w
    | (some s, w) =>
      match a.verdict coboSessionid with
      | .abort => .aborted
      | .drop => scanPorts as (some s) (w.close s)
      | .adopt => .done (some s) true (w.complete s)

/-- `cobo_connect_hostname`: the loop until the time limit. -/
def connectLoop : List (List Attempt) → Option ℕ → Sockets → Scanned
  | [], s, w => .done s false w
  | ports :: scans, s, w =>
    match scanPorts coboSessionid ports s w with
    | .aborted => .aborted
    | .done s true w => .done s true w
    | .done s false w => connectLoop scans s w

/-- `cobo_connect_hostname`: its result is `s`. -/
def coboConnectHostname (lookup : Bool) (scans : List (List Attempt)) : Scanned :=
  if lookup = false then .done none false .init else connectLoop coboSessionid scans none .init

/-! ## Its contract -/

/-- The descriptor that is returned is one whose exchange has completed and which is open, and every
    other one has been closed once. -/
structure Usable (s : Option ℕ) (w : Sockets) : Prop where
  result : s ≠ none ↔ ∃ c, s = some c ∧ w.completed c = true ∧ w.closes c = 0
  others : ∀ c < w.opened, s ≠ some c → w.closes c = 1

/-- The attempt has reached a server. -/
def Attempt.Reaches (a : Attempt) : Prop := a.socket = true ∧ coboConnectWTimeout a.connect = true

/-- The attempt has reached a server and completed the exchange. -/
def Attempt.Adopts (a : Attempt) : Prop := a.Reaches ∧ a.verdict coboSessionid = .adopt

/-- The attempt has reached a server and failed there. -/
def Attempt.Drops (a : Attempt) : Prop := a.Reaches ∧ a.verdict coboSessionid = .drop

end

/-- All descriptors have been closed once; no exchange has completed. -/
structure Kept (w : Sockets) : Prop where
  closed : ∀ c < w.opened, w.closes c = 1
  fresh : ∀ c ≥ w.opened, w.closes c = 0
  pending : ∀ c, w.completed c = false

variable {coboSessionid : UInt32} {w : Sockets}

theorem kept_init : Kept .init := ⟨fun _ h => absurd h (Nat.not_lt_zero _), fun _ _ => rfl, fun _ => rfl⟩

/-- A descriptor that is opened and closed. -/
theorem Kept.opened_closed (h : Kept w) : Kept (w.socket.close w.opened) where
  closed c hc := by
    show update w.closes w.opened (w.closes w.opened + 1) c = 1
    rcases Nat.lt_succ_iff_lt_or_eq.mp hc with hc | rfl
    · rw [update_of_ne (Nat.ne_of_lt hc), h.closed c hc]
    · rw [update_self, h.fresh _ (Nat.le_refl _)]
  fresh c hc := by
    show update w.closes w.opened (w.closes w.opened + 1) c = 0
    rw [update_of_ne (Nat.ne_of_gt hc), h.fresh c (Nat.le_of_succ_le hc)]
  pending := h.pending

/-- A descriptor on which the exchange completes. -/
theorem Kept.opened_completed (h : Kept w) : Usable (some w.opened) (w.socket.complete w.opened) where
  result := iff_of_true (by simp) ⟨_, rfl, update_self .., h.fresh _ (Nat.le_refl _)⟩
  others c hc hne := by
    have hlt : c < w.opened :=
      Nat.lt_of_le_of_ne (Nat.le_of_lt_succ hc) fun heq => hne (congrArg some heq.symm)
    exact h.closed c hlt

/-- If nothing has completed, the result has to be -1. -/
theorem Kept.usable_iff (h : Kept w) {s : Option ℕ} : Usable s w ↔ s = none := by
  constructor
  · intro hu
    by_contra hne
    obtain ⟨c, -, hcompleted, -⟩ := hu.result.mp hne
    rw [h.pending c] at hcompleted
    cases hcompleted
  · rintro rfl
    refine ⟨iff_of_false (fun hne => hne rfl) ?_, fun c hc _ => h.closed c hc⟩
    rintro ⟨c, hc, -⟩
    cases hc

/-- `cobo_connect`: a descriptor that it does not return it has closed. -/
theorem coboConnect_spec (a : Attempt) (h : Kept w) :
    (∃ w', coboConnect a w = (none, w') ∧ Kept w' ∧ ¬a.Reaches) ∨
    coboConnect a w = (some w.opened, w.socket) ∧ a.Reaches := by
  unfold coboConnect
  cases hsocket : a.socket with
  | false =>
    exact Or.inl ⟨w, if_pos rfl, h, fun hr => absurd (hsocket.symm.trans hr.1) (by decide)⟩
  | true =>
    rw [if_neg (by decide)]
    cases hconnect : coboConnectWTimeout a.connect with
    | false =>
      exact Or.inl ⟨_, if_pos rfl, h.opened_closed,
        fun hr => absurd (hconnect.symm.trans hr.2) (by decide)⟩
    | true => exact Or.inr ⟨if_neg (by decide), hsocket, hconnect⟩

/-- What a scan may end with. -/
inductive Ended (coboSessionid : UInt32) (as : List Attempt) (s : Option ℕ) : Scanned → Prop
  | aborted : Ended coboSessionid as s .aborted
  -- the first attempt that completes its exchange is the last one
  | adopted {a : Attempt} {s' : Option ℕ} {w' : Sockets} : a ∈ as → a.Adopts coboSessionid →
      Usable s' w' → Ended coboSessionid as s (.done s' true w')
  -- the result is the descriptor of the last attempt, or the one so far if there was none
  | exhausted {s' : Option ℕ} {w' : Sockets} : (∀ a ∈ as, ¬a.Adopts coboSessionid) → Kept w' →
      (as = [] → s' = s) → (∀ a, as.getLast? = some a → (s' ≠ none ↔ a.Drops coboSessionid)) →
      Ended coboSessionid as s (.done s' false w')

theorem getLast?_cons_of_ne_nil {α : Type} (a : α) {as : List α} (h : as ≠ []) :
    (a :: as).getLast? = as.getLast? := by
  cases as with
  | nil => exact absurd rfl h
  | cons b as => exact List.getLast?_cons_cons

/-- An attempt that does not complete leaves the rest of the scan. -/
theorem Ended.cons {a : Attempt} {as : List Attempt} {s s' : Option ℕ} {r : Scanned}
    (hnot : ¬a.Adopts coboSessionid) (hs' : s' ≠ none ↔ a.Drops coboSessionid)
    (h : Ended coboSessionid as s' r) : Ended coboSessionid (a :: as) s r := by
  cases h with
  | aborted => exact .aborted
  | adopted hmem hadopts hu => exact .adopted (List.mem_cons_of_mem _ hmem) hadopts hu
  | @exhausted t _ hnone hkept hnil hlast =>
    refine .exhausted ?_ hkept (fun h => absurd h (List.cons_ne_nil _ _)) ?_
    · intro b hb
      rcases List.mem_cons.mp hb with rfl | hb
      · exact hnot
      · exact hnone b hb
    · intro b hb
      by_cases has : as = []
      · rw [has] at hb
        obtain rfl : a = b := Option.some.inj hb
        rw [hnil has]
        exact hs'
      · rw [getLast?_cons_of_ne_nil a has] at hb
        exact hlast b hb

/-- **One scan**, from any point at which no exchange has completed. -/
theorem scanPorts_spec : ∀ (as : List Attempt) (s : Option ℕ) (w : Sockets), Kept w →
    Ended coboSessionid as s (scanPorts coboSessionid as s w) := by
  intro as
  induction as with
  | nil =>
    intro s w h
    exact .exhausted (fun a ha => absurd ha List.not_mem_nil) h (fun _ => rfl) fun a ha => by cases ha
  | cons a as ih =>
    intro s w h
    rw [scanPorts]
    rcases coboConnect_spec a h with ⟨w', hconnect, hkept, hnot⟩ | ⟨hconnect, hreaches⟩
    · rw [hconnect]
      refine Ended.cons (fun hadopts => hnot hadopts.1) ?_ (ih none w' hkept)
      exact iff_of_false (fun hne => hne rfl) fun hdrops => hnot hdrops.1
    · rw [hconnect]
      dsimp only
      cases hverdict : a.verdict coboSessionid with
      | abort => exact .aborted
      | drop =>
        refine Ended.cons (fun hadopts => ?_) ?_ (ih _ _ h.opened_closed)
        · exact absurd (hverdict.symm.trans hadopts.2) (by decide)
        · exact iff_of_true (by simp) ⟨hreaches, hverdict⟩
      | adopt => exact .adopted List.mem_cons_self ⟨hreaches, hverdict⟩ h.opened_completed

/-- Two scans are one. -/
theorem scanPorts_append (as bs : List Attempt) : ∀ (s : Option ℕ) (w : Sockets),
    scanPorts coboSessionid (as ++ bs) s w =
      match scanPorts coboSessionid as s w with
      | .aborted => .aborted
      | .done s true w => .done s true w
      | .done s false w => scanPorts coboSessionid bs s w := by
  induction as with
  | nil => exact fun s w => rfl
  | cons a as ih =>
    intro s w
    rw [List.cons_append, scanPorts, scanPorts]
    rcases coboConnect a w with ⟨_ | c, w'⟩
    · exact ih none w'
    · dsimp only
      cases a.verdict coboSessionid with
      | abort => rfl
      | drop => exact ih _ _
      | adopt => rfl

/-- All scans are one. -/
theorem connectLoop_eq : ∀ (scans : List (List Attempt)) (s : Option ℕ) (w : Sockets),
    connectLoop coboSessionid scans s w = scanPorts coboSessionid scans.flatten s w := by
  intro scans
  induction scans with
  | nil => exact fun s w => rfl
  | cons ports scans ih =>
    intro s w
    rw [connectLoop, List.flatten_cons, scanPorts_append]
    rcases scanPorts coboSessionid ports s w with _ | ⟨s', _ | _, w'⟩
    · rfl
    · exact ih s' w'
    · rfl

/-- **The result of `cobo_connect_hostname`** is usable, or -1, exactly when the host name cannot be
    looked up, or some attempt completes its exchange, or the last attempt before the time limit does not
    reach a server that then fails. -/
theorem connectHostname_usable (coboSessionid : UInt32) (lookup : Bool) (scans : List (List Attempt))
    (s : Option ℕ) (connected : Bool) (w : Sockets)
    (h : coboConnectHostname coboSessionid lookup scans = .done s connected w) :
    Usable s w ↔ lookup = false ∨ (∃ a ∈ scans.flatten, a.Adopts coboSessionid) ∨
      ∀ a, scans.flatten.getLast? = some a → ¬a.Drops coboSessionid := by
  unfold coboConnectHostname at h
  cases lookup with
  | false =>
    rw [if_pos rfl] at h
    cases h
    exact iff_of_true (kept_init.usable_iff.mpr rfl) (Or.inl rfl)
  | true =>
    rw [if_neg (by decide), connectLoop_eq] at h
    have hended := @scanPorts_spec coboSessionid scans.flatten none .init kept_init
    rw [h] at hended
    rw [or_iff_right (by decide)]
    cases hended with
    | adopted hmem hadopts hu => exact iff_of_true hu (Or.inl ⟨_, hmem, hadopts⟩)
    | exhausted hnone hkept hnil hlast =>
      rw [hkept.usable_iff, or_iff_right (by rintro ⟨a, ha, hadopts⟩; exact hnone a ha hadopts)]
      constructor
      · rintro rfl a ha hdrops
        exact (hlast a ha).mpr hdrops rfl
      · intro hdrops
        by_contra hne
        cases hempty : scans.flatten.getLast? with
        | none => exact hne (hnil (List.getLast?_eq_none_iff.mp hempty))
        | some a => exact hdrops a hempty ((hlast a hempty).mp hne)

/-- One port, one scan. -/
def oneScan (connect : Connecting) (handshake : Rc) : List (List Attempt) :=
  [[⟨true, connect, handshake, ⟨[], none⟩⟩]]

theorem connectHostname_usable_unreachable :
    Usable none (Sockets.init.socket.close 0) ↔ true = false ∨
      (∃ a ∈ (oneScan (.inProgress .timedOut) .success).flatten, a.Adopts 7) ∨
      ∀ a, (oneScan (.inProgress .timedOut) .success).flatten.getLast? = some a → ¬a.Drops 7 :=
  connectHostname_usable 7 true (oneScan (.inProgress .timedOut) .success) none false
    (Sockets.init.socket.close 0) rfl

/-- **A closed descriptor** is returned when the last server refuses. -/
theorem connectHostname_counterexample :
    ∃ w, coboConnectHostname 7 true (oneScan .immediate .connectionRefused) = .done (some 0) false w ∧
      w.closes 0 = 1 ∧ w.completed 0 = false :=
  ⟨_, rfl, rfl, rfl⟩

end LaunchMON.Cobo
