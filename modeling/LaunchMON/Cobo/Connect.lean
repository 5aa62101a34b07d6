/-
  `cobo_connect_hostname` against the accept loop of `cobo_open_tree`: do they agree on a connection?

  The parent tries the ports of its child, again and again.  Every attempt is a new connection with
  the same exchange: service id and session id, the child's service id and accept id, an
  acknowledgement.  Either end may give up at every byte and start over, so connections that the
  parent has abandoned wait in the backlog of the child with anything from nothing to eight bytes on
  them, between those of other clients.

  1. **Program**: `connectIds` and `exchangeIds` are what the two ends do on one connection (`Io`),
     and `Step` is all that can happen: ports, rescans and the time limit of the parent, the accept
     loop of the child, other clients, other servers on the ports the parent tries.  The handshake
     may have any result at either end.

  2. **The crux**: the acknowledgement is the last thing that the parent writes, and the child adopts
     after reading twelve bytes.  `Says` and `Hears` carry this through every step: on a connection
     that the parent has given up, fewer than twelve bytes were ever written, and on one where all of
     them were, it cannot give up any more (`Says.sure`).  The ids tell it from those of others.

  3. **Result** (`agreement`): the child leaves its loop on a connection only when the parent has
     written the acknowledgement there and returns this connection.
-/
import LaunchMON.Cobo.Accept

namespace LaunchMON.Cobo

open Wire Handshake CBytes Relation Function

/-! ## The two ends -/

/-- `cobo_connect_hostname`: from the handshake to the acknowledgement. -/
def connectIds (coboSessionid : UInt32) : Io Verdict := do
  let sent ← Io.put (le32 coboServiceid)
  if sent = false then return .drop
  let sent ← Io.put (le32 coboSessionid)
  if sent = false then return .drop
  let some service ← Io.get 4 | return .drop
  let some accept ← Io.get 4 | return .drop
  if readLe32 service ≠ some coboServiceid ∨ readLe32 accept ≠ some coboAcceptid then return .drop
  let sent ← Io.put (le32 1)
  if sent = false then return .drop
  return .adopt

/-- `cobo_connect_hostname`: the `switch` on the result of the handshake. -/
def afterHandshakeClient (coboSessionid : UInt32) (result : Rc) : Io Verdict :=
  match result with
  | .success => connectIds coboSessionid
  | .dropConnection | .connectionRefused => return .drop
  | .internalError | .abort | .again => return .abort

/-- A connection.  Of what its client has written since the handshake the server has `heard` some;
    the rest is `pending`.  `answers` waits for the client. -/
structure Conn where
  byParent : Bool
  toChild : Bool
  heard : List UInt8
  pending : List UInt8
  answers : List UInt8
  closed : Bool

def Conn.sent (conn : Conn) : List UInt8 := conn.heard ++ conn.pending

/-- A new connection, of the parent or of another client, to the child or to another server. -/
def Conn.new (byParent toChild : Bool) : Conn := ⟨byParent, toChild, [], [], [], false⟩

/-- `cobo_connect_hostname`: at port `i`, with the socket `s` of the last attempt; `none` is -1. -/
inductive Parent
  | resolving
  | scanning (i : Nat) (s : Option Nat)
  | shaking (i c : Nat)
  | testing (i c : Nat) (p : Io Verdict)
  | connected (c : Nat)
  | expired (s : Option Nat)
  | aborted

/-- `cobo_open_tree`: the accept loop. -/
inductive Child
  | accepting
  | shaking (c : Nat)
  | testing (c : Nat) (q : Io Verdict)
  | adopted (c : Nat)
  | aborted

/-- Parent, child, and all connections, numbered as they are opened. -/
structure State where
  parent : Parent
  child : Child
  conns : Nat → Conn
  fresh : Nat
  backlog : List Nat

def State.init : State := ⟨.resolving, .accepting, fun _ => .new false false, 0, []⟩

/-- The child has not closed its listening socket. -/
def Child.Listens : Child → Prop
  | .adopted _ | .aborted => False
  | .accepting | .shaking _ | .testing _ _ => True

namespace State

/-- Connection `c` becomes `conn`. -/
def setConn (s : State) (c : Nat) (conn : Conn) : State := { s with conns := update s.conns c conn }

/-- A connection that is not accepted by the child. -/
def dial (s : State) (conn : Conn) : State :=
  { s with conns := update s.conns s.fresh conn, fresh := s.fresh + 1 }

/-- A connection that waits to be accepted. -/
def enqueue (s : State) (conn : Conn) : State :=
  { s.dial conn with backlog := s.backlog ++ [s.fresh] }

/-- The client of connection `c` closes it. -/
def close (s : State) (c : Nat) : State := s.setConn c { s.conns c with closed := true }

/-- What the client of connection `c` does there. -/
def byClient (s : State) (c : Nat) : Io.Act → State
  | .idle => s
  | .put b => s.setConn c { s.conns c with pending := (s.conns c).pending ++ [b] }
  | .get _ => s.setConn c { s.conns c with answers := (s.conns c).answers.tail }

/-- What the server of connection `c` does there. -/
def byServer (s : State) (c : Nat) : Io.Act → State
  | .idle => s
  | .put b => s.setConn c { s.conns c with answers := (s.conns c).answers ++ [b] }
  | .get b => s.setConn c { s.conns c with
      heard := (s.conns c).heard ++ [b], pending := (s.conns c).pending.tail }

@[simp] theorem byClient_parent (s : State) (c : Nat) (m : Io.Act) :
    (s.byClient c m).parent = s.parent := by cases m <;> rfl

@[simp] theorem byClient_child (s : State) (c : Nat) (m : Io.Act) :
    (s.byClient c m).child = s.child := by cases m <;> rfl

@[simp] theorem byClient_fresh (s : State) (c : Nat) (m : Io.Act) :
    (s.byClient c m).fresh = s.fresh := by cases m <;> rfl

@[simp] theorem byClient_backlog (s : State) (c : Nat) (m : Io.Act) :
    (s.byClient c m).backlog = s.backlog := by cases m <;> rfl

@[simp] theorem byServer_parent (s : State) (c : Nat) (m : Io.Act) :
    (s.byServer c m).parent = s.parent := by cases m <;> rfl

@[simp] theorem byServer_child (s : State) (c : Nat) (m : Io.Act) :
    (s.byServer c m).child = s.child := by cases m <;> rfl

@[simp] theorem byServer_fresh (s : State) (c : Nat) (m : Io.Act) :
    (s.byServer c m).fresh = s.fresh := by cases m <;> rfl

@[simp] theorem byServer_backlog (s : State) (c : Nat) (m : Io.Act) :
    (s.byServer c m).backlog = s.backlog := by cases m <;> rfl

end State

/-- A byte that is read has to be there. -/
def Arrived (queue : List UInt8) : Io.Act → Prop
  | .get b => queue.head? = some b
  | .idle | .put _ => True

/-- What a client writes first to be the parent of a daemon of this session. -/
def ids (coboSessionid : UInt32) : List UInt8 := le32 coboServiceid ++ le32 coboSessionid

/-- All that can happen. -/
inductive Step (coboNumPorts : Nat) (coboSessionid : UInt32) (s : State) : State → Prop
  -- the parent resolves the host name, and goes through the ports
  | lookupFails : s.parent = .resolving →
      Step coboNumPorts coboSessionid s { s with parent := .expired none }
  | resolved : s.parent = .resolving →
      Step coboNumPorts coboSessionid s { s with parent := .scanning 0 none }
  | refused {i : Nat} {last : Option Nat} : s.parent = .scanning i last → i < coboNumPorts →
      Step coboNumPorts coboSessionid s { s with parent := .scanning (i + 1) none }
  -- it is too impatient for a connection that waits in the backlog
  | late {i : Nat} {last : Option Nat} : s.parent = .scanning i last → i < coboNumPorts →
      s.child.Listens → Step coboNumPorts coboSessionid s
        { s.enqueue { Conn.new true true with closed := true } with parent := .scanning (i + 1) none }
  | connect {i : Nat} {last : Option Nat} : s.parent = .scanning i last → i < coboNumPorts →
      s.child.Listens → Step coboNumPorts coboSessionid s
        { s.enqueue (.new true true) with parent := .shaking i s.fresh }
  -- there is another server on this port
  | connectElsewhere {i : Nat} {last : Option Nat} : s.parent = .scanning i last →
      i < coboNumPorts → Step coboNumPorts coboSessionid s
        { s.dial (.new true false) with parent := .shaking i s.fresh }
  | shaken {i c : Nat} (result : Rc) : s.parent = .shaking i c → Step coboNumPorts coboSessionid s
      { s with parent := .testing i c (afterHandshakeClient coboSessionid result) }
  | parentActs {i c : Nat} {p p' : Io Verdict} {m : Io.Act} : s.parent = .testing i c p →
      p.Steps m p' → Arrived (s.conns c).answers m → Step coboNumPorts coboSessionid s
        { s.byClient c m with parent := .testing i c p' }
  | passed {i c : Nat} : s.parent = .testing i c (.ret .adopt) →
      Step coboNumPorts coboSessionid s { s with parent := .connected c }
  | failed {i c : Nat} : s.parent = .testing i c (.ret .drop) → Step coboNumPorts coboSessionid s
      { s.close c with parent := .scanning (i + 1) (some c) }
  | parentAborts {i c : Nat} : s.parent = .testing i c (.ret .abort) →
      Step coboNumPorts coboSessionid s { s.close c with parent := .aborted }
  | rescan {last : Option Nat} : s.parent = .scanning coboNumPorts last →
      Step coboNumPorts coboSessionid s { s with parent := .scanning 0 last }
  | timeLimit {last : Option Nat} : s.parent = .scanning coboNumPorts last →
      Step coboNumPorts coboSessionid s { s with parent := .expired last }
  -- the child takes one connection after the other
  | accept {c : Nat} {rest : List Nat} : s.child = .accepting → s.backlog = c :: rest →
      Step coboNumPorts coboSessionid s { s with child := .shaking c, backlog := rest }
  | shakenServer {c : Nat} (result : Rc) : s.child = .shaking c →
      Step coboNumPorts coboSessionid s
        { s with child := .testing c (afterHandshake coboSessionid result) }
  | childActs {c : Nat} {q q' : Io Verdict} {m : Io.Act} : s.child = .testing c q →
      q.Steps m q' → Arrived (s.conns c).pending m → Step coboNumPorts coboSessionid s
        { s.byServer c m with child := .testing c q' }
  | adopts {c : Nat} : s.child = .testing c (.ret .adopt) →
      Step coboNumPorts coboSessionid s { s with child := .adopted c }
  | drops {c : Nat} : s.child = .testing c (.ret .drop) →
      Step coboNumPorts coboSessionid s { s with child := .accepting }
  | childAborts {c : Nat} : s.child = .testing c (.ret .abort) →
      Step coboNumPorts coboSessionid s { s with child := .aborted }
  -- other clients, of another service or session, and other servers
  | otherConnects : s.child.Listens →
      Step coboNumPorts coboSessionid s (s.enqueue (.new false true))
  | otherWrites {c : Nat} (b : UInt8) : c < s.fresh → (s.conns c).byParent = false →
      (s.conns c).closed = false → ¬ids coboSessionid <+: (s.conns c).sent ++ [b] →
      Step coboNumPorts coboSessionid s (s.byClient c (.put b))
  | otherReads {c : Nat} (b : UInt8) : c < s.fresh → (s.conns c).byParent = false →
      (s.conns c).closed = false → Arrived (s.conns c).answers (.get b) →
      Step coboNumPorts coboSessionid s (s.byClient c (.get b))
  | otherCloses {c : Nat} : c < s.fresh → (s.conns c).byParent = false →
      Step coboNumPorts coboSessionid s (s.close c)
  | elsewhereActs {c : Nat} {m : Io.Act} : c < s.fresh → (s.conns c).toChild = false →
      Arrived (s.conns c).pending m → Step coboNumPorts coboSessionid s (s.byServer c m)

def Reachable (coboNumPorts : Nat) (coboSessionid : UInt32) (s : State) : Prop :=
  ReflTransGen (Step coboNumPorts coboSessionid) .init s

/-! ## What the two ends know -/

/-- What the parent still has to do on connection `c`. -/
def Parent.on (coboSessionid : UInt32) (c : Nat) : Parent → Option (Io Verdict)
  | .shaking _ d => if d = c then some (connectIds coboSessionid) else none
  | .testing _ d p => if d = c then some p else none
  | .connected d => if d = c then some (.ret .adopt) else none
  | .resolving | .scanning _ _ | .expired _ | .aborted => none

/-- What the child still has to do on connection `c`. -/
def Child.on (coboSessionid : UInt32) (c : Nat) : Child → Option (Io Verdict)
  | .shaking d => if d = c then some (exchangeIds coboSessionid) else none
  | .testing d q => if d = c then some q else none
  | .adopted d => if d = c then some (.ret .adopt) else none
  | .accepting | .aborted => none

/-- All that the parent writes on the connection it returns. -/
def greeting (coboSessionid : UInt32) : List UInt8 := ids coboSessionid ++ le32 1

/-- What a child has read that adopts a connection. -/
def Greets (coboSessionid : UInt32) (bs : List UInt8) : Prop :=
  bs.length = 12 ∧ ids coboSessionid <+: bs

theorem ids_length (coboSessionid : UInt32) : (ids coboSessionid).length = 8 := rfl

theorem greeting_length (coboSessionid : UInt32) : (greeting coboSessionid).length = 12 := rfl

/-- The parent writes the greeting, and takes the connection if and only if it has written it. -/
theorem connectIds_says (coboSessionid : UInt32) :
    (connectIds coboSessionid).Says (· = .adopt) (greeting coboSessionid) [] := by
  have hne : ids coboSessionid ≠ greeting coboSessionid := fun h => by
    have hlen := congrArg List.length h
    rw [ids_length, greeting_length] at hlen
    omega
  have hpre : ids coboSessionid <+: greeting coboSessionid := List.prefix_append _ _
  refine Io.Says.message ((List.prefix_append _ _).trans hpre) rfl (by decide) ?_
  refine Io.Says.message hpre rfl (by decide) ?_
  refine ⟨hpre, hne, fun service => ?_⟩
  cases service with
  | none => exact Io.Says.gaveUp (by decide) hpre hne
  | some service =>
    refine ⟨hpre, hne, fun accept => ?_⟩
    cases accept with
    | none => exact Io.Says.gaveUp (by decide) hpre hne
    | some accept =>
      show (if _ then Io.ret Verdict.drop else Io.write _ _ : Io Verdict).Says _ _ _
      split
      · exact Io.Says.gaveUp (by decide) hpre hne
      · exact Io.Says.message (List.prefix_refl _) rfl (by decide) ⟨List.prefix_refl _, by simp; rfl⟩

/-- The child takes the connection only after reading the ids and four more bytes. -/
theorem exchangeIds_hears (coboSessionid : UInt32) :
    (exchangeIds coboSessionid).Hears (· = .adopt) (Greets coboSessionid) [] := by
  have hdrop : ∀ past, (Io.ret Verdict.drop).Hears (· = .adopt) (Greets coboSessionid) past :=
    fun past h => nomatch h
  refine ⟨fun _ _ => hdrop _, fun service hservice => ?_⟩
  refine ⟨fun _ _ => hdrop _, fun session hsession => ?_⟩
  show (if _ then Io.ret Verdict.drop else Io.write _ _ : Io Verdict).Hears _ _ _
  split
  · exact hdrop _
  · rename_i hids
    rw [not_or, not_not, not_not] at hids
    intro ok
    cases ok with
    | false => exact hdrop _
    | true =>
      intro ok
      cases ok with
      | false => exact hdrop _
      | true =>
        refine ⟨fun _ _ => hdrop _, fun ack hack _ => ⟨?_, ?_⟩⟩
        · simp [hservice, hsession, hack]
        · rw [eq_le32_of_read hservice hids.1, eq_le32_of_read hsession hids.2]
          exact List.prefix_append _ _

/-- What the connections have to do with the parent: it is in the middle of its exchange on one of
    them, on its others it has not got to the end, and no other client has sent the ids. -/
structure Keeps (coboSessionid : UInt32) (s : State) : Prop where
  mine : ∀ c p, s.parent.on coboSessionid c = some p → c < s.fresh ∧ (s.conns c).byParent = true ∧
    (s.conns c).closed = false ∧ p.Says (· = .adopt) (greeting coboSessionid) (s.conns c).sent
  left : ∀ c, (s.conns c).byParent = true → s.parent.on coboSessionid c = none →
    (s.conns c).sent.length < 12
  others : ∀ c, (s.conns c).byParent = false → ¬ids coboSessionid <+: (s.conns c).sent

/-- What they have to do with the child: it is in the middle of its exchange on one of them, and has
    read nothing yet from those in the backlog. -/
structure Heeds (coboSessionid : UInt32) (s : State) : Prop where
  queued : ∀ c ∈ s.backlog, c < s.fresh ∧ (s.conns c).toChild = true ∧ (s.conns c).heard = []
  once : s.backlog.Nodup
  served : ∀ c q, s.child.on coboSessionid c = some q → c < s.fresh ∧ (s.conns c).toChild = true ∧
    c ∉ s.backlog ∧ q.Hears (· = .adopt) (Greets coboSessionid) (s.conns c).heard

/-! ## The parent's half -/

section

variable {coboNumPorts : Nat} {coboSessionid : UInt32} {s s' : State} {c : Nat}

/-- Steps that are none of the parent's business. -/
theorem Keeps.frame (h : Keeps coboSessionid s)
    (hparent : ∀ c, s'.parent.on coboSessionid c = s.parent.on coboSessionid c)
    (hfresh : s'.fresh = s.fresh) (hours : ∀ c, (s'.conns c).byParent = (s.conns c).byParent ∧
      ((s.conns c).byParent = true → (s'.conns c).closed = (s.conns c).closed ∧
        (s'.conns c).sent = (s.conns c).sent) ∧
      ((s.conns c).byParent = false → ¬ids coboSessionid <+: (s'.conns c).sent)) :
    Keeps coboSessionid s' := by
  constructor
  · intro c p hp
    rw [hparent] at hp
    obtain ⟨hc, hby, hopen, hword⟩ := h.mine c p hp
    obtain ⟨hby', hsame, -⟩ := hours c
    obtain ⟨hclosed, hsent⟩ := hsame hby
    exact ⟨hfresh ▸ hc, hby'.trans hby, hclosed.trans hopen, hsent ▸ hword⟩
  · intro c hby hnone
    rw [hparent] at hnone
    obtain ⟨hby', hsame, -⟩ := hours c
    rw [(hsame (hby' ▸ hby)).2]
    exact h.left c (hby' ▸ hby) hnone
  · intro c hby
    obtain ⟨hby', -, hother⟩ := hours c
    exact hother (hby' ▸ hby)

/-- The parent goes on on the connection it is at. -/
theorem Keeps.goOn (h : Keeps coboSessionid s) {p p' : Io Verdict} (conn : Conn)
    (hp : s.parent.on coboSessionid c = some p) (hp' : s'.parent.on coboSessionid c = some p')
    (hother : ∀ d ≠ c, s.parent.on coboSessionid d = none ∧ s'.parent.on coboSessionid d = none)
    (hfresh : s'.fresh = s.fresh) (hconns : s'.conns = update s.conns c conn)
    (hby : conn.byParent = (s.conns c).byParent) (hclosed : conn.closed = (s.conns c).closed)
    (hword : p'.Says (· = .adopt) (greeting coboSessionid) conn.sent) : Keeps coboSessionid s' := by
  obtain ⟨hc, hbyc, hopen, -⟩ := h.mine c p hp
  constructor
  · intro d q hq
    by_cases hd : d = c
    · subst hd
      cases hp'.symm.trans hq
      rw [hconns, update_self]
      exact ⟨hfresh ▸ hc, hby.trans hbyc, hclosed.trans hopen, hword⟩
    · cases (hother d hd).2.symm.trans hq
  · intro d hbyd hnone
    by_cases hd : d = c
    · subst hd
      cases hp'.symm.trans hnone
    · rw [hconns, update_of_ne hd] at hbyd ⊢
      exact h.left d hbyd (hother d hd).1
  · intro d hbyd
    by_cases hd : d = c
    · subst hd
      rw [hconns, update_self, hby, hbyc] at hbyd
      cases hbyd
    · rw [hconns, update_of_ne hd] at hbyd ⊢
      exact h.others d hbyd

/-- The parent gives up the connection it is at, unless it has written everything. -/
theorem Keeps.giveUp (h : Keeps coboSessionid s) {v : Verdict} (hv : v ≠ .adopt)
    (hp : s.parent.on coboSessionid c = some (.ret v))
    (hp' : ∀ d, s'.parent.on coboSessionid d = none)
    (hother : ∀ d ≠ c, s.parent.on coboSessionid d = none)
    (hconns : s'.conns = (s.close c).conns) : Keeps coboSessionid s' := by
  obtain ⟨-, hbyc, -, hpre, hgood⟩ := h.mine c _ hp
  have hsent : ∀ d, (s'.conns d).sent = (s.conns d).sent ∧
      (s'.conns d).byParent = (s.conns d).byParent := by
    intro d
    rw [hconns]
    by_cases hd : d = c
    · subst hd
      simp [State.close, State.setConn, Conn.sent]
    · simp [State.close, State.setConn, update_of_ne hd]
  constructor
  · intro d q hq
    cases (hp' d).symm.trans hq
  · intro d hby hnone
    rw [(hsent d).2] at hby
    rw [(hsent d).1]
    by_cases hd : d = c
    · subst hd
      -- what has been written is not all, so it is shorter
      rcases Nat.lt_or_ge (s.conns d).sent.length 12 with hlt | hge
      · exact hlt
      · exact absurd (hgood.mpr (hpre.eq_of_length_le hge)) hv
    · exact h.left d hby (hother d hd)
  · intro d hby
    rw [(hsent d).2] at hby
    rw [(hsent d).1]
    exact h.others d hby

/-- A new connection. -/
theorem Keeps.dial (h : Keeps coboSessionid s) (conn : Conn) (hnew : conn.sent = [])
    (hfresh : s'.fresh = s.fresh + 1) (hconns : s'.conns = update s.conns s.fresh conn)
    (hp' : ∀ c p, s'.parent.on coboSessionid c = some p → s.parent.on coboSessionid c = some p ∨
      c = s.fresh ∧ p = connectIds coboSessionid ∧ conn.byParent = true ∧ conn.closed = false)
    (hnone : ∀ c, s'.parent.on coboSessionid c = none → s.parent.on coboSessionid c = none) :
    Keeps coboSessionid s' := by
  constructor
  · intro c p hp
    rcases hp' c p hp with hold | ⟨rfl, rfl, hby, hopen⟩
    · obtain ⟨hc, hby, hopen, hword⟩ := h.mine c p hold
      rw [hconns, update_of_ne hc.ne]
      exact ⟨by omega, hby, hopen, hword⟩
    · rw [hconns, update_self, hnew]
      exact ⟨by omega, hby, hopen, connectIds_says coboSessionid⟩
  · intro c hby hon
    by_cases hc : c = s.fresh
    · subst hc
      rw [hconns, update_self, hnew]
      exact Nat.zero_lt_succ _
    · rw [hconns, update_of_ne hc] at hby ⊢
      exact h.left c hby (hnone c hon)
  · intro c hby
    by_cases hc : c = s.fresh
    · subst hc
      rw [hconns, update_self, hnew]
      exact fun hpre => by simpa [ids_length] using hpre.length_le
    · rw [hconns, update_of_ne hc] at hby ⊢
      exact h.others c hby

/-! ## The child's half -/

/-- Steps that are none of the child's business. -/
theorem Heeds.frame (h : Heeds coboSessionid s) (hchild : s'.child = s.child)
    (hbacklog : s'.backlog = s.backlog) (hfresh : s.fresh ≤ s'.fresh)
    (hours : ∀ c < s.fresh, (s.conns c).toChild = true →
      (s'.conns c).toChild = true ∧ (s'.conns c).heard = (s.conns c).heard) :
    Heeds coboSessionid s' := by
  constructor
  · intro c hc
    obtain ⟨hlt, hto, hheard⟩ := h.queued c (hbacklog ▸ hc)
    obtain ⟨hto', hsame⟩ := hours c hlt hto
    exact ⟨hlt.trans_le hfresh, hto', hsame.trans hheard⟩
  · rw [hbacklog]
    exact h.once
  · intro c q hq
    rw [hchild] at hq
    obtain ⟨hlt, hto, hmem, hhears⟩ := h.served c q hq
    obtain ⟨hto', hsame⟩ := hours c hlt hto
    exact ⟨hlt.trans_le hfresh, hto', hbacklog ▸ hmem, hsame ▸ hhears⟩

/-- A new connection in the backlog. -/
theorem Heeds.enqueue (h : Heeds coboSessionid s) {conn : Conn} (hto : conn.toChild = true)
    (hnew : conn.heard = []) (hchild : s'.child = s.child)
    (hbacklog : s'.backlog = s.backlog ++ [s.fresh]) (hfresh : s'.fresh = s.fresh + 1)
    (hconns : s'.conns = update s.conns s.fresh conn) : Heeds coboSessionid s' := by
  constructor
  · intro c hc
    rw [hbacklog, List.mem_append, List.mem_singleton] at hc
    rcases hc with hc | rfl
    · obtain ⟨hlt, hto', hheard⟩ := h.queued c hc
      rw [hconns, update_of_ne hlt.ne]
      exact ⟨by omega, hto', hheard⟩
    · rw [hconns, update_self]
      exact ⟨by omega, hto, hnew⟩
  · rw [hbacklog]
    refine List.nodup_append.mpr ⟨h.once, by simp, ?_⟩
    intro c hc d hd
    rw [List.mem_singleton.mp hd]
    exact (h.queued c hc).1.ne
  · intro c q hq
    rw [hchild] at hq
    obtain ⟨hlt, hto', hmem, hhears⟩ := h.served c q hq
    rw [hconns, update_of_ne hlt.ne, hbacklog, List.mem_append, List.mem_singleton]
    exact ⟨by omega, hto', fun hor => hor.elim hmem hlt.ne, hhears⟩

/-- The child goes on on the connection it is at, or with the next one, or has none. -/
theorem Heeds.goOn (h : Heeds coboSessionid s) (hsub : s'.backlog.Sublist s.backlog)
    (hfresh : s'.fresh = s.fresh)
    (hours : ∀ c ∈ s'.backlog, (s'.conns c) = s.conns c)
    (hserved : ∀ c q, s'.child.on coboSessionid c = some q → c < s.fresh ∧
      (s'.conns c).toChild = true ∧ c ∉ s'.backlog ∧
      q.Hears (· = .adopt) (Greets coboSessionid) (s'.conns c).heard) : Heeds coboSessionid s' := by
  constructor
  · intro c hc
    rw [hours c hc, hfresh]
    exact h.queued c (hsub.subset hc)
  · exact hsub.nodup h.once
  · intro c q hq
    rw [hfresh]
    exact hserved c q hq

/-! ## Agreement -/

/-- What a server does changes neither what was written to it nor who it is connected to. -/
theorem byServer_conns {m : Io.Act} (harrived : Arrived (s.conns c).pending m) (d : Nat) :
    ((s.byServer c m).conns d).byParent = (s.conns d).byParent ∧
      ((s.byServer c m).conns d).toChild = (s.conns d).toChild ∧
      ((s.byServer c m).conns d).closed = (s.conns d).closed ∧
      ((s.byServer c m).conns d).sent = (s.conns d).sent := by
  by_cases hd : d = c
  · subst hd
    cases m with
    | idle => exact ⟨rfl, rfl, rfl, rfl⟩
    | put b => simp [State.byServer, State.setConn, Conn.sent]
    | get b =>
      obtain ⟨rest, hrest⟩ := List.head?_eq_some_iff.mp harrived
      simp [State.byServer, State.setConn, Conn.sent, hrest]
  · cases m with
    | idle => exact ⟨rfl, rfl, rfl, rfl⟩
    | put b | get b => simp [State.byServer, State.setConn, update_of_ne hd]

/-- What a client does changes neither what was read from it nor who it is connected to. -/
theorem byClient_conns (m : Io.Act) (d : Nat) :
    ((s.byClient c m).conns d).byParent = (s.conns d).byParent ∧
      ((s.byClient c m).conns d).toChild = (s.conns d).toChild ∧
      ((s.byClient c m).conns d).closed = (s.conns d).closed ∧
      ((s.byClient c m).conns d).heard = (s.conns d).heard := by
  by_cases hd : d = c
  · subst hd
    cases m <;> simp [State.byClient, State.setConn]
  · cases m <;> simp [State.byClient, State.setConn, update_of_ne hd]

theorem close_conns (d : Nat) :
    ((s.close c).conns d).byParent = (s.conns d).byParent ∧
      ((s.close c).conns d).toChild = (s.conns d).toChild ∧
      ((s.close c).conns d).heard = (s.conns d).heard ∧
      ((s.close c).conns d).sent = (s.conns d).sent := by
  by_cases hd : d = c
  · subst hd
    simp [State.close, State.setConn, Conn.sent]
  · simp [State.close, State.setConn, update_of_ne hd]

theorem keeps_step (h : Keeps coboSessionid s) (hstep : Step coboNumPorts coboSessionid s s') :
    Keeps coboSessionid s' := by
  -- the connections stay as they are
  have hsame : ∀ t : State, (∀ c, t.parent.on coboSessionid c = s.parent.on coboSessionid c) →
      t.fresh = s.fresh → t.conns = s.conns → Keeps coboSessionid t := by
    intro t hparent hfresh hconns
    refine h.frame hparent hfresh fun c => ?_
    rw [hconns]
    exact ⟨rfl, fun _ => ⟨rfl, rfl⟩, h.others c⟩
  -- a server acts
  have hserver : ∀ (t : State) (c : Nat) (m : Io.Act), Arrived (s.conns c).pending m →
      t.parent = s.parent → t.fresh = s.fresh → t.conns = (s.byServer c m).conns →
      Keeps coboSessionid t := by
    intro t c m harrived hparent hfresh hconns
    refine h.frame (fun d => by rw [hparent]) hfresh fun d => ?_
    obtain ⟨hby, -, hclosed, hsent⟩ := byServer_conns harrived d
    rw [hconns, hsent]
    exact ⟨hby, fun _ => ⟨hclosed, rfl⟩, h.others d⟩
  cases hstep with
  | lookupFails hp => exact hsame _ (fun c => by simp [hp, Parent.on]) rfl rfl
  | resolved hp => exact hsame _ (fun c => by simp [hp, Parent.on]) rfl rfl
  | refused hp _ => exact hsame _ (fun c => by simp [hp, Parent.on]) rfl rfl
  | rescan hp => exact hsame _ (fun c => by simp [hp, Parent.on]) rfl rfl
  | timeLimit hp => exact hsame _ (fun c => by simp [hp, Parent.on]) rfl rfl
  | passed hp => exact hsame _ (fun c => by simp [hp, Parent.on]) rfl rfl
  | late hp _ _ =>
    refine h.dial { Conn.new true true with closed := true } rfl rfl rfl ?_ ?_
    · intro c p hq
      cases hq
    · intro c _
      simp [hp, Parent.on]
  | connect hp _ _ | connectElsewhere hp _ =>
    refine h.dial _ rfl rfl rfl ?_ ?_
    · intro c p hq
      right
      simp only [Parent.on, Option.ite_none_right_eq_some, Option.some.injEq] at hq
      exact ⟨hq.1.symm, hq.2.symm, rfl, rfl⟩
    · intro c _
      simp [hp, Parent.on]
  | @shaken i c result hp =>
    have hon : s.parent.on coboSessionid c = some (connectIds coboSessionid) := by
      simp [hp, Parent.on]
    obtain ⟨-, -, -, hword⟩ := h.mine c _ hon
    -- nothing has been written yet
    have hne : (s.conns c).sent ≠ greeting coboSessionid := by
      intro heq
      have hle := hword.1.length_le
      rw [heq, List.length_append, greeting_length, length_le32] at hle
      omega
    refine h.goOn (s.conns c) hon
      (by simp [Parent.on] : _ = some (afterHandshakeClient coboSessionid result)) ?_ rfl
      (update_eq_self c _).symm rfl rfl ?_
    · intro d hd
      simp [hp, Parent.on, Ne.symm hd]
    · cases result with
      | success => exact hword
      | dropConnection | connectionRefused | internalError | abort | again =>
        exact Io.Says.gaveUp (by decide) hword.isPrefix hne
  | @parentActs i c p p' m hp hact _ =>
    have hon : s.parent.on coboSessionid c = some p := by simp [hp, Parent.on]
    obtain ⟨-, -, -, hword⟩ := h.mine c _ hon
    have hnext := hword.step hact
    refine h.goOn ((s.byClient c m).conns c) hon (by simp [Parent.on] : _ = some p') ?_ ?_ ?_
      (byClient_conns m c).1 (byClient_conns m c).2.2.1 ?_
    · intro d hd
      simp [hp, Parent.on, Ne.symm hd]
    · cases m <;> rfl
    · cases m <;> simp [State.byClient, State.setConn]
    · cases m with
      | idle => exact hnext
      | put b => simpa [State.byClient, State.setConn, Conn.sent] using hnext
      | get b => simpa [State.byClient, State.setConn, Conn.sent] using hnext
  | @failed i c hp =>
    have hon : s.parent.on coboSessionid c = some (.ret .drop) := by simp [hp, Parent.on]
    refine h.giveUp (by decide) hon (fun d => rfl) ?_ rfl
    intro d hd
    simp [hp, Parent.on, Ne.symm hd]
  | @parentAborts i c hp =>
    have hon : s.parent.on coboSessionid c = some (.ret .abort) := by simp [hp, Parent.on]
    refine h.giveUp (by decide) hon (fun d => rfl) ?_ rfl
    intro d hd
    simp [hp, Parent.on, Ne.symm hd]
  | accept _ _ => exact hsame _ (fun c => rfl) rfl rfl
  | shakenServer _ _ => exact hsame _ (fun c => rfl) rfl rfl
  | adopts _ => exact hsame _ (fun c => rfl) rfl rfl
  | drops _ => exact hsame _ (fun c => rfl) rfl rfl
  | childAborts _ => exact hsame _ (fun c => rfl) rfl rfl
  | @childActs c q q' m _ _ harrived =>
    exact hserver _ c m harrived (by simp) (by simp) rfl
  | @elsewhereActs c m _ _ harrived =>
    exact hserver _ c m harrived (by simp) (by simp) rfl
  | otherConnects _ =>
    refine h.dial (Conn.new false true) rfl rfl rfl ?_ fun c hc => hc
    intro c p hq
    exact Or.inl hq
  | @otherWrites c b _ hby _ hids =>
    refine h.frame (fun d => rfl) rfl fun d => ?_
    by_cases hd : d = c
    · subst hd
      refine ⟨(byClient_conns (.put b) d).1, fun hours => ?_, fun _ => ?_⟩
      · rw [hby] at hours
        cases hours
      · simpa [State.byClient, State.setConn, Conn.sent] using hids
    · simp only [State.byClient, State.setConn, update_of_ne hd, and_self, implies_true, true_and]
      exact h.others d
  | @otherReads c b _ hby _ _ =>
    refine h.frame (fun d => rfl) rfl fun d => ?_
    obtain ⟨hby', -, hclosed, hheard⟩ := byClient_conns (s := s) (c := c) (.get b) d
    have hsent : ((s.byClient c (.get b)).conns d).sent = (s.conns d).sent := by
      by_cases hd : d = c
      · subst hd
        simp [State.byClient, State.setConn, Conn.sent]
      · simp [State.byClient, State.setConn, update_of_ne hd]
    rw [hsent]
    exact ⟨hby', fun _ => ⟨hclosed, rfl⟩, h.others d⟩
  | @otherCloses c _ hby =>
    refine h.frame (fun d => rfl) rfl fun d => ?_
    obtain ⟨hby', -, -, hsent⟩ := close_conns (s := s) (c := c) d
    rw [hsent]
    refine ⟨hby', fun hours => ⟨?_, rfl⟩, h.others d⟩
    have hd : d ≠ c := by
      rintro rfl
      rw [hby] at hours
      cases hours
    simp [State.close, State.setConn, update_of_ne hd]

theorem heeds_step (h : Heeds coboSessionid s) (hstep : Step coboNumPorts coboSessionid s s') :
    Heeds coboSessionid s' := by
  -- only the parent moves on
  have hsame : ∀ t : State, t.child = s.child → t.backlog = s.backlog → t.fresh = s.fresh →
      t.conns = s.conns → Heeds coboSessionid t := by
    intro t hchild hbacklog hfresh hconns
    refine h.frame hchild hbacklog hfresh.ge fun c _ hto => ?_
    rw [hconns]
    exact ⟨hto, rfl⟩
  -- a client acts
  have hclient : ∀ (t : State) (c : Nat) (m : Io.Act), t.child = s.child →
      t.backlog = s.backlog → t.fresh = s.fresh → t.conns = (s.byClient c m).conns →
      Heeds coboSessionid t := by
    intro t c m hchild hbacklog hfresh hconns
    refine h.frame hchild hbacklog hfresh.ge fun d _ hto => ?_
    obtain ⟨-, hto', -, hheard⟩ := byClient_conns (s := s) (c := c) m d
    rw [hconns]
    exact ⟨hto'.trans hto, hheard⟩
  have hcloses : ∀ (t : State) (c : Nat), t.child = s.child → t.backlog = s.backlog →
      t.fresh = s.fresh → t.conns = (s.close c).conns → Heeds coboSessionid t := by
    intro t c hchild hbacklog hfresh hconns
    refine h.frame hchild hbacklog hfresh.ge fun d _ hto => ?_
    obtain ⟨-, hto', hheard, -⟩ := close_conns (s := s) (c := c) d
    rw [hconns]
    exact ⟨hto'.trans hto, hheard⟩
  -- the child gives a connection up
  have hidle : ∀ t : State, t.backlog = s.backlog → t.fresh = s.fresh → t.conns = s.conns →
      (∀ c, t.child.on coboSessionid c = none) → Heeds coboSessionid t := by
    intro t hbacklog hfresh hconns hnone
    refine h.goOn (hbacklog ▸ List.Sublist.refl _) hfresh (fun c _ => by rw [hconns]) fun c q hq => ?_
    cases (hnone c).symm.trans hq
  cases hstep with
  | lookupFails _ | resolved _ | refused _ _ | shaken _ _ | passed _ | rescan _ | timeLimit _ =>
    exact hsame _ rfl rfl rfl rfl
  | late _ _ _ | connect _ _ _ | otherConnects _ => exact h.enqueue rfl rfl rfl rfl rfl rfl
  | connectElsewhere _ _ =>
    refine h.frame rfl rfl (Nat.le_succ _) fun c hc hto => ?_
    have heq : update s.conns s.fresh (Conn.new true false) c = s.conns c := update_of_ne hc.ne _ _
    exact ⟨(congrArg Conn.toChild heq).trans hto, congrArg Conn.heard heq⟩
  | @parentActs _ c _ _ m _ _ _ =>
    exact hclient _ c m (by simp) (by simp) (by simp) rfl
  | failed _ | parentAborts _ => exact hcloses _ _ rfl rfl rfl rfl
  | @accept c rest hchild hbacklog =>
    have hnodup := h.once
    rw [hbacklog] at hnodup
    obtain ⟨hnot, -⟩ := List.nodup_cons.mp hnodup
    refine h.goOn (by rw [hbacklog]; exact List.sublist_cons_self c rest) rfl (fun _ _ => rfl) ?_
    intro d q hq
    simp only [Child.on, Option.ite_none_right_eq_some, Option.some.injEq] at hq
    obtain ⟨rfl, rfl⟩ := hq
    obtain ⟨hlt, hto, hheard⟩ := h.queued c (by rw [hbacklog]; exact List.mem_cons_self)
    refine ⟨hlt, hto, hnot, ?_⟩
    show (exchangeIds coboSessionid).Hears _ _ (s.conns c).heard
    rw [hheard]
    exact exchangeIds_hears coboSessionid
  | @shakenServer c result hchild =>
    have hon : s.child.on coboSessionid c = some (exchangeIds coboSessionid) := by
      simp [hchild, Child.on]
    obtain ⟨hlt, hto, hmem, hhears⟩ := h.served c _ hon
    refine h.goOn (List.Sublist.refl _) rfl (fun _ _ => rfl) fun d q hq => ?_
    simp only [Child.on, Option.ite_none_right_eq_some, Option.some.injEq] at hq
    obtain ⟨rfl, rfl⟩ := hq
    refine ⟨hlt, hto, hmem, ?_⟩
    cases result with
    | success => exact hhears
    | dropConnection | connectionRefused | internalError | abort | again =>
      exact fun hv => nomatch hv
  | @childActs c q q' m hchild hact harrived =>
    have hon : s.child.on coboSessionid c = some q := by simp [hchild, Child.on]
    obtain ⟨hlt, hto, hmem, hhears⟩ := h.served c _ hon
    have hnext := hhears.step hact
    refine h.goOn (by simp) (by simp) ?_ ?_
    · intro d hd
      have hdc : d ≠ c := by
        rintro rfl
        simp [hmem] at hd
      cases m with
      | idle => rfl
      | put b | get b => exact update_of_ne hdc _ _
    · intro d q'' hq
      simp only [Child.on, Option.ite_none_right_eq_some, Option.some.injEq] at hq
      obtain ⟨rfl, rfl⟩ := hq
      refine ⟨hlt, (byServer_conns harrived c).2.1.trans hto, ?_, ?_⟩
      · simpa using hmem
      · cases m with
        | idle => exact hnext
        | put b => simpa [State.byServer, State.setConn] using hnext
        | get b => simpa [State.byServer, State.setConn] using hnext
  | @adopts c hchild =>
    have hon : s.child.on coboSessionid c = some (.ret .adopt) := by simp [hchild, Child.on]
    obtain ⟨hlt, hto, hmem, hhears⟩ := h.served c _ hon
    refine h.goOn (List.Sublist.refl _) rfl (fun _ _ => rfl) fun d q hq => ?_
    simp only [Child.on, Option.ite_none_right_eq_some, Option.some.injEq] at hq
    obtain ⟨rfl, rfl⟩ := hq
    exact ⟨hlt, hto, hmem, hhears⟩
  | drops _ => exact hidle _ rfl rfl rfl fun _ => rfl
  | childAborts _ => exact hidle _ rfl rfl rfl fun _ => rfl
  | @otherWrites c b _ _ _ _ => exact hclient _ c (.put b) rfl rfl rfl rfl
  | @otherReads c b _ _ _ _ => exact hclient _ c (.get b) rfl rfl rfl rfl
  | otherCloses _ _ => exact hcloses _ _ rfl rfl rfl rfl
  | @elsewhereActs c m _ hto harrived =>
    refine h.frame (by simp) (by simp) (by simp) ?_
    intro d _ hd
    have hdc : d ≠ c := by
      rintro rfl
      rw [hto] at hd
      cases hd
    refine ⟨(byServer_conns harrived d).2.1.trans hd, ?_⟩
    cases m with
    | idle => rfl
    | put b | get b => simp [State.byServer, State.setConn, update_of_ne hdc]

/-- Every state of every run. -/
theorem Reachable.halves (h : Reachable coboNumPorts coboSessionid s) :
    Keeps coboSessionid s ∧ Heeds coboSessionid s := by
  induction h with
  | refl =>
    refine ⟨⟨fun c p hp => (nomatch hp), fun c hby => (nomatch hby), fun c _ hpre => ?_⟩,
      ⟨fun c hc => (nomatch hc), List.nodup_nil, fun c q hq => (nomatch hq)⟩⟩
    have hle : (ids coboSessionid).length ≤ 0 := hpre.length_le
    rw [ids_length] at hle
    omega
  | tail _ hstep ih => exact ⟨keeps_step ih.1 hstep, heeds_step ih.2 hstep⟩

/-- The parent returns connection `c`, or is about to and nothing can keep it from doing so. -/
def Parent.Returns (c : Nat) : Parent → Prop
  | .connected d => d = c
  | .testing _ d p => d = c ∧ ∀ l, (p.serve l).1 = .adopt
  | .resolving | .scanning _ _ | .shaking _ _ | .expired _ | .aborted => False

/-- The socket that `cobo_connect_hostname` has returned: also when its time is up, it is that of the
    last attempt. -/
def Parent.returned : Parent → Option Nat
  | .connected c => some c
  | .expired s => s
  | .resolving | .scanning _ _ | .shaking _ _ | .testing _ _ _ | .aborted => none

/-- What the parent has returned, it has returned. -/
theorem returned_run {t : State} (hrun : ReflTransGen (Step coboNumPorts coboSessionid) s t)
    (hp : s.parent.returned = some c) : t.parent.returned = some c := by
  induction hrun with
  | refl => exact hp
  | tail _ hstep ih =>
    cases hstep <;>
      simp_all [State.enqueue, State.dial, State.close, State.setConn, Parent.returned]

/-- A child that has adopted a connection stays so. -/
theorem adopted_run {t : State} (hrun : ReflTransGen (Step coboNumPorts coboSessionid) s t)
    (hc : s.child = .adopted c) : t.child = .adopted c := by
  induction hrun with
  | refl => exact hc
  | tail _ hstep ih => cases hstep <;> simp_all [State.enqueue, State.dial, State.close, State.setConn]

/-- What holds in a state in which the child has adopted connection `c`. -/
theorem adopted_state (h : Reachable coboNumPorts coboSessionid s) (hc : s.child = .adopted c) :
    (s.conns c).byParent = true ∧ (s.conns c).closed = false ∧
      (s.conns c).sent = greeting coboSessionid ∧ s.parent.Returns c := by
  obtain ⟨hkeeps, hheeds⟩ := h.halves
  obtain ⟨-, -, -, hhears⟩ := hheeds.served c (.ret .adopt) (by simp [hc, Child.on])
  obtain ⟨hlen, hids⟩ : Greets coboSessionid (s.conns c).heard := hhears rfl
  have hheard : (s.conns c).heard <+: (s.conns c).sent := List.prefix_append _ _
  have hby : (s.conns c).byParent = true := by
    cases hby : (s.conns c).byParent with
    | true => rfl
    | false => exact absurd (hids.trans hheard) (hkeeps.others c hby)
  have hlong : 12 ≤ (s.conns c).sent.length := hlen ▸ hheard.length_le
  cases hon : s.parent.on coboSessionid c with
  | none => exact absurd (hkeeps.left c hby hon) (Nat.not_lt.mpr hlong)
  | some p =>
    obtain ⟨-, -, hopen, hword⟩ := hkeeps.mine c p hon
    have hsent : (s.conns c).sent = greeting coboSessionid := hword.isPrefix.eq_of_length_le hlong
    refine ⟨hby, hopen, hsent, ?_⟩
    rw [hsent] at hword
    cases hp : s.parent with
    | connected d =>
      simp only [hp, Parent.on, Option.ite_none_right_eq_some] at hon
      exact hon.1
    | testing i d p' =>
      simp only [hp, Parent.on, Option.ite_none_right_eq_some, Option.some.injEq] at hon
      obtain ⟨rfl, rfl⟩ := hon
      exact ⟨rfl, hword.sure⟩
    | shaking i d =>
      simp only [hp, Parent.on, Option.ite_none_right_eq_some, Option.some.injEq] at hon
      obtain ⟨rfl, rfl⟩ := hon
      have hle := hword.1.length_le
      rw [List.length_append, length_le32] at hle
      omega
    | _ => simp [hp, Parent.on] at hon

/-- **Agreement**: when the child has left its accept loop on connection `c`, the parent has written
    the acknowledgement there and has not closed it, it returns `c` and does so from here on, and in
    no state before or after has it returned anything else. -/
theorem agreement (h : Reachable coboNumPorts coboSessionid s) (hc : s.child = .adopted c) :
    (s.conns c).byParent = true ∧ (s.conns c).closed = false ∧
      (s.conns c).sent = greeting coboSessionid ∧
      (∀ t, ReflTransGen (Step coboNumPorts coboSessionid) s t →
        t.parent.Returns c ∧ (t.conns c).closed = false) ∧
      ∀ t, ReflTransGen (Step coboNumPorts coboSessionid) s t ∨
        ReflTransGen (Step coboNumPorts coboSessionid) t s →
        ∀ d, t.parent.returned = some d → d = c := by
  obtain ⟨hby, hopen, hsent, hreturns⟩ := adopted_state h hc
  have hlater : ∀ t, ReflTransGen (Step coboNumPorts coboSessionid) s t →
      t.parent.Returns c ∧ (t.conns c).closed = false := by
    intro t ht
    obtain ⟨-, hopen', -, hreturns'⟩ := adopted_state (ReflTransGen.trans h ht) (adopted_run ht hc)
    exact ⟨hreturns', hopen'⟩
  refine ⟨hby, hopen, hsent, hlater, ?_⟩
  -- who returns `c` has not returned anything else
  have hsame : ∀ P : Parent, P.Returns c → ∀ d, P.returned = some d → d = c := by
    intro P hP d hd
    cases P with
    | connected e =>
      cases hd
      exact hP
    | expired => cases hP
    | _ => cases hd
  rintro t (ht | ht) d hd
  · exact hsame _ (hlater t ht).1 d hd
  · exact hsame _ hreturns d (returned_run ht hd)

/-! ## An undisturbed attempt -/

/-- Where the two ends are, and what is on its way on connection 0. -/
def On (s : State) (P : Parent) (Q : Child) (pending answers : List UInt8) : Prop :=
  s.parent = P ∧ s.child = Q ∧ (s.conns 0).pending = pending ∧ (s.conns 0).answers = answers

variable {i : Nat} {Q : Child} {P : Parent} {bs x y : List UInt8} {k : Bool → Io Verdict}
  {kr : Option (List UInt8) → Io Verdict}

theorem parent_puts (coboNumPorts : Nat) (coboSessionid : UInt32)
    (h : On s (.testing i 0 (.write bs k)) Q x y) :
    ∃ t, ReflTransGen (Step coboNumPorts coboSessionid) s t ∧
      On t (.testing i 0 (k true)) Q (x ++ bs) y := by
  induction bs generalizing s x with
  | nil =>
    obtain ⟨hp, hc, hx, hy⟩ := h
    exact ⟨_, .single (.parentActs hp (.sent k) trivial), rfl, hc, by simpa [State.byClient] using hx, hy⟩
  | cons b bs ih =>
    obtain ⟨hp, hc, hx, hy⟩ := h
    obtain ⟨t, ht, hon⟩ := @ih { s.byClient 0 (.put b) with parent := .testing i 0 (.write bs k) }
      (x ++ [b]) ⟨rfl, hc, by simp [State.byClient, State.setConn, hx],
        by simp [State.byClient, State.setConn, hy]⟩
    exact ⟨t, .head (.parentActs hp (.put b bs k) trivial) ht, by simpa using hon⟩

theorem parent_gets (coboNumPorts : Nat) (coboSessionid : UInt32) (bs : List UInt8)
    (h : On s (.testing i 0 (.read bs.length kr)) Q x (bs ++ y)) :
    ∃ t, ReflTransGen (Step coboNumPorts coboSessionid) s t ∧
      On t (.testing i 0 (kr (some bs))) Q x y := by
  induction bs generalizing s kr with
  | nil =>
    obtain ⟨hp, hc, hx, hy⟩ := h
    exact ⟨_, .single (.parentActs hp (.received kr) trivial), rfl, hc, hx, hy⟩
  | cons b bs ih =>
    obtain ⟨hp, hc, hx, hy⟩ := h
    obtain ⟨t, ht, hon⟩ := @ih { s.byClient 0 (.get b) with
        parent := .testing i 0 (.read bs.length fun o => kr (o.map (b :: ·))) }
      _ ⟨rfl, hc, by simp [State.byClient, State.setConn, hx],
        by simp [State.byClient, State.setConn, hy]⟩
    exact ⟨t, .head (.parentActs hp (.get _ b kr) (by simp [Arrived, hy])) ht, hon⟩

theorem child_puts (coboNumPorts : Nat) (coboSessionid : UInt32)
    (h : On s P (.testing 0 (.write bs k)) x y) :
    ∃ t, ReflTransGen (Step coboNumPorts coboSessionid) s t ∧
      On t P (.testing 0 (k true)) x (y ++ bs) := by
  induction bs generalizing s y with
  | nil =>
    obtain ⟨hp, hc, hx, hy⟩ := h
    exact ⟨_, .single (.childActs hc (.sent k) trivial), hp, rfl, hx, by simpa [State.byServer] using hy⟩
  | cons b bs ih =>
    obtain ⟨hp, hc, hx, hy⟩ := h
    obtain ⟨t, ht, hon⟩ := @ih { s.byServer 0 (.put b) with child := .testing 0 (.write bs k) }
      (y ++ [b]) ⟨hp, rfl, by simp [State.byServer, State.setConn, hx],
        by simp [State.byServer, State.setConn, hy]⟩
    exact ⟨t, .head (.childActs hc (.put b bs k) trivial) ht, by simpa using hon⟩

theorem child_gets (coboNumPorts : Nat) (coboSessionid : UInt32) (bs : List UInt8)
    (h : On s P (.testing 0 (.read bs.length kr)) (bs ++ x) y) :
    ∃ t, ReflTransGen (Step coboNumPorts coboSessionid) s t ∧
      On t P (.testing 0 (kr (some bs))) x y := by
  induction bs generalizing s kr with
  | nil =>
    obtain ⟨hp, hc, hx, hy⟩ := h
    exact ⟨_, .single (.childActs hc (.received kr) trivial), hp, rfl, hx, hy⟩
  | cons b bs ih =>
    obtain ⟨hp, hc, hx, hy⟩ := h
    obtain ⟨t, ht, hon⟩ := @ih { s.byServer 0 (.get b) with
        child := .testing 0 (.read bs.length fun o => kr (o.map (b :: ·))) }
      _ ⟨hp, rfl, by simp [State.byServer, State.setConn, hx],
        by simp [State.byServer, State.setConn, hy]⟩
    exact ⟨t, .head (.childActs hc (.get _ b kr) (by simp [Arrived, hx])) ht, hon⟩

/-- **A parent that is not disturbed gets its child** at the first attempt. -/
theorem can_connect (coboNumPorts : Nat) (coboSessionid : UInt32) (hports : 0 < coboNumPorts) :
    ∃ s, Reachable coboNumPorts coboSessionid s ∧ s.parent = .connected 0 ∧ s.child = .adopted 0 := by
  -- connected, and both handshakes done
  have hstart : ∃ s, Reachable coboNumPorts coboSessionid s ∧
      On s (.testing 0 0 (connectIds coboSessionid)) (.testing 0 (exchangeIds coboSessionid)) [] [] := by
    refine ⟨_, .tail (.tail (.tail (.tail (.tail .refl (.resolved rfl)) (.connect rfl hports trivial))
      (.shaken .success rfl)) (.accept rfl rfl)) (.shakenServer .success rfl), rfl, rfl, rfl, rfl⟩
  have hread : ∀ x : UInt32, readLe32 (le32 x) = some x := fun x => readLe32_append x []
  obtain ⟨s0, hs0, h0⟩ := hstart
  obtain ⟨s1, hs1, h1⟩ := parent_puts coboNumPorts coboSessionid h0
  obtain ⟨s2, hs2, h2⟩ := parent_puts coboNumPorts coboSessionid h1
  obtain ⟨s3, hs3, h3⟩ := child_gets coboNumPorts coboSessionid (le32 coboServiceid) h2
  obtain ⟨s4, hs4, h4⟩ := child_gets coboNumPorts coboSessionid (le32 coboSessionid)
    (x := []) h3
  have hc4 : s4.child = .testing 0 (if _ then .ret .drop else .write _ _) := h4.2.1
  rw [if_neg (by simp [hread])] at hc4
  obtain ⟨s5, hs5, h5⟩ := child_puts coboNumPorts coboSessionid ⟨h4.1, hc4, h4.2.2⟩
  obtain ⟨s6, hs6, h6⟩ := child_puts coboNumPorts coboSessionid h5
  obtain ⟨s7, hs7, h7⟩ := parent_gets coboNumPorts coboSessionid (le32 coboServiceid) h6
  obtain ⟨s8, hs8, h8⟩ := parent_gets coboNumPorts coboSessionid (le32 coboAcceptid)
    (y := []) h7
  have hp8 : s8.parent = .testing 0 0 (.write (le32 1) _) := h8.1
  obtain ⟨s9, hs9, h9⟩ := parent_puts coboNumPorts coboSessionid ⟨hp8, h8.2⟩
  obtain ⟨s10, hs10, h10⟩ := child_gets coboNumPorts coboSessionid (le32 1) (x := []) h9
  obtain ⟨hp, hc, -, -⟩ := h10
  have hrun : ReflTransGen (Step coboNumPorts coboSessionid) s0 s10 :=
    hs1.trans (hs2.trans (hs3.trans (hs4.trans (hs5.trans (hs6.trans (hs7.trans (hs8.trans
      (hs9.trans hs10))))))))
  exact ⟨_, .tail (.tail (hs0.trans hrun) (.passed hp)) (.adopts hc), rfl, rfl⟩

end

/-- A run to an adopted connection. -/
theorem agreement_undisturbed : ∃ s, Reachable 1 7 s ∧ s.child = .adopted 0 ∧
    (s.conns 0).sent = greeting 7 ∧ s.parent.Returns 0 := by
  obtain ⟨s, hs, -, hc⟩ := can_connect 1 7 Nat.one_pos
  obtain ⟨-, -, hsent, hlater, -⟩ := agreement hs hc
  exact ⟨s, hs, hc, hsent, (hlater s .refl).1⟩

end LaunchMON.Cobo
