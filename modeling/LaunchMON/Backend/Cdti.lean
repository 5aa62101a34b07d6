/-
  The control streams of Blue Gene/Q: the messages of `lmon_be_sync_mpi_bgq.cxx`, the sockets they go
  over, and the exchange of a request and its acknowledgement.

  1. **Messages.**  Their layout is in a header of the system.  What the code takes from it is a
     parameter, `Toolctl`: the sizes of the structures, the values of the constants, and how the fields
     are read from the bytes of an acknowledgement.

  2. **The server.**  It answers each request by one acknowledgement on the same socket, and what it
     answers is arbitrary otherwise (`Cdti`).  An acknowledgement of a query is its header and as many
     bytes as its first command announces, and one of any other request has its fixed size.

  3. **The sockets.**  A request puts the answer behind what has not been read of its socket.  A read
     that asks for more than there is waits for ever, because the server is waiting, too.  One that
     asks for nothing fails, as `lmon_read_raw` does.

  4. **The conversation** that the code should have with the server is a program over the list of the
     exchanges, which knows nothing of bytes.  An exchange of the code follows one of the conversation
     as long as its routine reads whole acknowledgements (`exchange_follows`).
-/
import LaunchMON.Lib.Follow
import Mathlib.Data.Nat.Notation
import Mathlib.Logic.Function.Basic

namespace LaunchMON.Backend.Bgq

open Effect

/-! ## Messages -/

/-- `_cdtiVer`, `_jobid` and `_toolid`, which go into every request. -/
structure Tool where
  cdtiVer : UInt8
  jobId : UInt64
  toolId : UInt32

/-- What a request asks for.  A thread list is asked of thread 0, and so is memory. -/
inductive Body
  | control
  | threadList
  | hold (threadId : UInt32)
  | release (threadId : UInt32)
  | getMemory (addr : UInt64) (length : Int32)
  deriving DecidableEq

/-- A request, as `create_ControlMessage` and its siblings make it. -/
structure Request where
  tool : Tool
  rank : UInt32
  sequenceId : UInt32
  body : Body

/-- The fields of `MessageHeader` that are checked. -/
structure MessageHeader where
  returnCode : UInt32
  type : UInt16
  rank : UInt32
  sequenceId : UInt32

/-- The fields of `CommandDescriptor` that are used. -/
structure CommandDescriptor where
  type : UInt16
  length : ℕ
  returnCode : UInt32

/-- What `ToolctlMessages.h` defines.  `queryAckSize` is the size of a `QueryAckMessage` and
    `threadListAckSize` that of a `GetThreadListAckCmd`, which is behind it in a `ThrListAckMessage`. -/
structure Toolctl where
  success : UInt32
  cmdSuccess : UInt32
  controlAck : UInt16
  queryAck : UInt16
  updateAck : UInt16
  getThreadListAck : UInt16
  holdThreadAck : UInt16
  releaseThreadAck : UInt16
  controlAckSize : ℕ
  queryAckSize : ℕ
  threadListAckSize : ℕ
  holdThrAckSize : ℕ
  releaseThrAckSize : ℕ
  maxMemorySize : ℕ
  -- the fields of an acknowledgement: `header`, `numCommands`, `cmdList[0]`, and the `tid`s in
  -- `tLAckCmd.threadlist`, as many as `tLAckCmd.numthreads` says
  header : List UInt8 → MessageHeader
  numCommands : List UInt8 → UInt16
  command : List UInt8 → CommandDescriptor
  threadlist : List UInt8 → List UInt32
  controlAck_pos : 0 < controlAckSize
  queryAck_pos : 0 < queryAckSize
  threadListAck_pos : 0 < threadListAckSize
  holdThrAck_pos : 0 < holdThrAckSize
  releaseThrAck_pos : 0 < releaseThrAckSize

namespace Toolctl

/-- `sizeof(ThrListAckMessage)`. -/
def thrListAckMessageSize (t : Toolctl) : ℕ := t.queryAckSize + t.threadListAckSize

/-- `cmdList[0].length` of the acknowledgement of a query. -/
def announced (t : Toolctl) (bs : List UInt8) : ℕ := (t.command (bs.take t.queryAckSize)).length

/-- The size of an acknowledgement. -/
def Sized (t : Toolctl) : Body → List UInt8 → Prop
  | .control, bs => bs.length = t.controlAckSize
  | .threadList, bs =>
    bs.length = t.queryAckSize + t.announced bs ∧ t.announced bs ≤ t.threadListAckSize
  | .hold _, bs => bs.length = t.holdThrAckSize
  | .release _, bs => bs.length = t.releaseThrAckSize
  | .getMemory _ _, bs => bs.length = t.queryAckSize + t.announced bs

end Toolctl

/-- The CDTI server: its `k`-th answer, to a request over the socket of compute node `cn`. -/
structure Cdti (t : Toolctl) where
  answer : ℕ → Int32 → Request → List UInt8
  sized : ∀ k cn r, t.Sized r.body (answer k cn r)

section Verify

variable (t : Toolctl) (r : Request) (bs : List UInt8)

/-- `verify_MessageHeader`, against the rank and the sequence id of the request; true is LMON_OK. -/
def verifyMessageHeader (type : UInt16) : Bool :=
  let hdr := t.header bs
  hdr.returnCode = t.success && hdr.type = type && hdr.rank = r.rank && hdr.sequenceId = r.sequenceId

/-- The checks that the acknowledgements of one command have in common. -/
def verifyCommandAck (type cmdType : UInt16) : Bool :=
  verifyMessageHeader t r bs type && t.numCommands bs = 1 && (t.command bs).type = cmdType &&
    (t.command bs).returnCode = t.cmdSuccess

/-- `verify_ThrListAckMessage`; what it looks at is in the header of the query. -/
def verifyThrListAckMessage : Bool :=
  verifyCommandAck t r (bs.take t.queryAckSize) t.queryAck t.getThreadListAck

/-- `verify_HoldThrAckMessage`. -/
def verifyHoldThrAckMessage : Bool := verifyCommandAck t r bs t.updateAck t.holdThreadAck

/-- `verify_ReleaseThrAckMessage`. -/
def verifyReleaseThrAckMessage : Bool := verifyCommandAck t r bs t.updateAck t.releaseThreadAck

/-- The check of the acknowledgement of a request.  Memory is fetched without one. -/
def verify : Bool :=
  match r.body with
  | .control => verifyMessageHeader t r bs t.controlAck
  | .threadList => verifyThrListAckMessage t r bs
  | .hold _ => verifyHoldThrAckMessage t r bs
  | .release _ => verifyReleaseThrAckMessage t r bs
  | .getMemory _ _ => true

end Verify

/-! ## Sockets -/

/-- A request and the bytes that have been read as its acknowledgement. -/
structure Exchange where
  cn : Int32
  request : Request
  got : List UInt8

/-- The request of an exchange, and the socket it goes over. -/
def Exchange.asked (e : Exchange) : Int32 × Request := (e.cn, e.request)

/-- The state: what is unread on the sockets, `_seqNum`, the requests that have been sent, and what the
    checks have seen.  `totalIter` is the counter of `fetch_mem_all`, an `int` that wraps around. -/
structure St where
  unread : Int32 → List UInt8
  sequenceId : UInt32
  sent : List (Int32 × Request)
  seen : List Exchange
  totalIter : UInt32

/-- The state before a call: nothing is on the sockets. -/
def St.start (seq0 : UInt32) : St := ⟨fun _ => [], seq0, [], [], 0⟩

/-- How a function ends before its end: it returns LMON_EINVAL, it waits for ever in a read, it writes
    behind the end of a buffer, or it divides by zero. -/
inductive Stop
  | failed | blocked | overrun | zeroDivide
  deriving DecidableEq

abbrev Prog := EStateM Stop St

/-- `lmon_write_raw`, and what the server does then. -/
def writeRaw {t : Toolctl} (srv : Cdti t) (cn : Int32) (r : Request) : Prog Unit :=
  modify fun s => { s with
    sent := s.sent ++ [(cn, r)]
    unread := Function.update s.unread cn (s.unread cn ++ srv.answer s.sent.length cn r) }

/-- `lmon_read_raw`, where every caller gives up at -1, which is what a read of nothing returns. -/
def readRaw (cn : Int32) (count : ℕ) : Prog (List UInt8) := fun s =>
  if count = 0 then .error .failed s
  else if (s.unread cn).length < count then .error .blocked s
  else .ok ((s.unread cn).take count)
    { s with unread := Function.update s.unread cn ((s.unread cn).drop count) }

/-- `read_cios_longmsg`, where every caller gives up at -1. -/
def readCiosLongmsg (t : Toolctl) (cn : Int32) (buflen hdrlen : ℕ) : Prog (List UInt8) := do
  let hdr ← readRaw cn hdrlen
  let length := t.announced hdr
  whenever (decide (buflen - hdrlen < length)) (throw .failed)
  let payload ← readRaw cn length
  pure (hdr ++ payload)

/-- A request, the acknowledgement that is read for it, the check, and the next sequence id. -/
def exchange {t : Toolctl} (srv : Cdti t) (tool : Tool) (cn rank : Int32) (body : Body)
    (read : Prog (List UInt8)) : Prog (List UInt8) := do
  let s ← get
  let r : Request := ⟨tool, rank.toUInt32, s.sequenceId, body⟩
  writeRaw srv cn r
  let got ← read
  modify fun s => { s with seen := s.seen ++ [⟨cn, r, got⟩] }
  whenever (!verify t r got) (throw .failed)
  modify fun s => { s with sequenceId := s.sequenceId + 1 }
  pure got

/-! ## Reading whole acknowledgements -/

/-- `read` takes an acknowledgement that is `Whole` from the socket of `cn` as it is, and fails at any
    other. -/
structure Reads (t : Toolctl) (cn : Int32) (body : Body) (Whole : List UInt8 → Prop)
    (read : Prog (List UInt8)) : Prop where
  whole : ∀ s ack, s.unread cn = ack → t.Sized body ack → Whole ack →
    read s = .ok ack { s with unread := Function.update s.unread cn [] }
  short : ∀ s ack, s.unread cn = ack → t.Sized body ack → ¬Whole ack →
    ∃ e s', read s = .error e s' ∧ s'.sent = s.sent ∧ s'.seen = s.seen

theorem readRaw_all {cn : Int32} {s : St} {ack : List UInt8} (h : s.unread cn = ack)
    (hpos : 0 < ack.length) :
    readRaw cn ack.length s = .ok ack { s with unread := Function.update s.unread cn [] } := by
  unfold readRaw
  rw [if_neg (by omega), h, if_neg (by omega), List.take_length, List.drop_length]

/-- A read of a fixed size takes the acknowledgements of that size, and waits at shorter ones. -/
theorem reads_fixed {t : Toolctl} {body : Body} {size : ℕ} (cn : Int32) (hpos : 0 < size)
    (hle : ∀ ack, t.Sized body ack → ack.length ≤ size) :
    Reads t cn body (fun ack => ack.length = size) (readRaw cn size) where
  whole s ack h _ hlen := by
    subst hlen
    exact readRaw_all h hpos
  short s ack h hsized hlen := by
    have hlt : (s.unread cn).length < size := by
      have hsize := hle ack hsized
      rw [h]
      omega
    refine ⟨.blocked, s, ?_, rfl, rfl⟩
    unfold readRaw
    rw [if_neg (by omega), if_pos hlt]

theorem readRaw_front {cn : Int32} {s : St} {front rest : List UInt8} (h : s.unread cn = front ++ rest)
    (hpos : 0 < front.length) :
    readRaw cn front.length s = .ok front { s with unread := Function.update s.unread cn rest } := by
  unfold readRaw
  rw [if_neg (by omega), h, if_neg (by rw [List.length_append]; omega), List.take_left, List.drop_left]

/-- An acknowledgement of a query is its header and its payload. -/
theorem Toolctl.split {t : Toolctl} {ack : List UInt8}
    (h : ack.length = t.queryAckSize + t.announced ack) :
    ∃ hdr payload, ack = hdr ++ payload ∧ hdr.length = t.queryAckSize ∧
      payload.length = t.announced ack ∧ t.announced hdr = t.announced ack := by
  refine ⟨ack.take t.queryAckSize, ack.drop t.queryAckSize, (List.take_append_drop _ _).symm, ?_, ?_, ?_⟩
  · rw [List.length_take]
    omega
  · rw [List.length_drop]
    omega
  · unfold announced
    rw [List.take_take, Nat.min_self]

/-- A header, a check of the length it announces, and the payload: this takes every acknowledgement whose
    payload is not empty and passes the check. -/
theorem reads_announced {t : Toolctl} (cn : Int32) {body : Body} (limit : ℕ) (e : Stop)
    (hsized : ∀ ack, t.Sized body ack → ack.length = t.queryAckSize + t.announced ack) :
    Reads t cn body (fun ack => 0 < t.announced ack ∧ t.announced ack ≤ limit) (do
      let hdr ← readRaw cn t.queryAckSize
      whenever (decide (limit < t.announced hdr)) (throw e)
      let payload ← readRaw cn (t.announced hdr)
      pure (hdr ++ payload)) := by
  constructor
  case whole =>
    rintro s ack h hack ⟨hpos, hle⟩
    obtain ⟨hdr, payload, rfl, hhdr, hpay, hann⟩ := Toolctl.split (hsized ack hack)
    have hfirst := readRaw_front h (by rw [hhdr]; exact t.queryAck_pos)
    rw [hhdr] at hfirst
    have hcheck : decide (limit < t.announced hdr) = false := by
      rw [decide_eq_false_iff_not, hann]
      omega
    have hsecond := @readRaw_all cn { s with unread := Function.update s.unread cn payload } payload
      (Function.update_self _ _ _) (by omega)
    rw [Function.update_idem] at hsecond
    rw [ok_bind hfirst, hcheck, hann, ← hpay]
    exact (ok_bind hsecond).trans rfl
  case short =>
    intro s ack h hack hshort
    obtain ⟨hdr, payload, rfl, hhdr, hpay, hann⟩ := Toolctl.split (hsized ack hack)
    have hfirst := readRaw_front h (by rw [hhdr]; exact t.queryAck_pos)
    rw [hhdr] at hfirst
    rw [ok_bind hfirst, hann]
    -- too long is refused with `e`; a length of zero makes the second read fail
    by_cases hlong : limit < t.announced (hdr ++ payload)
    · rw [decide_eq_true hlong]
      exact ⟨e, _, rfl, rfl, rfl⟩
    · have hzero : t.announced (hdr ++ payload) = 0 :=
        Nat.eq_zero_of_not_pos fun hpos => hshort ⟨hpos, Nat.le_of_not_lt hlong⟩
      rw [decide_eq_false hlong, hzero]
      exact ⟨.failed, _, rfl, rfl, rfl⟩

theorem Reads.congr {t : Toolctl} {cn : Int32} {body : Body} {Whole Whole' : List UInt8 → Prop}
    {read : Prog (List UInt8)} (h : Reads t cn body Whole read)
    (hiff : ∀ ack, t.Sized body ack → (Whole ack ↔ Whole' ack)) : Reads t cn body Whole' read where
  whole s ack hs hsized hwhole := h.whole s ack hs hsized ((hiff ack hsized).mpr hwhole)
  short s ack hs hsized hshort :=
    h.short s ack hs hsized fun hwhole => hshort ((hiff ack hsized).mp hwhole)

/-- `read_cios_longmsg` takes every list of threads that has a payload. -/
theorem reads_longmsg (t : Toolctl) (cn : Int32) :
    Reads t cn .threadList (fun ack => t.queryAckSize < ack.length)
      (readCiosLongmsg t cn t.thrListAckMessageSize t.queryAckSize) := by
  have hsized : ∀ ack, t.Sized .threadList ack → ack.length = t.queryAckSize + t.announced ack :=
    fun _ h => h.1
  have hread := reads_announced cn (t.thrListAckMessageSize - t.queryAckSize) .failed hsized
  refine hread.congr ?_
  rintro ack ⟨hlen, hroom⟩
  unfold Toolctl.thrListAckMessageSize
  omega

/-! ## The conversation -/

section Conversation

variable {t : Toolctl} (srv : Cdti t) (tool : Tool) (seq0 : UInt32) (body : Body) (cn rank : Int32)

/-- The exchange number `k` of a conversation that starts with the sequence id `seq0`. -/
def reply (k : ℕ) : Exchange :=
  let r : Request := ⟨tool, rank.toUInt32, seq0 + UInt32.ofNat k, body⟩
  ⟨cn, r, srv.answer k cn r⟩

theorem reply_sized (k : ℕ) : t.Sized body (reply srv tool seq0 body cn rank k).got :=
  srv.sized k cn ⟨tool, rank.toUInt32, seq0 + UInt32.ofNat k, body⟩

/-- An exchange, with the check of its acknowledgement. -/
def say (t : Toolctl) (e : Exchange) : EStateM Stop (List Exchange) (List UInt8) := fun talk =>
  if verify t e.request e.got then .ok e.got (talk ++ [e]) else .error .failed (talk ++ [e])

/-- The next exchange, as it should be. -/
def converse : EStateM Stop (List Exchange) (List UInt8) := fun talk =>
  say t (reply srv tool seq0 body cn rank talk.length) talk

theorem final_converse (talk : List Exchange) :
    final (converse srv tool seq0 body cn rank) talk =
      talk ++ [reply srv tool seq0 body cn rank talk.length] := by
  unfold final converse say
  split
  · rename_i h
    split at h
    · cases h
      rfl
    · cases h
  · rename_i h
    split at h
    · cases h
    · cases h
      rfl

end Conversation

/-- The state of the code is that of a conversation: every acknowledgement has been read as it was sent,
    and nothing is left. -/
structure InStep (s : St) (talk : List Exchange) : Prop where
  unread : ∀ cn, s.unread cn = []
  sent : s.sent = talk.map Exchange.asked
  seen : s.seen = talk

/-- So is its sequence id. -/
structure Ready (seq0 : UInt32) (s : St) (talk : List Exchange) : Prop extends InStep s talk where
  next : s.sequenceId = seq0 + UInt32.ofNat talk.length

/-- All acknowledgements of a conversation are whole. -/
def AllWhole (Whole : Body → List UInt8 → Prop) (talk : List Exchange) : Prop :=
  ∀ e ∈ talk, Whole e.request.body e.got

/-- Some request has been sent whose acknowledgement was never checked. -/
def Behind (s : St) : Prop := s.seen.length < s.sent.length

theorem allWhole_concat {Whole : Body → List UInt8 → Prop} {talk : List Exchange} {e : Exchange} :
    AllWhole Whole (talk ++ [e]) ↔ AllWhole Whole talk ∧ Whole e.request.body e.got := by
  unfold AllWhole
  rw [List.forall_mem_append, List.forall_mem_singleton]

/-- An exchange up to the state `s₁` in which its acknowledgement is on the socket. -/
theorem exchange_sent {t : Toolctl} (srv : Cdti t) (tool : Tool) {seq0 : UInt32} (cn rank : Int32)
    (body : Body) (read : Prog (List UInt8)) {s : St} {talk : List Exchange} (hs : Ready seq0 s talk) :
    ∃ s₁ : St, s₁.unread cn = (reply srv tool seq0 body cn rank talk.length).got ∧
      (∀ c, Function.update s₁.unread cn [] c = []) ∧
      s₁.sent = (talk ++ [reply srv tool seq0 body cn rank talk.length]).map Exchange.asked ∧
      s₁.seen = talk ∧ s₁.sequenceId = seq0 + UInt32.ofNat talk.length ∧
      exchange srv tool cn rank body read s = (do
        let got ← read
        modify fun s => { s with
          seen := s.seen ++ [⟨cn, (reply srv tool seq0 body cn rank talk.length).request, got⟩] }
        whenever (!verify t (reply srv tool seq0 body cn rank talk.length).request got) (throw .failed)
        modify fun s => { s with sequenceId := s.sequenceId + 1 }
        pure got : Prog (List UInt8)) s₁ := by
  have hreq : (⟨tool, rank.toUInt32, s.sequenceId, body⟩ : Request) =
      (reply srv tool seq0 body cn rank talk.length).request := by
    rw [hs.next]
    rfl
  have hlen : s.sent.length = talk.length := by rw [hs.sent, List.length_map]
  rw [← hreq]
  refine ⟨{ s with
    sent := s.sent ++ [(cn, ⟨tool, rank.toUInt32, s.sequenceId, body⟩)]
    unread := Function.update s.unread cn (s.unread cn ++
      srv.answer s.sent.length cn ⟨tool, rank.toUInt32, s.sequenceId, body⟩) },
    ?_, ?_, ?_, hs.seen, hs.next, rfl⟩
  · show Function.update _ _ _ _ = _
    rw [Function.update_self, hs.unread cn, hlen, hreq]
    rfl
  · intro c
    show Function.update (Function.update _ _ _) _ _ _ = _
    rw [Function.update_idem]
    by_cases hc : c = cn
    · rw [hc, Function.update_self]
    · rw [Function.update_of_ne hc, hs.unread c]
  · show s.sent ++ _ = _
    rw [hs.sent, List.map_append, hreq]
    rfl

/-- **An exchange of the code follows the conversation** as long as its routine reads whole
    acknowledgements. -/
theorem exchange_follows {t : Toolctl} (srv : Cdti t) (tool : Tool) (seq0 : UInt32) (cn rank : Int32)
    {body : Body} {Whole : Body → List UInt8 → Prop} {read : Prog (List UInt8)}
    (hread : Reads t cn body (Whole body) read) :
    Follows (Ready seq0) InStep (AllWhole Whole) Behind (exchange srv tool cn rank body read)
      (converse srv tool seq0 body cn rank) := by
  have hend := final_converse srv tool seq0 body cn rank
  constructor
  case bad =>
    intro talk hbad hgood
    rw [hend] at hgood
    exact hbad (allWhole_concat.mp hgood).1
  case good =>
    intro s talk hs hgood
    rw [hend] at hgood
    obtain ⟨s₁, hgot, hunread, hsent, hseen, hseq, hrun⟩ := exchange_sent srv tool cn rank body read hs
    have hack := hread.whole s₁ _ hgot (reply_sized ..) (allWhole_concat.mp hgood).2
    rw [hrun, ok_bind hack]
    unfold converse say
    by_cases hv : verify t (reply srv tool seq0 body cn rank talk.length).request
        (reply srv tool seq0 body cn rank talk.length).got
    · simp only [hv, if_true]
      refine ⟨rfl, ⟨hunread, hsent, ?_⟩, ?_⟩
      · show s₁.seen ++ _ = _
        rw [hseen]
        rfl
      · show s₁.sequenceId + 1 = _
        rw [hseq, List.length_append, UInt32.ofNat_add]
        exact UInt32.add_assoc _ _ _
    · simp only [hv]
      refine ⟨rfl, hunread, hsent, ?_⟩
      show s₁.seen ++ _ = _
      rw [hseen]
      rfl
  case stuck =>
    intro s talk hs hgood hbad
    rw [hend, allWhole_concat] at hbad
    obtain ⟨s₁, hgot, -, hsent, hseen, -, hrun⟩ := exchange_sent srv tool cn rank body read hs
    obtain ⟨e, s', hfail, hsent', hseen'⟩ :=
      hread.short s₁ _ hgot (reply_sized ..) fun hwhole => hbad ⟨hgood, hwhole⟩
    refine ⟨e, s', ?_, ?_⟩
    · rw [hrun]
      exact error_bind hfail
    · unfold Behind
      rw [hsent', hseen', hsent, hseen, List.length_map, List.length_append]
      exact Nat.lt_succ_self _

end LaunchMON.Backend.Bgq
