/-
  User data after the handshake: `LMON_be_recvUsrData`, `LMON_be_sendUsrData` and their two siblings of
  the middleware.

  The master talks to the front end, and every way through its block ends at the label where the return
  code is broadcast.  So the daemons meet, however the transfer goes.  But the number of bytes is the
  value of `sizeof(lrc) != LMON_OK`, and that is one.

  A slave has LMON_OK in its `lrc` and gets the first byte of the master's.  With the lowest byte first
  that byte is the whole code.  With the highest byte first it is zero, and a slave returns LMON_OK
  whatever has become of the transfer (`usrData_agree`).
-/
import LaunchMON.Backend.Handshake

namespace LaunchMON.Backend

open CBytes Fleet Lmonp

/-! ## Words in memory -/

/-- Where the lowest byte of a word is. -/
inductive ByteOrder
  | little
  | big
  deriving DecidableEq, Repr

/-- A word in memory. -/
def ByteOrder.bytes : ByteOrder → UInt32 → List UInt8
  | .little, x => le32 x
  | .big, x => (le32 x).reverse

/-- The word in a piece of memory. -/
def ByteOrder.word : ByteOrder → List UInt8 → UInt32
  | .little, bs => (readLe32 bs).getD 0
  | .big, bs => (readLe32 bs.reverse).getD 0

/-- The value of an enumerator of `lmon_rc_e`. -/
def rcWord (rc : LmonRc) : UInt32 := UInt32.ofNat rc.ctorIdx

/-! ## The calls -/

/-- What the transfers of a daemon depend on: `malloc` of a size; the registered `unpack`; the user data
    and the registered `pack`, as what the one makes of the other, if there are both; and the contents
    of memory that has not been written. -/
structure UsrSide where
  malloc : ℕ → Bool
  unpack : Option (List UInt8 → Int32)
  packed : Option (Int32 × List UInt8)
  garbage : List UInt8
  stale : UInt32

/-- The end of all four calls: `LMON_be_broadcast(&lrc, sizeof(lrc) != LMON_OK)` and the return of what
    is in `lrc` then. -/
def duplicateRc (order : ByteOrder) (lrc : LmonRc) : Sock UInt32 := do
  let numbyte := if (4 : ℕ) ≠ LmonRc.ok.ctorIdx then 1 else 0
  let mem := order.bytes (rcWord lrc)
  let bs ← Daemon.broadcast numbyte (mem.take numbyte)
  return order.word (bs ++ mem.drop numbyte)

/-- A receiving call, in the block of the master: `unpack` of what has been read. -/
def unpackUsrData (c : UsrSide) (usrpl : List UInt8) : LmonRc :=
  match c.unpack with
  | none => .encllb
  | some unpack => if unpack usrpl < 0 then .enegcb else .ok

/-- A receiving call, in the block of the master, from the header on.  Nobody looks at the number of
    bytes of user data that could be read. -/
def recvUsrPayload (type : ℕ) (c : UsrSide) (read : Bool) (recvmsg : Header) : Sock LmonRc :=
  if read = false then return .esys
  else if recvmsg.type.toNat ≠ type then return .ebdmsg
  else if 0 < recvmsg.usrPayloadLength.toInt32 then
    if c.malloc recvmsg.usrPayloadLength.toNat = false then return .enomem
    else do
      let usrpl ← readLmonpPayloads recvmsg.usrPayloadLength
      return unpackUsrData c (usrpl.getD c.garbage)
  else return .enopld

/-- A receiving call, in the block of the master. -/
def recvUsrDataMaster (type : ℕ) (c : UsrSide) : Sock LmonRc := do
  let (read, recvmsg) ← readLmonpMsgheader
  recvUsrPayload type c read recvmsg

/-- A sending call, in the block of the master, from the message on. -/
def writeUsrmsg (hdr : Header) (upl : List UInt8) (lrc : LmonRc) : Sock LmonRc := do
  let sent ← writeLmonpLongMsg ⟨hdr, upl⟩ (UInt32.ofNat sizeofLmonp + UInt32.ofNat upl.length)
  if sent = false then return .esys else return lrc

/-- A sending call, in the block of the master.  Without user data or callback an empty message goes
    out all the same. -/
def sendUsrDataMaster (mc : MsgClass) (type : ℕ) (c : UsrSide) : Sock LmonRc :=
  match c.packed with
  | some (rc, upl) =>
    if c.malloc (sizeofLmonp + lmonMaxUsrpayload) = false then return .enomem
    else if rc < 0 then return .enegcb
    else writeUsrmsg (setMsgHeader mc type 0 0 0 0 0 0 (UInt32.ofNat upl.length)) upl .ok
  | none =>
    if c.malloc sizeofLmonp = false then return .enomem
    else writeUsrmsg (setMsgHeader mc type 0 0 0 0 c.stale 0 0) [] .encllb

/-- A call with its block of the master; the other daemons have LMON_OK. -/
def usrDataCall (order : ByteOrder) (d : PerDaemonData) (masterOnly : Sock LmonRc) : Sock UInt32 := do
  let lrc : LmonRc ← if d.isMaster then masterOnly else pure .ok
  duplicateRc order lrc

/-- `LMON_be_recvUsrData`. -/
def lmonBeRecvUsrData (order : ByteOrder) (c : UsrSide) (d : PerDaemonData) : Sock UInt32 :=
  usrDataCall order d (recvUsrDataMaster FeToBeMsg.febeUsrdata.ctorIdx c)

/-- `LMON_be_sendUsrData`. -/
def lmonBeSendUsrData (order : ByteOrder) (c : UsrSide) (d : PerDaemonData) : Sock UInt32 :=
  usrDataCall order d (sendUsrDataMaster .fetobe FeToBeMsg.befeUsrdata.ctorIdx c)

/-- `LMON_mw_recvUsrData`. -/
def lmonMwRecvUsrData (order : ByteOrder) (c : UsrSide) (d : PerDaemonData) : Sock UInt32 :=
  usrDataCall order d (recvUsrDataMaster FeToMwMsg.femwUsrdata.ctorIdx c)

/-- `LMON_mw_sendUsrData`. -/
def lmonMwSendUsrData (order : ByteOrder) (c : UsrSide) (d : PerDaemonData) : Sock UInt32 :=
  usrDataCall order d (sendUsrDataMaster .fetomw FeToMwMsg.mwfeUsrdata.ctorIdx c)

/-- The four calls. -/
inductive UsrCall
  | beRecv
  | beSend
  | mwRecv
  | mwSend
  deriving DecidableEq, Repr

def UsrCall.run : UsrCall → ByteOrder → UsrSide → PerDaemonData → Sock UInt32
  | .beRecv => lmonBeRecvUsrData
  | .beSend => lmonBeSendUsrData
  | .mwRecv => lmonMwRecvUsrData
  | .mwSend => lmonMwSendUsrData

/-! ## A transfer -/

/-- The daemons of a transfer, their machine, and what they find on their sockets. -/
structure Transfer (n : ℕ) where
  order : ByteOrder
  side : Fin (n + 1) → UsrSide
  hosts : Fin (n + 1) → List UInt8
  feed : Fin (n + 1) → Feed

namespace Transfer

variable {n : ℕ}

/-- The daemon of rank `i`. -/
def daemon (t : Transfer n) (i : Fin (n + 1)) : PerDaemonData := ⟨i, UInt32.ofNat (n + 1), t.hosts i⟩

/-- A call at every daemon. -/
def fleet (t : Transfer n) (call : UsrCall) (i : Fin (n + 1)) : Comm LmonRc (UInt32 × Feed) :=
  (call.run t.order (t.side i) (t.daemon i)).resolve Feed.answer (t.feed i)

/-- A message of a type comes in, with user data that `unpack` accepts. -/
def Received (t : Transfer n) (type : ℕ) : Prop :=
  ((t.feed 0).headers 0).1 = true ∧ ((t.feed 0).headers 0).2.type.toNat = type ∧
    0 < ((t.feed 0).headers 0).2.usrPayloadLength.toInt32 ∧
    (t.side 0).malloc ((t.feed 0).headers 0).2.usrPayloadLength.toNat = true ∧
    ∃ unpack, (t.side 0).unpack = some unpack ∧
      ¬unpack (((t.feed 0).payloads 0).getD (t.side 0).garbage) < 0

/-- There are user data that `pack` accepts, and their message goes out. -/
def Sent (t : Transfer n) : Prop :=
  ∃ rc upl, (t.side 0).packed = some (rc, upl) ∧ ¬rc < 0 ∧
    (t.side 0).malloc (sizeofLmonp + lmonMaxUsrpayload) = true ∧ (t.feed 0).sent 0 = true

/-- Nothing goes wrong at the master. -/
def Succeeds (t : Transfer n) : UsrCall → Prop
  | .beRecv => t.Received FeToBeMsg.febeUsrdata.ctorIdx
  | .mwRecv => t.Received FeToMwMsg.femwUsrdata.ctorIdx
  | .beSend | .mwSend => t.Sent

/-! ## The master -/

variable (t : Transfer n)

theorem unpackUsrData_eq_ok (c : UsrSide) (usrpl : List UInt8) : unpackUsrData c usrpl = .ok ↔
    ∃ unpack, c.unpack = some unpack ∧ ¬unpack usrpl < 0 := by
  unfold unpackUsrData
  cases c.unpack with
  | none =>
    refine iff_of_false (by rintro ⟨⟩) ?_
    rintro ⟨unpack, hsome, -⟩
    cases hsome
  | some unpack =>
    dsimp only
    split
    · next hneg =>
      refine iff_of_false (by rintro ⟨⟩) ?_
      rintro ⟨unpack', hsome, hpos⟩
      cases hsome
      exact hpos hneg
    · next hpos => exact iff_of_true rfl ⟨unpack, rfl, hpos⟩

/-- A receiving master reaches the broadcast, with LMON_OK exactly if it has received. -/
theorem recv_resolve (type : ℕ) : ∃ (lrc : LmonRc) (f : Feed),
    (recvUsrDataMaster type (t.side 0)).resolve Feed.answer (t.feed 0) = .ret (lrc, f) ∧
      (lrc = .ok ↔ t.Received type) := by
  rcases hheader : (t.feed 0).headers 0 with ⟨read, recvmsg⟩
  have hstep : (recvUsrDataMaster type (t.side 0)).resolve Feed.answer (t.feed 0) =
      (recvUsrPayload type (t.side 0) read recvmsg).resolve Feed.answer
        { t.feed 0 with headers := fun i => (t.feed 0).headers (i + 1) } := by
    show (recvUsrPayload type (t.side 0) ((t.feed 0).headers 0).1 ((t.feed 0).headers 0).2).resolve
      Feed.answer _ = _
    rw [hheader]
    rfl
  rw [hstep]
  unfold recvUsrPayload Received
  rw [hheader, ← unpackUsrData_eq_ok]
  split
  · next hread => exact ⟨.esys, _, rfl, by simp [hread]⟩
  · next hread =>
    split
    · next htype => exact ⟨.ebdmsg, _, rfl, by simp [htype]⟩
    · next htype =>
      split
      · next hlen =>
        split
        · next hmalloc => exact ⟨.enomem, _, rfl, by simp [hmalloc]⟩
        · next hmalloc =>
          refine ⟨_, _, rfl, ?_⟩
          show unpackUsrData _ (((t.feed 0).payloads 0).getD _) = _ ↔ _
          simp_all
      · next hlen => exact ⟨.enopld, _, rfl, by simp [hlen]⟩

/-- A message of a sending master. -/
theorem writeUsrmsg_resolve (hdr : Header) (upl : List UInt8) (lrc : LmonRc)
    (hsize : msgsize hdr = UInt32.ofNat sizeofLmonp + UInt32.ofNat upl.length) (f : Feed) :
    ∃ f', (writeUsrmsg hdr upl lrc).resolve Feed.answer f =
      .ret (if f.sent 0 = false then .esys else lrc, f') := by
  have hwrite : writeLmonpLongMsg (ρ := LmonRc) ⟨hdr, upl⟩
      (UInt32.ofNat sizeofLmonp + UInt32.ofNat upl.length) =
        Daemon.ask (SockOp.writeLongMsg (hdr.bytes ++ upl)) := if_neg (not_not_intro hsize)
  rw [writeUsrmsg, hwrite]
  show ∃ f', Daemon.resolve Feed.answer
    (if f.sent 0 = false then pure .esys else pure lrc : Sock LmonRc) _ = _
  by_cases hsent : f.sent 0 = false
  · rw [if_pos hsent, if_pos hsent]
    exact ⟨_, rfl⟩
  · rw [if_neg hsent, if_neg hsent]
    exact ⟨_, rfl⟩

/-- With packed user data. -/
theorem sent_iff {rc : Int32} {upl : List UInt8} (h : (t.side 0).packed = some (rc, upl)) :
    t.Sent ↔ ¬rc < 0 ∧ (t.side 0).malloc (sizeofLmonp + lmonMaxUsrpayload) = true ∧
      (t.feed 0).sent 0 = true := by
  constructor
  · rintro ⟨rc', upl', hsome, hrest⟩
    rw [h] at hsome
    cases hsome
    exact hrest
  · intro hrest
    exact ⟨rc, upl, h, hrest⟩

/-- A sending master reaches the broadcast, with LMON_OK exactly if it has sent its user data. -/
theorem send_resolve (mc : MsgClass) (type : ℕ) : ∃ (lrc : LmonRc) (f : Feed),
    (sendUsrDataMaster mc type (t.side 0)).resolve Feed.answer (t.feed 0) = .ret (lrc, f) ∧
      (lrc = .ok ↔ t.Sent) := by
  unfold sendUsrDataMaster
  cases hpacked : (t.side 0).packed with
  | none =>
    have hno : ¬t.Sent := by
      rintro ⟨rc, upl, hsome, -⟩
      rw [hpacked] at hsome
      cases hsome
    dsimp only
    split
    · exact ⟨.enomem, _, rfl, iff_of_false (by rintro ⟨⟩) hno⟩
    · obtain ⟨f', hf'⟩ := writeUsrmsg_resolve
        (setMsgHeader mc type 0 0 0 0 (t.side 0).stale 0 0) [] .encllb rfl (t.feed 0)
      refine ⟨_, f', hf', iff_of_false ?_ hno⟩
      split <;> rintro ⟨⟩
  | some p =>
    obtain ⟨rc, upl⟩ := p
    rw [t.sent_iff hpacked]
    dsimp only
    split
    · next hmalloc => exact ⟨.enomem, _, rfl, by simp [hmalloc]⟩
    · next hmalloc =>
      split
      · next hneg => exact ⟨.enegcb, _, rfl, by simp [hneg]⟩
      · next hneg =>
        obtain ⟨f', hf'⟩ := writeUsrmsg_resolve
          (setMsgHeader mc type 0 0 0 0 0 0 (UInt32.ofNat upl.length)) upl .ok
          (congrArg (· + _) (UInt32.add_zero _)) (t.feed 0)
        refine ⟨_, f', hf', ?_⟩
        split
        · next hsent => exact iff_of_false (by rintro ⟨⟩) (by simp [hsent])
        · next hsent =>
          exact iff_of_true rfl ⟨hneg, Bool.not_eq_false _ ▸ hmalloc, Bool.not_eq_false _ ▸ hsent⟩

/-- What the four calls have in common: the block of the master comes to its end. -/
theorem fleet_block (call : UsrCall) : ∃ (masterOnly : UsrSide → Sock LmonRc) (lrc : LmonRc)
    (f : Feed), (∀ i, t.fleet call i = (usrDataCall t.order (t.daemon i) (masterOnly (t.side i))).resolve
      Feed.answer (t.feed i)) ∧
    (masterOnly (t.side 0)).resolve Feed.answer (t.feed 0) = .ret (lrc, f) ∧
      (lrc = .ok ↔ t.Succeeds call) := by
  cases call with
  | beRecv =>
    obtain ⟨lrc, f, hrun, hok⟩ := t.recv_resolve FeToBeMsg.febeUsrdata.ctorIdx
    exact ⟨recvUsrDataMaster FeToBeMsg.febeUsrdata.ctorIdx, lrc, f, fun i => rfl, hrun, hok⟩
  | beSend =>
    obtain ⟨lrc, f, hrun, hok⟩ := t.send_resolve .fetobe FeToBeMsg.befeUsrdata.ctorIdx
    exact ⟨sendUsrDataMaster .fetobe FeToBeMsg.befeUsrdata.ctorIdx, lrc, f, fun i => rfl, hrun, hok⟩
  | mwRecv =>
    obtain ⟨lrc, f, hrun, hok⟩ := t.recv_resolve FeToMwMsg.femwUsrdata.ctorIdx
    exact ⟨recvUsrDataMaster FeToMwMsg.femwUsrdata.ctorIdx, lrc, f, fun i => rfl, hrun, hok⟩
  | mwSend =>
    obtain ⟨lrc, f, hrun, hok⟩ := t.send_resolve .fetomw FeToMwMsg.mwfeUsrdata.ctorIdx
    exact ⟨sendUsrDataMaster .fetomw FeToMwMsg.mwfeUsrdata.ctorIdx, lrc, f, fun i => rfl, hrun, hok⟩

end Transfer

/-! ## One byte -/

/-- What is in `lrc` after the first byte of another one has come in. -/
def overlay (order : ByteOrder) (root lrc : LmonRc) : UInt32 :=
  order.word ((order.bytes (rcWord root)).take 1 ++ (order.bytes (rcWord lrc)).drop 1)

theorem overlay_self (order : ByteOrder) (rc : LmonRc) : overlay order rc rc = rcWord rc := by
  cases order <;> cases rc <;> decide

/-- With the lowest byte first the byte is the code. -/
theorem overlay_little (root : LmonRc) : overlay .little root .ok = rcWord root := by
  cases root <;> decide

/-- With the highest byte first the byte is zero. -/
theorem overlay_big (root : LmonRc) : overlay .big root .ok = rcWord .ok := by
  cases root <;> decide

theorem eq_ok_of_rcWord {rc : LmonRc} (h : rcWord rc = rcWord .ok) : rc = .ok := by
  cases rc <;> first | rfl | exact absurd h (by decide)

/-- A slave ends up with the code of the master exactly if the order of the bytes is right or the code
    is the one that it has anyway. -/
theorem overlay_ok_iff (order : ByteOrder) (root : LmonRc) :
    overlay order root .ok = rcWord root ↔ order = .little ∨ root = .ok := by
  cases order with
  | little => exact iff_of_true (overlay_little root) (Or.inl rfl)
  | big =>
    rw [overlay_big]
    constructor
    · exact fun h => Or.inr (eq_ok_of_rcWord h.symm)
    · rintro (h | rfl)
      · cases h
      · rfl

namespace Transfer

variable {n : ℕ} (t : Transfer n) (call : UsrCall)

/-- All daemons meet in one broadcast of one byte, and this is what they return. -/
theorem fleet_spec : ∃ lrc : LmonRc, (lrc = .ok ↔ t.Succeeds call) ∧
    ∃ f : Fin (n + 1) → Feed, t.fleet call = fun i =>
      let mine := if i = 0 then lrc else .ok
      .meet (.broadcast 1) ((t.order.bytes (rcWord mine)).take 1) fun bs =>
        Daemon.ofExcept (.ok (t.order.word (bs ++ (t.order.bytes (rcWord mine)).drop 1), f i)) := by
  obtain ⟨masterOnly, lrc, f, hfleet, hrun, hok⟩ := t.fleet_block call
  refine ⟨lrc, hok, fun i => if i = 0 then f else t.feed i, funext fun i => ?_⟩
  rw [hfleet, usrDataCall]
  by_cases hi : i = 0
  · subst hi
    have hmaster : (t.daemon 0).isMaster = true := rfl
    rw [if_pos hmaster, Daemon.resolve_bind, hrun]
    rfl
  · have hslave : ¬(t.daemon i).isMaster = true := by
      show ¬decide ((i : ℕ) = 0) = true
      rw [decide_eq_true_iff]
      exact fun h => hi (Fin.ext h)
    dsimp only
    rw [if_neg hslave, if_neg hi, if_neg hi]
    rfl

end Transfer

/-- **User data**: every call ends for all daemons in the same broadcast.  Those that return from it
    (the others leave the program) return what the master returns exactly if the machine has the lowest
    byte of a word first, or the transfer of the master succeeds, or there is nobody to differ. -/
theorem usrData_agree (n : ℕ) (call : UsrCall) (t : Transfer n) :
    (∃ r, Ends (t.fleet call) [.broadcast 1] r) ∧
    ∀ cs r, Ends (t.fleet call) cs r → ∀ back : Set (Fin (n + 1)),
      ((∀ i ∈ back, 0 ∈ back → (r i).map Prod.fst = (r 0).map Prod.fst) ↔
        t.order = .little ∨ t.Succeeds call ∨ 0 ∉ back ∨ ∀ i ∈ back, i = 0) := by
  obtain ⟨lrc, hok, f, hfleet⟩ := t.fleet_spec call
  rw [hfleet]
  refine ⟨⟨_, .met .returned⟩, ?_⟩
  intro cs r hends back
  rcases hends.inv with ⟨-, hr⟩ | ⟨c, cs', bufs, k, -, hm, hends⟩
  · exact absurd (hr 0).symm (ofExcept_ne_meet _ _ _ _)
  -- the broadcast gives the byte of rank 0 to every daemon
  have hc : Collective.broadcast 1 = c := by injection hm 0
  obtain rfl := hc
  have hroot : bufs 0 = (t.order.bytes (rcWord lrc)).take 1 := by
    injection hm 0 with _ hbuf
    exact hbuf.symm
  have hk : ∀ i, k i = fun bs => Daemon.ofExcept (.ok (t.order.word (bs ++
      (t.order.bytes (rcWord (if i = 0 then lrc else .ok))).drop 1), f i)) := by
    intro i
    injection hm i with _ _ hk
    exact hk.symm
  have hret : ∀ i, (r i).map Prod.fst = .ok (overlay t.order lrc (if i = 0 then lrc else .ok)) := by
    intro i
    rcases hends.inv with ⟨-, hr⟩ | ⟨c, -, bufs', k', -, hm', -⟩
    · have hri := hr i
      rw [hk, show delivered (.broadcast 1) bufs i = bufs 0 from rfl, hroot] at hri
      rw [← ofExcept_inj hri]
      rfl
    · have hmi := hm' 0
      rw [hk] at hmi
      exact absurd hmi (ofExcept_ne_meet _ _ _ _)
  have hagree : ∀ i, (r i).map Prod.fst = (r 0).map Prod.fst ↔
      i = 0 ∨ t.order = .little ∨ t.Succeeds call := by
    intro i
    rw [hret, hret, if_pos rfl, overlay_self, Except.ok.injEq, ← hok]
    by_cases hi : i = 0
    · rw [if_pos hi, overlay_self]
      exact iff_of_true rfl (Or.inl hi)
    · rw [if_neg hi, overlay_ok_iff]
      exact (or_iff_right hi).symm
  simp only [hagree]
  by_cases hgood : t.order = .little ∨ t.Succeeds call
  · constructor
    · intro _
      exact or_assoc.mp (Or.inl hgood)
    · intro _ i _ _
      exact Or.inr hgood
  · obtain ⟨hlittle, hsucc⟩ := not_or.mp hgood
    constructor
    · intro h
      refine Or.inr (Or.inr ?_)
      by_cases hzero : 0 ∈ back
      · exact Or.inr fun i hi => (h i hi hzero).resolve_right hgood
      · exact Or.inl hzero
    · intro h i hi hzero
      rcases h with h | h | h | h
      · exact absurd h hlittle
      · exact absurd h hsucc
      · exact absurd hzero h
      · exact Or.inl (h i hi)

/-- Two daemons on a machine with the highest byte first, the master without user data. -/
def twoBigEndian : Transfer 1 where
  order := .big
  side _ := ⟨fun _ => true, none, none, [], 0⟩
  hosts _ := []
  feed _ := ⟨fun _ => (true, setMsgHeader .fetobe 0 0 0 0 0 0 0 0), fun _ => none, fun _ => true⟩

theorem usrData_agree_counterexample : ∃ r, Ends (twoBigEndian.fleet .beSend) [.broadcast 1] r ∧
    (r 0).map Prod.fst = .ok (rcWord .encllb) ∧ (r 1).map Prod.fst = .ok (rcWord .ok) ∧
    rcWord .encllb ≠ rcWord .ok := by
  have hfleet : twoBigEndian.fleet .beSend = fun i => .meet (.broadcast 1) [0] fun bs =>
      Daemon.ofExcept (.ok (ByteOrder.big.word (bs ++ if i = 0 then [0, 0, 10] else [0, 0, 0]),
        twoBigEndian.feed i)) := by
    funext i
    match i with
    | 0 => rfl
    | 1 => rfl
  rw [hfleet]
  exact ⟨_, .met .returned, rfl, rfl, by decide⟩

end LaunchMON.Backend
