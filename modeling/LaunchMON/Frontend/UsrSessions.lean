/-
  User data after the handshakes: what the front end, the back-end master and the middleware master say
  to each other while a session lasts.

  Each of the three is a client that makes its calls in any order and any number, and which one comes
  next may depend on what the calls before have returned.  The front end has a stream to each of the two
  masters, and on every stream both sides may send at any time.

  1. **Calls** are those of the source, on a stream where nothing fails (`onSocket`).  `recvUsrGiven` is
     a receiving call of a master together with what its callback has been given
     (`recvUsrDataMaster_given`).

  2. **What a call should do** (`FeCall.act`, `MasterCall.act`): it sends one message or none, or it takes
     one and gives its user data to the callback.

  3. **Sessions** (`usrData_sessions`).  Whatever the interleaving and the buffers, the calls are exchanges
     of whole messages over queues.

  Three conditions.  A receiver that gets no memory leaves the user data on the stream, where they are
  taken for the next header: so there is memory for what can come (`UsrSession.malloc_ok`,
  `MasterCall.Fair`).  A callback of a master keeps to its buffer, where nobody checks the length
  (`MasterCall.Fair`); the front end checks it.  And no read or write fails (`onSocket`).
-/
import LaunchMON.Lib.Mail
import LaunchMON.Backend.UsrData
import LaunchMON.Frontend.MwConformance
import Mathlib.Data.Fintype.Defs

namespace LaunchMON.Frontend

open CBytes Fleet FifoNet Descent Relation Lmonp Backend Mail

/-! ## Calls -/

/-- The front end and the two masters. -/
inductive Peer
  | fe | be | mw
  deriving DecidableEq

instance : Fintype Peer := ⟨{.fe, .be, .mw}, fun p => by cases p <;> decide⟩

/-- What a collective of a master returns to it: what it has put into a broadcast. -/
def rootCollective (_ : Collective) (mine : List UInt8) : List UInt8 := mine

/-- A daemon on its stream to `q`, where nothing fails. -/
def onSocket {α : Type} (q : Peer) (x : List Heard) (P : Sock α) : Prog Peer UInt8 (Except LmonRc α) :=
  ((onStream rootCollective x P).net q).bind fun r => .ret r.1

variable {Ptr D : Type}

/-- The calls of the front end. -/
inductive FeCall (Ptr D : Type)
  | sendUsrDataBe (febe : FebeData)
  | recvUsrDataBe (befe : BefeData)
  | sendUsrDataMw (mem : Ptr → D) (femwData : Option Ptr)
  | recvUsrDataMw (mem : Ptr → D) (mwfeData : Option Ptr)

/-- What they return: the code, what the callback has been given, and the buffers. -/
def FeCall.Ans : FeCall Ptr D → Type
  | .sendUsrDataBe _ | .sendUsrDataMw _ _ => Except LmonRc LmonRc
  | .recvUsrDataBe _ => Except LmonRc (LmonRc × Option (List UInt8))
  | .recvUsrDataMw _ _ => Except LmonRc (LmonRc × (Ptr → D))

/-- `LMON_fe_sendUsrDataBe` and its siblings. -/
def FeCall.body [DecidableEq Ptr] (s : FeMwSession D) : (c : FeCall Ptr D) → Prog Peer UInt8 c.Ans
  | .sendUsrDataBe febe => onSocket .be [] (lmonFeHandleFeBeUsrData s.toFeSession febe)
  | .recvUsrDataBe befe => onSocket .be [] (lmonFeHandleBeFeUsrData s.toFeSession befe)
  | .sendUsrDataMw mem femwData => onSocket .mw [] (lmonFeHandleFeMwUsrData s mem femwData)
  | .recvUsrDataMw mem mwfeData => onSocket .mw [] (lmonFeHandleMwFeUsrData s mem mwfeData)

/-- What the `unpack` of a receiving call is given. -/
def given (c : UsrSide) (usrpl : List UInt8) : Option (List UInt8) := c.unpack.map fun _ => usrpl

/-- A receiving call, in the block of the master, with what its `unpack` is given. -/
def recvUsrGiven (type : ℕ) (c : UsrSide) : Sock (LmonRc × Option (List UInt8)) := do
  let (read, recvmsg) ← readLmonpMsgheader
  if read = false then return (.esys, none)
  else if recvmsg.type.toNat ≠ type then return (.ebdmsg, none)
  else if 0 < recvmsg.usrPayloadLength.toInt32 then
    if c.malloc recvmsg.usrPayloadLength.toNat = false then return (.enomem, none)
    else do
      let usrpl ← readLmonpPayloads recvmsg.usrPayloadLength
      return (unpackUsrData c (usrpl.getD c.garbage), given c (usrpl.getD c.garbage))
  else return (.enopld, none)

/-- It is the call of the back end and the middleware. -/
theorem recvUsrDataMaster_given (type : ℕ) (c : UsrSide) :
    recvUsrDataMaster type c = Prod.fst <$> recvUsrGiven type c := by
  rw [map_eq_pure_bind]
  unfold recvUsrDataMaster recvUsrGiven
  rw [bind_assoc]
  refine congrArg (readLmonpMsgheader >>= ·) (funext fun a => ?_)
  unfold recvUsrPayload
  dsimp only
  split
  · rfl
  · split
    · rfl
    · split
      · split
        · rfl
        · rw [bind_assoc]
          rfl
      · rfl

/-- The calls of a master. -/
inductive MasterCall
  | recv (c : UsrSide)
  | send (c : UsrSide)

/-- Whether a call keeps to its memory: what can be received has room, and what is sent fits into its
    buffer. -/
def MasterCall.Fair : MasterCall → Prop
  | .recv c => ∀ k ≤ lmonMaxUsrpayload, c.malloc k = true
  | .send c => ∀ rc upl, c.packed = some (rc, upl) → upl.length ≤ lmonMaxUsrpayload

/-- A call that does. -/
def FairCall : Type := { c : MasterCall // c.Fair }

/-- What it returns: the code, and what the callback has been given. -/
def MasterAns : Type := Except LmonRc (UInt32 × Option (List UInt8))

/-- `LMON_be_recvUsrData` and its siblings at the master, of a class and with the types of what it receives
    and what it sends. -/
def MasterCall.body (order : ByteOrder) (mc : MsgClass) (recvType sendType : ℕ) :
    MasterCall → Prog Peer UInt8 MasterAns
  | .recv c => onSocket .fe [] do
    let (lrc, udata) ← recvUsrGiven recvType c
    let rc ← duplicateRc order lrc
    return (rc, udata)
  | .send c => onSocket .fe [] do
    let lrc ← sendUsrDataMaster mc sendType c
    let rc ← duplicateRc order lrc
    return (rc, none)

/-! ## What a call should do -/

/-- Class and type of the user data on a stream. -/
def userKind : Peer × Peer → Option (MsgClass × ℕ)
  | (.fe, .be) => some (.fetobe, FeToBeMsg.febeUsrdata.ctorIdx)
  | (.be, .fe) => some (.fetobe, FeToBeMsg.befeUsrdata.ctorIdx)
  | (.fe, .mw) => some (.fetomw, FeToMwMsg.femwUsrdata.ctorIdx)
  | (.mw, .fe) => some (.fetomw, FeToMwMsg.mwfeUsrdata.ctorIdx)
  | _ => none

/-- A message with user data of a kind. -/
structure IsUserMsg (kind : MsgClass × ℕ) (m : Msg) : Prop where
  class_eq : m.hdr.msgclass.toNat = kind.1.ctorIdx
  type_eq : m.hdr.type.toNat = kind.2
  lmon_eq : m.hdr.lmonPayloadLength = 0
  length_eq : m.payload.length = m.hdr.usrPayloadLength.toNat
  le : m.payload.length ≤ lmonMaxUsrpayload

/-- Messages on the streams. -/
def userFormat : Format Peer Msg UInt8 where
  bytes m := m.hdr.bytes ++ m.payload
  Valid c m := ∃ kind ∈ userKind c, IsUserMsg kind m
  bytes_ne_nil m h := by
    have hlen := congrArg List.length h
    rw [List.length_append, Header.length_bytes] at hlen
    exact absurd hlen (by show ¬28 + _ = 0; omega)

/-- A message with these user data; `stale` is the number of tasks in the header. -/
def userMsg (kind : MsgClass × ℕ) (stale : UInt32) (u : List UInt8) : Msg :=
  ⟨setMsgHeader kind.1 kind.2 0 0 0 0 stale 0 (UInt32.ofNat u.length), u⟩

/-- `LMON_fe_sendUsrDataBe`. -/
def sendBeAct (s : FeSession) (febe : FebeData) : Mail.Act Peer Msg (Except LmonRc LmonRc) :=
  let put (u : List UInt8) (rc : LmonRc) : Mail.Act Peer Msg (Except LmonRc LmonRc) :=
    .tell .be (userMsg (.fetobe, FeToBeMsg.febeUsrdata.ctorIdx) 0 u) (.ok rc)
  if s.registered = false then .skip (.ok .ebdarg)
  else match febe with
  | .null => put [] .enopld
  | .noCallback => put [] .encllb
  | .packed rc u =>
    if s.malloc (sizeofLmonp + lmonMaxUsrpayload) = false then .skip (.ok .enomem)
    else if rc < 0 ∨ lmonMaxUsrpayload < u.length then .skip (.ok .einval)
    else put u .ok

/-- What `LMON_fe_recvUsrDataBe` makes of user data: its code, and what the callback is given. -/
def befeTaken (befe : BefeData) (u : List UInt8) : LmonRc × Option (List UInt8) :=
  if u = [] then (.enopld, none)
  else match befe with
  | .null => (.encllb, none)
  | .unpack f => (if f u < 0 then .enegcb else .ok, some u)

/-- `LMON_fe_recvUsrDataBe`. -/
def recvBeAct (s : FeSession) (befe : BefeData) :
    Mail.Act Peer Msg (Except LmonRc (LmonRc × Option (List UInt8))) :=
  if s.registered = false then .skip (.ok (.ebdarg, none))
  else .hear .be fun m => .ok (befeTaken befe m.payload)

/-- `LMON_fe_sendUsrDataMw`. -/
def sendMwAct (s : FeMwSession D) (mem : Ptr → D) (femwData : Option Ptr) :
    Mail.Act Peer Msg (Except LmonRc LmonRc) :=
  let put (u : List UInt8) (rc : LmonRc) : Mail.Act Peer Msg (Except LmonRc LmonRc) :=
    .tell .mw (userMsg (.fetomw, FeToMwMsg.femwUsrdata.ctorIdx) 0 u) (.ok rc)
  if s.registered = false then .skip (.ok .ebdarg)
  else match femwData, s.mwPack with
  | none, _ => put [] .enopld
  | some _, none => put [] .encllb
  | some p, some mwPack =>
    if s.malloc (sizeofLmonp + lmonMaxUsrpayload) = false then .skip (.ok .enomem)
    else if lmonMaxUsrpayload < (mwPack (mem p)).length then .skip (.ok .einval)
    else put (mwPack (mem p)) .ok

/-- What `LMON_fe_recvUsrDataMw` makes of user data: its code, and the buffers. -/
def mwfeTaken [DecidableEq Ptr] (s : FeMwSession D) (mem : Ptr → D) (mwfeData : Option Ptr) (u : List UInt8) :
    LmonRc × (Ptr → D) :=
  if u = [] then (.enopld, mem)
  else match s.mwUnpack, mwfeData with
  | none, _ | _, none => (.encllb, mem)
  | some mwUnpack, some p =>
    let r := mwUnpack u (mem p)
    (if r.1 < 0 then .ecllb else .ok, Function.update mem p r.2)

/-- `LMON_fe_recvUsrDataMw`. -/
def recvMwAct [DecidableEq Ptr] (s : FeMwSession D) (mem : Ptr → D) (mwfeData : Option Ptr) :
    Mail.Act Peer Msg (Except LmonRc (LmonRc × (Ptr → D))) :=
  if s.registered = false then .skip (.ok (.ebdarg, mem))
  else .hear .mw fun m => .ok (mwfeTaken s mem mwfeData m.payload)

/-- A call of the front end. -/
def FeCall.act [DecidableEq Ptr] (s : FeMwSession D) : (c : FeCall Ptr D) → Mail.Act Peer Msg c.Ans
  | .sendUsrDataBe febe => sendBeAct s.toFeSession febe
  | .recvUsrDataBe befe => recvBeAct s.toFeSession befe
  | .sendUsrDataMw mem femwData => sendMwAct s mem femwData
  | .recvUsrDataMw mem mwfeData => recvMwAct s mem mwfeData

/-- A call of a master. -/
def MasterCall.act (kind : MsgClass × ℕ) : MasterCall → Mail.Act Peer Msg MasterAns
  | .recv c => .hear .fe fun m => .ok (
    if m.payload = [] then (rcWord .enopld, none)
    else (rcWord (unpackUsrData c m.payload), given c m.payload))
  | .send c =>
    match c.packed with
    | none =>
      if c.malloc sizeofLmonp = false then .skip (.ok (rcWord .enomem, none))
      else .tell .fe (userMsg kind c.stale []) (.ok (rcWord .encllb, none))
    | some (rc, u) =>
      if c.malloc (sizeofLmonp + lmonMaxUsrpayload) = false then .skip (.ok (rcWord .enomem, none))
      else if rc < 0 then .skip (.ok (rcWord .enegcb, none))
      else .tell .fe (userMsg kind 0 u) (.ok (rcWord .ok, none))

/-! ## Calls on a stream -/

section

variable {α : Type} {q : Peer} {x : List Heard}

theorem onSocket_pure (a : α) : onSocket q x (pure a) = .ret (.ok a) := rfl

/-- A message goes out. -/
theorem onSocket_write {m : Msg} {l : UInt32} (hl : msgsize m.hdr = l) (F : Bool → Sock α) :
    onSocket q x (writeLmonpLongMsg m l >>= F) =
      .send q (userFormat.bytes m) (onSocket q x (F true)) := by
  rw [writeLmonpLongMsg_bind hl]
  rfl

/-- The master gets its own code back. -/
theorem onSocket_duplicateRc (order : ByteOrder) (lrc : LmonRc) (F : UInt32 → Sock α) :
    onSocket q x (duplicateRc order lrc >>= F) = onSocket q x (F (rcWord lrc)) := by
  have hself : order.word ((order.bytes (rcWord lrc)).take 1 ++ (order.bytes (rcWord lrc)).drop 1) =
      rcWord lrc := overlay_self order lrc
  show onSocket q x (F (order.word ((order.bytes (rcWord lrc)).take 1 ++
    (order.bytes (rcWord lrc)).drop 1))) = _
  rw [hself]

/-- **A message is taken** by a call that asks for its header, and for its user data if there are any. -/
theorem takes_user {kind : MsgClass × ℕ} {m : Msg} (hm : IsUserMsg kind m) {F : Bool × Header → Sock α}
    {r : α} (hempty : m.payload = [] → ∀ y, onSocket q y (F (true, m.hdr)) = .ret (.ok r))
    (hfull : m.payload ≠ [] → ∃ G, F (true, m.hdr) = readLmonpPayloads m.hdr.usrPayloadLength >>= G ∧
      ∀ y, onSocket q y (G (some m.payload)) = .ret (.ok r)) :
    Takes q (userFormat.bytes m) (onSocket q x (readLmonpMsgheader >>= F)) (.ret (.ok r)) := by
  have hhdr : m.hdr.bytes ≠ [] := List.ne_nil_of_length_pos (Nat.zero_lt_succ _)
  refine Takes.part hhdr ?_
  show Takes q m.payload (onSocket q (x ++ [.header (Header.ofBytes m.hdr.bytes)])
    (F (true, Header.ofBytes m.hdr.bytes))) _
  rw [Header.ofBytes_bytes]
  by_cases hnil : m.payload = []
  · rw [hempty hnil, hnil]
    exact .nil _
  · obtain ⟨G, hG, hr⟩ := hfull hnil
    have hzero : ¬m.hdr.usrPayloadLength = 0 := by
      intro hz
      have hlen := hm.length_eq
      rw [hz] at hlen
      exact hnil (List.length_eq_zero_iff.mp hlen)
    have hread : onSocket q (x ++ [.header m.hdr]) (F (true, m.hdr)) =
        .recv q m.payload.length fun bs =>
          onSocket q (x ++ [.header m.hdr] ++ [.payload m.payload.length]) (G (some bs)) := by
      rw [hG, onSocket]
      show ((if m.hdr.usrPayloadLength = 0 then _ else _ : Wire.Io _).net q).bind _ = _
      rw [if_neg hzero, hm.length_eq]
      rfl
    have htakes := @Takes.part _ _ _ q m.payload [] (fun bs =>
      onSocket q (x ++ [.header m.hdr] ++ [.payload m.payload.length]) (G (some bs))) _ hnil (.nil _)
    rw [List.append_nil, hr] at htakes
    rw [hread]
    exact htakes

end

/-- A message with user data is of its kind. -/
theorem isUserMsg_userMsg {kind : MsgClass × ℕ} {c : Peer × Peer} (hkind : userKind c = some kind)
    (stale : UInt32) {u : List UInt8} (hu : u.length ≤ lmonMaxUsrpayload) :
    IsUserMsg kind (userMsg kind stale u) where
  class_eq := by
    show (BitVec.ofNat 3 kind.1.ctorIdx).toNat = _
    cases kind.1 <;> rfl
  type_eq := by
    unfold userKind at hkind
    split at hkind <;> cases hkind <;> rfl
  lmon_eq := rfl
  length_eq := (udata_toNat hu).symm
  le := hu

theorem msgsize_userMsg (kind : MsgClass × ℕ) (stale : UInt32) (u : List UInt8) :
    msgsize (userMsg kind stale u).hdr = UInt32.ofNat sizeofLmonp + UInt32.ofNat u.length :=
  congrArg (· + _) (UInt32.add_zero _)

/-- A master finds user data where there are some. -/
theorem IsUserMsg.pos_iff {kind : MsgClass × ℕ} {m : Msg} (hm : IsUserMsg kind m) :
    0 < m.hdr.usrPayloadLength.toInt32 ↔ m.payload ≠ [] := by
  rw [← udata_pos hm.le, hm.length_eq, UInt32.ofNat_toNat]

/-- The front end looks whether the length is zero. -/
theorem IsUserMsg.eq_zero_iff {kind : MsgClass × ℕ} {m : Msg} (hm : IsUserMsg kind m) :
    m.hdr.usrPayloadLength = 0 ↔ m.payload = [] := by
  rw [← List.length_eq_zero_iff, hm.length_eq, ← UInt32.toNat_inj]
  rfl

/-! ## The calls do what they should -/

/-- A descriptor with memory for what can come, and the order of the bytes on the machines of the
    daemons. -/
structure UsrSession (D : Type) where
  session : FeMwSession D
  malloc_ok : ∀ k ≤ lmonMaxUsrpayload, session.malloc k = true
  order : ByteOrder

namespace UsrSession

/-- A message of the front end. -/
theorem put_carriedOut {q : Peer} {kind : MsgClass × ℕ} (hkind : userKind (.fe, q) = some kind)
    (u : List UInt8) (hu : u.length ≤ lmonMaxUsrpayload) (rc : LmonRc) :
    (Mail.Act.tell q (userMsg kind 0 u) (Except.ok rc)).CarriedOut userFormat .fe
      (onSocket q [] (writeLmonpLongMsg (userMsg kind 0 u)
        (UInt32.ofNat sizeofLmonp + UInt32.ofNat u.length) >>= fun _ => pure rc)) := by
  refine ⟨⟨kind, hkind, isUserMsg_userMsg hkind 0 hu⟩, ?_⟩
  rw [onSocket_write (msgsize_userMsg kind 0 u), onSocket_pure]

/-- The empty one. -/
theorem empty_carriedOut {q : Peer} {kind : MsgClass × ℕ} (hkind : userKind (.fe, q) = some kind)
    {l : UInt32} (hl : l = UInt32.ofNat sizeofLmonp) (rc : LmonRc) :
    (Mail.Act.tell q (userMsg kind 0 []) (Except.ok rc)).CarriedOut userFormat .fe
      (onSocket q [] (writeLmonpLongMsg (userMsg kind 0 []) l >>= fun _ => pure rc)) := by
  have hput := put_carriedOut hkind [] (List.length_nil.trans_le (Nat.zero_le _)) rc
  rw [show UInt32.ofNat sizeofLmonp + UInt32.ofNat ([] : List UInt8).length = l from
    (UInt32.add_zero _).trans hl.symm] at hput
  exact hput

theorem emptyUdataMsg_eq :
    emptyUdataMsg = userMsg (.fetobe, FeToBeMsg.febeUsrdata.ctorIdx) 0 [] := rfl

theorem sendBe_carriedOut (s : FeSession) (febe : FebeData) :
    (sendBeAct s febe).CarriedOut userFormat .fe (onSocket .be [] (lmonFeHandleFeBeUsrData s febe)) := by
  unfold sendBeAct lmonFeHandleFeBeUsrData
  split
  · rfl
  · cases febe with
    | null =>
      dsimp only
      rw [emptyUdataMsg_eq]
      exact empty_carriedOut (q := .be) rfl rfl .enopld
    | noCallback =>
      dsimp only
      rw [emptyUdataMsg_eq]
      exact empty_carriedOut (q := .be) rfl rfl .encllb
    | packed rc u =>
      dsimp only
      split
      · rfl
      · by_cases hrc : rc < 0
        · rw [if_pos hrc, if_pos (Or.inl hrc)]
          rfl
        · rw [if_neg hrc]
          by_cases hu : lmonMaxUsrpayload < u.length
          · rw [if_pos hu, if_pos (Or.inr hu)]
            rfl
          · rw [if_neg hu, if_neg (not_or.mpr ⟨hrc, hu⟩)]
            have hput := put_carriedOut (q := .be) rfl u (Nat.le_of_not_lt hu) .ok
            exact hput

theorem sendFemwUdata_carriedOut (u : List UInt8) (hu : u.length ≤ lmonMaxUsrpayload) (rc : LmonRc) :
    (Mail.Act.tell .mw (userMsg (.fetomw, FeToMwMsg.femwUsrdata.ctorIdx) 0 u) (Except.ok rc)).CarriedOut
      userFormat .fe (onSocket .mw [] (sendFemwUdata u >>= fun _ => pure rc)) := by
  have hput := put_carriedOut (q := .mw) rfl u hu rc
  rw [sendFemwUdata, bind_assoc]
  exact hput

theorem sendMw_carriedOut (s : FeMwSession D) (mem : Ptr → D) (femwData : Option Ptr) :
    (sendMwAct s mem femwData).CarriedOut userFormat .fe
      (onSocket .mw [] (lmonFeHandleFeMwUsrData s mem femwData)) := by
  unfold sendMwAct lmonFeHandleFeMwUsrData
  split
  · rfl
  · cases femwData with
    | none => exact sendFemwUdata_carriedOut [] (Nat.zero_le _) .enopld
    | some p =>
      cases s.mwPack with
      | none => exact sendFemwUdata_carriedOut [] (Nat.zero_le _) .encllb
      | some mwPack =>
        dsimp only
        split
        · rfl
        · split
          · rfl
          · next hu => exact sendFemwUdata_carriedOut _ (Nat.le_of_not_lt hu) .ok

/-- A message of a kind that the front end expects. -/
theorem isFetobeMsg_of_user {m : Msg} {t : FeToBeMsg} (hm : IsUserMsg (.fetobe, t.ctorIdx) m) :
    isFetobeMsg m.hdr t = true := by
  rw [isFetobeMsg, isFetobe, decide_eq_true_iff, decide_eq_true_iff]
  exact ⟨hm.class_eq, hm.type_eq⟩

/-- Both receiving calls of the front end look at the kind, at the length, and at the memory. -/
theorem takes_front {malloc : ℕ → Bool} (hmalloc : ∀ k ≤ lmonMaxUsrpayload, malloc k = true) {q : Peer}
    {kind : MsgClass × ℕ} {m : Msg} (hm : IsUserMsg kind m) {α : Type} {F : Bool × Header → Sock α}
    {bad : Prop} [Decidable bad] {wrong empty nomem r : α} {G : Option (List UInt8) → Sock α}
    (hF : F (true, m.hdr) =
      if bad then pure wrong
      else if m.hdr.usrPayloadLength = 0 then pure empty
      else if malloc m.hdr.usrPayloadLength.toNat = false then pure nomem
      else readLmonpPayloads m.hdr.usrPayloadLength >>= G)
    (hbad : ¬bad) (hempty : m.payload = [] → empty = r)
    (hfull : m.payload ≠ [] → ∀ y, onSocket q y (G (some m.payload)) = .ret (.ok r)) :
    Takes q (userFormat.bytes m) (onSocket q [] (readLmonpMsgheader >>= F)) (.ret (.ok r)) := by
  rw [if_neg hbad] at hF
  refine takes_user hm (fun hnil y => ?_) (fun hne => ⟨G, ?_, hfull hne⟩)
  · rw [hF, if_pos (hm.eq_zero_iff.mpr hnil), onSocket_pure, hempty hnil]
  · have hroom : ¬malloc m.hdr.usrPayloadLength.toNat = false := by
      rw [hmalloc _ (hm.length_eq ▸ hm.le)]
      rintro ⟨⟩
    rw [hF, if_neg fun h => hne (hm.eq_zero_iff.mp h), if_neg hroom]

theorem recvBe_carriedOut {s : FeSession} (hmalloc : ∀ k ≤ lmonMaxUsrpayload, s.malloc k = true)
    (befe : BefeData) : (recvBeAct s befe).CarriedOut userFormat .fe
      (onSocket .be [] (lmonFeHandleBeFeUsrData s befe)) := by
  unfold recvBeAct lmonFeHandleBeFeUsrData
  split
  · rfl
  · refine ⟨⟨_, _, rfl, isUserMsg_userMsg (c := (.be, .fe)) (u := []) rfl 0 (Nat.zero_le _)⟩, ?_⟩
    rintro m ⟨kind, hkind, hm⟩
    cases hkind
    refine takes_front hmalloc hm rfl ?_ (fun hnil => (if_pos hnil).symm) (fun hne y => ?_)
    · rw [isFetobeMsg_of_user hm, hm.lmon_eq]
      exact not_or.mpr ⟨fun h => Bool.noConfusion h.2, fun h => h rfl⟩
    · unfold befeTaken
      rw [if_neg hne]
      cases befe with
      | null => rfl
      | unpack f =>
        dsimp only [Option.getD_some]
        split <;> rfl

theorem recvMw_carriedOut [DecidableEq Ptr] {s : FeMwSession D}
    (hmalloc : ∀ k ≤ lmonMaxUsrpayload, s.malloc k = true) (mem : Ptr → D) (mwfeData : Option Ptr) :
    (recvMwAct s mem mwfeData).CarriedOut userFormat .fe
      (onSocket .mw [] (lmonFeHandleMwFeUsrData s mem mwfeData)) := by
  unfold recvMwAct lmonFeHandleMwFeUsrData
  split
  · rfl
  · refine ⟨⟨_, _, rfl, isUserMsg_userMsg (c := (.mw, .fe)) (u := []) rfl 0 (Nat.zero_le _)⟩, ?_⟩
    rintro m ⟨kind, hkind, hm⟩
    cases hkind
    refine takes_front hmalloc hm rfl ?_ (fun hnil => (if_pos hnil).symm) (fun hne y => ?_)
    · have htype : isFetomwMsg m.hdr .mwfeUsrdata = true :=
        isFetomwMsg_iff.mpr ⟨hm.class_eq, hm.type_eq⟩
      rw [htype, hm.lmon_eq]
      exact not_or.mpr ⟨fun h => Bool.noConfusion h.2, fun h => h rfl⟩
    · unfold mwfeTaken
      rw [if_neg hne]
      cases s.mwUnpack with
      | none => rfl
      | some mwUnpack =>
        cases mwfeData with
        | none => rfl
        | some p => rfl

/-- A master that receives. -/
theorem recvMaster_carriedOut {p : Peer} {kind : MsgClass × ℕ} (hkind : userKind (.fe, p) = some kind)
    (own : MsgClass × ℕ) (order : ByteOrder) (sendType : ℕ) {c : UsrSide}
    (hfair : (MasterCall.recv c).Fair) :
    ((MasterCall.recv c).act own).CarriedOut userFormat p
      ((MasterCall.recv c).body order kind.1 kind.2 sendType) := by
  refine ⟨⟨_, kind, hkind, isUserMsg_userMsg (u := []) hkind 0 (Nat.zero_le _)⟩, ?_⟩
  rintro m ⟨kind', hkind', hm⟩
  cases hkind.symm.trans hkind'
  unfold MasterCall.body recvUsrGiven
  dsimp only
  rw [bind_assoc]
  refine takes_user hm (fun hnil y => ?_) (fun hne => ?_)
  · dsimp only
    rw [if_neg (by rintro ⟨⟩), if_neg (not_not_intro hm.type_eq),
      if_neg fun h => hm.pos_iff.mp h hnil, if_pos hnil, pure_bind]
    exact onSocket_duplicateRc order _ _
  · have hroom : ¬c.malloc m.hdr.usrPayloadLength.toNat = false := by
      rw [hfair _ (hm.length_eq ▸ hm.le)]
      rintro ⟨⟩
    refine ⟨fun o => pure (unpackUsrData c (o.getD c.garbage), given c (o.getD c.garbage)) >>= fun r =>
      duplicateRc order r.1 >>= fun rc => pure (rc, r.2), ?_, fun y => ?_⟩
    · dsimp only
      rw [if_neg (by rintro ⟨⟩), if_neg (not_not_intro hm.type_eq), if_pos (hm.pos_iff.mpr hne),
        if_neg hroom, bind_assoc]
    · rw [if_neg hne]
      dsimp only [Option.getD_some]
      rw [pure_bind]
      exact onSocket_duplicateRc order _ _

/-- A master that sends. -/
theorem sendMaster_carriedOut {p : Peer} {kind : MsgClass × ℕ} (hkind : userKind (p, .fe) = some kind)
    (order : ByteOrder) (recvType : ℕ) {c : UsrSide} (hfair : (MasterCall.send c).Fair) :
    ((MasterCall.send c).act kind).CarriedOut userFormat p
      ((MasterCall.send c).body order kind.1 recvType kind.2) := by
  have hskip : ∀ lrc : LmonRc, onSocket .fe [] ((pure lrc : Sock LmonRc) >>= fun lrc =>
      duplicateRc order lrc >>= fun rc => pure (rc, (none : Option (List UInt8)))) =
        .ret (.ok (rcWord lrc, none)) := by
    intro lrc
    rw [pure_bind]
    exact onSocket_duplicateRc order lrc _
  have hput : ∀ (stale : UInt32) (u : List UInt8) (lrc : LmonRc), onSocket .fe [] (writeUsrmsg
      (userMsg kind stale u).hdr u lrc >>= fun lrc => duplicateRc order lrc >>= fun rc =>
        pure (rc, (none : Option (List UInt8)))) =
      .send .fe (userFormat.bytes (userMsg kind stale u)) (.ret (.ok (rcWord lrc, none))) := by
    intro stale u lrc
    have hwrite := @onSocket_write _ .fe [] (userMsg kind stale u) _ (msgsize_userMsg kind stale u)
      fun sent => (if sent = false then pure .esys else pure lrc : Sock LmonRc) >>= fun lrc =>
        duplicateRc order lrc >>= fun rc => pure (rc, (none : Option (List UInt8)))
    rw [if_neg (by rintro ⟨⟩), hskip] at hwrite
    rw [writeUsrmsg, bind_assoc]
    exact hwrite
  unfold MasterCall.act MasterCall.body sendUsrDataMaster
  dsimp only
  cases hpacked : c.packed with
  | none =>
    dsimp only
    split
    · exact hskip .enomem
    · exact ⟨⟨kind, hkind, isUserMsg_userMsg hkind _ (Nat.zero_le _)⟩, hput c.stale [] .encllb⟩
  | some packed =>
    obtain ⟨rc, u⟩ := packed
    dsimp only
    split
    · exact hskip .enomem
    · split
      · exact hskip .enegcb
      · exact ⟨⟨kind, hkind, isUserMsg_userMsg hkind _ (hfair rc u hpacked)⟩, hput 0 u .ok⟩

/-! ## Sessions -/

/-- The calls of each of the three. -/
def UsrCalls (Ptr D : Type) : Peer → Type
  | .fe => FeCall Ptr D
  | .be | .mw => FairCall

/-- What they return. -/
def UsrAns : (p : Peer) → UsrCalls Ptr D p → Type
  | .fe, c => FeCall.Ans c
  | .be, _ | .mw, _ => MasterAns

variable [DecidableEq Ptr] (us : UsrSession D)

/-- What the calls do on the streams. -/
def body : (p : Peer) → (c : UsrCalls Ptr D p) → Prog Peer UInt8 (UsrAns p c)
  | .fe, c => FeCall.body us.session c
  | .be, c => c.1.body us.order .fetobe FeToBeMsg.febeUsrdata.ctorIdx FeToBeMsg.befeUsrdata.ctorIdx
  | .mw, c => c.1.body us.order .fetomw FeToMwMsg.femwUsrdata.ctorIdx FeToMwMsg.mwfeUsrdata.ctorIdx

/-- What they should do. -/
def act : (p : Peer) → (c : UsrCalls Ptr D p) → Mail.Act Peer Msg (UsrAns p c)
  | .fe, c => FeCall.act us.session c
  | .be, c => c.1.act (.fetobe, FeToBeMsg.befeUsrdata.ctorIdx)
  | .mw, c => c.1.act (.fetomw, FeToMwMsg.mwfeUsrdata.ctorIdx)

theorem carriedOut (p : Peer) (c : UsrCalls Ptr D p) :
    (us.act p c).CarriedOut userFormat p (us.body p c) := by
  have hmaster : ∀ {p : Peer} {mc : MsgClass} {recvType sendType : ℕ},
      userKind (.fe, p) = some (mc, recvType) → userKind (p, .fe) = some (mc, sendType) →
      ∀ c : FairCall, (c.1.act (mc, sendType)).CarriedOut userFormat p
        (c.1.body us.order mc recvType sendType) := by
    rintro p mc recvType sendType hrecv hsend ⟨c, hfair⟩
    cases c with
    | recv c => exact recvMaster_carriedOut hrecv (mc, sendType) us.order sendType hfair
    | send c => exact sendMaster_carriedOut hsend us.order recvType hfair
  cases p with
  | fe =>
    cases c with
    | sendUsrDataBe febe => exact sendBe_carriedOut us.session.toFeSession febe
    | recvUsrDataBe befe => exact recvBe_carriedOut us.malloc_ok befe
    | sendUsrDataMw mem femwData => exact sendMw_carriedOut us.session mem femwData
    | recvUsrDataMw mem mwfeData => exact recvMw_carriedOut us.malloc_ok mem mwfeData
  | be => exact hmaster rfl rfl c
  | mw => exact hmaster rfl rfl c

/-- **Sessions.**  The three clients end as they do over queues of whole messages.  There what one has
    sent to another is what that one has taken, in the same order, and then what waits; and a client is
    done, or it is in a receiving call and nothing has been sent to it.  Every run of the streams is finite
    and ends with what the queues end with; and with buffers of any size, whoever has returned by then
    has returned the same. -/
theorem usrData_sessions {α : Type} (client : (p : Peer) → Client (UsrCalls Ptr D p) (UsrAns p) α) :
    ∃ t, ReflTransGen (Mail.Step us.act) (Post.start client) t ∧
      (∀ p q, told q (t.log p) = heard p (t.log q) ++ t.queue (p, q)) ∧
      (∀ p, (∃ x, t.client p = .done x) ∨ ∃ c k q f, t.client p = .call c k ∧
        us.act p c = .hear q f ∧ t.queue (q, p) = []) ∧
      EndsIn (FifoNet.Step fun _ => ⊤) ((Post.start client).net userFormat us.body)
        (t.net userFormat us.body) ∧
      ∀ cap u, ReflTransGen (FifoNet.Step cap) ((Post.start client).net userFormat us.body) u →
        ∀ p x, u.prog p = .ret x → t.client p = .done x := by
  obtain ⟨t, hrun, hstuck, hends, hret⟩ := Post.carried us.carriedOut (Post.sound_start userFormat client)
  exact ⟨t, hrun, (Post.kept_start client).run hrun, Post.client_of_stuck hstuck, hends, hret⟩

/-! ### A session -/

/-- A descriptor for which memory never runs out, with an `unpack` that keeps what the middleware sends. -/
def echoSession : UsrSession (List UInt8) where
  session := {
    registered := true
    decrypt := fun _ => none
    randomID := 0
    proctabMsg := none
    rmEntry := 0
    malloc := fun _ => true
    mwPack := none
    mwUnpack := some fun u _ => (0, u)
    pMap := ∅
    spawnerVector := [] }
  malloc_ok _ _ := rfl
  order := .little

/-- The side of a master with these data to send; it takes whatever comes. -/
def echoSide (packed : Option (Int32 × List UInt8)) : UsrSide where
  malloc _ := true
  unpack := some fun _ => 0
  packed := packed
  garbage := []
  stale := 0

def echoRecv : FairCall := ⟨.recv (echoSide none), fun _ _ => rfl⟩

/-- As much of `u` as there is room for. -/
def echoSend (u : List UInt8) : FairCall :=
  ⟨.send (echoSide (some (0, u.take lmonMaxUsrpayload))), by
    rintro _ _ ⟨⟩
    exact List.length_take_le _ _⟩

/-- The back end turns round what the front end sends, the middleware sends one byte, and the front end
    asks both what they have to say. -/
def echoClient : (p : Peer) → Client (UsrCalls Unit (List UInt8) p) (UsrAns p) (List UInt8)
  | .fe => .call (.sendUsrDataBe (.packed 0 [1, 2, 3])) fun _ =>
      .call (.recvUsrDataBe (.unpack fun _ => 0)) fun
        | .ok (_, some u) => .call (.recvUsrDataMw (fun _ => []) (some ())) fun
          | .ok (_, mem) => .done (u ++ mem ())
          | .error _ => .done u
        | _ => .done []
  | .be => .call echoRecv fun
    | .ok (_, some u) => .call (echoSend u.reverse) fun _ => .done u
    | _ => .done []
  | .mw => .call (echoSend [7]) fun _ => .done []

theorem usrData_sessions_echo : ∃ t, ReflTransGen (Mail.Step echoSession.act) (Post.start echoClient) t ∧
    t.client .fe = .done [3, 2, 1, 7] ∧ t.client .be = .done [1, 2, 3] ∧ t.client .mw = .done [] ∧
    EndsIn (FifoNet.Step fun _ => ⊤) ((Post.start echoClient).net userFormat echoSession.body)
      (t.net userFormat echoSession.body) := by
  obtain ⟨t, hrun, -, -, hends, hret⟩ := usrData_sessions echoSession echoClient
  -- one run over the queues, in which everybody gets what he waits for
  have hecho : ReflTransGen (Mail.Step echoSession.act) (Post.start echoClient) _ :=
    .head (.tell (p := .fe) rfl rfl) <| .head (.hear (p := .be) rfl rfl rfl) <|
      .head (.tell (p := .be) rfl rfl) <| .head (.tell (p := .mw) rfl rfl) <|
      .head (.hear (p := .fe) rfl rfl rfl) <| .single (.hear (p := .fe) rfl rfl rfl)
  have hbytes := ReflTransGen.mono (fun _ _ => ByteStep.step _) _ _
    ((Post.sound_start userFormat echoClient).carry_run echoSession.carriedOut hecho).2
  have hreturned := hret _ _ hbytes
  exact ⟨t, hrun, hreturned .fe _ rfl, hreturned .be _ rfl, hreturned .mw _ rfl, hends⟩

end UsrSession

end LaunchMON.Frontend
