/-
  The front end's side of the handshake with the back end: `LMON_fe_beHandshakeSequence`, from the
  first message of the back-end master on, with the two functions that move the user data.

  The sequence is one program on one socket (`Lmonp.Sock` without collectives).  Its last message to
  the engine goes out on another socket and is not part of it.
-/
import LaunchMON.Backend.Handshake
import LaunchMON.Lmonp.Proctab

namespace LaunchMON.Frontend

open CBytes Fleet Lmonp Backend

/-- What the sequence reads of `lmon_session_desc_t`: whether the session is in use, the cipher with its
    key, the random id, the process table message from the engine and the entry of the resource
    manager; and the calls of `malloc`. -/
structure FeSession where
  registered : Bool
  decrypt : List UInt8 → Option (List UInt8)
  randomID : UInt32
  proctabMsg : Option Msg
  rmEntry : UInt16
  malloc : ℕ → Bool

/-- `febe_data` with the callback of the session: no data, no callback, or what `pack` returns and has
    put into the buffer. -/
inductive FebeData
  | null
  | noCallback
  | packed (rc : Int32) (udata : List UInt8)

/-- `befe_data` with the callback of the session: one of them is missing, or the result of `unpack`. -/
inductive BefeData
  | null
  | unpack (f : List UInt8 → Int32)

/-- What the sequence leaves: the table of host names, and the user data that `unpack` was given. -/
structure FeHandshake where
  hntabMsg : Msg
  udata : Option (List UInt8)
  deriving DecidableEq

/-! ## User data -/

/-- An empty USRDATA message. -/
def emptyUdataMsg : Msg := ⟨setMsgHeader .fetobe FeToBeMsg.febeUsrdata.ctorIdx 0 0 0 0 0 0 0, []⟩

/-- `LMON_fe_handleFeBeUsrData`. -/
def lmonFeHandleFeBeUsrData (s : FeSession) (febe : FebeData) : Sock LmonRc :=
  if s.registered = false then return .ebdarg
  else match febe with
  | .null => do
    let _ ← writeLmonpLongMsg emptyUdataMsg (UInt32.ofNat sizeofLmonp)
    return .enopld
  | .noCallback => do
    let _ ← writeLmonpLongMsg emptyUdataMsg (UInt32.ofNat sizeofLmonp)
    return .encllb
  | .packed rc udata =>
    if s.malloc (sizeofLmonp + lmonMaxUsrpayload) = false then return .enomem
    else if rc < 0 then return .einval
    else if lmonMaxUsrpayload < udata.length then return .einval
    else do
      let outlen := UInt32.ofNat udata.length
      let hdr := setMsgHeader .fetobe FeToBeMsg.febeUsrdata.ctorIdx 0 0 0 0 0 0 outlen
      let _ ← writeLmonpLongMsg ⟨hdr, udata⟩ (UInt32.ofNat sizeofLmonp + outlen)
      return .ok

/-- Is a message of the class of the front end and the back end, and of a type? -/
def isFetobeMsg (h : Header) (t : FeToBeMsg) : Bool :=
  h.msgclass.toNat = MsgClass.fetobe.ctorIdx ∧ isFetobe h t

/-- `LMON_fe_handleBeFeUsrData`: its result, and what it has given to `unpack`. -/
def lmonFeHandleBeFeUsrData (s : FeSession) (befe : BefeData) :
    Sock (LmonRc × Option (List UInt8)) :=
  if s.registered = false then return (.ebdarg, none)
  else do
    let (_, msg) ← readLmonpMsgheader
    if (isFetobeMsg msg .befeReady = false ∧ isFetobeMsg msg .befeUsrdata = false) ∨
        msg.lmonPayloadLength ≠ 0 then return (.ebdmsg, none)
    else if msg.usrPayloadLength = 0 then return (.enopld, none)
    else if s.malloc msg.usrPayloadLength.toNat = false then return (.enomem, none)
    else do
      let usrdatabuf ← readLmonpPayloads msg.usrPayloadLength
      match befe with
      | .null => return (.encllb, none)
      | .unpack f =>
        if f (usrdatabuf.getD []) < 0 then return (.enegcb, some (usrdatabuf.getD []))
        else return (.ok, some (usrdatabuf.getD []))

/-! ## The sequence -/

/-- The loop over the security messages, with what it has collected in `decryptedID`. -/
def recvSecurityChk : ℕ → Sock (List UInt8)
  | 0 => return []
  | i + 1 => do
    let (_, msg) ← readLmonpMsgheader
    if isFetobeMsg msg .febeSecurityChk = false ∨ msg.lmonPayloadLength ≠ 0 then .fail .ebdmsg
    else do
      let rest ← recvSecurityChk i
      return le16 msg.numExecName ++ le16 msg.numHostName ++ rest

/-- `LMON_fe_is_secure`. -/
def lmonFeIsSecure (s : FeSession) (decryptedID : List UInt8) : Bool :=
  match s.decrypt decryptedID with
  | none => false
  | some id => readLe32 id = some s.randomID

/-- BE HOSTNAME MSG. -/
def recvHostnames (s : FeSession) : Sock Msg := do
  let (read, msg) ← readLmonpMsgheader
  if read = false then .fail .esys
  else if isFetobeMsg msg .befeHostname = false then .fail .ebdmsg
  else do
    let len := msg.lmonPayloadLength + msg.usrPayloadLength
    if s.malloc (sizeT len + sizeofLmonp) = false then .fail .enomem
    else
      match ← readLmonpPayloads len with
      | none => .fail .esys
      | some tv => return ⟨msg, tv⟩

/-- The type of the message for launch or attach; `dontstop` is the value of LMON_DONT_STOP_APP. -/
def tracemode (isLaunch : Bool) (dontstop : Option Int) : FeToBeMsg :=
  if isLaunch then if dontstop = some 1 then .febeLaunchDontstop else .febeLaunch
  else if dontstop = some 0 then .febeAttachStop else .febeAttach

/-- PROCTAB MSG, flipped from the message of the engine. -/
def sendProctab (m : Msg) : Sock Unit := do
  let sent ← writeLmonpLongMsg (forwardToBe m) (msgsize m.hdr)
  if sent = false then .fail .esys else return ()

/-- A message that is only a header; nobody looks whether it went out. -/
def sendHeader (t : FeToBeMsg) (numTasks : UInt16) : Sock Unit := do
  let hdr := setMsgHeader .fetobe t.ctorIdx numTasks 0 0 0 0 0 0
  let _ ← writeLmonpLongMsg ⟨hdr, []⟩ (UInt32.ofNat sizeofLmonp)
  return ()

/-- CONTINUE LAUNCH MSG. -/
def recvContLaunchBp : Sock Unit := do
  let (read, contReqMsg) ← readLmonpMsgheader
  if read = false then .fail .esys
  else if isFetobeMsg contReqMsg .befeContLaunchBp = false then .fail .ebdmsg
  else return ()

/-- `LMON_fe_beHandshakeSequence`.  A session id has LMON_KEY_LENGTH bytes, four words. -/
def lmonFeBeHandshakeSequence (s : FeSession) (isLaunch : Bool) (dontstop : Option Int)
    (febe : FebeData) (befe : BefeData) : Sock FeHandshake := do
  let decryptedID ← recvSecurityChk 4
  if lmonFeIsSecure s decryptedID = false then .fail .esys
  else do
    let hntabMsg ← recvHostnames s
    match s.proctabMsg with
    | none => .fail .ebug
    | some proctabMsg => do
      sendProctab proctabMsg
      sendHeader (tracemode isLaunch dontstop) 0
      sendHeader .febeRmType s.rmEntry
      let lrc ← lmonFeHandleFeBeUsrData s febe
      if lrc ≠ .ok ∧ lrc ≠ .enopld then .fail lrc
      else do
        recvContLaunchBp
        let (lrc, udata) ← lmonFeHandleBeFeUsrData s befe
        if lrc ≠ .ok ∧ lrc ≠ .enopld then .fail lrc else return ⟨hntabMsg, udata⟩

end LaunchMON.Frontend
