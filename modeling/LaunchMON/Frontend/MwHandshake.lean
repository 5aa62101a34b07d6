/-
  The front end's side of the handshake with the middleware: `LMON_fe_mwHandshakeSequence`, from the
  first message of the middleware master on, with the two functions that move the user data, and
  `LMON_fe_launchMwDaemons` around it.

  The user data lie in buffers of the caller, who passes pointers: `mem` is what the buffers hold.  So
  the sequence says which of them has been packed and which one has been unpacked into.
-/
import LaunchMON.Frontend.Calls
import LaunchMON.Frontend.Handshake

namespace LaunchMON.Frontend

open CBytes Fleet Lmonp Backend

variable {Ptr D : Type}

/-- What the sequence reads of `lmon_session_desc_t`: what the other one reads, the callbacks for the
    middleware, and the hosts of the spawners.  A callback reads or writes the caller's buffer; the
    result of `mw_pack` is what it has put into the message, its return code is not looked at. -/
structure FeMwSession (D : Type) extends FeSession where
  mwPack : Option (D → List UInt8)
  mwUnpack : Option (List UInt8 → D → Int32 × D)
  pMap : Proctable
  spawnerVector : List Spawner

/-- What the sequence leaves: the table of host names, and the caller's buffers. -/
structure FeMwHandshake (Ptr D : Type) where
  hntabMwMsg : Msg
  mem : Ptr → D

/-- Is a message of the class of the front end and the middleware, and of a type? -/
def isFetomwMsg (h : Header) (t : FeToMwMsg) : Bool :=
  h.msgclass.toNat = MsgClass.fetomw.ctorIdx ∧ h.type.toNat = t.ctorIdx

/-! ## User data -/

/-- The header over user data. -/
def femwUdataHeader (u : List UInt8) : Header :=
  setMsgHeader .fetomw FeToMwMsg.femwUsrdata.ctorIdx 0 0 0 0 0 0 (UInt32.ofNat u.length)

/-- A message with user data goes out; nobody looks whether it does. -/
def sendFemwUdata (u : List UInt8) : Sock Unit := do
  let _ ← writeLmonpLongMsg ⟨femwUdataHeader u, u⟩ (UInt32.ofNat sizeofLmonp + UInt32.ofNat u.length)
  return ()

/-- `LMON_fe_handleFeMwUsrData`. -/
def lmonFeHandleFeMwUsrData (s : FeMwSession D) (mem : Ptr → D) (femwData : Option Ptr) : Sock LmonRc :=
  if s.registered = false then return .ebdarg
  else match femwData, s.mwPack with
  | none, _ => do
    sendFemwUdata []
    return .enopld
  | some _, none => do
    sendFemwUdata []
    return .encllb
  | some p, some mwPack =>
    if s.malloc (sizeofLmonp + lmonMaxUsrpayload) = false then return .enomem
    else if lmonMaxUsrpayload < (mwPack (mem p)).length then return .einval
    else do
      sendFemwUdata (mwPack (mem p))
      return .ok

variable [DecidableEq Ptr]

/-- `LMON_fe_handleMwFeUsrData`: its result and the buffers. -/
def lmonFeHandleMwFeUsrData (s : FeMwSession D) (mem : Ptr → D) (mwfeData : Option Ptr) :
    Sock (LmonRc × (Ptr → D)) :=
  if s.registered = false then return (.ebdarg, mem)
  else do
    let (_, msg) ← readLmonpMsgheader
    if (isFetomwMsg msg .mwfeReady = false ∧ isFetomwMsg msg .mwfeUsrdata = false) ∨
        msg.lmonPayloadLength ≠ 0 then return (.ebdmsg, mem)
    else if msg.usrPayloadLength = 0 then return (.enopld, mem)
    else if s.malloc msg.usrPayloadLength.toNat = false then return (.enomem, mem)
    else do
      let usrdatabuf ← readLmonpPayloads msg.usrPayloadLength
      match s.mwUnpack, mwfeData with
      | none, _ | _, none => return (.encllb, mem)
      | some mwUnpack, some p =>
        let r := mwUnpack (usrdatabuf.getD []) (mem p)
        return (if r.1 < 0 then .ecllb else .ok, Function.update mem p r.2)

/-! ## The sequence -/

/-- The loop over the security messages, with what it has collected in `encrypt_packet_buf`.  Here the
    user payload has to be empty, too. -/
def recvMwSecurityChk : ℕ → Sock (List UInt8)
  | 0 => return []
  | i + 1 => do
    let (_, msg) ← readLmonpMsgheader
    if isFetomwMsg msg .femwSecurityChk = false ∨ msg.lmonPayloadLength ≠ 0 ∨
        msg.usrPayloadLength ≠ 0 then .fail .ebdmsg
    else do
      let rest ← recvMwSecurityChk i
      return le16 msg.numExecName ++ le16 msg.numHostName ++ rest

/-- MW HOSTNAME MSG. -/
def recvMwHostnames (s : FeMwSession D) : Sock Msg := do
  let (read, msg) ← readLmonpMsgheader
  if read = false then .fail .esys
  else if isFetomwMsg msg .mwfeHostname = false then .fail .ebdmsg
  else do
    let len := msg.lmonPayloadLength + msg.usrPayloadLength
    if s.malloc (len.toNat + sizeofLmonp) = false then .fail .enomem
    else
      match ← readLmonpPayloads len with
      | none => .fail .esys
      | some tv => return ⟨msg, tv⟩

/-- `LMON_fe_mwHandshakeSequence`.  A session id has LMON_KEY_LENGTH bytes, four words. -/
def lmonFeMwHandshakeSequence (s : FeMwSession D) (mem : Ptr → D) (femwData mwfeData : Option Ptr) :
    Sock (FeMwHandshake Ptr D) := do
  let encryptPacketBuf ← recvMwSecurityChk 4
  if lmonFeIsSecure s.toFeSession encryptPacketBuf = false then .fail .esys
  else do
    let hntabMwMsg ← recvMwHostnames s
    let lrc ← lmonFeHandleFeMwUsrData s mem femwData
    if lrc ≠ .ok ∧ lrc ≠ .enopld then .fail lrc
    else do
      let (lrc, mem) ← lmonFeHandleMwFeUsrData s mem mwfeData
      if lrc ≠ .ok ∧ lrc ≠ .enopld then .fail lrc else return ⟨hntabMwMsg, mem⟩

/-- The spawners of the requests that `LMON_fe_launchMwDaemons` has been given, or the code with which
    it gives up (`pushSpawners` is its loop on the descriptor). -/
def mwSpawners (s : FeMwSession D) (req : List DistRequest) (nreq : Int) :
    Except LmonRc (List Spawner) :=
  if nreq ≤ 0 ∨ nreq > lmonNMwTypes then .error .ebdarg
  else (req.take nreq.toNat).mapM (DistRequest.spawner s.pMap)

/-- `LMON_fe_launchMwDaemons`: the sequence is given `femw_data` for both of its pointers, and nobody
    looks at `mwfe_data`. -/
def launchMwDaemons (s : FeMwSession D) (req : List DistRequest) (nreq : Int) (mem : Ptr → D)
    (femwData _mwfeData : Option Ptr) : Sock (FeMwHandshake Ptr D) := do
  let _ ← Daemon.ofExcept (mwSpawners s req nreq)
  lmonFeMwHandshakeSequence s mem femwData femwData

end LaunchMON.Frontend
