/-
  The handshakes of the daemons, as each daemon runs them: `LMON_be_handshake`, `LMON_be_ready` and
  the end of `LMON_be_init` of the back end, `LMON_mw_handshake` of the middleware, and the two sides
  of the colocation spawner.

  Only rank 0, the master, has a socket to the front end.  What it reads there it broadcasts, and a
  daemon of any rank goes on with what the broadcast has left in its own `bedata`.  A block between
  BEGIN_MASTER_ONLY and END_MASTER_ONLY is a definition of its own, so that the sequence of collectives
  stands in one piece.

  `Calls` are the calls of a daemon that need neither socket nor fabric; they may succeed or fail as
  they like.
-/
import LaunchMON.Lmonp.Stream

namespace LaunchMON.Backend

open CBytes Fleet Lmonp Std

/-! ## A daemon -/

/-- `LMON_DAEMON_HN_MAX`. -/
def lmonDaemonHnMax : Nat := 108

/-- `per_daemon_data_t`. -/
structure PerDaemonData where
  myrank : ℕ
  width : UInt32
  myHostname : List UInt8

/-- BEGIN_MASTER_ONLY. -/
def PerDaemonData.isMaster (d : PerDaemonData) : Bool := d.myrank = 0

/-- `tracingmode_e`, as an `int`. -/
def trmAttach : UInt32 := 0
def trmLaunch : UInt32 := 1
def trmLaunchDontstop : UInt32 := 2
def trmAttachStop : UInt32 := 3

/-- The part of `per_be_data_t` that the handshake fills, and what it has given to `unpack`. -/
structure PerBeData where
  isLaunch : UInt32
  rmtypeInstance : UInt32
  proctabMsgSize : UInt32
  proctabMsg : List UInt8
  udata : Option (List UInt8)
  deriving DecidableEq

/-- `bedata` before the handshake. -/
def PerBeData.init : PerBeData := ⟨0, 0, 0, [], none⟩

/-- An `int` as a `size_t`. -/
def sizeT (x : UInt32) : ℕ := if x.toNat < 2 ^ 31 then x.toNat else 2 ^ 64 - 2 ^ 32 + x.toNat

/-- The calls of a daemon that stay on its node: `malloc` of a size; the two calls for its part of the
    process table; the process control of its resource manager, which is given the resource manager,
    whether the job is launched, the size of the table and whether the job is not to stop. -/
structure Calls where
  malloc : ℕ → Bool
  getMyProctabSize : List UInt8 → LmonRc × UInt32
  getMyProctab : List UInt8 → UInt32 → LmonRc
  procctlInit : UInt32 → Bool → UInt32 → Bool → LmonRc
  procctlInitdone : UInt32 → Bool → UInt32 → LmonRc
  procctlRun : UInt32 → UInt32 → LmonRc

/-! ## The host names -/

/-- The names in the gathered buffer, one in each slot of LMON_DAEMON_HN_MAX bytes. -/
def gatheredNames (width : Nat) (hngatherbuf : List UInt8) : List CString :=
  (List.range width).map fun i =>
    (readCString (hngatherbuf.drop (lmonDaemonHnMax * i))).getD .empty

/-- The map `hostName` (without the marks) and the running offset of the first pass. -/
structure HostTab where
  hostName : ExtTreeMap CString UInt32
  offset : UInt32

/-- The first pass: a name that is new gets the current offset. -/
def HostTab.add (t : HostTab) (s : CString) : HostTab :=
  if s ∈ t.hostName then t
  else ⟨t.hostName.insert s t.offset, t.offset + UInt32.ofNat (s.strlen + 1)⟩

def hostTab (names : List CString) : HostTab := names.foldl HostTab.add ⟨∅, 0⟩

/-- The buffers that the second pass fills, and the names that are marked. -/
structure Packed where
  packptr : List UInt8
  strtabptr : List UInt8
  marked : List CString

/-- The second pass: the offset of the name, and the name itself when it has no mark. -/
def Packed.add (t : HostTab) (p : Packed) (s : CString) : Packed where
  packptr := p.packptr ++ le32 (t.hostName.getD s 0)
  strtabptr := if s ∈ p.marked then p.strtabptr else p.strtabptr ++ s.image
  marked := if s ∈ p.marked then p.marked else p.marked ++ [s]

def packNames (t : HostTab) (names : List CString) : Packed := names.foldl (Packed.add t) ⟨[], [], []⟩

/-- The header over the table of host names. -/
def hostnameHeader (mc : MsgClass) (type : Nat) (width offset : UInt32) : Header :=
  if width.toInt32 < Int32.ofNat lmonNtasksThre then
    setMsgHeader mc type width.toUInt16 0 0 width.toUInt16 0 (offset + width * 4) 0
  else setMsgHeader mc type (UInt16.ofNat lmonNtasksThre) 0 0 width.toUInt16 width (offset + width * 4) 0

/-- The message with the host names, and the size of its buffer; `none` where the source finds no
    place for indices or strings. -/
def hostnameMsg (mc : MsgClass) (type : Nat) (width : UInt32) (hngatherbuf : List UInt8) :
    Option (Msg × UInt32) :=
  let names := gatheredNames width.toNat hngatherbuf
  let t := hostTab names
  let hdr := hostnameHeader mc type width t.offset
  if getLmonpayloadBegin hdr = none ∨ getStrtabBegin hdr = none then none
  else
    let p := packNames t names
    some (⟨hdr, p.packptr ++ p.strtabptr⟩, UInt32.ofNat sizeofLmonp + width * 4 + t.offset)

/-! ## Back end -/

/-- `LMON_be_broadcast` of an `int` of `bedata`: what is in it afterwards. -/
def broadcastInt (x : UInt32) : Sock UInt32 := do
  let bs ← Daemon.broadcast 4 (le32 x)
  return (readLe32 bs).getD 0

/-- Has a message one of the types of the front end and the back end? -/
def isFetobe (h : Header) (t : FeToBeMsg) : Bool := h.type.toNat = t.ctorIdx

/-- The tracing mode that a message announces. -/
def tracingMode (h : Header) : Option UInt32 :=
  if isFetobe h .febeAttach then some trmAttach
  else if isFetobe h .febeLaunch then some trmLaunch
  else if isFetobe h .febeLaunchDontstop then some trmLaunchDontstop
  else if isFetobe h .febeAttachStop then some trmAttachStop
  else none

/-- `LMON_be_init`: the loop that sends the encrypted session id, a word in each message. -/
def sendSessID : List UInt32 → Sock Unit
  | [] => return ()
  | tmpSK :: sidTraverse => do
    let hdr := setMsgHeader .fetobe FeToBeMsg.febeSecurityChk.ctorIdx 0 tmpSK 0 0 0 0 0
    let sent ← writeLmonpLongMsg ⟨hdr, []⟩ (UInt32.ofNat sizeofLmonp)
    if sent = false then .fail .esys else sendSessID sidTraverse

/-- `LMON_be_init`, from the encrypted session id on. -/
def lmonBeInit (d : PerDaemonData) (sessID : List UInt32) : Sock Unit := do
  if d.isMaster then sendSessID sessID
  Daemon.barrier

/-- `LMON_be_handshake`, first master-only block: is there a buffer for the names? -/
def beGatherBuffer (c : Calls) (d : PerDaemonData) : Except LmonRc Unit :=
  if d.isMaster ∧ c.malloc (sizeT (UInt32.ofNat lmonDaemonHnMax * d.width)) = false then .error .enomem
  else .ok ()

/-- A header that has to be of a type. -/
def expectFetobe (t : FeToBeMsg) : Sock Header := do
  let (_, recvmsg) ← readLmonpMsgheader
  if isFetobe recvmsg t then return recvmsg else .fail .ebdmsg

/-- `LMON_be_handshake`: the PROCTAB stream from the front end. -/
def beRecvProctab : Sock (Header × List UInt8) := do
  let recvmsg ← expectFetobe .febeProctab
  if getLmonpayloadBegin recvmsg = none then .fail .ebdmsg
  else do
    let payload ← readLmonpPayloads (recvmsg.lmonPayloadLength + recvmsg.usrPayloadLength)
    if bytesread payload ≠ recvmsg.lmonPayloadLength + recvmsg.usrPayloadLength then .fail .ebdmsg
    else return (recvmsg, payload.getD [])

/-- `LMON_be_handshake`: the launch or attach message. -/
def beRecvMode : Sock UInt32 := do
  let (_, recvmsg) ← readLmonpMsgheader
  match tracingMode recvmsg with
  | none => .fail .ebdmsg
  | some isLaunch => return isLaunch

/-- `LMON_be_handshake`: the USRDATA stream, which is given to `unpack`. -/
def beRecvUsrdata : Sock (Option (List UInt8)) := do
  let recvmsg ← expectFetobe .febeUsrdata
  if 0 < recvmsg.usrPayloadLength.toInt32 then do
    let usrpl ← readLmonpPayloads recvmsg.usrPayloadLength
    return some (usrpl.getD [])
  else return none

/-- `LMON_be_handshake`, inside of the second master-only block: the host names go out, and process
    table, tracing mode, resource manager and user data come in. -/
def beMasterOnly (d : PerDaemonData) (hngatherbuf : List UInt8) : Sock PerBeData :=
  match hostnameMsg .fetobe FeToBeMsg.befeHostname.ctorIdx d.width hngatherbuf with
  | none => .fail .ebdmsg
  | some (sendbuf, sendbufsize) => do
    let _ ← writeLmonpLongMsg sendbuf sendbufsize
    let (recvmsg, payload) ← beRecvProctab
    let isLaunch ← beRecvMode
    let rm ← expectFetobe .febeRmType
    let udata ← beRecvUsrdata
    return ⟨isLaunch, rm.numTasks.toUInt32, msgsize recvmsg, recvmsg.bytes ++ payload, udata⟩

/-- `LMON_be_handshake`: the second master-only block, which the slaves skip. -/
def beMasterBlock (d : PerDaemonData) (hngatherbuf : List UInt8) : Sock PerBeData :=
  if d.isMaster then beMasterOnly d hngatherbuf else return .init

/-- `LMON_be_handshake`: the slave-only block. -/
def beProctabBuffer (c : Calls) (d : PerDaemonData) (proctabMsgSize : UInt32) : Except LmonRc Unit :=
  if d.isMaster = false ∧ c.malloc (sizeT proctabMsgSize) = false then .error .enomem else .ok ()

/-- The hint not to use process control. -/
def dontstopFastpath (isLaunch : UInt32) : Bool := isLaunch = trmLaunchDontstop ∨ isLaunch = trmAttach

/-- `islaunch`. -/
def islaunch (isLaunch : UInt32) : Bool := isLaunch = trmLaunch ∨ isLaunch = trmLaunchDontstop

/-- `LMON_be_handshake`, until process control is initialised: the size of the daemon's own table.  An
    entry of the table, MPIR_PROCDESC_EXT, has 32 bytes. -/
def beSync (c : Calls) (b : PerBeData) : Except LmonRc UInt32 :=
  let proctabSize := (c.getMyProctabSize b.proctabMsg).2
  if (c.getMyProctabSize b.proctabMsg).1 ≠ .ok then .error .edunav
  else if c.malloc (sizeT proctabSize * 32 % 2 ^ 64) = false then .error .enomem
  else if c.getMyProctab b.proctabMsg proctabSize ≠ .ok then .error .edunav
  else if c.procctlInit b.rmtypeInstance (islaunch b.isLaunch) proctabSize
      (dontstopFastpath b.isLaunch) ≠ .ok then .error .esubsync
  else .ok proctabSize

/-- `LMON_be_handshake`, the master-only block between the barriers: the front end may release the
    resource manager. -/
def beContLaunchBp (d : PerDaemonData) : Sock Unit :=
  if d.isMaster then do
    let hdr := setMsgHeader .fetobe FeToBeMsg.befeContLaunchBp.ctorIdx 0 0 0 0 0 0 0
    let sent ← writeLmonpLongMsg ⟨hdr, []⟩ (UInt32.ofNat sizeofLmonp)
    if sent = false then .fail .esys else return ()
  else return ()

/-- `LMON_be_handshake`, after that block: process control is completed. -/
def beInitdone (c : Calls) (b : PerBeData) (proctabSize : UInt32) : Except LmonRc Unit :=
  if c.procctlInitdone b.rmtypeInstance (islaunch b.isLaunch) proctabSize ≠ .ok then .error .esubsync
  else if dontstopFastpath b.isLaunch = true ∧ c.procctlRun b.rmtypeInstance proctabSize ≠ .ok then
    .error .esubsync
  else .ok ()

/-- `LMON_be_handshake`. -/
def lmonBeHandshake (c : Calls) (d : PerDaemonData) : Sock PerBeData := do
  Daemon.ofExcept (beGatherBuffer c d)
  let hngatherbuf ← Daemon.gather lmonDaemonHnMax d.myHostname
  let b ← beMasterBlock d hngatherbuf
  let isLaunch ← broadcastInt b.isLaunch
  let rmtypeInstance ← broadcastInt b.rmtypeInstance
  let proctabMsgSize ← broadcastInt b.proctabMsgSize
  Daemon.ofExcept (beProctabBuffer c d proctabMsgSize)
  let proctabMsg ← Daemon.broadcast proctabMsgSize.toNat b.proctabMsg
  let b : PerBeData := ⟨isLaunch, rmtypeInstance, proctabMsgSize, proctabMsg, b.udata⟩
  let proctabSize ← Daemon.ofExcept (beSync c b)
  Daemon.barrier
  beContLaunchBp d
  Daemon.ofExcept (beInitdone c b proctabSize)
  Daemon.barrier
  return b

/-- `LMON_be_handshake` behind the second master-only block. -/
def beTail (c : Calls) (d : PerDaemonData) (b : PerBeData) : Sock PerBeData := do
  let isLaunch ← broadcastInt b.isLaunch
  let rmtypeInstance ← broadcastInt b.rmtypeInstance
  let proctabMsgSize ← broadcastInt b.proctabMsgSize
  Daemon.ofExcept (beProctabBuffer c d proctabMsgSize)
  let proctabMsg ← Daemon.broadcast proctabMsgSize.toNat b.proctabMsg
  let b : PerBeData := ⟨isLaunch, rmtypeInstance, proctabMsgSize, proctabMsg, b.udata⟩
  let proctabSize ← Daemon.ofExcept (beSync c b)
  Daemon.barrier
  beContLaunchBp d
  Daemon.ofExcept (beInitdone c b proctabSize)
  Daemon.barrier
  return b

theorem lmonBeHandshake_eq (c : Calls) (d : PerDaemonData) : lmonBeHandshake c d =
    Daemon.ofExcept (beGatherBuffer c d) >>= fun _ => Daemon.gather lmonDaemonHnMax d.myHostname >>=
      fun buf => beMasterBlock d buf >>= beTail c d := rfl

/-- The buffer for the host names is there, where one is needed. -/
theorem beGatherBuffer_eq_ok {c : Calls} {d : PerDaemonData} : beGatherBuffer c d = .ok () ↔
    (d.isMaster = true → c.malloc (sizeT (UInt32.ofNat lmonDaemonHnMax * d.width)) = true) := by
  unfold beGatherBuffer
  split
  · next h => exact iff_of_false (by rintro ⟨⟩) fun hall => Bool.false_ne_true (h.2.symm.trans (hall h.1))
  · next h => exact iff_of_true rfl fun hm => Bool.eq_true_of_not_eq_false fun hno => h ⟨hm, hno⟩

/-- A message with the size that its header says goes out or not. -/
theorem writeLmonpLongMsg_bind {ρ α : Type} {m : Msg} {size : UInt32} (h : msgsize m.hdr = size)
    (k : Bool → Daemon SockOp SockOp.Ans ρ α) :
    writeLmonpLongMsg m size >>= k = .op (.writeLongMsg (m.hdr.bytes ++ m.payload)) k := by
  rw [writeLmonpLongMsg, if_neg (not_not.mpr h), Daemon.ask_bind]

/-- `LMON_MAX_USRPAYLOAD`. -/
def lmonMaxUsrpayload : Nat := 4194304

/-- `LMON_be_ready`.  `usrdata` is what `pack` makes of the user data, if there are user data and a
    callback; without them the buffer of the message is not cleared, and `stale` is what it has for the
    count that nobody reads. -/
def lmonBeReady (d : PerDaemonData) (usrdata : Option (List UInt8)) (stale : UInt32) : Sock Unit := do
  if d.isMaster then
    let uplLeng := UInt32.ofNat (usrdata.getD []).length
    let hdr := setMsgHeader .fetobe FeToBeMsg.befeReady.ctorIdx 0 0 0 0
      (if usrdata.isSome then 0 else stale) 0 uplLeng
    let _ ← writeLmonpLongMsg ⟨hdr, usrdata.getD []⟩ (UInt32.ofNat sizeofLmonp + uplLeng)
  Daemon.barrier

/-! ## Middleware -/

/-- `LMON_mw_handshake`, inside of the second master-only block: the host names go out and the user
    data come in. -/
def mwMasterOnly (d : PerDaemonData) (hngatherbuf : List UInt8) : Sock (Option (List UInt8)) :=
  match hostnameMsg .fetomw FeToMwMsg.mwfeHostname.ctorIdx d.width hngatherbuf with
  | none => .fail .ebdmsg
  | some (sendbuf, sendbufsize) => do
    let _ ← writeLmonpLongMsg sendbuf sendbufsize
    let (_, recvmsg) ← readLmonpMsgheader
    if recvmsg.type.toNat ≠ FeToMwMsg.femwUsrdata.ctorIdx then .fail .ebdmsg
    else if 0 < recvmsg.usrPayloadLength.toInt32 then do
      let usrpl ← readLmonpPayloads recvmsg.usrPayloadLength
      return some (usrpl.getD [])
    else return none

/-- `LMON_mw_handshake`: the second master-only block, which the slaves skip. -/
def mwMasterBlock (d : PerDaemonData) (hngatherbuf : List UInt8) : Sock (Option (List UInt8)) :=
  if d.isMaster then mwMasterOnly d hngatherbuf else return none

/-- `LMON_mw_handshake`; its first block is the one of the back end. -/
def lmonMwHandshake (c : Calls) (d : PerDaemonData) : Sock (Option (List UInt8)) := do
  Daemon.ofExcept (beGatherBuffer c d)
  let hngatherbuf ← Daemon.gather lmonDaemonHnMax d.myHostname
  let udata ← mwMasterBlock d hngatherbuf
  Daemon.barrier
  return udata

/-! ## Colocation spawner -/

/-- A daemon that assists the spawner.  Its error is the string of `set_err_str`. -/
abbrev Assist (α : Type) := Daemon SockOp SockOp.Ans String α

/-- `get_next_cstr`, as long as the string is there. -/
def getNextCstr (s : List UInt8) : Option (List UInt8) :=
  if s.headD 0 = 0 then none else some ((s.dropWhile (· ≠ 0)).drop 1)

/-- The loop of `parse_mw_assist_lmonpl`, over at most `fuel` strings. -/
def mwAssistArgs : ℕ → List UInt8 → List (List UInt8)
  | 0, _ => []
  | fuel + 1, trav =>
    match getNextCstr trav with
    | none => []
    | some trav => trav.takeWhile (· ≠ 0) :: mwAssistArgs fuel trav

/-- `parse_mw_assist_lmonpl`: the path of the daemon and its arguments. -/
def parseMwAssistLmonpl (pl : List UInt8) : List UInt8 × List (List UInt8) :=
  (pl.takeWhile (· ≠ 0), mwAssistArgs pl.length pl)

/-- `do_bemaster`, up to the first broadcast: the length and the bytes of the payload. -/
def bemasterRequest : Assist (UInt32 × List UInt8) := do
  let (_, msg) ← readLmonpMsgheader
  if msg.msgclass.toNat ≠ MsgClass.fetobe.ctorIdx ∨ isFetobe msg .febeAssistMwColoc = false ∨
      msg.lmonPayloadLength = 0 then
    .fail "msg mismatch: expecting lmonp_febe_assist_mw_coloc"
  else do
    let payload ← readLmonpPayloads msg.lmonPayloadLength
    if bytesread payload ≠ msg.lmonPayloadLength + msg.usrPayloadLength then
      .fail "Bytes read don't equal the size specified in the received msg"
    else return (msg.lmonPayloadLength, payload.getD [])

/-- `do_beslave`, between the two broadcasts.  A broadcast into a buffer that could not be allocated
    fails at the daemon's own socket. -/
def beslaveBuffer (c : Calls) (leng : UInt32) : Except String Unit :=
  if c.malloc leng.toNat = false then .error "broadcast failed:  mw assist lmon payload" else .ok ()

/-- `do_bemaster`: path and arguments of the daemon that it has started. -/
def doBemaster : Assist (List UInt8 × List (List UInt8)) := do
  let (leng, lmonpl) ← bemasterRequest
  let _ ← Daemon.broadcast 4 (le32 leng)
  let lmonpl ← Daemon.broadcast leng.toNat lmonpl
  return parseMwAssistLmonpl lmonpl

/-- `do_beslave`. -/
def doBeslave (c : Calls) : Assist (List UInt8 × List (List UInt8)) := do
  let bs ← Daemon.broadcast 4 []
  let leng := (readLe32 bs).getD 0
  Daemon.ofExcept (beslaveBuffer c leng)
  let lmonpl ← Daemon.broadcast leng.toNat []
  return parseMwAssistLmonpl lmonpl

/-- `spawner_coloc_t::spawn` at a back-end daemon. -/
def spawn (c : Calls) (d : PerDaemonData) : Assist (List UInt8 × List (List UInt8)) :=
  if d.isMaster then doBemaster else doBeslave c

end LaunchMON.Backend
