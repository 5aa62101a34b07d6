/-
  LMONP messages: `lmon_api/lmon_lmonp_msg.h` and `lmon_api/lmon_lmonp_msg.cxx`.

  A message is a fixed header followed by the LMON payload and the user payload.  The header is kept
  as a record whose fields have the widths of the C bit-fields; a union of the C struct is one field
  here, under the name of its member that the process-table code uses.  Pointers into a message are
  offsets into its payload, `none` for NULL.
-/
import LaunchMON.Lib.Bytes

namespace LaunchMON.Lmonp

/-! ## Constants and enumerations -/

/-- `LMON_NTASKS_THRE`: from here on a task count moves to `long_num_tasks`. -/
def lmonNtasksThre : Nat := 32769

/-- `sizeof(lmonp_t)`. -/
def sizeofLmonp : Nat := 28

/-- `lmonp_msg_class_e`. -/
inductive MsgClass
  | fetofe
  | fetobe
  | fetomw
  deriving DecidableEq, Repr

/-- `lmonp_fe_to_fe_msg_e`. -/
inductive FeToFeMsg
  | connAckNoError
  | connAckParseError
  | stopAtLaunchBpSpawned
  | rminfo
  | stopAtLaunchBpAbort
  | proctableAvail
  | resourcehandleAvail
  | stopAtFirstExec
  | stopAtFirstAttach
  | stopAtLoaderBp
  | stopAtThreadCreation
  | stopAtThreadDeath
  | stopAtForkBp
  | stopNotInterested
  | terminated
  | exited
  | detachDone
  | killDone
  | stopTracing
  | bedmonExited
  | mwdmonExited
  | detach
  | kill
  | shutdownbe
  | contLaunchBp
  | invalid
  deriving DecidableEq, Repr

/-- `lmonp_fe_to_be_msg_e`. -/
inductive FeToBeMsg
  | febeSecurityChk
  | febeProctab
  | febeUsrdata
  | febeLaunch
  | febeLaunchDontstop
  | febeAttach
  | febeAttachStop
  | febeAssistMwColoc
  | febeRmType
  | befeHostname
  | befeUsrdata
  | befeContLaunchBp
  | befeReady
  deriving DecidableEq, Repr

/-- `lmonp_fe_to_mw_msg_e`. -/
inductive FeToMwMsg
  | femwSecurityChk
  | femwProctab
  | femwUsrdata
  | mwfeHostname
  | mwfeUsrdata
  | mwfeReady
  deriving DecidableEq, Repr

/-- `lmon_rc_e`. -/
inductive LmonRc
  | ok
  | einval
  | ebdarg
  | elnchr
  | einit
  | esys
  | esubcom
  | esubsync
  | etout
  | enomem
  | encllb
  | ecllb
  | enegcb
  | enopld
  | ebdmsg
  | edunav
  | etrunc
  | ebug
  | notimpl
  | yes
  | no
  deriving DecidableEq, Repr

/-! ## Headers and messages -/

/-- `lmonp_t`. -/
structure Header where
  msgclass : BitVec 3
  type : BitVec 13
  numTasks : UInt16
  numExecName : UInt16
  numHostName : UInt16
  longNumTasks : UInt32
  lmonPayloadLength : UInt32
  usrPayloadLength : UInt32
  deriving DecidableEq, Repr

/-- A header with the bytes behind it. -/
structure Msg where
  hdr : Header
  payload : List UInt8
  deriving DecidableEq, Repr

/-- `set_msg_header`.  A security key takes the place of the two name counts. -/
def setMsgHeader (mc : MsgClass) (type : Nat) (seckeyOrNumtasks : UInt16) (securityKey2 : UInt32)
    (numExecName numHostName : UInt16) (lntask lmonlen usrlen : UInt32) : Header :=
  { msgclass := BitVec.ofNat 3 mc.ctorIdx
    type := BitVec.ofNat 13 type
    numTasks := seckeyOrNumtasks
    numExecName := if securityKey2 ≠ 0 then securityKey2.toUInt16 else numExecName
    numHostName := if securityKey2 ≠ 0 then (securityKey2 >>> 16).toUInt16 else numHostName
    longNumTasks := lntask
    lmonPayloadLength := lmonlen
    usrPayloadLength := usrlen }

/-- `get_lmonpayload_begin`. -/
def getLmonpayloadBegin (h : Header) : Option Nat :=
  if h.lmonPayloadLength = 0 then none else some 0

/-- The task count of a header, wherever it is kept. -/
def ntasks (h : Header) : Nat :=
  if h.numTasks.toNat < lmonNtasksThre then h.numTasks.toNat else h.longNumTasks.toNat

/-- `get_strtab_begin`: the string table follows the process descriptors of a process table, and the
    string indices of a table of host names. -/
def getStrtabBegin (h : Header) : Option Nat :=
  if h.msgclass.toNat = MsgClass.fetofe.ctorIdx then
    if h.type.toNat = FeToFeMsg.proctableAvail.ctorIdx then
      (getLmonpayloadBegin h).map fun ret => ret + ntasks h * 4 * 5
    else none
  else if h.msgclass.toNat = MsgClass.fetobe.ctorIdx then
    if h.type.toNat = FeToBeMsg.febeProctab.ctorIdx then
      (getLmonpayloadBegin h).map fun ret => ret + ntasks h * 4 * 5
    else if h.type.toNat = FeToBeMsg.befeHostname.ctorIdx then
      (getLmonpayloadBegin h).map fun ret => ret + ntasks h * 4
    else none
  else if h.msgclass.toNat = MsgClass.fetomw.ctorIdx then
    if h.type.toNat = FeToMwMsg.mwfeHostname.ctorIdx then
      (getLmonpayloadBegin h).map fun ret => ret + ntasks h * 4
    else none
  else none

end LaunchMON.Lmonp
