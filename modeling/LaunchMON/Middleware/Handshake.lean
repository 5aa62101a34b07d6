/-
  The middleware master's side of its handshake with the front end: the end of `LMON_mw_init` and
  `LMON_mw_ready`, which stand around `LMON_mw_handshake` (`Backend.lmonMwHandshake`).

  The three functions are copies of those of the back end with another class and other types.  For the
  host names the copy is exact: the message is the one of a back-end master with the two fields
  replaced (`hostnameMsg_fetomw`), so what has been proved of that one holds of this one.
-/
import LaunchMON.Backend.Names

namespace LaunchMON.Middleware

open CBytes Fleet Lmonp Backend

/-! ## The two functions -/

/-- A header of a security message. -/
def secHeader (w : UInt32) : Header :=
  setMsgHeader .fetomw FeToMwMsg.femwSecurityChk.ctorIdx 0 w 0 0 0 0 0

/-- `LMON_mw_init`: the loop that sends the encrypted session id, a word in each message. -/
def sendSessID : List UInt32 → Sock Unit
  | [] => return ()
  | tmpSK :: sidTraverse => do
    let sent ← writeLmonpLongMsg ⟨secHeader tmpSK, []⟩ (UInt32.ofNat sizeofLmonp)
    if sent = false then .fail .esys else sendSessID sidTraverse

/-- `LMON_mw_init`, from the encrypted session id on. -/
def lmonMwInit (d : PerDaemonData) (sessID : List UInt32) : Sock Unit := do
  if d.isMaster then sendSessID sessID
  Daemon.barrier

/-- `LMON_mw_ready`.  `usrdata` is what `pack` makes of the user data, if there are user data and a
    callback; without them the buffer of the message is not cleared, and `stale` is what it has for the
    count that nobody reads. -/
def lmonMwReady (d : PerDaemonData) (usrdata : Option (List UInt8)) (stale : UInt32) : Sock Unit := do
  if d.isMaster then
    let uplLeng := UInt32.ofNat (usrdata.getD []).length
    let readymsg := setMsgHeader .fetomw FeToMwMsg.mwfeReady.ctorIdx 0 0 0 0
      (if usrdata.isSome then 0 else stale) 0 uplLeng
    let _ ← writeLmonpLongMsg ⟨readymsg, usrdata.getD []⟩ (UInt32.ofNat sizeofLmonp + uplLeng)
  Daemon.barrier

/-! ## The host names -/

/-- A message of host names of a back-end master, as one of a middleware master. -/
def toMw (h : Header) : Header :=
  { h with
    msgclass := BitVec.ofNat 3 MsgClass.fetomw.ctorIdx
    type := BitVec.ofNat 13 FeToMwMsg.mwfeHostname.ctorIdx }

/-- The string table is behind the indices. -/
theorem getStrtabBegin_toMw (h : Header) :
    getStrtabBegin (toMw h) = (getLmonpayloadBegin h).map fun ret => ret + ntasks h * 4 := rfl

theorem getStrtabBegin_befe {h : Header} (hclass : h.msgclass.toNat = MsgClass.fetobe.ctorIdx)
    (htype : h.type.toNat = FeToBeMsg.befeHostname.ctorIdx) :
    getStrtabBegin h = getStrtabBegin (toMw h) := by
  rw [getStrtabBegin_toMw]
  unfold getStrtabBegin
  rw [if_neg (by rw [hclass]; decide), if_pos hclass, if_neg (by rw [htype]; decide), if_pos htype]

theorem hostnameHeader_fetomw (width offset : UInt32) :
    hostnameHeader .fetomw FeToMwMsg.mwfeHostname.ctorIdx width offset =
      toMw (hostnameHeader .fetobe FeToBeMsg.befeHostname.ctorIdx width offset) := by
  unfold hostnameHeader
  split <;> rfl

theorem hostnameHeader_befe (width offset : UInt32) :
    let h := hostnameHeader .fetobe FeToBeMsg.befeHostname.ctorIdx width offset
    h.msgclass.toNat = MsgClass.fetobe.ctorIdx ∧ h.type.toNat = FeToBeMsg.befeHostname.ctorIdx := by
  unfold hostnameHeader
  split <;> exact ⟨rfl, rfl⟩

/-- **The message of the middleware is the one of the back end**, up to class and type. -/
theorem hostnameMsg_fetomw (width : UInt32) (hngatherbuf : List UInt8) :
    hostnameMsg .fetomw FeToMwMsg.mwfeHostname.ctorIdx width hngatherbuf =
      (hostnameMsg .fetobe FeToBeMsg.befeHostname.ctorIdx width hngatherbuf).map
        fun r => (⟨toMw r.1.hdr, r.1.payload⟩, r.2) := by
  unfold hostnameMsg
  dsimp only
  obtain ⟨hclass, htype⟩ := hostnameHeader_befe width
    (hostTab (gatheredNames width.toNat hngatherbuf)).offset
  rw [hostnameHeader_fetomw, ← getStrtabBegin_befe hclass htype]
  generalize hostnameHeader .fetobe FeToBeMsg.befeHostname.ctorIdx width
    (hostTab (gatheredNames width.toNat hngatherbuf)).offset = h
  show (if getLmonpayloadBegin h = none ∨ getStrtabBegin h = none then none else _) = _
  split <;> rfl

/-- The names are found in the message for the middleware where they are in the one from it. -/
theorem hostnameAt_toMw {m : Msg} {names : List CString} (hm : Hostnames m names) (i : ℕ) :
    hostnameAt ⟨toMw m.hdr, m.payload⟩ i = hostnameAt m i := by
  unfold hostnameAt
  rw [getStrtabBegin_befe hm.class_eq hm.type_eq]
  rfl

end LaunchMON.Middleware
