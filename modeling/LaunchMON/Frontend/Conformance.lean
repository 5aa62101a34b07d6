/-
  The handshake of the front end and the back-end master, on the two ends of one stream.

  A `Scene` is a job for which the handshake can succeed: what both ends have, together with what it
  takes that no call fails.  Sizes go over the wire as `int`, so the host names and the process table
  have to fit; and the process table has a row, since the back end takes a message without one for a
  mistake (`emptyTable_refused`).

  The two programs are followed from message to message (`talk_header_true` and its like): the four
  words of the session id, the host names, the process table, the trace mode, the resource manager, the
  user data, the word that the resource manager may go on, and the user data of the back end.  By
  `FifoNet.endsIn_of_run` that one run settles all of them.
-/
import LaunchMON.Backend.Names
import LaunchMON.Frontend.Handshake

namespace LaunchMON.Frontend

open CBytes Fleet FifoNet Descent Relation Lmonp Backend

/-! ## The table of a daemon -/

/-- A message as it lies in memory. -/
def msgOfBytes (bs : List UInt8) : Msg := ⟨Header.ofBytes bs, bs.drop sizeofLmonp⟩

/-- `proctab_cache`, filled by `parse_raw_RPDTAB_msg`. -/
def proctabCache (proctabMsg : List UInt8) : Option Proctable :=
  match parseRawRPDTABmsg (some (msgOfBytes proctabMsg)) ∅ with
  | some (0, cache) => some cache
  | _ => none

/-- The entries of the first alias of a daemon that the table knows. -/
def myEntries (hostAliases : List CString) (cache : Proctable) : List ProcdescExt :=
  (hostAliases.findSome? fun a => cache[a]?).getD []

/-- `LMON_be_getMyProctabSize`. -/
def lmonBeGetMyProctabSize (hostAliases : List CString) (proctabMsg : List UInt8) : LmonRc × UInt32 :=
  match proctabCache proctabMsg with
  | none => (.einval, 0)
  | some cache => (.ok, UInt32.ofNat (myEntries hostAliases cache).length)

/-- `LMON_be_getMyProctab`. -/
def lmonBeGetMyProctab (hostAliases : List CString) (proctabMsg : List UInt8) (proctabNumElem : UInt32) :
    LmonRc :=
  match proctabCache proctabMsg with
  | none => .einval
  | some cache =>
    if proctabNumElem < UInt32.ofNat (myEntries hostAliases cache).length then .etrunc else .ok

/-! ## A scene -/

/-- A job whose handshake meets no error. -/
structure Scene where
  /-- The daemons but the master. -/
  n : ℕ
  host : Fin (n + 1) → HostSlot
  gatherFits : lmonDaemonHnMax * (n + 1) < 2 ^ 31
  hostsFit : hostnameMsgSize (List.ofFn fun i => (host i).name) < 2 ^ 31
  /-- The process table, and what the engine has made of it. -/
  tab : Proctable
  tabOk : ProctableOk tab
  tabFits : proctabMsgSize tab < 2 ^ 31
  pcount : Int32
  pcount_eq : pcount.toInt = (rows tab).length
  shipment : Shipment
  shipped : shipProctabMsg true tab pcount .proctableAvail = some shipment
  /-- Launch or attach, and LMON_DONT_STOP_APP. -/
  isLaunch : Bool
  dontstop : Option Int
  rmEntry : UInt16
  /-- The user data of the front end, and what its `pack` returns. -/
  febe : Option (List UInt8)
  febeFits : ∀ u ∈ febe, u.length ≤ lmonMaxUsrpayload
  packed : Int32
  packed_ok : ¬ packed < 0
  /-- The user data of the back end, and the `unpack` of the front end. -/
  befe : Option (List UInt8)
  befeFits : ∀ u ∈ befe, u.length ≤ lmonMaxUsrpayload
  unpack : List UInt8 → Int32
  unpack_ok : ∀ u, ¬ unpack u < 0
  stale : UInt32
  /-- The session id, as the master sends it and as the front end deciphers it. -/
  sessID : List UInt32
  sessID_length : sessID.length = 4
  randomID : UInt32
  decrypt : List UInt8 → Option (List UInt8)
  decrypted : ∃ id, decrypt (sessID.flatMap le32) = some id ∧ readLe32 id = some randomID
  /-- `malloc`, for what is not a negative number. -/
  malloc : ℕ → Bool
  malloc_ok : ∀ k < 2 ^ 63, malloc k = true
  hostAliases : List CString

namespace Scene

variable (sc : Scene)

/-- The session descriptor of the front end. -/
def session : FeSession where
  registered := true
  decrypt := sc.decrypt
  randomID := sc.randomID
  proctabMsg := some sc.shipment.msg
  rmEntry := sc.rmEntry
  malloc := sc.malloc

def febeData : FebeData :=
  match sc.febe with
  | none => .null
  | some u => .packed sc.packed u

/-- The calls of the master, with a process control that always succeeds. -/
def calls : Calls where
  malloc := sc.malloc
  getMyProctabSize := lmonBeGetMyProctabSize sc.hostAliases
  getMyProctab := lmonBeGetMyProctab sc.hostAliases
  procctlInit _ _ _ _ := .ok
  procctlInitdone _ _ _ := .ok
  procctlRun _ _ := .ok

def master : PerDaemonData := ⟨0, UInt32.ofNat (sc.n + 1), (sc.host 0).bytes⟩

/-- What the collectives give to the master. -/
def collective (c : Collective) (mine : List UInt8) : List UInt8 :=
  delivered c (Function.update (fun i => (sc.host i).bytes) 0 mine) 0

/-- The front end. -/
def fe : Sock (FeHandshake ⊕ PerBeData) := do
  let r ← lmonFeBeHandshakeSequence sc.session sc.isLaunch sc.dontstop sc.febeData (.unpack sc.unpack)
  return .inl r

/-- The back-end master. -/
def be : Sock (FeHandshake ⊕ PerBeData) := do
  lmonBeInit sc.master sc.sessID
  let b ← lmonBeHandshake sc.calls sc.master
  lmonBeReady sc.master sc.befe sc.stale
  return .inr b

end Scene

/-! ## What has been read -/

/-- Each payload that a header announces is read before the next header. -/
def Framed : List Heard → Prop
  | [] => True
  | .header h :: .payload length :: hs =>
    length = h.lmonPayloadLength.toNat + h.usrPayloadLength.toNat ∧ Framed hs
  | .header h :: hs => h.lmonPayloadLength.toNat + h.usrPayloadLength.toNat = 0 ∧ Framed hs
  | .payload _ :: _ => False

/-- Class and type of the headers. -/
def kinds (hs : List Heard) : List (ℕ × ℕ) :=
  hs.filterMap fun
    | .header h => some (h.msgclass.toNat, h.type.toNat)
    | .payload _ => none

/-- Messages of the class of the front end and the back end. -/
def fetobe (ts : List FeToBeMsg) : List (ℕ × ℕ) := ts.map fun t => (MsgClass.fetobe.ctorIdx, t.ctorIdx)

/-- The trace mode that the front end has been asked for. -/
def askedMode (isLaunch : Bool) (dontstop : Option Int) : UInt32 :=
  if isLaunch then if dontstop = some 1 then trmLaunchDontstop else trmLaunch
  else if dontstop = some 0 then trmAttachStop else trmAttach

/-! ## Message by message -/

section

variable {cap : Bool × Bool → ℕ∞} {coll : Collective → List UInt8 → List UInt8} {γ : Type}
  {x y : List Heard}

/-- A header of a security message. -/
def secHeader (w : UInt32) : Header :=
  setMsgHeader .fetobe FeToBeMsg.febeSecurityChk.ctorIdx 0 w 0 0 0 0 0

/-- The two halves of a key are where a word is kept. -/
theorem setMsgHeader_halves (mc : MsgClass) (t : ℕ) (w : UInt32) :
    le16 (setMsgHeader mc t 0 w 0 0 0 0 0).numExecName ++
      le16 (setMsgHeader mc t 0 w 0 0 0 0 0).numHostName = le32 w := by
  have hw := w.toNat_lt
  have hexec : (setMsgHeader mc t 0 w 0 0 0 0 0).numExecName.toNat = w.toNat % 2 ^ 16 := by
    show (if w ≠ 0 then w.toUInt16 else 0).toNat = _
    split
    · exact UInt32.toNat_toUInt16 w
    · next h => rw [not_not.mp h]; rfl
  have hhost : (setMsgHeader mc t 0 w 0 0 0 0 0).numHostName.toNat = w.toNat / 2 ^ 16 := by
    show (if w ≠ 0 then (w >>> 16).toUInt16 else 0).toNat = _
    split
    · rw [UInt32.toNat_toUInt16, UInt32.toNat_shiftRight]
      show (w.toNat >>> 16) % 2 ^ 16 = _
      rw [Nat.shiftRight_eq_div_pow]
      omega
    · next h => rw [not_not.mp h]; rfl
  simp only [le16, le32, hexec, hhost, List.cons_append, List.nil_append, List.cons.injEq, and_true,
    true_and, ← UInt8.toNat_inj, UInt8.toNat_ofNat']
  omega

/-- The word of a security message. -/
theorem secHeader_halves (w : UInt32) :
    le16 (secHeader w).numExecName ++ le16 (secHeader w).numHostName = le32 w :=
  setMsgHeader_halves .fetobe _ w

/-- The session id. -/
theorem security_run (hcap : 1 ≤ cap (false, true)) : ∀ (ws : List UInt32) (x : List Heard)
    (F : List UInt8 → Sock γ) (B : Unit → Sock γ), ReflTransGen (ByteStep cap)
      (talk coll (recvSecurityChk ws.length >>= F) (sendSessID ws >>= B) x y)
      (talk coll (F (ws.flatMap le32)) (B ()) (x ++ ws.map fun w => Heard.header (secHeader w)) y) := by
  intro ws
  induction ws with
  | nil =>
    intro x F B
    rw [List.map_nil, List.append_nil]
    exact ReflTransGen.refl
  | cons w ws ih =>
    intro x F B
    have hbe : (sendSessID (w :: ws) >>= B) =
        .op (.writeLongMsg ((secHeader w).bytes ++ [])) fun sent =>
          (if sent = false then .fail .esys else sendSessID ws) >>= B := by
      rw [sendSessID, bind_assoc]
      exact writeLmonpLongMsg_bind (m := ⟨secHeader w, []⟩) rfl _
    have hfe : (recvSecurityChk (ws.length + 1) >>= F) = .op .readMsgheader fun a =>
        (if isFetobeMsg a.2 .febeSecurityChk = false ∨ a.2.lmonPayloadLength ≠ 0 then .fail .ebdmsg
          else recvSecurityChk ws.length >>= fun rest =>
            pure (le16 a.2.numExecName ++ le16 a.2.numHostName ++ rest)) >>= F := rfl
    rw [hbe, List.length_cons, hfe]
    refine (talk_header_false hcap).trans ?_
    have hih := ih (x ++ [.header (secHeader w)]) (fun rest => F (le32 w ++ rest)) B
    rw [List.append_assoc] at hih
    have hsec : ¬(isFetobeMsg (secHeader w) .febeSecurityChk = false ∨
        (secHeader w).lmonPayloadLength ≠ 0) := not_or.mpr ⟨by rintro ⟨⟩, fun h => h rfl⟩
    rw [if_neg hsec, if_neg (by rintro ⟨⟩), bind_assoc]
    simp only [pure_bind, secHeader_halves]
    exact hih

/-- The host names. -/
theorem hostnames_run (hcap : 1 ≤ cap (false, true)) {s : FeSession} {m : Msg} {names : List CString}
    (hm : Hostnames m names) (hmalloc : s.malloc (sizeT m.hdr.lmonPayloadLength + sizeofLmonp) = true)
    (F : Msg → Sock γ) (B : Bool → Sock γ) : ReflTransGen (ByteStep cap)
      (talk coll (recvHostnames s >>= F) (writeLmonpLongMsg m (msgsize m.hdr) >>= B) x y)
      (talk coll (F m) (B true) (x ++ [.header m.hdr, .payload m.payload.length]) y) := by
  have hlen : m.hdr.lmonPayloadLength + m.hdr.usrPayloadLength = m.hdr.lmonPayloadLength := by
    rw [hm.usr_eq, UInt32.add_zero]
  have htype : ¬isFetobeMsg m.hdr .befeHostname = false := by
    rw [isFetobeMsg, isFetobe, decide_eq_true hm.type_eq, hm.class_eq]
    rintro ⟨⟩
  rw [writeLmonpLongMsg_bind rfl]
  refine talk_message_false hcap (fun o => (match o with
    | none => (.fail .esys : Sock Msg)
    | some tv => pure ⟨m.hdr, tv⟩) >>= F) ?_ hm.length_eq hm.ne_nil
  show ((if isFetobeMsg m.hdr .befeHostname = false then (.fail .ebdmsg : Sock Msg)
    else if s.malloc (sizeT (m.hdr.lmonPayloadLength + m.hdr.usrPayloadLength) + sizeofLmonp) = false then
      .fail .enomem
    else readLmonpPayloads (m.hdr.lmonPayloadLength + m.hdr.usrPayloadLength) >>= fun o => match o with
      | none => .fail .esys
      | some tv => pure ⟨m.hdr, tv⟩) >>= F) = _
  rw [if_neg htype, hlen, if_neg (by rw [hmalloc]; rintro ⟨⟩), bind_assoc]
  refine congrArg (Daemon.op _) (funext fun o => ?_)
  cases o <;> rfl

/-- The forwarded message goes out. -/
theorem sendProctab_bind (m : Msg) (F : Unit → Sock γ) : (sendProctab m >>= F) =
    .op (.writeLongMsg ((forwardToBe m).hdr.bytes ++ m.payload)) fun sent =>
      (if sent = false then (.fail .esys : Sock Unit) else pure ()) >>= F := by
  rw [sendProctab, bind_assoc]
  exact writeLmonpLongMsg_bind (m := forwardToBe m) rfl _

/-- The process table. -/
theorem proctab_run (hcap : 1 ≤ cap (true, false)) {m : Msg}
    (hbegin : getLmonpayloadBegin m.hdr ≠ none) (husr : m.hdr.usrPayloadLength = 0)
    (hlen : m.payload.length = m.hdr.lmonPayloadLength.toNat) (F : Unit → Sock γ)
    (B : Header × List UInt8 → Sock γ) : ReflTransGen (ByteStep cap)
      (talk coll (sendProctab m >>= F) (beRecvProctab >>= B) x y)
      (talk coll (F ()) (B ((forwardToBe m).hdr, m.payload)) x
        (y ++ [.header (forwardToBe m).hdr, .payload m.payload.length])) := by
  have hsum : (forwardToBe m).hdr.lmonPayloadLength + (forwardToBe m).hdr.usrPayloadLength =
      m.hdr.lmonPayloadLength := by
    show m.hdr.lmonPayloadLength + m.hdr.usrPayloadLength = _
    rw [husr, UInt32.add_zero]
  have hread : ¬bytesread (some m.payload) ≠ m.hdr.lmonPayloadLength := by
    rw [bytesread, hlen, UInt32.ofNat_toNat]
    exact not_not_intro rfl
  have hne : m.payload ≠ [] := by
    refine List.ne_nil_of_length_pos (Nat.pos_of_ne_zero fun hz => hbegin (if_pos ?_))
    rw [hlen] at hz
    exact UInt32.toNat_inj.mp hz
  have hbe : B ((forwardToBe m).hdr, m.payload) =
      (if bytesread (some m.payload) ≠ m.hdr.lmonPayloadLength then (.fail .ebdmsg : Sock _)
        else pure ((forwardToBe m).hdr, m.payload)) >>= B := by
    rw [if_neg hread]
    rfl
  rw [sendProctab_bind, hbe]
  refine talk_message_true hcap (fun o => (if bytesread o ≠ m.hdr.lmonPayloadLength then
      (.fail .ebdmsg : Sock _) else pure ((forwardToBe m).hdr, o.getD [])) >>= B) ?_ hlen hne
  show ((if getLmonpayloadBegin m.hdr = none then (.fail .ebdmsg : Sock _)
    else readLmonpPayloads ((forwardToBe m).hdr.lmonPayloadLength +
        (forwardToBe m).hdr.usrPayloadLength) >>= fun o =>
      if bytesread o ≠ (forwardToBe m).hdr.lmonPayloadLength + (forwardToBe m).hdr.usrPayloadLength then
        (.fail .ebdmsg : Sock _)
      else pure ((forwardToBe m).hdr, o.getD [])) >>= B) = _
  rw [if_neg hbegin, hsum, bind_assoc]
  rfl

/-- A message that is only a header. -/
theorem sendHeader_bind (t : FeToBeMsg) (e : UInt16) (F : Unit → Sock γ) :
    (sendHeader t e >>= F) =
      .op (.writeLongMsg ((setMsgHeader .fetobe t.ctorIdx e 0 0 0 0 0 0).bytes ++ [])) fun _ => F () := by
  rw [sendHeader, bind_assoc]
  exact writeLmonpLongMsg_bind (m := ⟨setMsgHeader .fetobe t.ctorIdx e 0 0 0 0 0 0, []⟩) rfl _

/-- The trace mode. -/
theorem mode_run (hcap : 1 ≤ cap (true, false)) (isLaunch : Bool) (dontstop : Option Int)
    (F : Unit → Sock γ) (B : UInt32 → Sock γ) : ReflTransGen (ByteStep cap)
      (talk coll (sendHeader (tracemode isLaunch dontstop) 0 >>= F) (beRecvMode >>= B) x y)
      (talk coll (F ()) (B (askedMode isLaunch dontstop)) x (y ++
        [.header (setMsgHeader .fetobe (tracemode isLaunch dontstop).ctorIdx 0 0 0 0 0 0 0)])) := by
  have hbe : (beRecvMode >>= B) = .op .readMsgheader fun a =>
      (tracingMode a.2).elim (.fail .ebdmsg) B := by
    rw [beRecvMode, bind_assoc]
    refine congrArg (Daemon.op _) (funext fun a => ?_)
    simp only [Daemon.bind]
    cases tracingMode a.2 <;> rfl
  have hmode : tracingMode (setMsgHeader .fetobe (tracemode isLaunch dontstop).ctorIdx 0 0 0 0 0 0 0) =
      some (askedMode isLaunch dontstop) := by
    unfold tracemode askedMode
    split
    · split <;> rfl
    · split <;> rfl
  rw [sendHeader_bind, hbe]
  refine ReflTransGen.trans (talk_header_true hcap) ?_
  dsimp only
  rw [hmode]
  exact ReflTransGen.refl

/-- The resource manager. -/
theorem rm_run (hcap : 1 ≤ cap (true, false)) (e : UInt16) (F : Unit → Sock γ)
    (B : Header → Sock γ) : ReflTransGen (ByteStep cap)
      (talk coll (sendHeader .febeRmType e >>= F) (expectFetobe .febeRmType >>= B) x y)
      (talk coll (F ()) (B (setMsgHeader .fetobe FeToBeMsg.febeRmType.ctorIdx e 0 0 0 0 0 0)) x
        (y ++ [.header (setMsgHeader .fetobe FeToBeMsg.febeRmType.ctorIdx e 0 0 0 0 0 0)])) := by
  rw [sendHeader_bind]
  exact talk_header_true hcap

/-- The resource manager may go on. -/
theorem cont_run (hcap : 1 ≤ cap (false, true)) {d : PerDaemonData} (hd : d.isMaster = true)
    (F : Unit → Sock γ) (B : Unit → Sock γ) : ReflTransGen (ByteStep cap)
      (talk coll (recvContLaunchBp >>= F) (beContLaunchBp d >>= B) x y)
      (talk coll (F ()) (B ())
        (x ++ [.header (setMsgHeader .fetobe FeToBeMsg.befeContLaunchBp.ctorIdx 0 0 0 0 0 0 0)]) y) := by
  have hbe : (beContLaunchBp d >>= B) = .op (.writeLongMsg ((setMsgHeader .fetobe
      FeToBeMsg.befeContLaunchBp.ctorIdx 0 0 0 0 0 0 0).bytes ++ [])) fun sent =>
        (if sent = false then (.fail .esys : Sock Unit) else pure ()) >>= B := by
    rw [beContLaunchBp, if_pos hd, bind_assoc]
    exact writeLmonpLongMsg_bind (m := ⟨setMsgHeader .fetobe FeToBeMsg.befeContLaunchBp.ctorIdx
      0 0 0 0 0 0 0, []⟩) rfl _
  rw [hbe]
  exact talk_header_false hcap

/-- The header over user data; `n` is the count that only a message of another type has. -/
def udataHeader (t : FeToBeMsg) (n : UInt32) (u : List UInt8) : Header :=
  setMsgHeader .fetobe t.ctorIdx 0 0 0 0 n 0 (UInt32.ofNat u.length)

/-- What is read of a message with user data. -/
def udataHeard (h : Header) (u : List UInt8) : List Heard :=
  if u = [] then [.header h] else [.header h, .payload u.length]

/-- The user data as their receiver has them. -/
def udataGiven (u : List UInt8) : Option (List UInt8) := if u = [] then none else some u

theorem udata_pos {u : List UInt8} (hu : u.length ≤ lmonMaxUsrpayload) :
    0 < (UInt32.ofNat u.length).toInt32 ↔ u ≠ [] := by
  have hu : u.length ≤ 4194304 := hu
  have hint : (UInt32.ofNat u.length).toInt32.toInt = u.length := by
    rw [toInt_eq, UInt32.toUInt32_toInt32, UInt32.toNat_ofNat_of_lt' (show _ < 2 ^ 32 by omega),
      if_pos (by omega)]
  rw [Int32.lt_iff_toInt_lt, hint, ← List.length_pos_iff]
  show (0 : ℤ) < u.length ↔ _
  omega

theorem udata_toNat {u : List UInt8} (hu : u.length ≤ lmonMaxUsrpayload) :
    (UInt32.ofNat u.length).toNat = u.length :=
  UInt32.toNat_ofNat_of_lt' (lt_of_le_of_lt hu (by decide))

/-- The user data of the front end. -/
theorem febe_run (hcap : 1 ≤ cap (true, false)) (sc : Scene) (F : LmonRc → Sock γ)
    (B : Option (List UInt8) → Sock γ) : ReflTransGen (ByteStep cap)
      (talk coll (lmonFeHandleFeBeUsrData sc.session sc.febeData >>= F) (beRecvUsrdata >>= B) x y)
      (talk coll (F (if sc.febe = none then .enopld else .ok)) (B (udataGiven (sc.febe.getD []))) x
        (y ++ udataHeard (udataHeader .febeUsrdata 0 (sc.febe.getD [])) (sc.febe.getD []))) := by
  have hlen : (sc.febe.getD []).length ≤ lmonMaxUsrpayload := by
    cases h : sc.febe with
    | none => exact Nat.zero_le _
    | some u => exact sc.febeFits u h
  have hfe : (lmonFeHandleFeBeUsrData sc.session sc.febeData >>= F) =
      .op (.writeLongMsg ((udataHeader .febeUsrdata 0 (sc.febe.getD [])).bytes ++ sc.febe.getD []))
        fun _ => F (if sc.febe = none then .enopld else .ok) := by
    unfold lmonFeHandleFeBeUsrData Scene.febeData
    rw [if_neg (by rintro ⟨⟩)]
    cases h : sc.febe with
    | none =>
      dsimp only
      rw [bind_assoc]
      exact writeLmonpLongMsg_bind (m := emptyUdataMsg) rfl _
    | some u =>
      have hmalloc : sc.session.malloc (sizeofLmonp + lmonMaxUsrpayload) = true :=
        sc.malloc_ok _ (by decide)
      dsimp only
      rw [if_neg (by rw [hmalloc]; rintro ⟨⟩), if_neg sc.packed_ok,
        if_neg (Nat.not_lt.mpr (sc.febeFits u h)), bind_assoc]
      exact writeLmonpLongMsg_bind (m := ⟨udataHeader .febeUsrdata 0 u, u⟩)
        (by rw [msgsize]; exact congrArg (· + _) (UInt32.add_zero _)) _
  rw [hfe]
  generalize sc.febe.getD [] = u at hlen ⊢
  by_cases hu : u = []
  · subst hu
    exact talk_header_true hcap
  · rw [udataGiven, if_neg hu, udataHeard, if_neg hu]
    refine talk_message_true hcap (fun o => B (some (o.getD []))) ?_ (udata_toNat hlen).symm hu
    show ((if 0 < (UInt32.ofNat u.length).toInt32 then
        readLmonpPayloads (UInt32.ofNat u.length) >>= fun o => pure (some (o.getD []))
      else (pure none : Sock (Option (List UInt8)))) >>= B) = _
    rw [if_pos ((udata_pos hlen).mpr hu)]
    rfl

/-- The user data of the back end. -/
theorem befe_run (hcap : 1 ≤ cap (false, true)) (sc : Scene) (F : LmonRc × Option (List UInt8) → Sock γ)
    (B : Unit → Sock γ) : ∃ stale, ReflTransGen (ByteStep cap)
      (talk coll (lmonFeHandleBeFeUsrData sc.session (.unpack sc.unpack) >>= F)
        (lmonBeReady sc.master sc.befe sc.stale >>= B) x y)
      (talk coll (F (if sc.befe.getD [] = [] then .enopld else .ok, udataGiven (sc.befe.getD [])))
        (B ()) (x ++ udataHeard (udataHeader .befeReady stale (sc.befe.getD [])) (sc.befe.getD [])) y) := by
  have hlen : (sc.befe.getD []).length ≤ lmonMaxUsrpayload := by
    cases h : sc.befe with
    | none => exact Nat.zero_le _
    | some u => exact sc.befeFits u h
  refine ⟨if sc.befe.isSome then 0 else sc.stale, ?_⟩
  have hbe : (lmonBeReady sc.master sc.befe sc.stale >>= B) =
      .op (.writeLongMsg ((udataHeader .befeReady (if sc.befe.isSome then 0 else sc.stale)
        (sc.befe.getD [])).bytes ++ sc.befe.getD [])) fun _ => .meet .barrier [] fun _ => B () := by
    unfold lmonBeReady
    dsimp only
    rw [if_pos (show sc.master.isMaster = true from rfl), bind_assoc]
    exact writeLmonpLongMsg_bind (m := ⟨udataHeader .befeReady (if sc.befe.isSome then 0 else sc.stale)
      (sc.befe.getD []), sc.befe.getD []⟩) (by rw [msgsize]; exact congrArg (· + _) (UInt32.add_zero _)) _
  rw [hbe]
  generalize (if sc.befe.isSome then 0 else sc.stale) = stale
  generalize sc.befe.getD [] = u at hlen ⊢
  by_cases hu : u = []
  · subst hu
    exact talk_header_false hcap
  · have hne : (UInt32.ofNat u.length) ≠ 0 := by
      intro hz
      have hz := congrArg UInt32.toNat hz
      rw [udata_toNat hlen] at hz
      exact hu (List.length_eq_zero_iff.mp hz)
    have hmalloc : sc.session.malloc (UInt32.ofNat u.length).toNat = true :=
      sc.malloc_ok _ (lt_trans (UInt32.toNat_lt _) (by decide))
    rw [udataGiven, if_neg hu, udataHeard, if_neg hu, if_neg hu]
    have hunpack : F (.ok, some u) = (if sc.unpack u < 0 then (pure (.enegcb, some u) : Sock _)
        else pure (.ok, some u)) >>= F := by
      rw [if_neg (sc.unpack_ok u)]
      rfl
    rw [hunpack]
    refine talk_message_false hcap (fun o => (if sc.unpack (o.getD []) < 0 then
      (pure (.enegcb, some (o.getD [])) : Sock _) else pure (.ok, some (o.getD []))) >>= F) ?_
        (udata_toNat hlen).symm hu
    show ((if UInt32.ofNat u.length = 0 then (pure (.enopld, none) : Sock _)
      else if sc.session.malloc (UInt32.ofNat u.length).toNat = false then pure (.enomem, none)
      else readLmonpPayloads (UInt32.ofNat u.length) >>= fun o =>
        if sc.unpack (o.getD []) < 0 then (pure (.enegcb, some (o.getD [])) : Sock _)
        else pure (.ok, some (o.getD []))) >>= F) = _
    rw [if_neg hne, if_neg (by rw [hmalloc]; rintro ⟨⟩), bind_assoc]
    rfl

end

/-! ## What stays at the master -/

theorem msgOfBytes_bytes (m : Msg) : msgOfBytes (m.hdr.bytes ++ m.payload) = m := by
  obtain ⟨h, pl⟩ := m
  show (⟨Header.ofBytes (h.bytes ++ pl), (h.bytes ++ pl).drop sizeofLmonp⟩ : Msg) = _
  rw [Header.ofBytes_append, List.drop_left' h.length_bytes]

/-- A daemon has some of the rows. -/
theorem length_myEntries {tab : Proctable} (hok : ProctableOk tab) (hostAliases : List CString) :
    (myEntries hostAliases tab).length ≤ (rows tab).length := by
  unfold myEntries
  cases h : hostAliases.findSome? fun a => tab[a]? with
  | none => exact Nat.zero_le _
  | some es =>
    obtain ⟨a, -, ha⟩ := List.exists_of_findSome?_eq_some h
    have hes := filter_rows hok a
    rw [ha, Option.getD_some] at hes
    rw [Option.getD_some, ← hes]
    exact List.length_filter_le _ _

/-- The names of all daemons are gathered at the master. -/
theorem delivered_gather {n : ℕ} (host : Fin (n + 1) → HostSlot) (k : ℕ) :
    delivered (.gather k) (Function.update (fun i => (host i).bytes) 0 (host 0).bytes) 0 =
      ((List.ofFn host).map HostSlot.bytes).flatten := by
  have hself : Function.update (fun i => (host i).bytes) 0 (host 0).bytes =
      fun i => (host i).bytes := Function.update_eq_self 0 fun i => (host i).bytes
  rw [hself, List.map_ofFn]
  rfl

/-- With enough memory a master has a buffer for the names. -/
theorem masterBuffer_ok {c : Calls} (hmalloc : ∀ k < 2 ^ 63, c.malloc k = true) {n : ℕ}
    (hfit : lmonDaemonHnMax * (n + 1) < 2 ^ 31) {d : PerDaemonData}
    (hwidth : d.width = UInt32.ofNat (n + 1)) : beGatherBuffer c d = .ok () := by
  have hmul : (UInt32.ofNat lmonDaemonHnMax * d.width).toNat = lmonDaemonHnMax * (n + 1) := by
    rw [hwidth, ← UInt32.ofNat_mul, UInt32.toNat_ofNat_of_lt' (lt_of_lt_of_le hfit (by decide))]
  refine beGatherBuffer_eq_ok.mpr fun _ => hmalloc _ ?_
  rw [sizeT, hmul, if_pos hfit]
  omega

/-- What a master makes of the gathered names. -/
theorem exists_hostnameMsg {n : ℕ} (host : Fin (n + 1) → HostSlot)
    (hfit : hostnameMsgSize (List.ofFn fun i => (host i).name) < 2 ^ 31) :
    ∃ m, hostnameMsg .fetobe FeToBeMsg.befeHostname.ctorIdx (UInt32.ofNat (n + 1))
        ((List.ofFn host).map HostSlot.bytes).flatten = some (m, msgsize m.hdr) ∧
      Hostnames m (List.ofFn fun i => (host i).name) ∧
      m.hdr.lmonPayloadLength.toNat < 2 ^ 31 := by
  have hnames : (List.ofFn host).map HostSlot.name = List.ofFn fun i => (host i).name := List.map_ofFn
  have hlen : (List.ofFn host).length = n + 1 := List.length_ofFn
  have hne : List.ofFn host ≠ [] := List.ne_nil_of_length_pos (by rw [hlen]; exact Nat.succ_pos n)
  obtain ⟨m, hm, hsize, hnm⟩ := hostnameMsg_spec hne (by rw [hnames]; exact hfit)
  rw [hnames] at hsize hnm
  rw [hlen] at hm
  refine ⟨m, hm, hnm, ?_⟩
  rw [← hsize, hnm.length_eq] at hfit
  omega

namespace Scene

variable (sc : Scene) {cap : Bool × Bool → ℕ∞} {γ : Type} {P : Sock γ} {x y : List Heard}

theorem collective_broadcast (k : ℕ) (mine : List UInt8) : sc.collective (.broadcast k) mine = mine := by
  show Function.update (fun i => (sc.host i).bytes) 0 mine 0 = mine
  exact Function.update_self _ _ _

/-- The names of all daemons are gathered. -/
theorem collective_gather (k : ℕ) : sc.collective (.gather k) (sc.host 0).bytes =
    ((List.ofFn sc.host).map HostSlot.bytes).flatten := delivered_gather sc.host k

theorem talk_broadcastInt (v : UInt32) (K : UInt32 → Sock γ) :
    talk sc.collective P (broadcastInt v >>= K) x y = talk sc.collective P (K v) x y := by
  show talk _ P (K ((readLe32 (sc.collective (.broadcast 4) (le32 v))).getD 0)) x y = _
  rw [collective_broadcast, readLe32_le32]
  rfl

theorem talk_broadcast (k : ℕ) (bs : List UInt8) (K : List UInt8 → Sock γ) :
    talk sc.collective P (Daemon.broadcast k bs >>= K) x y = talk sc.collective P (K bs) x y := by
  show talk _ P (K (sc.collective (.broadcast k) bs)) x y = _
  rw [collective_broadcast]

/-- The forwarded message of the engine. -/
def proctabMsg : Msg := forwardToBe sc.shipment.msg

theorem carries (hrow : 1 ≤ (rows sc.tab).length) : Carries sc.proctabMsg sc.tab := by
  obtain ⟨s, hs, -, hcarries⟩ := shipProctabMsg_carries sc.pcount_eq hrow sc.tabFits
  obtain rfl : s = sc.shipment := Option.some.inj (hs.symm.trans sc.shipped)
  exact hcarries

/-- The header says how long the process table is. -/
theorem proctab_length (hrow : 1 ≤ (rows sc.tab).length) : sc.shipment.msg.payload.length =
      sc.shipment.msg.hdr.lmonPayloadLength.toNat ∧ sc.shipment.msg.hdr.usrPayloadLength = 0 := by
  obtain ⟨s, hs, -, -, -, -, hlen, hpayload⟩ :=
    shipProctabMsg_spec sc.pcount_eq hrow sc.tabFits .proctableAvail
  obtain rfl : s = sc.shipment := Option.some.inj (hs.symm.trans sc.shipped)
  refine ⟨?_, ?_⟩
  · rw [hpayload, hlen, List.length_append, length_flatMap_serialize]
    rfl
  · injection sc.shipped with hship
    rw [← hship]
    dsimp only
    split <;> rfl

/-- The bytes of the process table at the daemons. -/
theorem proctabCache_eq (hrow : 1 ≤ (rows sc.tab).length) :
    proctabCache (sc.proctabMsg.hdr.bytes ++ sc.proctabMsg.payload) = some sc.tab := by
  rw [proctabCache, msgOfBytes_bytes, (sc.carries hrow).parse sc.tabOk sc.tabFits]
  rfl

/-- `bedata` of the master after the handshake. -/
def bedata : PerBeData where
  isLaunch := askedMode sc.isLaunch sc.dontstop
  rmtypeInstance := sc.rmEntry.toUInt32
  proctabMsgSize := msgsize sc.proctabMsg.hdr
  proctabMsg := sc.proctabMsg.hdr.bytes ++ sc.proctabMsg.payload
  udata := udataGiven (sc.febe.getD [])

/-- The master finds its part of the table. -/
theorem beSync_eq (hrow : 1 ≤ (rows sc.tab).length) : beSync sc.calls sc.bedata =
    .ok (UInt32.ofNat (myEntries sc.hostAliases sc.tab).length) := by
  have hsize : sc.calls.getMyProctabSize sc.bedata.proctabMsg =
      (.ok, UInt32.ofNat (myEntries sc.hostAliases sc.tab).length) := by
    show lmonBeGetMyProctabSize _ _ = _
    rw [lmonBeGetMyProctabSize, show proctabCache sc.bedata.proctabMsg = some sc.tab from
      sc.proctabCache_eq hrow]
  have hget : sc.calls.getMyProctab sc.bedata.proctabMsg
      (UInt32.ofNat (myEntries sc.hostAliases sc.tab).length) = .ok := by
    show lmonBeGetMyProctab _ _ _ = _
    rw [lmonBeGetMyProctab, show proctabCache sc.bedata.proctabMsg = some sc.tab from
      sc.proctabCache_eq hrow]
    exact if_neg (UInt32.lt_irrefl _)
  have hlen : (myEntries sc.hostAliases sc.tab).length < 2 ^ 31 := by
    have h1 := length_myEntries sc.tabOk sc.hostAliases
    have h2 := sc.tabFits
    unfold proctabMsgSize at h2
    omega
  have hmalloc : sc.calls.malloc
      (sizeT (UInt32.ofNat (myEntries sc.hostAliases sc.tab).length) * 32 % 2 ^ 64) = true := by
    refine sc.malloc_ok _ ?_
    rw [sizeT, UInt32.toNat_ofNat_of_lt' (show _ < 2 ^ 32 by omega), if_pos hlen]
    omega
  unfold beSync
  simp only [hsize, hget, hmalloc, ne_eq, not_true_eq_false, Bool.true_eq_false, if_false]
  exact if_neg (not_not_intro rfl)

theorem beInitdone_eq (size : UInt32) : beInitdone sc.calls sc.bedata size = .ok () := by
  have hdone : ¬sc.calls.procctlInitdone sc.bedata.rmtypeInstance (islaunch sc.bedata.isLaunch) size ≠
      .ok := not_not_intro rfl
  have hrun : ¬(dontstopFastpath sc.bedata.isLaunch = true ∧
      sc.calls.procctlRun sc.bedata.rmtypeInstance size ≠ .ok) := fun h => h.2 rfl
  rw [beInitdone, if_neg hdone, if_neg hrun]

end Scene

/-! ## The handshake -/

section

variable {cap : Bool × Bool → ℕ∞} {sc : Scene} {γ : Type} {x y : List Heard}

theorem lmonBeInit_bind (B : Unit → Sock γ) : (lmonBeInit sc.master sc.sessID >>= B) =
    sendSessID sc.sessID >>= fun _ => .meet .barrier [] fun _ => B () := by
  unfold lmonBeInit
  dsimp only
  rw [if_pos (show sc.master.isMaster = true from rfl), bind_assoc]
  rfl

/-- What the master makes of the gathered names. -/
theorem Scene.exists_hostnames (sc : Scene) : ∃ m, hostnameMsg .fetobe FeToBeMsg.befeHostname.ctorIdx sc.master.width
      (sc.collective (.gather lmonDaemonHnMax) (sc.host 0).bytes) = some (m, msgsize m.hdr) ∧
    Hostnames m (List.ofFn fun i => (sc.host i).name) ∧
    sc.session.malloc (sizeT m.hdr.lmonPayloadLength + sizeofLmonp) = true := by
  obtain ⟨m, hm, hnm, hlen⟩ := exists_hostnameMsg sc.host sc.hostsFit
  refine ⟨m, ?_, hnm, sc.malloc_ok _ ?_⟩
  · rw [sc.collective_gather]
    exact hm
  · rw [sizeT, if_pos hlen]
    show m.hdr.lmonPayloadLength.toNat + 28 < 2 ^ 63
    omega

/-- The master has a buffer for the names. -/
theorem beGatherBuffer_eq : beGatherBuffer sc.calls sc.master = .ok () :=
  masterBuffer_ok sc.malloc_ok sc.gatherFits rfl

/-- The collectives of the tail give the master what it has put in. -/
theorem talk_beTail (hrow : 1 ≤ (rows sc.tab).length) (P : Sock γ) (B : PerBeData → Sock γ) :
    talk sc.collective P (beTail sc.calls sc.master sc.bedata >>= B) x y =
      talk sc.collective P (beContLaunchBp sc.master >>= fun _ =>
        Daemon.ofExcept (beInitdone sc.calls sc.bedata
          (UInt32.ofNat (myEntries sc.hostAliases sc.tab).length)) >>= fun _ =>
            Daemon.barrier >>= fun _ => B sc.bedata) x y := by
  have hbuf : ∀ size, beProctabBuffer sc.calls sc.master size = .ok () := fun size =>
    if_neg fun h => absurd h.1 (by rintro ⟨⟩)
  simp only [beTail, bind_assoc, Scene.talk_broadcastInt]
  rw [hbuf, Daemon.ofExcept_ok_bind, Scene.talk_broadcast]
  show talk _ _ (Daemon.ofExcept (beSync sc.calls sc.bedata) >>= fun proctabSize => _) _ _ = _
  rw [sc.beSync_eq hrow, Daemon.ofExcept_ok_bind]
  rfl

/-- What the front end reads. -/
def feHeard (sc : Scene) (m : Msg) (stale : UInt32) : List Heard :=
  sc.sessID.map (fun w => .header (secHeader w)) ++ [.header m.hdr, .payload m.payload.length] ++
    [.header (setMsgHeader .fetobe FeToBeMsg.befeContLaunchBp.ctorIdx 0 0 0 0 0 0 0)] ++
    udataHeard (udataHeader .befeReady stale (sc.befe.getD [])) (sc.befe.getD [])

/-- What the master reads. -/
def beHeard (sc : Scene) : List Heard :=
  [.header sc.proctabMsg.hdr, .payload sc.proctabMsg.payload.length] ++
    [.header (setMsgHeader .fetobe (tracemode sc.isLaunch sc.dontstop).ctorIdx 0 0 0 0 0 0 0)] ++
    [.header (setMsgHeader .fetobe FeToBeMsg.febeRmType.ctorIdx sc.rmEntry 0 0 0 0 0 0)] ++
    udataHeard (udataHeader .febeUsrdata 0 (sc.febe.getD [])) (sc.febe.getD [])

/-- What the front end does behind the host names. -/
def feRest (sc : Scene) (m : Msg) : Sock FeHandshake := do
  sendProctab sc.shipment.msg
  sendHeader (tracemode sc.isLaunch sc.dontstop) 0
  sendHeader .febeRmType sc.rmEntry
  let lrc ← lmonFeHandleFeBeUsrData sc.session sc.febeData
  if lrc ≠ .ok ∧ lrc ≠ .enopld then .fail lrc
  else do
    recvContLaunchBp
    let r ← lmonFeHandleBeFeUsrData sc.session (.unpack sc.unpack)
    if r.1 ≠ .ok ∧ r.1 ≠ .enopld then .fail r.1 else return ⟨m, r.2⟩

/-- What the master does behind them. -/
def beRest (sc : Scene) : Sock PerBeData := do
  let r ← beRecvProctab
  let isLaunch ← beRecvMode
  let rm ← expectFetobe .febeRmType
  let udata ← beRecvUsrdata
  beTail sc.calls sc.master ⟨isLaunch, rm.numTasks.toUInt32, msgsize r.1, r.1.bytes ++ r.2, udata⟩

/-- From the first message to the host names. -/
theorem opening_run (hbf : 1 ≤ cap (false, true)) (F : FeHandshake → Sock γ) (B : PerBeData → Sock γ) :
    ∃ m, Hostnames m (List.ofFn fun i => (sc.host i).name) ∧
      ReflTransGen (ByteStep cap)
        (talk sc.collective (lmonFeBeHandshakeSequence sc.session sc.isLaunch sc.dontstop sc.febeData
            (.unpack sc.unpack) >>= F)
          (lmonBeInit sc.master sc.sessID >>= fun _ => lmonBeHandshake sc.calls sc.master >>= B) [] [])
        (talk sc.collective (feRest sc m >>= F) (beRest sc >>= B)
          (sc.sessID.map (fun w => .header (secHeader w)) ++
            [.header m.hdr, .payload m.payload.length]) []) := by
  obtain ⟨m, hm, hnm, hmalloc⟩ := sc.exists_hostnames
  obtain ⟨id, hid, hword⟩ := sc.decrypted
  have hsecure : ¬lmonFeIsSecure sc.session (sc.sessID.flatMap le32) = false := by
    show ¬(match sc.decrypt (sc.sessID.flatMap le32) with
      | none => false
      | some id => decide (readLe32 id = some sc.randomID)) = false
    rw [hid]
    simp [hword]
  have hblock : beMasterBlock sc.master (sc.collective (.gather lmonDaemonHnMax) (sc.host 0).bytes) =
      writeLmonpLongMsg m (msgsize m.hdr) >>= fun _ => beRecvProctab >>= fun r =>
        beRecvMode >>= fun isLaunch => expectFetobe .febeRmType >>= fun rm =>
          beRecvUsrdata >>= fun udata =>
            pure ⟨isLaunch, rm.numTasks.toUInt32, msgsize r.1, r.1.bytes ++ r.2, udata⟩ := by
    rw [beMasterBlock, if_pos (show sc.master.isMaster = true from rfl)]
    unfold beMasterOnly
    rw [hm]
  have hproctab : sc.session.proctabMsg = some sc.shipment.msg := rfl
  refine ⟨m, hnm, ?_⟩
  rw [lmonFeBeHandshakeSequence, bind_assoc, lmonBeInit_bind, ← sc.sessID_length]
  refine ReflTransGen.trans (security_run hbf _ _ _ _) ?_
  rw [if_neg hsecure, bind_assoc, lmonBeHandshake_eq, beGatherBuffer_eq, Daemon.ofExcept_ok_bind]
  show ReflTransGen _ (talk _ _ ((beMasterBlock sc.master (sc.collective (.gather lmonDaemonHnMax)
    (sc.host 0).bytes) >>= beTail sc.calls sc.master) >>= _) _ _) _
  rw [hblock]
  simp only [bind_assoc, pure_bind]
  refine ReflTransGen.trans (hostnames_run hbf hnm hmalloc _ _) ?_
  simp only [hproctab, feRest, beRest, bind_assoc]
  exact ReflTransGen.refl

/-- From there to the last message. -/
theorem rest_run (hfb : 1 ≤ cap (true, false)) (hbf : 1 ≤ cap (false, true))
    (hrow : 1 ≤ (rows sc.tab).length) (m : Msg) (F : FeHandshake → Sock γ) (B : PerBeData → Sock γ) :
    ∃ stale, ReflTransGen (ByteStep cap)
      (talk sc.collective (feRest sc m >>= F) (beRest sc >>= fun b =>
          lmonBeReady sc.master sc.befe sc.stale >>= fun _ => B b)
        (sc.sessID.map (fun w => Heard.header (secHeader w)) ++
          [Heard.header m.hdr, Heard.payload m.payload.length]) [])
      (talk sc.collective (F ⟨m, udataGiven (sc.befe.getD [])⟩) (B sc.bedata) (feHeard sc m stale)
        (beHeard sc)) := by
  obtain ⟨hlen, husr⟩ := sc.proctab_length hrow
  have hbegin : getLmonpayloadBegin sc.shipment.msg.hdr ≠ none := by
    have hb : getLmonpayloadBegin sc.shipment.msg.hdr = some 0 := (sc.carries hrow).begin_eq
    rw [hb]
    rintro ⟨⟩
  have hsent : ¬((if sc.febe = none then LmonRc.enopld else .ok) ≠ .ok ∧
      (if sc.febe = none then LmonRc.enopld else .ok) ≠ .enopld) := by
    split <;> simp
  have hgiven : ¬((if sc.befe.getD [] = [] then LmonRc.enopld else .ok) ≠ .ok ∧
      (if sc.befe.getD [] = [] then LmonRc.enopld else .ok) ≠ .enopld) := by
    split <;> simp
  obtain ⟨stale, hready⟩ := @befe_run _ sc.collective _
    (sc.sessID.map (fun w => .header (secHeader w)) ++ [.header m.hdr, .payload m.payload.length] ++
      [.header (setMsgHeader .fetobe FeToBeMsg.befeContLaunchBp.ctorIdx 0 0 0 0 0 0 0)])
    (beHeard sc) hbf sc (fun r => (if r.1 ≠ .ok ∧ r.1 ≠ .enopld then (.fail r.1 : Sock FeHandshake)
      else pure ⟨m, r.2⟩) >>= F) (fun _ => B sc.bedata)
  rw [if_neg hgiven] at hready
  refine ⟨stale, ?_⟩
  simp only [feRest, beRest, bind_assoc]
  refine ReflTransGen.trans (proctab_run hfb hbegin husr hlen _ _) ?_
  refine ReflTransGen.trans (mode_run hfb _ _ _ _) ?_
  refine ReflTransGen.trans (rm_run hfb _ _ _) ?_
  refine ReflTransGen.trans (febe_run hfb sc _ _) ?_
  rw [if_neg hsent, bind_assoc]
  show ReflTransGen _ (talk _ _ (beTail sc.calls sc.master sc.bedata >>= _) _ _) _
  rw [talk_beTail hrow]
  refine ReflTransGen.trans (cont_run hbf rfl _ _) ?_
  rw [sc.beInitdone_eq, Daemon.ofExcept_ok_bind, bind_assoc]
  exact hready

/-! ## Conformance -/

theorem framed_append : ∀ {hs hs' : List Heard}, Framed hs → Framed hs' → Framed (hs ++ hs')
  | [], _, _, h => h
  | [.header _], [], h, _ => h
  | [.header _], .header _ :: _, h, h' => ⟨h.1, h'⟩
  | [.header _], .payload _ :: _, _, h' => h'.elim
  | .header _ :: .payload _ :: _, _, h, h' => ⟨h.1, framed_append h.2 h'⟩
  | .header _ :: .header _ :: _, _, h, h' => ⟨h.1, framed_append h.2 h'⟩
  | .payload _ :: _, _, h, _ => h.elim

theorem framed_message {h : Header} {k : ℕ}
    (hk : k = h.lmonPayloadLength.toNat + h.usrPayloadLength.toNat) :
    Framed [.header h, .payload k] := ⟨hk, trivial⟩

theorem framed_udata {h : Header} {u : List UInt8} (hlmon : h.lmonPayloadLength = 0)
    (husr : h.usrPayloadLength = UInt32.ofNat u.length) (hu : u.length ≤ lmonMaxUsrpayload) :
    Framed (udataHeard h u) := by
  unfold udataHeard
  split
  · next hnil =>
    refine ⟨?_, trivial⟩
    rw [hlmon, husr, hnil]
    rfl
  · refine framed_message ?_
    rw [hlmon, husr, udata_toNat hu]
    exact (Nat.zero_add _).symm

theorem framed_security : ∀ ws : List UInt32, Framed (ws.map fun w => .header (secHeader w))
  | [] => trivial
  | [_] => ⟨rfl, trivial⟩
  | _ :: w :: ws => ⟨rfl, framed_security (w :: ws)⟩

theorem kinds_append (hs hs' : List Heard) : kinds (hs ++ hs') = kinds hs ++ kinds hs' :=
  List.filterMap_append

theorem kinds_udata (t : FeToBeMsg) (n : UInt32) (u : List UInt8) :
    kinds (udataHeard (udataHeader t n u) u) = fetobe [t] := by
  have hkind : ∀ hs, kinds (.header (udataHeader t n u) :: hs) = fetobe [t] ++ kinds hs := by
    intro hs
    cases t <;> rfl
  unfold udataHeard
  split
  · exact hkind []
  · exact hkind [.payload u.length]

theorem kinds_security (ws : List UInt32) : kinds (ws.map fun w => .header (secHeader w)) =
    fetobe (List.replicate ws.length .febeSecurityChk) := by
  induction ws with
  | nil => rfl
  | cons w ws ih => exact congrArg (_ :: ·) ih

theorem udataGiven_getD (u : List UInt8) : (udataGiven u).getD [] = u := by
  unfold udataGiven
  split
  · next h => exact h.symm
  · rfl

/-- **Conformance.**  With a process table that has a row, every run of the two programs is finite and
    ends with nothing left on the stream: both have returned LMON_OK, each header that was read is of
    class and type that its reader expects, each payload was read before the next header, and what has
    been received is what the other end had. -/
theorem conformance (sc : Scene) (hrow : 1 ≤ (rows sc.tab).length) (cap : Bool × Bool → ℕ∞)
    (hfb : 1 ≤ cap (true, false)) (hbf : 1 ≤ cap (false, true)) :
    ∃ (r : FeHandshake) (b : PerBeData) (heardFe heardBe : List Heard),
      EndsIn (Step cap) (talk sc.collective sc.fe sc.be [] [])
        (told (.ok (.inl r), heardFe) (.ok (.inr b), heardBe)) ∧
      kinds heardFe = fetobe [.febeSecurityChk, .febeSecurityChk, .febeSecurityChk, .febeSecurityChk,
        .befeHostname, .befeContLaunchBp, .befeReady] ∧
      kinds heardBe = fetobe [.febeProctab, tracemode sc.isLaunch sc.dontstop, .febeRmType,
        .febeUsrdata] ∧
      Framed heardFe ∧ Framed heardBe ∧
      (∀ i : Fin (sc.n + 1), hostnameAt r.hntabMsg i = some (sc.host i).name) ∧
      r.udata.getD [] = sc.befe.getD [] ∧
      b.isLaunch = askedMode sc.isLaunch sc.dontstop ∧
      b.rmtypeInstance = sc.rmEntry.toUInt32 ∧
      parseRawRPDTABmsg (some (msgOfBytes b.proctabMsg)) ∅ = some (0, sc.tab) ∧
      b.udata.getD [] = sc.febe.getD [] := by
  obtain ⟨m, hnm, hopen⟩ := opening_run hbf (fun r => (pure (Sum.inl r) : Sock (FeHandshake ⊕ PerBeData)))
    (fun b => lmonBeReady sc.master sc.befe sc.stale >>= fun _ => pure (Sum.inr b))
  obtain ⟨stale, hrest⟩ := rest_run hfb hbf hrow m
    (fun r => (pure (Sum.inl r) : Sock (FeHandshake ⊕ PerBeData))) (fun b => pure (Sum.inr b))
  obtain ⟨hlen, husr⟩ := sc.proctab_length hrow
  have hfebe : (sc.febe.getD []).length ≤ lmonMaxUsrpayload := by
    cases h : sc.febe with
    | none => exact Nat.zero_le _
    | some u => exact sc.febeFits u h
  have hbefe : (sc.befe.getD []).length ≤ lmonMaxUsrpayload := by
    cases h : sc.befe with
    | none => exact Nat.zero_le _
    | some u => exact sc.befeFits u h
  -- both have returned at the end of the run, so nothing else can happen
  refine ⟨_, _, _, _, endsIn_of_run cap (hopen.trans hrest) (duo_finished _ _ _ _), ?_, ?_, ?_, ?_, ?_,
    udataGiven_getD _, rfl, rfl, ?_, udataGiven_getD _⟩
  · have hkind : (m.hdr.msgclass.toNat, m.hdr.type.toNat) =
        (MsgClass.fetobe.ctorIdx, FeToBeMsg.befeHostname.ctorIdx) := by rw [hnm.class_eq, hnm.type_eq]
    rw [feHeard, kinds_append, kinds_append, kinds_append, kinds_security, kinds_udata,
      sc.sessID_length]
    show _ ++ [(m.hdr.msgclass.toNat, m.hdr.type.toNat)] ++ _ ++ _ = _
    rw [hkind]
    rfl
  · rw [beHeard, kinds_append, kinds_append, kinds_append, kinds_udata]
    cases tracemode sc.isLaunch sc.dontstop <;> rfl
  · refine framed_append (framed_append (framed_append (framed_security _) (framed_message ?_)) ?_)
      (framed_udata rfl rfl hbefe)
    · rw [hnm.length_eq, hnm.usr_eq]
      rfl
    · exact ⟨rfl, trivial⟩
  · refine framed_append (framed_append (framed_append (framed_message ?_) ?_) ?_) (framed_udata rfl rfl hfebe)
    · show sc.shipment.msg.payload.length = sc.shipment.msg.hdr.lmonPayloadLength.toNat +
        sc.shipment.msg.hdr.usrPayloadLength.toNat
      rw [hlen, husr]
      rfl
    · exact ⟨rfl, trivial⟩
    · exact ⟨rfl, trivial⟩
  · intro i
    have hname := hnm.name_eq i (by rw [List.length_ofFn]; exact i.isLt)
    rw [List.getElem_ofFn] at hname
    exact hname
  · show parseRawRPDTABmsg (some (msgOfBytes (sc.proctabMsg.hdr.bytes ++ sc.proctabMsg.payload))) ∅ = _
    rw [msgOfBytes_bytes, (sc.carries hrow).parse sc.tabOk sc.tabFits]

/-- A process table without a row is refused by the back end, so the two never both return LMON_OK. -/
theorem emptyTable_refused (hrow : rows sc.tab = []) (hfb : 1 ≤ cap (true, false))
    (hbf : 1 ≤ cap (false, true)) (a b : FeHandshake ⊕ PerBeData) (heardFe heardBe : List Heard) :
    ¬EndsIn (Step cap) (talk sc.collective sc.fe sc.be [] []) (told (.ok a, heardFe) (.ok b, heardBe)) := by
  intro hends
  obtain ⟨m, -, hopen⟩ := @opening_run _ sc _ hbf
    (fun r => (pure (Sum.inl r) : Sock (FeHandshake ⊕ PerBeData)))
    (fun b => lmonBeReady sc.master sc.befe sc.stale >>= fun _ => pure (Sum.inr b))
  have hzero : sc.pcount = 0 := by
    have hcount := sc.pcount_eq
    rw [hrow] at hcount
    exact Int32.toInt_inj.mp hcount
  have hship := sc.shipped
  rw [hzero, shipProctabMsg, strTab, hrow] at hship
  injection hship with hship
  have hpayload : sc.shipment.msg.payload = [] := by rw [← hship]; rfl
  have hbegin : getLmonpayloadBegin (forwardToBe sc.shipment.msg).hdr = none := by rw [← hship]; rfl
  have hrun := hopen
  simp only [feRest, beRest, bind_assoc] at hrun
  rw [sendProctab_bind, hpayload] at hrun
  have hrefuse := hrun.trans (talk_header_true hfb)
  have hfail := returned_of_endsIn cap hends hrefuse (p := false) (a := (.error .ebdmsg,
    [.header (forwardToBe sc.shipment.msg).hdr])) ?_
  · cases hfail
  · show (onStream _ _ ((if getLmonpayloadBegin (forwardToBe sc.shipment.msg).hdr = none then
      (.fail .ebdmsg : Sock (Header × List UInt8)) else _) >>= _)).net true = _
    rw [if_pos hbegin]
    rfl

end

/-- Four numbers of an enciphered id that deciphers to itself: the random id is 7. -/
def sampleID : List UInt32 := [7, 0, 5, 6]

theorem length_sampleID : sampleID.length = 4 := rfl

/-- A launch of two daemons, with user data both ways, for a process table that the engine has shipped. -/
def twoDaemons (tab : Proctable) (pcount : Int32) (shipment : Shipment)
    (tabOk : ProctableOk tab) (tabFits : proctabMsgSize tab < 2 ^ 31)
    (pcount_eq : pcount.toInt = (rows tab).length)
    (shipped : shipProctabMsg true tab pcount .proctableAvail = some shipment) : Scene where
  n := 1
  host i := ⟨⟨[UInt8.ofNat (97 + i)], by decide +revert⟩, List.replicate 106 0, by rfl⟩
  gatherFits := by decide
  hostsFit := by decide
  tab := tab
  tabOk := tabOk
  tabFits := tabFits
  pcount := pcount
  pcount_eq := pcount_eq
  shipment := shipment
  shipped := shipped
  isLaunch := true
  dontstop := none
  rmEntry := 3
  febe := some [1, 2, 3]
  febeFits u hu := by
    injection hu with hu
    rw [← hu]
    decide
  packed := 0
  packed_ok := by decide
  befe := some []
  befeFits u hu := by
    injection hu with hu
    rw [← hu]
    decide
  unpack _ := 0
  unpack_ok _ := by decide
  stale := 0
  sessID := sampleID
  sessID_length := length_sampleID
  randomID := 7
  decrypt := some
  decrypted := ⟨_, rfl, rfl⟩
  malloc _ := true
  malloc_ok _ _ := rfl
  hostAliases := [.letter 1]

/-- The engine's message for three tasks on two hosts. -/
def twoHostsShipment : Shipment := (shipProctabMsg true twoHosts 3 .proctableAvail).getD ⟨0, emptyUdataMsg⟩

/-- The engine's message for a table without tasks. -/
def emptyShipment : Shipment := (shipProctabMsg true ∅ 0 .proctableAvail).getD ⟨0, emptyUdataMsg⟩

def launchTwo : Scene :=
  twoDaemons twoHosts 3 twoHostsShipment (by decide) (by decide) (by decide) rfl

def launchNone : Scene :=
  twoDaemons ∅ 0 emptyShipment (by decide) (by decide) (by decide) rfl

theorem conformance_launchTwo : ∃ (r : FeHandshake) (b : PerBeData) (heardFe heardBe : List Heard),
      EndsIn (Step fun _ => ⊤) (talk launchTwo.collective launchTwo.fe launchTwo.be [] [])
        (told (.ok (.inl r), heardFe) (.ok (.inr b), heardBe)) ∧
      kinds heardFe = fetobe [.febeSecurityChk, .febeSecurityChk, .febeSecurityChk, .febeSecurityChk,
        .befeHostname, .befeContLaunchBp, .befeReady] ∧
      kinds heardBe = fetobe [.febeProctab, tracemode launchTwo.isLaunch launchTwo.dontstop,
        .febeRmType, .febeUsrdata] ∧
      Framed heardFe ∧ Framed heardBe ∧
      (∀ i : Fin (launchTwo.n + 1), hostnameAt r.hntabMsg i = some (launchTwo.host i).name) ∧
      r.udata.getD [] = launchTwo.befe.getD [] ∧
      b.isLaunch = askedMode launchTwo.isLaunch launchTwo.dontstop ∧
      b.rmtypeInstance = launchTwo.rmEntry.toUInt32 ∧
      parseRawRPDTABmsg (some (msgOfBytes b.proctabMsg)) ∅ = some (0, launchTwo.tab) ∧
      b.udata.getD [] = launchTwo.febe.getD [] :=
  conformance launchTwo (by decide) (fun _ => ⊤) le_top le_top

/-- Two daemons and no task: not both return LMON_OK. -/
theorem conformance_counterexample : ¬∃ (r : FeHandshake) (b : PerBeData) (heardFe heardBe : List Heard),
    EndsIn (Step fun _ => ⊤) (talk launchNone.collective launchNone.fe launchNone.be [] [])
      (told (.ok (.inl r), heardFe) (.ok (.inr b), heardBe)) := by
  rintro ⟨r, b, heardFe, heardBe, hends⟩
  exact emptyTable_refused (show rows launchNone.tab = [] by decide) le_top le_top _ _ _ _ hends

end LaunchMON.Frontend
