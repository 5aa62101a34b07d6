/-
  The handshake of the front end and the middleware master, on the two ends of one stream.

  An `MwScene` is a call of `LMON_fe_launchMwDaemons` for which no read, write, allocation or callback
  fails.  The two programs are followed from message to message up to the last one, the ready message
  with the user data of the middleware (`mw_run`).  There the front end unpacks, and since it has been
  given `femw_data` in the place of `mwfe_data` it unpacks into the former (`MwScene.taken`): whether
  the handshake does what it is for depends on what these data do to that buffer.
-/
import LaunchMON.Frontend.Conformance
import LaunchMON.Frontend.MwHandshake
import LaunchMON.Middleware.Handshake

namespace LaunchMON.Frontend

open CBytes Fleet FifoNet Descent Relation Lmonp Backend

/-! ## A scene -/

/-- A call of `LMON_fe_launchMwDaemons` that meets no error, with the daemons that it starts. -/
structure MwScene (Ptr D : Type) where
  session : FeMwSession D
  registered : session.registered = true
  malloc_ok : ∀ k < 2 ^ 63, session.malloc k = true
  /-- The requests, the spawners that they become, and the daemons but the master. -/
  req : List DistRequest
  nreq : Int
  spawners : List Spawner
  served : mwSpawners session req nreq = .ok spawners
  n : ℕ
  count : (combineHosts (session.spawnerVector ++ spawners)).length = n + 1
  host : Fin (n + 1) → HostSlot
  gatherFits : lmonDaemonHnMax * (n + 1) < 2 ^ 31
  hostsFit : hostnameMsgSize (List.ofFn fun i => (host i).name) < 2 ^ 31
  /-- The caller's buffers and the two pointers, with the callbacks of the front end. -/
  mem : Ptr → D
  femwData : Option Ptr
  mwfeData : Option Ptr
  pack : D → List UInt8
  pack_eq : session.mwPack = some pack
  packFits : ∀ p ∈ femwData, (pack (mem p)).length ≤ lmonMaxUsrpayload
  unpack : List UInt8 → D → Int32 × D
  unpack_eq : session.mwUnpack = some unpack
  unpack_ok : ∀ u d, ¬ (unpack u d).1 < 0
  /-- The user data of the middleware, as its `pack` leaves them. -/
  mwfe : Option (List UInt8)
  mwfeFits : ∀ u ∈ mwfe, u.length ≤ lmonMaxUsrpayload
  stale : UInt32
  /-- The session id, as the master sends it and as the front end deciphers it. -/
  sessID : List UInt32
  sessID_length : sessID.length = 4
  decrypted : ∃ id, session.decrypt (sessID.flatMap le32) = some id ∧
    readLe32 id = some session.randomID

namespace MwScene

variable {Ptr D : Type} (sc : MwScene Ptr D)

/-- The calls of the master; the handshake of the middleware needs `malloc` only. -/
def calls : Calls where
  malloc := sc.session.malloc
  getMyProctabSize _ := (.ok, 0)
  getMyProctab _ _ := .ok
  procctlInit _ _ _ _ := .ok
  procctlInitdone _ _ _ := .ok
  procctlRun _ _ := .ok

def master : PerDaemonData := ⟨0, UInt32.ofNat (sc.n + 1), (sc.host 0).bytes⟩

/-- What the collectives give to the master. -/
def collective (c : Collective) (mine : List UInt8) : List UInt8 :=
  delivered c (Function.update (fun i => (sc.host i).bytes) 0 mine) 0

/-- What the front end packs; nothing without `femw_data`. -/
def packed : List UInt8 := (sc.femwData.map fun p => sc.pack (sc.mem p)).getD []

/-- What the middleware packs. -/
def sent : List UInt8 := sc.mwfe.getD []

/-- The caller has been served: what the middleware has packed is unpacked into `mwfe_data`, and
    `femw_data` is as before. -/
def Served (mem : Ptr → D) : Prop :=
  (sc.sent = [] ∨ ∃ q, sc.mwfeData = some q ∧ mem q = (sc.unpack sc.sent (sc.mem q)).2) ∧
    ∀ p ∈ sc.femwData, mem p = sc.mem p

/-- There is nothing to unpack; or there are both buffers, and it does not matter into which of them
    these data are unpacked, since they change neither. -/
def Harmless : Prop :=
  sc.sent = [] ∨ ∃ p q, sc.femwData = some p ∧ sc.mwfeData = some q ∧
    (sc.unpack sc.sent (sc.mem p)).2 = sc.mem p ∧ (sc.unpack sc.sent (sc.mem q)).2 = sc.mem q

theorem packed_le : sc.packed.length ≤ lmonMaxUsrpayload := by
  unfold packed
  cases h : sc.femwData with
  | none => exact Nat.zero_le _
  | some p => exact sc.packFits p h

theorem sent_le : sc.sent.length ≤ lmonMaxUsrpayload := by
  unfold sent
  cases h : sc.mwfe with
  | none => exact Nat.zero_le _
  | some u => exact sc.mwfeFits u h

variable [DecidableEq Ptr]

/-- The front end. -/
def fe : Sock (FeMwHandshake Ptr D ⊕ Option (List UInt8)) := do
  let r ← launchMwDaemons sc.session sc.req sc.nreq sc.mem sc.femwData sc.mwfeData
  return .inl r

/-- The middleware master, with what it has given to its `unpack`. -/
def mw : Sock (FeMwHandshake Ptr D ⊕ Option (List UInt8)) := do
  Middleware.lmonMwInit sc.master sc.sessID
  let udata ← lmonMwHandshake sc.calls sc.master
  Middleware.lmonMwReady sc.master sc.mwfe sc.stale
  return .inr udata

/-- The front end's last step. -/
def taken : LmonRc × (Ptr → D) :=
  if sc.sent = [] then (.enopld, sc.mem)
  else match sc.femwData with
  | none => (.encllb, sc.mem)
  | some p => (.ok, Function.update sc.mem p (sc.unpack sc.sent (sc.mem p)).2)

/-- What `LMON_fe_handleMwFeUsrData` makes of user data. -/
def unpacked (u : List UInt8) : LmonRc × (Ptr → D) :=
  sc.femwData.elim (.encllb, sc.mem) fun p => (.ok, Function.update sc.mem p (sc.unpack u (sc.mem p)).2)

theorem taken_eq (hne : sc.sent ≠ []) : sc.taken = sc.unpacked sc.sent := by
  rw [taken, if_neg hne, unpacked]
  cases sc.femwData <;> rfl

end MwScene

/-- Messages of the class of the front end and the middleware. -/
def fetomw (ts : List FeToMwMsg) : List (ℕ × ℕ) := ts.map fun t => (MsgClass.fetomw.ctorIdx, t.ctorIdx)

/-! ## Message by message -/

section

variable {cap : Bool × Bool → ℕ∞} {coll : Collective → List UInt8 → List UInt8} {γ Ptr D : Type}
  {x y : List Heard}

/-- The session id. -/
theorem mwSecurity_run (hcap : 1 ≤ cap (false, true)) : ∀ (ws : List UInt32) (x : List Heard)
    (F : List UInt8 → Sock γ) (B : Unit → Sock γ), ReflTransGen (ByteStep cap)
      (talk coll (recvMwSecurityChk ws.length >>= F) (Middleware.sendSessID ws >>= B) x y)
      (talk coll (F (ws.flatMap le32)) (B ())
        (x ++ ws.map fun w => .header (Middleware.secHeader w)) y) := by
  intro ws
  induction ws with
  | nil =>
    intro x F B
    rw [List.map_nil, List.append_nil]
    exact ReflTransGen.refl
  | cons w ws ih =>
    intro x F B
    have hmw : (Middleware.sendSessID (w :: ws) >>= B) =
        .op (.writeLongMsg ((Middleware.secHeader w).bytes ++ [])) fun sent =>
          (if sent = false then .fail .esys else Middleware.sendSessID ws) >>= B := by
      rw [Middleware.sendSessID, bind_assoc]
      exact writeLmonpLongMsg_bind (m := ⟨Middleware.secHeader w, []⟩) rfl _
    have hfe : (recvMwSecurityChk (ws.length + 1) >>= F) = .op .readMsgheader fun a =>
        (if isFetomwMsg a.2 .femwSecurityChk = false ∨ a.2.lmonPayloadLength ≠ 0 ∨
            a.2.usrPayloadLength ≠ 0 then .fail .ebdmsg
          else recvMwSecurityChk ws.length >>= fun rest =>
            pure (le16 a.2.numExecName ++ le16 a.2.numHostName ++ rest)) >>= F := rfl
    have hhalves : le16 (Middleware.secHeader w).numExecName ++
        le16 (Middleware.secHeader w).numHostName = le32 w := setMsgHeader_halves .fetomw _ w
    rw [hmw, List.length_cons, hfe]
    apply (talk_header_false hcap).trans
    have hih := ih (x ++ [.header (Middleware.secHeader w)]) (fun rest => F (le32 w ++ rest)) B
    rw [List.append_assoc] at hih
    have hsec : ¬(isFetomwMsg (Middleware.secHeader w) .femwSecurityChk = false ∨
        (Middleware.secHeader w).lmonPayloadLength ≠ 0 ∨
        (Middleware.secHeader w).usrPayloadLength ≠ 0) :=
      not_or.mpr ⟨by rintro ⟨⟩, not_or.mpr ⟨fun h => h rfl, fun h => h rfl⟩⟩
    rw [if_neg hsec, if_neg (by rintro ⟨⟩), bind_assoc]
    simp only [pure_bind, hhalves]
    exact hih

/-- The host names. -/
theorem mwHostnames_run (hcap : 1 ≤ cap (false, true)) {s : FeMwSession D} {m : Msg}
    (hmsg : isFetomwMsg m.hdr .mwfeHostname = true) (husr : m.hdr.usrPayloadLength = 0)
    (hlen : m.payload.length = m.hdr.lmonPayloadLength.toNat) (hne : m.payload ≠ [])
    (hmalloc : s.malloc (m.hdr.lmonPayloadLength.toNat + sizeofLmonp) = true)
    (F : Msg → Sock γ) (B : Bool → Sock γ) : ReflTransGen (ByteStep cap)
      (talk coll (recvMwHostnames s >>= F) (writeLmonpLongMsg m (msgsize m.hdr) >>= B) x y)
      (talk coll (F m) (B true) (x ++ [.header m.hdr, .payload m.payload.length]) y) := by
  have hsum : m.hdr.lmonPayloadLength + m.hdr.usrPayloadLength = m.hdr.lmonPayloadLength := by
    rw [husr, UInt32.add_zero]
  rw [writeLmonpLongMsg_bind rfl]
  apply talk_message_false hcap (fun o => (o.elim (.fail .esys : Sock Msg) fun tv => pure ⟨m.hdr, tv⟩) >>= F)
    ?_ hlen hne
  simp only [Daemon.bind]
  rw [if_neg (by rintro ⟨⟩), if_neg (by rw [hmsg]; rintro ⟨⟩), hsum, if_neg (by rw [hmalloc]; rintro ⟨⟩)]
  apply congrArg (Daemon.op _)
  funext o
  cases o <;> rfl

/-- `LMON_mw_handshake`: the user data of the front end come in. -/
def mwRecvUsrdata : Sock (Option (List UInt8)) := do
  let (_, recvmsg) ← readLmonpMsgheader
  if recvmsg.type.toNat ≠ FeToMwMsg.femwUsrdata.ctorIdx then .fail .ebdmsg
  else if 0 < recvmsg.usrPayloadLength.toInt32 then do
    let usrpl ← readLmonpPayloads recvmsg.usrPayloadLength
    return some (usrpl.getD [])
  else return none

/-- The user data of the front end. -/
theorem femw_run (hcap : 1 ≤ cap (true, false)) {u : List UInt8} (hu : u.length ≤ lmonMaxUsrpayload)
    (F : Unit → Sock γ) (B : Option (List UInt8) → Sock γ) : ReflTransGen (ByteStep cap)
      (talk coll (sendFemwUdata u >>= F) (mwRecvUsrdata >>= B) x y)
      (talk coll (F ()) (B (udataGiven u)) x (y ++ udataHeard (femwUdataHeader u) u)) := by
  have hfe : (sendFemwUdata u >>= F) =
      .op (.writeLongMsg ((femwUdataHeader u).bytes ++ u)) fun _ => F () := by
    rw [sendFemwUdata, bind_assoc]
    exact writeLmonpLongMsg_bind (m := ⟨femwUdataHeader u, u⟩)
      (by rw [msgsize]; exact congrArg (· + _) (UInt32.add_zero _)) _
  rw [hfe]
  by_cases hnil : u = []
  · subst hnil
    exact talk_header_true hcap
  · rw [udataGiven, if_neg hnil, udataHeard, if_neg hnil]
    apply talk_message_true hcap (fun o => B (some (o.getD []))) ?_ (udata_toNat hu).symm hnil
    show ((if 0 < (UInt32.ofNat u.length).toInt32 then
        readLmonpPayloads (UInt32.ofNat u.length) >>= fun o => pure (some (o.getD []))
      else (pure none : Sock (Option (List UInt8)))) >>= B) = _
    rw [if_pos ((udata_pos hu).mpr hnil)]
    rfl

/-- The front end has something to send, or says that it has not. -/
theorem handleFeMwUsrData_eq (sc : MwScene Ptr D) :
    lmonFeHandleFeMwUsrData sc.session sc.mem sc.femwData = sendFemwUdata sc.packed >>= fun _ =>
      pure (if sc.femwData.isNone then .enopld else .ok) := by
  have hmalloc : sc.session.malloc (sizeofLmonp + lmonMaxUsrpayload) = true :=
    sc.malloc_ok _ (by decide)
  unfold lmonFeHandleFeMwUsrData MwScene.packed
  rw [if_neg (by rw [sc.registered]; rintro ⟨⟩), sc.pack_eq]
  cases h : sc.femwData with
  | none => rfl
  | some p =>
    dsimp only
    rw [if_neg (by rw [hmalloc]; rintro ⟨⟩), if_neg (Nat.not_lt.mpr (sc.packFits p h))]
    rfl

/-- The header of the ready message. -/
def mwReadyHeader (sc : MwScene Ptr D) : Header :=
  setMsgHeader .fetomw FeToMwMsg.mwfeReady.ctorIdx 0 0 0 0 (if sc.mwfe.isSome then 0 else sc.stale) 0
    (UInt32.ofNat sc.sent.length)

/-- What the middleware master makes of the gathered names. -/
theorem MwScene.exists_hostnames (sc : MwScene Ptr D) : ∃ m,
    hostnameMsg .fetomw FeToMwMsg.mwfeHostname.ctorIdx sc.master.width
      (sc.collective (.gather lmonDaemonHnMax) (sc.host 0).bytes) = some (m, msgsize m.hdr) ∧
    isFetomwMsg m.hdr .mwfeHostname = true ∧ m.hdr.usrPayloadLength = 0 ∧
    m.payload.length = m.hdr.lmonPayloadLength.toNat ∧ m.payload ≠ [] ∧
    sc.session.malloc (m.hdr.lmonPayloadLength.toNat + sizeofLmonp) = true ∧
    ∀ i : Fin (sc.n + 1), hostnameAt m i = some (sc.host i).name := by
  obtain ⟨m, hm, hnm, hlen⟩ := exists_hostnameMsg sc.host sc.hostsFit
  refine ⟨⟨Middleware.toMw m.hdr, m.payload⟩, ?_, rfl, hnm.usr_eq, hnm.length_eq, hnm.ne_nil,
    sc.malloc_ok _ ?_, ?_⟩
  · have hgather : sc.collective (.gather lmonDaemonHnMax) (sc.host 0).bytes =
        ((List.ofFn sc.host).map HostSlot.bytes).flatten := delivered_gather sc.host _
    rw [hgather, Middleware.hostnameMsg_fetomw, show sc.master.width = UInt32.ofNat (sc.n + 1) from rfl,
      hm]
    rfl
  · show m.hdr.lmonPayloadLength.toNat + 28 < 2 ^ 63
    omega
  · intro i
    have hname := hnm.name_eq i (by rw [List.length_ofFn]; exact i.isLt)
    rw [List.getElem_ofFn] at hname
    rw [Middleware.hostnameAt_toMw hnm]
    exact hname

/-- What the front end reads. -/
def feMwHeard (sc : MwScene Ptr D) (m : Msg) : List Heard :=
  sc.sessID.map (fun w => .header (Middleware.secHeader w)) ++
    [.header m.hdr, .payload m.payload.length] ++ udataHeard (mwReadyHeader sc) sc.sent

/-- What the master reads. -/
def mwHeard (sc : MwScene Ptr D) : List Heard := udataHeard (femwUdataHeader sc.packed) sc.packed

theorem framed_mwSecurity : ∀ ws : List UInt32, Framed (ws.map fun w => .header (Middleware.secHeader w))
  | [] => trivial
  | [_] => ⟨rfl, trivial⟩
  | _ :: w :: ws => ⟨rfl, framed_mwSecurity (w :: ws)⟩

theorem kinds_mwSecurity (ws : List UInt32) : kinds (ws.map fun w => .header (Middleware.secHeader w)) =
    fetomw (List.replicate ws.length .femwSecurityChk) := by
  induction ws with
  | nil => rfl
  | cons w ws ih => exact congrArg (_ :: ·) ih

theorem kinds_udataHeard (h : Header) (u : List UInt8) :
    kinds (udataHeard h u) = [(h.msgclass.toNat, h.type.toNat)] := by
  unfold udataHeard
  split <;> rfl

theorem isFetomwMsg_iff {h : Header} {t : FeToMwMsg} : isFetomwMsg h t = true ↔
    h.msgclass.toNat = MsgClass.fetomw.ctorIdx ∧ h.type.toNat = t.ctorIdx := decide_eq_true_iff

/-- What has been read is as its reader expects. -/
theorem mwHeard_expected (sc : MwScene Ptr D) {m : Msg} (hmsg : isFetomwMsg m.hdr .mwfeHostname = true)
    (husr : m.hdr.usrPayloadLength = 0) (hlen : m.payload.length = m.hdr.lmonPayloadLength.toNat) :
    kinds (feMwHeard sc m) = fetomw [.femwSecurityChk, .femwSecurityChk, .femwSecurityChk,
        .femwSecurityChk, .mwfeHostname, .mwfeReady] ∧
      kinds (mwHeard sc) = fetomw [.femwUsrdata] ∧ Framed (feMwHeard sc m) ∧ Framed (mwHeard sc) := by
  obtain ⟨hclass, htype⟩ := isFetomwMsg_iff.mp hmsg
  refine ⟨?_, kinds_udataHeard _ _, ?_, framed_udata rfl rfl sc.packed_le⟩
  · rw [feMwHeard, kinds_append, kinds_append, kinds_mwSecurity, kinds_udataHeard, sc.sessID_length]
    show _ ++ [(m.hdr.msgclass.toNat, m.hdr.type.toNat)] ++ _ = _
    rw [hclass, htype]
    rfl
  · refine framed_append (framed_append (framed_mwSecurity _) (framed_message ?_))
      (framed_udata rfl rfl sc.sent_le)
    rw [hlen, husr]
    rfl

variable [DecidableEq Ptr]

/-- The user data of the middleware. -/
theorem mwfe_run (hcap : 1 ≤ cap (false, true)) (sc : MwScene Ptr D)
    (F : LmonRc × (Ptr → D) → Sock γ) (B : Unit → Sock γ) : ReflTransGen (ByteStep cap)
      (talk coll (lmonFeHandleMwFeUsrData sc.session sc.mem sc.femwData >>= F)
        (Middleware.lmonMwReady sc.master sc.mwfe sc.stale >>= B) x y)
      (talk coll (F sc.taken) (B ()) (x ++ udataHeard (mwReadyHeader sc) sc.sent) y) := by
  have hlen := sc.sent_le
  have hmw : (Middleware.lmonMwReady sc.master sc.mwfe sc.stale >>= B) =
      .op (.writeLongMsg ((mwReadyHeader sc).bytes ++ sc.sent)) fun _ => .meet .barrier [] fun _ => B () := by
    unfold Middleware.lmonMwReady
    dsimp only
    rw [if_pos (show sc.master.isMaster = true from rfl), bind_assoc]
    exact writeLmonpLongMsg_bind (m := ⟨mwReadyHeader sc, sc.sent⟩)
      (by rw [msgsize]; exact congrArg (· + _) (UInt32.add_zero _)) _
  have hfe : (lmonFeHandleMwFeUsrData sc.session sc.mem sc.femwData >>= F) =
      .op .readMsgheader fun a =>
        (if (isFetomwMsg a.2 .mwfeReady = false ∧ isFetomwMsg a.2 .mwfeUsrdata = false) ∨
            a.2.lmonPayloadLength ≠ 0 then pure (.ebdmsg, sc.mem)
          else if a.2.usrPayloadLength = 0 then pure (.enopld, sc.mem)
          else if sc.session.malloc a.2.usrPayloadLength.toNat = false then pure (.enomem, sc.mem)
          else readLmonpPayloads a.2.usrPayloadLength >>= fun o =>
            pure (sc.unpacked (o.getD []))) >>= F := by
    unfold lmonFeHandleMwFeUsrData MwScene.unpacked
    rw [if_neg (by rw [sc.registered]; rintro ⟨⟩), sc.unpack_eq]
    cases sc.femwData with
    | none => rfl
    | some p =>
      simp only [sc.unpack_ok, if_false]
      rfl
  have hmsg : ¬((isFetomwMsg (mwReadyHeader sc) .mwfeReady = false ∧
      isFetomwMsg (mwReadyHeader sc) .mwfeUsrdata = false) ∨
      (mwReadyHeader sc).lmonPayloadLength ≠ 0) :=
    not_or.mpr ⟨fun h => Bool.noConfusion h.1, fun h => h rfl⟩
  have husr : (mwReadyHeader sc).usrPayloadLength = UInt32.ofNat sc.sent.length := rfl
  rw [hmw, hfe]
  by_cases hnil : sc.sent = []
  · have hzero : (mwReadyHeader sc).usrPayloadLength = 0 := by
      rw [husr, hnil]
      rfl
    rw [MwScene.taken, if_pos hnil, udataHeard, if_pos hnil, hnil]
    apply (talk_header_false hcap).trans
    dsimp only
    rw [if_neg hmsg, if_pos hzero]
    exact ReflTransGen.refl
  · have hpos : (mwReadyHeader sc).usrPayloadLength ≠ 0 := by
      intro hz
      have hz := congrArg UInt32.toNat (husr.symm.trans hz)
      rw [udata_toNat hlen] at hz
      exact hnil (List.length_eq_zero_iff.mp hz)
    have hmalloc : sc.session.malloc (mwReadyHeader sc).usrPayloadLength.toNat = true :=
      sc.malloc_ok _ (lt_trans (UInt32.toNat_lt _) (by decide))
    rw [udataHeard, if_neg hnil, sc.taken_eq hnil]
    apply talk_message_false hcap
      (fun o => (pure (sc.unpacked (o.getD [])) : Sock (LmonRc × (Ptr → D))) >>= F) ?_
      (udata_toNat hlen).symm hnil
    dsimp only
    rw [if_neg hmsg, if_neg hpos, if_neg (by rw [hmalloc]; rintro ⟨⟩), bind_assoc]
    rfl

/-- What the front end does behind the host names. -/
def feMwRest (sc : MwScene Ptr D) (m : Msg) : Sock (FeMwHandshake Ptr D) := do
  let lrc ← lmonFeHandleFeMwUsrData sc.session sc.mem sc.femwData
  if lrc ≠ .ok ∧ lrc ≠ .enopld then .fail lrc
  else do
    let r ← lmonFeHandleMwFeUsrData sc.session sc.mem sc.femwData
    if r.1 ≠ .ok ∧ r.1 ≠ .enopld then .fail r.1 else return ⟨m, r.2⟩

/-- **The whole conversation**, up to what the front end returns. -/
theorem mw_run (hfm : 1 ≤ cap (true, false)) (hmf : 1 ≤ cap (false, true)) (sc : MwScene Ptr D) :
    ∃ m, isFetomwMsg m.hdr .mwfeHostname = true ∧ m.hdr.usrPayloadLength = 0 ∧
      m.payload.length = m.hdr.lmonPayloadLength.toNat ∧
      (∀ i : Fin (sc.n + 1), hostnameAt m i = some (sc.host i).name) ∧
      ReflTransGen (ByteStep cap) (talk sc.collective sc.fe sc.mw [] [])
        (talk sc.collective
          ((if sc.taken.1 ≠ .ok ∧ sc.taken.1 ≠ .enopld then .fail sc.taken.1
            else (pure ⟨m, sc.taken.2⟩ : Sock (FeMwHandshake Ptr D))) >>= fun r => pure (.inl r))
          (pure (.inr (udataGiven sc.packed))) (feMwHeard sc m) (mwHeard sc)) := by
  obtain ⟨m, hm, hmsg, husr, hlen, hne, hmalloc, hnames⟩ := sc.exists_hostnames
  obtain ⟨id, hid, hword⟩ := sc.decrypted
  have hsecure : ¬lmonFeIsSecure sc.session.toFeSession (sc.sessID.flatMap le32) = false := by
    unfold lmonFeIsSecure
    rw [hid]
    simp [hword]
  have hsent : ¬((if sc.femwData.isNone then LmonRc.enopld else .ok) ≠ .ok ∧
      (if sc.femwData.isNone then LmonRc.enopld else .ok) ≠ .enopld) := by
    split <;> simp
  have hfe : sc.fe = recvMwSecurityChk sc.sessID.length >>= fun buf =>
      (if lmonFeIsSecure sc.session.toFeSession buf = false then .fail .esys
        else recvMwHostnames sc.session >>= feMwRest sc) >>= fun r => pure (.inl r) := by
    unfold MwScene.fe launchMwDaemons lmonFeMwHandshakeSequence
    rw [sc.served, sc.sessID_length, Daemon.ofExcept_ok_bind, bind_assoc]
    rfl
  have hmw : sc.mw = Middleware.sendSessID sc.sessID >>= fun _ => .meet .barrier [] fun _ =>
      lmonMwHandshake sc.calls sc.master >>= fun udata =>
        Middleware.lmonMwReady sc.master sc.mwfe sc.stale >>= fun _ => pure (.inr udata) := by
    unfold MwScene.mw Middleware.lmonMwInit
    rw [if_pos (show sc.master.isMaster = true from rfl), bind_assoc]
    rfl
  have hhand : lmonMwHandshake sc.calls sc.master = .meet (.gather lmonDaemonHnMax)
      sc.master.myHostname fun buf => mwMasterOnly sc.master buf >>= fun udata =>
        .meet .barrier [] fun _ => pure udata := by
    unfold lmonMwHandshake mwMasterBlock
    rw [masterBuffer_ok sc.malloc_ok sc.gatherFits rfl, Daemon.ofExcept_ok_bind]
    rfl
  have honly : mwMasterOnly sc.master (sc.collective (.gather lmonDaemonHnMax) (sc.host 0).bytes) =
      writeLmonpLongMsg m (msgsize m.hdr) >>= fun _ => mwRecvUsrdata := by
    unfold mwMasterOnly
    rw [hm]
    rfl
  refine ⟨m, hmsg, husr, hlen, hnames, ?_⟩
  rw [hfe, hmw, hhand]
  -- the session id, the host names, then the user data each way
  apply (mwSecurity_run hmf _ _ _ _).trans
  rw [if_neg hsecure, bind_assoc]
  show ReflTransGen _ (talk _ _ ((mwMasterOnly sc.master (sc.collective (.gather lmonDaemonHnMax)
    (sc.host 0).bytes) >>= fun udata => .meet .barrier [] fun _ => pure udata) >>= _) _ _) _
  rw [honly]
  simp only [bind_assoc]
  apply (mwHostnames_run hmf hmsg husr hlen hne hmalloc _ _).trans
  unfold feMwRest
  rw [handleFeMwUsrData_eq]
  simp only [bind_assoc, pure_bind]
  apply (femw_run hfm sc.packed_le _ _).trans
  rw [if_neg hsent]
  simp only [bind_assoc]
  exact mwfe_run hmf sc _ _

/-! ## Conformance -/

/-- Whether the caller is served shows at the front end's last step. -/
theorem MwScene.served_taken (sc : MwScene Ptr D) :
    (sc.taken.1 = .ok ∨ sc.taken.1 = .enopld) ∧ sc.Served sc.taken.2 ↔ sc.Harmless := by
  unfold MwScene.taken MwScene.Served MwScene.Harmless
  by_cases hnil : sc.sent = []
  · simp [hnil]
  · rw [if_neg hnil]
    cases hp : sc.femwData with
    | none => simp [hnil]
    | some p =>
      dsimp only
      constructor
      · rintro ⟨-, hq, hframe⟩
        obtain ⟨q, hq, hmem⟩ := hq.resolve_left hnil
        have hp' := hframe p rfl
        rw [Function.update_self] at hp'
        refine Or.inr ⟨p, q, rfl, hq, hp', ?_⟩
        by_cases hqp : q = p
        · rw [hqp]
          exact hp'
        · rw [Function.update_of_ne hqp] at hmem
          exact hmem.symm
      · intro h
        obtain ⟨p', q, hp', hq, hidle, hidle'⟩ := h.resolve_left hnil
        obtain rfl : p = p' := Option.some.inj hp'
        rw [hidle, Function.update_eq_self]
        exact ⟨Or.inl rfl, Or.inr ⟨q, hq, hidle'.symm⟩, fun _ _ => rfl⟩

/-- **Conformance.**  Every run of the two programs is finite and ends with nothing left on the stream,
    both having read what they expect.  Both have returned LMON_OK, with the data of the front end at
    the middleware and those of the middleware in `mwfe_data` and nowhere else, if and only if it does
    not matter that the front end takes `femw_data` for `mwfe_data`. -/
theorem mwConformance (sc : MwScene Ptr D) (cap : Bool × Bool → ℕ∞) (hfm : 1 ≤ cap (true, false))
    (hmf : 1 ≤ cap (false, true)) :
    (∃ (r : FeMwHandshake Ptr D) (udata : Option (List UInt8)) (heardFe heardMw : List Heard),
      EndsIn (Step cap) (talk sc.collective sc.fe sc.mw [] [])
        (told (.ok (.inl r), heardFe) (.ok (.inr udata), heardMw)) ∧
      kinds heardFe = fetomw [.femwSecurityChk, .femwSecurityChk, .femwSecurityChk, .femwSecurityChk,
        .mwfeHostname, .mwfeReady] ∧
      kinds heardMw = fetomw [.femwUsrdata] ∧
      Framed heardFe ∧ Framed heardMw ∧
      (∀ i : Fin (sc.n + 1), hostnameAt r.hntabMwMsg i = some (sc.host i).name) ∧
      udata.getD [] = sc.packed ∧ sc.Served r.mem) ↔ sc.Harmless := by
  obtain ⟨m, hmsg, husr, hlen, hnames, hrun⟩ := mw_run hfm hmf sc
  obtain ⟨hkindsFe, hkindsMw, hframedFe, hframedMw⟩ := mwHeard_expected sc hmsg husr hlen
  rw [← sc.served_taken]
  constructor
  · rintro ⟨r, udata, heardFe, heardMw, hends, -, -, -, -, -, -, hserved⟩
    by_cases hok : sc.taken.1 ≠ .ok ∧ sc.taken.1 ≠ .enopld
    · rw [if_pos hok] at hrun
      have hfail := returned_of_endsIn cap hends hrun (p := true)
        (a := (.error sc.taken.1, feMwHeard sc m)) rfl
      cases hfail
    · rw [if_neg hok] at hrun
      have hret := returned_of_endsIn cap hends hrun (p := true)
        (a := (.ok (.inl ⟨m, sc.taken.2⟩), feMwHeard sc m)) rfl
      injection hret with hret
      injection hret with hret
      injection hret with hret
      injection hret with hret
      rw [hret] at hserved
      refine ⟨?_, hserved⟩
      by_contra hnot
      exact hok (not_or.mp hnot)
  · rintro ⟨hok, hserved⟩
    rw [if_neg (fun h => hok.elim h.1 h.2)] at hrun
    exact ⟨⟨m, sc.taken.2⟩, udataGiven sc.packed, _, _, endsIn_of_run cap hrun (duo_finished _ _ _ _),
      hkindsFe, hkindsMw, hframedFe, hframedMw, hnames, udataGiven_getD _, hserved⟩

end

/-- One daemon on a listed host.  The caller's buffers are numbered; `unpack` replaces what is there. -/
def oneMwDaemon (femwData mwfeData : Option ℕ) (mwfe : List UInt8)
    (mwfeFits : mwfe.length ≤ lmonMaxUsrpayload) : MwScene ℕ (List UInt8) where
  session :=
    { registered := true
      decrypt := some
      randomID := 7
      proctabMsg := none
      rmEntry := 0
      malloc := fun _ => true
      mwPack := some (List.take 8)
      mwUnpack := some fun u _ => (0, u)
      pMap := ∅
      spawnerVector := [] }
  registered := rfl
  malloc_ok _ _ := rfl
  req := [⟨8, .letter 12, [], -1, -1, -1, .hostlists, [.letter 0]⟩]
  nreq := 1
  spawners := [⟨false, .letter 12, [], [.letter 0]⟩]
  served := rfl
  n := 0
  count := rfl
  host _ := ⟨.letter 0, List.replicate 106 0, rfl⟩
  gatherFits := by decide
  hostsFit := by decide
  mem p := [UInt8.ofNat p]
  femwData := femwData
  mwfeData := mwfeData
  pack := List.take 8
  pack_eq := rfl
  packFits _ _ := (List.length_take_le 8 _).trans (by decide)
  unpack u _ := (0, u)
  unpack_eq := rfl
  unpack_ok _ _ := show ¬(0 : Int32) < 0 by decide
  mwfe := some mwfe
  mwfeFits u hu := by
    injection hu with hu
    rw [← hu]
    exact mwfeFits
  stale := 0
  sessID := sampleID
  sessID_length := length_sampleID
  decrypted := ⟨_, rfl, rfl⟩

/-- The middleware has nothing to say. -/
def quietMw : MwScene ℕ (List UInt8) := oneMwDaemon (some 0) (some 1) [] (by decide)

/-- The middleware has something to say, and the caller another buffer for it. -/
def talkativeMw : MwScene ℕ (List UInt8) := oneMwDaemon (some 0) (some 1) [9] (by decide)

theorem mwConformance_quiet :
    (∃ (r : FeMwHandshake ℕ (List UInt8)) (udata : Option (List UInt8)) (heardFe heardMw : List Heard),
      EndsIn (Step fun _ => ⊤) (talk quietMw.collective quietMw.fe quietMw.mw [] [])
        (told (.ok (.inl r), heardFe) (.ok (.inr udata), heardMw)) ∧
      kinds heardFe = fetomw [.femwSecurityChk, .femwSecurityChk, .femwSecurityChk, .femwSecurityChk,
        .mwfeHostname, .mwfeReady] ∧
      kinds heardMw = fetomw [.femwUsrdata] ∧
      Framed heardFe ∧ Framed heardMw ∧
      (∀ i : Fin (quietMw.n + 1), hostnameAt r.hntabMwMsg i = some (quietMw.host i).name) ∧
      udata.getD [] = quietMw.packed ∧ quietMw.Served r.mem) ↔ quietMw.Harmless :=
  mwConformance quietMw (fun _ => ⊤) le_top le_top

/-- The data of the middleware are not in the caller's `mwfe_data`. -/
theorem mwConformance_counterexample :
    ¬∃ (r : FeMwHandshake ℕ (List UInt8)) (udata : Option (List UInt8)) (heardFe heardMw : List Heard),
      EndsIn (Step fun _ => ⊤) (talk talkativeMw.collective talkativeMw.fe talkativeMw.mw [] [])
        (told (.ok (.inl r), heardFe) (.ok (.inr udata), heardMw)) ∧ talkativeMw.Served r.mem := by
  rintro ⟨r, udata, heardFe, heardMw, hends, hserved⟩
  obtain ⟨m, -, -, -, -, hrun⟩ := @mw_run (fun _ => ⊤) _ _ _ le_top le_top talkativeMw
  have hret := returned_of_endsIn (fun _ => ⊤) hends hrun (p := true)
    (a := (.ok (.inl ⟨m, talkativeMw.taken.2⟩), feMwHeard talkativeMw m)) rfl
  injection hret with hret
  injection hret with hret
  injection hret with hret
  injection hret with hret
  rw [hret] at hserved
  have hnone : ¬talkativeMw.Served talkativeMw.taken.2 := by
    rintro ⟨hsent, -⟩
    rcases hsent with hsent | ⟨q, hq, hmem⟩
    · cases hsent
    · obtain rfl : 1 = q := Option.some.inj hq
      exact absurd hmem (by decide)
  exact hnone hserved

end LaunchMON.Frontend
