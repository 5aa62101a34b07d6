/-
  Which daemons meet: the collectives of `LMON_be_handshake`, `LMON_mw_handshake` and the colocation
  spawner.

  Every daemon runs the same sequence of collectives, and between two of them each may give up: the
  master on what it reads from the front end or cannot write to it, a slave on an allocation, any
  daemon on its part of the process table and on process control.  Nobody tells the others.
  `LMON_be_recvUsrData` and `LMON_be_sendUsrData` do: there the master goes to the end of its block
  and broadcasts its return code.

  So a fleet is matched exactly when in each section all daemons give up or none does
  (`Fleet.matched_section`).  `beFleet_matched`, `mwFleet_matched` and `spawnFleet_matched` say what
  this comes to: a master that is not alone must not give up at all, nor may a slave in a block of its
  own.
-/
import LaunchMON.Backend.Handshake

namespace LaunchMON.Backend

open CBytes Fleet Lmonp

/-! ## A job -/

/-- The daemons of a job: their own calls, their host names, and what the master finds on its socket
    to the front end. -/
structure Job (n : ℕ) where
  calls : Fin (n + 1) → Calls
  hosts : Fin (n + 1) → List UInt8
  feed : Feed

variable {n : ℕ}

/-- The daemon of rank `i`. -/
def Job.daemon (j : Job n) (i : Fin (n + 1)) : PerDaemonData := ⟨i, UInt32.ofNat (n + 1), j.hosts i⟩

@[simp] theorem Job.isMaster_zero (j : Job n) : (j.daemon 0).isMaster = true := rfl

theorem Job.isMaster_iff (j : Job n) (i : Fin (n + 1)) : (j.daemon i).isMaster = true ↔ i = 0 := by
  simp [Job.daemon, PerDaemonData.isMaster]

/-- `LMON_be_handshake` at every daemon. -/
def Job.be (j : Job n) (i : Fin (n + 1)) : Comm LmonRc (PerBeData × Feed) :=
  (lmonBeHandshake (j.calls i) (j.daemon i)).resolve Feed.answer j.feed

/-- `LMON_mw_handshake` at every daemon. -/
def Job.mw (j : Job n) (i : Fin (n + 1)) : Comm LmonRc (Option (List UInt8) × Feed) :=
  (lmonMwHandshake (j.calls i) (j.daemon i)).resolve Feed.answer j.feed

/-- The colocation spawner at every daemon. -/
def Job.coloc (j : Job n) (i : Fin (n + 1)) : Comm String ((List UInt8 × List (List UInt8)) × Feed) :=
  (spawn (j.calls i) (j.daemon i)).resolve Feed.answer j.feed

/-! ## When a section does not fail -/

/-- The master has a buffer for the host names. -/
def Job.Buffer (j : Job n) : Prop :=
  (j.calls 0).malloc (sizeT (UInt32.ofNat lmonDaemonHnMax * UInt32.ofNat (n + 1))) = true

/-- The names that the master gathers. -/
def Job.gathered (j : Job n) : List UInt8 := (List.ofFn j.hosts).flatten

/-- A process table whose payload arrives. -/
def HasProctab (f : Feed) : Prop :=
  isFetobe (f.headers 0).2 .febeProctab = true ∧ getLmonpayloadBegin (f.headers 0).2 ≠ none ∧
    bytesread (f.payloads 0) = (f.headers 0).2.lmonPayloadLength + (f.headers 0).2.usrPayloadLength

/-- The back end's master finds what it expects: a process table with its payload, a tracing mode, a
    resource manager and user data. -/
structure BeReads (width : UInt32) (hngatherbuf : List UInt8) (f : Feed) : Prop where
  names : hostnameMsg .fetobe FeToBeMsg.befeHostname.ctorIdx width hngatherbuf ≠ none
  proctab : HasProctab f
  mode : tracingMode (f.headers 1).2 ≠ none
  rm : isFetobe (f.headers 2).2 .febeRmType = true
  usrdata : isFetobe (f.headers 3).2 .febeUsrdata = true

/-- What the back end's master has read then. -/
def received (f : Feed) : PerBeData where
  isLaunch := (tracingMode (f.headers 1).2).getD 0
  rmtypeInstance := (f.headers 2).2.numTasks.toUInt32
  proctabMsgSize := msgsize (f.headers 0).2
  proctabMsg := (f.headers 0).2.bytes ++ (f.payloads 0).getD []
  udata :=
    if 0 < (f.headers 3).2.usrPayloadLength.toInt32 then some ((f.payloads 1).getD []) else none

/-- A daemon gets its part of the process table and initialises process control. -/
structure Calls.SyncOk (c : Calls) (b : PerBeData) : Prop where
  size : (c.getMyProctabSize b.proctabMsg).1 = .ok
  buffer : c.malloc (sizeT (c.getMyProctabSize b.proctabMsg).2 * 32 % 2 ^ 64) = true
  table : c.getMyProctab b.proctabMsg (c.getMyProctabSize b.proctabMsg).2 = .ok
  init : c.procctlInit b.rmtypeInstance (islaunch b.isLaunch) (c.getMyProctabSize b.proctabMsg).2
    (dontstopFastpath b.isLaunch) = .ok

/-- A daemon completes process control. -/
structure Calls.ReleaseOk (c : Calls) (b : PerBeData) : Prop where
  initdone : c.procctlInitdone b.rmtypeInstance (islaunch b.isLaunch)
    (c.getMyProctabSize b.proctabMsg).2 = .ok
  run : dontstopFastpath b.isLaunch = true →
    c.procctlRun b.rmtypeInstance (c.getMyProctabSize b.proctabMsg).2 = .ok

/-- All or none. -/
def Unanimous (p : Fin (n + 1) → Prop) : Prop := (∀ i, p i) ∨ ∀ i, ¬ p i

/-! ## Each section, as one `Except` -/

theorem beSync_ok {c : Calls} {b : PerBeData} (h : c.SyncOk b) :
    beSync c b = .ok (c.getMyProctabSize b.proctabMsg).2 := by
  simp only [beSync, h.size, h.buffer, h.table, h.init, ne_eq, not_true_eq_false, if_false,
    Bool.true_eq_false]

theorem beSync_error {c : Calls} {b : PerBeData} (h : ¬ c.SyncOk b) : ∃ e, beSync c b = .error e := by
  simp only [beSync]
  split
  · exact ⟨_, rfl⟩
  · rename_i hsize
    split
    · exact ⟨_, rfl⟩
    · rename_i hbuffer
      split
      · exact ⟨_, rfl⟩
      · rename_i htable
        split
        · exact ⟨_, rfl⟩
        · rename_i hinit
          exact absurd ⟨not_not.mp hsize, by simpa using hbuffer, not_not.mp htable,
            not_not.mp hinit⟩ h

theorem beInitdone_ok {c : Calls} {b : PerBeData}
    (h : c.ReleaseOk b) : beInitdone c b (c.getMyProctabSize b.proctabMsg).2 = .ok () := by
  rw [beInitdone, if_neg (not_not.mpr h.initdone), if_neg]
  exact fun hr => hr.2 (h.run hr.1)

theorem beInitdone_error {c : Calls} {b : PerBeData} (h : ¬ c.ReleaseOk b) :
    beInitdone c b (c.getMyProctabSize b.proctabMsg).2 = .error .esubsync := by
  rw [beInitdone]
  split
  · rfl
  · rename_i hi
    split
    · rfl
    · rename_i hr
      exact absurd ⟨not_not.mp hi, fun h => not_not.mp fun hn => hr ⟨h, hn⟩⟩ h

/-- The section between the barriers. -/
def released (c : Calls) (d : PerDaemonData) (b : PerBeData) (f : Feed) : Except LmonRc Feed :=
  if d.isMaster = true ∧ f.sent 0 = false then .error .esys
  else (beInitdone c b (c.getMyProctabSize b.proctabMsg).2).map fun _ =>
    if d.isMaster then { f with sent := fun i => f.sent (i + 1) } else f

theorem release_resolve {α : Type} (c : Calls) (d : PerDaemonData) (b : PerBeData) (f : Feed)
    (k : Sock α) :
    (beContLaunchBp d >>= fun _ =>
      Daemon.ofExcept (beInitdone c b (c.getMyProctabSize b.proctabMsg).2) >>= fun _ => k).resolve
        Feed.answer f =
      Daemon.ofExcept (released c d b f) >>= fun f' => k.resolve Feed.answer f' := by
  cases hm : d.isMaster with
  | false =>
    cases hx : beInitdone c b (c.getMyProctabSize b.proctabMsg).2 <;>
      simp [beContLaunchBp, released, hm, hx, Except.map]
  | true =>
    rw [beContLaunchBp, if_pos hm]
    dsimp only
    rw [writeLmonpLongMsg_bind (by rfl)]
    cases hs : f.sent 0 with
    | false => simp [released, hm, hs, Feed.answer]
    | true =>
      cases hx : beInitdone c b (c.getMyProctabSize b.proctabMsg).2 <;>
        simp [released, hm, hs, hx, Feed.answer, Except.map]

/-- It succeeds when the message of the master goes out and process control completes. -/
theorem released_ok {c : Calls} {d : PerDaemonData} {b : PerBeData} {f : Feed} :
    (∃ f', released c d b f = .ok f') ↔ (d.isMaster = true → f.sent 0 = true) ∧ c.ReleaseOk b := by
  rw [released]
  split
  · rename_i h
    refine iff_of_false (by simp) fun hr => ?_
    rw [hr.1 h.1] at h
    cases h.2
  · rename_i h
    have hsent : d.isMaster = true → f.sent 0 = true := by
      intro hm
      cases hs : f.sent 0 with
      | true => rfl
      | false => exact absurd ⟨hm, hs⟩ h
    by_cases hr : c.ReleaseOk b
    · rw [beInitdone_ok hr]
      exact iff_of_true ⟨_, rfl⟩ ⟨hsent, hr⟩
    · rw [beInitdone_error hr]
      exact iff_of_false (by simp [Except.map]) fun h => hr h.2

/-- The size that a table of host names says in its header is the size of its buffer. -/
theorem hostnameMsg_size {mc : MsgClass} {type : Nat} {width : UInt32} {buf : List UInt8} {m : Msg}
    {size : UInt32} (h : hostnameMsg mc type width buf = some (m, size)) : msgsize m.hdr = size := by
  rw [hostnameMsg] at h
  split at h
  · cases h
  · cases h
    have hlen : ∀ o : UInt32, (hostnameHeader mc type width o).lmonPayloadLength = o + width * 4 ∧
        (hostnameHeader mc type width o).usrPayloadLength = 0 := by
      intro o
      rw [hostnameHeader]
      split <;> exact ⟨rfl, rfl⟩
    rw [msgsize, (hlen _).1, (hlen _).2, UInt32.add_zero, UInt32.add_comm _ (width * 4),
      UInt32.add_assoc]

/-- The feed behind a header. -/
def afterHeader (f : Feed) : Feed := { f with headers := fun i => f.headers (i + 1) }

/-- The feed behind a payload. -/
def afterPayload (f : Feed) : Feed := { f with payloads := fun i => f.payloads (i + 1) }

theorem expectFetobe_resolve (t : FeToBeMsg) (f : Feed) :
    (expectFetobe t).resolve Feed.answer f =
      if isFetobe (f.headers 0).2 t = true then .ret ((f.headers 0).2, afterHeader f)
      else .fail .ebdmsg := by
  rw [expectFetobe, readLmonpMsgheader, Daemon.ask_bind, Daemon.resolve_op]
  exact Daemon.resolve_ite _ _ _ _ _

theorem beRecvMode_resolve (f : Feed) : beRecvMode.resolve Feed.answer f =
    match tracingMode (f.headers 0).2 with
    | none => .fail .ebdmsg
    | some m => .ret (m, afterHeader f) := by
  rw [beRecvMode, readLmonpMsgheader, Daemon.ask_bind, Daemon.resolve_op]
  show (match tracingMode (f.headers 0).2 with
    | none => .fail .ebdmsg
    | some m => .ret m : Sock UInt32).resolve _ _ = _
  cases tracingMode (f.headers 0).2 <;> rfl

theorem beRecvProctab_ok {f : Feed} (h : HasProctab f) : beRecvProctab.resolve Feed.answer f =
    .ret (((f.headers 0).2, (f.payloads 0).getD []), afterPayload (afterHeader f)) := by
  obtain ⟨ht, hb, hp⟩ := h
  rw [beRecvProctab, Daemon.resolve_bind, expectFetobe_resolve, if_pos ht, Daemon.ret_bind,
    if_neg hb, readLmonpPayloads, Daemon.ask_bind, Daemon.resolve_op]
  exact congrArg (fun p : Sock _ => p.resolve _ _) (if_neg (not_not.mpr hp))

theorem beRecvProctab_fail {f : Feed} (h : ¬ HasProctab f) : beRecvProctab.resolve Feed.answer f =
    .fail .ebdmsg := by
  rw [beRecvProctab, Daemon.resolve_bind, expectFetobe_resolve]
  split
  · rename_i ht
    rw [Daemon.ret_bind]
    split
    · rfl
    · rename_i hb
      rw [readLmonpPayloads, Daemon.ask_bind, Daemon.resolve_op]
      exact congrArg (fun p : Sock _ => p.resolve _ _) (if_pos fun hp => h ⟨ht, hb, hp⟩)
  · rfl

theorem beRecvUsrdata_ok {f : Feed} (h : isFetobe (f.headers 0).2 .febeUsrdata = true) :
    ∃ f', beRecvUsrdata.resolve Feed.answer f = .ret (
        (if 0 < (f.headers 0).2.usrPayloadLength.toInt32 then some ((f.payloads 0).getD []) else none),
        f') ∧ f'.sent = f.sent := by
  rw [beRecvUsrdata, Daemon.resolve_bind, expectFetobe_resolve, if_pos h, Daemon.ret_bind]
  dsimp only
  split
  · exact ⟨_, rfl, rfl⟩
  · exact ⟨_, rfl, rfl⟩

theorem beRecvUsrdata_fail {f : Feed} (h : isFetobe (f.headers 0).2 .febeUsrdata ≠ true) :
    beRecvUsrdata.resolve Feed.answer f = .fail .ebdmsg := by
  rw [beRecvUsrdata, Daemon.resolve_bind, expectFetobe_resolve, if_neg h, Daemon.fail_bind]

theorem beRecvMode_ok {f : Feed} {m : UInt32} (h : tracingMode (f.headers 0).2 = some m) :
    beRecvMode.resolve Feed.answer f = .ret (m, afterHeader f) := by
  rw [beRecvMode_resolve, h]

theorem beRecvMode_fail {f : Feed} (h : tracingMode (f.headers 0).2 = none) :
    beRecvMode.resolve Feed.answer f = .fail .ebdmsg := by
  rw [beRecvMode_resolve, h]

/-- What the master reads in its second block, behind the write of the host names. -/
def beRecv : Sock PerBeData := do
  let (recvmsg, payload) ← beRecvProctab
  let isLaunch ← beRecvMode
  let rm ← expectFetobe .febeRmType
  let udata ← beRecvUsrdata
  return ⟨isLaunch, rm.numTasks.toUInt32, msgsize recvmsg, recvmsg.bytes ++ payload, udata⟩

theorem beRecv_ok {f : Feed} (hproctab : HasProctab f) (hmode : tracingMode (f.headers 1).2 ≠ none)
    (hrm : isFetobe (f.headers 2).2 .febeRmType = true)
    (husr : isFetobe (f.headers 3).2 .febeUsrdata = true) :
    ∃ f', beRecv.resolve Feed.answer f = .ret (received f, f') ∧ f'.sent = f.sent := by
  obtain ⟨m, hm⟩ := Option.ne_none_iff_exists'.mp hmode
  have hmode : beRecvMode.resolve Feed.answer (afterPayload (afterHeader f)) = _ := beRecvMode_ok hm
  obtain ⟨f', hf', hsent⟩ := @beRecvUsrdata_ok
    (afterHeader (afterHeader (afterPayload (afterHeader f)))) husr
  refine ⟨f', ?_, hsent⟩
  rw [beRecv, Daemon.resolve_bind, beRecvProctab_ok hproctab, Daemon.ret_bind]
  dsimp only
  rw [Daemon.resolve_bind, hmode, Daemon.ret_bind, Daemon.resolve_bind, expectFetobe_resolve, if_pos,
    Daemon.ret_bind, Daemon.resolve_bind, hf', Daemon.ret_bind]
  · simp only [received, hm, Option.getD_some]
    rfl
  · exact hrm

theorem beRecv_fail {f : Feed} (h : ¬ (HasProctab f ∧ tracingMode (f.headers 1).2 ≠ none ∧
    isFetobe (f.headers 2).2 .febeRmType = true ∧ isFetobe (f.headers 3).2 .febeUsrdata = true)) :
    beRecv.resolve Feed.answer f = .fail .ebdmsg := by
  rw [beRecv, Daemon.resolve_bind]
  by_cases hproctab : HasProctab f
  · rw [beRecvProctab_ok hproctab, Daemon.ret_bind]
    dsimp only
    rw [Daemon.resolve_bind]
    cases hm : tracingMode (f.headers 1).2 with
    | none =>
      rw [beRecvMode_fail hm, Daemon.fail_bind]
    | some m =>
      have hmode : beRecvMode.resolve Feed.answer (afterPayload (afterHeader f)) = _ :=
        beRecvMode_ok hm
      rw [hmode, Daemon.ret_bind, Daemon.resolve_bind, expectFetobe_resolve]
      split
      · rename_i hrm
        rw [Daemon.ret_bind, Daemon.resolve_bind, beRecvUsrdata_fail, Daemon.fail_bind]
        exact fun husr => h ⟨hproctab, by simp [hm], hrm, husr⟩
      · rfl
  · rw [beRecvProctab_fail hproctab, Daemon.fail_bind]

/-- The second master-only block of the back end. -/
theorem beMasterOnly_resolve (d : PerDaemonData) (buf : List UInt8) (f : Feed) :
    ∃ x, (beMasterOnly d buf).resolve Feed.answer f = Daemon.ofExcept x ∧
      (∀ r, x = .ok r → r.1 = received f ∧ r.2.sent 0 = f.sent 1) ∧
      ((∃ r, x = .ok r) ↔ BeReads d.width buf f) := by
  unfold beMasterOnly
  split
  · rename_i hnone
    refine ⟨.error .ebdmsg, rfl, fun _ hr => (by cases hr), iff_of_false (by simp) ?_⟩
    exact fun h => h.names hnone
  · rename_i msg size hmsg
    have hbe : BeReads d.width buf f ↔ HasProctab f ∧ tracingMode (f.headers 1).2 ≠ none ∧
        isFetobe (f.headers 2).2 .febeRmType = true ∧ isFetobe (f.headers 3).2 .febeUsrdata = true :=
      ⟨fun h => ⟨h.proctab, h.mode, h.rm, h.usrdata⟩,
        fun h => ⟨by simp [hmsg], h.1, h.2.1, h.2.2.1, h.2.2.2⟩⟩
    rw [writeLmonpLongMsg_bind (hostnameMsg_size hmsg), Daemon.resolve_op]
    change ∃ x, beRecv.resolve Feed.answer { f with sent := fun i => f.sent (i + 1) } = _ ∧ _
    by_cases h : BeReads d.width buf f
    · obtain ⟨f', hf', hsent⟩ := @beRecv_ok { f with sent := fun i => f.sent (i + 1) } h.proctab h.mode
        h.rm h.usrdata
      refine ⟨.ok (received f, f'), hf', ?_, iff_of_true ⟨_, rfl⟩ h⟩
      rintro _ ⟨⟩
      exact ⟨rfl, congrFun hsent 0⟩
    · exact ⟨.error .ebdmsg, beRecv_fail fun hr => h (hbe.mpr hr), fun _ hr => (by cases hr),
        iff_of_false (by simp) h⟩

/-! ## The back end -/

/-- The daemons behind the second master-only block: in each section of a slave all or none. -/
def TailAgrees (calls : Fin (n + 1) → Calls) (b : PerBeData) (sent : Bool) : Prop :=
  (∀ i, i ≠ 0 → (calls i).malloc (sizeT b.proctabMsgSize) = true) ∧
  ((∀ i, ¬ (calls i).SyncOk b) ∨ (∀ i, (calls i).SyncOk b) ∧
    Unanimous fun i => (i = 0 → sent = true) ∧ (calls i).ReleaseOk b)

theorem SyncOk_udata {c : Calls} {b : PerBeData} {u : Option (List UInt8)} :
    c.SyncOk { b with udata := u } ↔ c.SyncOk b :=
  ⟨fun h => ⟨h.size, h.buffer, h.table, h.init⟩, fun h => ⟨h.size, h.buffer, h.table, h.init⟩⟩

theorem ReleaseOk_udata {c : Calls} {b : PerBeData} {u : Option (List UInt8)} :
    c.ReleaseOk { b with udata := u } ↔ c.ReleaseOk b :=
  ⟨fun h => ⟨h.initdone, h.run⟩, fun h => ⟨h.initdone, h.run⟩⟩

/-- `beTail`, from process control on. -/
def beProcctl (c : Calls) (d : PerDaemonData) (b : PerBeData) : Sock PerBeData := do
  let proctabSize ← Daemon.ofExcept (beSync c b)
  Daemon.barrier
  beContLaunchBp d
  Daemon.ofExcept (beInitdone c b proctabSize)
  Daemon.barrier
  return b

/-- `beTail` behind the three broadcasts of integers. -/
def beTable (c : Calls) (d : PerDaemonData) (b : PerBeData) : Sock PerBeData := do
  Daemon.ofExcept (beProctabBuffer c d b.proctabMsgSize)
  let proctabMsg ← Daemon.broadcast b.proctabMsgSize.toNat b.proctabMsg
  beProcctl c d { b with proctabMsg := proctabMsg }

/-- An integer of the master is everybody's. -/
theorem matched_broadcastInt {α : Type} {x : Fin (n + 1) → UInt32}
    {k : Fin (n + 1) → UInt32 → Sock α} {f : Fin (n + 1) → Feed} :
    Matched (fun i => (broadcastInt (x i) >>= k i).resolve Feed.answer (f i)) ↔
      Matched (fun i => (k i (x 0)).resolve Feed.answer (f i)) := by
  refine (@matched_meet n _ _ (.broadcast 4) (fun i => le32 (x i)) _).trans ?_
  show Matched (fun i => (k i ((readLe32 (le32 (x 0))).getD 0)).resolve Feed.answer (f i)) ↔ _
  rw [readLe32_le32, Option.getD_some]

theorem beTail_ints (j : Job n) (b : Fin (n + 1) → PerBeData) (f : Fin (n + 1) → Feed) :
    Matched (fun i => (beTail (j.calls i) (j.daemon i) (b i)).resolve Feed.answer (f i)) ↔
      Matched (fun i => (beTable (j.calls i) (j.daemon i) { b 0 with
        proctabMsg := (b i).proctabMsg
        udata := (b i).udata }).resolve Feed.answer (f i)) :=
  matched_broadcastInt.trans (matched_broadcastInt.trans matched_broadcastInt)

theorem beProctabBuffer_ok {j : Job n} {size : UInt32} (i : Fin (n + 1)) :
    (∃ u, beProctabBuffer (j.calls i) (j.daemon i) size = .ok u) ↔
      (i ≠ 0 → (j.calls i).malloc (sizeT size) = true) := by
  rw [beProctabBuffer]
  by_cases hi : i = 0
  · rw [if_neg (by simp [hi])]
    exact iff_of_true ⟨_, rfl⟩ fun h => absurd hi h
  · have hm : (j.daemon i).isMaster = false := by simpa [hi] using (j.isMaster_iff i).not
    cases hx : (j.calls i).malloc (sizeT size) with
    | true => simp [hi]
    | false => simp [hi, hm]

/-- The section between the barriers: all daemons complete it or none does. -/
theorem release_matched (j : Job n) (b : Fin (n + 1) → PerBeData) (f : Fin (n + 1) → Feed) :
    Matched (fun i => (beContLaunchBp (j.daemon i) >>= fun _ =>
      Daemon.ofExcept (beInitdone (j.calls i) (b i) ((j.calls i).getMyProctabSize (b i).proctabMsg).2)
        >>= fun _ => Daemon.barrier >>= fun _ => (pure (b i) : Sock PerBeData)).resolve
          Feed.answer (f i)) ↔
      Unanimous fun i => ((j.daemon i).isMaster = true → (f i).sent 0 = true) ∧
        (j.calls i).ReleaseOk (b i) := by
  simp only [release_resolve, Unanimous, ← released_ok]
  exact matched_last

/-- Process control: in each of its two sections all daemons succeed or none does. -/
theorem beProcctl_matched (j : Job n) (b : Fin (n + 1) → PerBeData) (f : Fin (n + 1) → Feed) :
    Matched (fun i => (beProcctl (j.calls i) (j.daemon i) (b i)).resolve Feed.answer (f i)) ↔
      (∀ i, ¬ (j.calls i).SyncOk (b i)) ∨ (∀ i, (j.calls i).SyncOk (b i)) ∧
        Unanimous fun i => ((j.daemon i).isMaster = true → (f i).sent 0 = true) ∧
          (j.calls i).ReleaseOk (b i) := by
  have hsync : ∀ i, (∃ e, beSync (j.calls i) (b i) = .error e) ↔ ¬ (j.calls i).SyncOk (b i) := by
    intro i
    refine ⟨fun ⟨e, he⟩ h => ?_, beSync_error⟩
    rw [beSync_ok h] at he
    cases he
  simp only [beProcctl, Daemon.resolve_ofExcept_bind]
  refine (@matched_section n _ _ _ (fun i => beSync (j.calls i) (b i)) .barrier (fun _ _ => [])
    _).trans ?_
  simp only [hsync]
  refine or_congr_right ⟨?_, ?_⟩
  · rintro ⟨size, hsize, h⟩
    have hok : ∀ i, (j.calls i).SyncOk (b i) := fun i => by
      by_contra hn
      obtain ⟨e, he⟩ := beSync_error hn
      rw [hsize i] at he
      cases he
    refine ⟨hok, (release_matched j b f).mp ?_⟩
    obtain rfl : size = fun i => ((j.calls i).getMyProctabSize (b i).proctabMsg).2 :=
      funext fun i => by injection (hsize i).symm.trans (beSync_ok (hok i))
    exact h
  · rintro ⟨hok, h⟩
    exact ⟨_, fun i => beSync_ok (hok i), (release_matched j b f).mpr h⟩

/-- **The sections of the slaves.**  Behind the master's block the daemons are matched when no slave is
    short of memory and in each of the two sections for process control all fail or none does. -/
theorem beTail_matched (j : Job n) (b : Fin (n + 1) → PerBeData) (f : Fin (n + 1) → Feed) :
    Matched (fun i => (beTail (j.calls i) (j.daemon i) (b i)).resolve Feed.answer (f i)) ↔
      TailAgrees j.calls (b 0) ((f 0).sent 0) := by
  rw [beTail_ints]
  simp only [beTable, Daemon.resolve_ofExcept_bind]
  refine (@matched_section n _ _ _
    (fun i => beProctabBuffer (j.calls i) (j.daemon i) (b 0).proctabMsgSize)
    (.broadcast (b 0).proctabMsgSize.toNat) (fun i _ => (b i).proctabMsg) _).trans ?_
  simp only [error_iff, beProctabBuffer_ok]
  have hmaster : ¬ ∀ i : Fin (n + 1), ¬ (i ≠ 0 →
      (j.calls i).malloc (sizeT (b 0).proctabMsgSize) = true) := fun h => h 0 fun h => absurd rfl h
  rw [or_iff_right hmaster, TailAgrees]
  have hrest := beProcctl_matched j (fun i => { b 0 with udata := (b i).udata }) f
  simp only [SyncOk_udata, ReleaseOk_udata, Job.isMaster_iff] at hrest
  have hsent : ∀ i, (i = 0 → (f i).sent 0 = true) ↔ (i = 0 → (f 0).sent 0 = true) := fun i =>
    forall_congr' fun hi => by rw [hi]
  simp only [hsent] at hrest
  constructor
  · rintro ⟨u, hu, h⟩
    exact ⟨fun i => beProctabBuffer_ok i |>.mp ⟨_, hu i⟩, hrest.mp h⟩
  · rintro ⟨hslaves, h⟩
    choose u hu using fun i => beProctabBuffer_ok i |>.mpr (hslaves i)
    exact ⟨u, hu, hrest.mpr h⟩

/-- The master of a job has a buffer for the host names. -/
theorem Job.buffer_ok {j : Job n} (i : Fin (n + 1)) :
    (∃ u, beGatherBuffer (j.calls i) (j.daemon i) = .ok u) ↔ (i = 0 → j.Buffer) := by
  have hunit : (∃ u, beGatherBuffer (j.calls i) (j.daemon i) = .ok u) ↔
      beGatherBuffer (j.calls i) (j.daemon i) = .ok () := ⟨fun ⟨_, h⟩ => h, fun h => ⟨_, h⟩⟩
  rw [hunit, beGatherBuffer_eq_ok, j.isMaster_iff i]
  refine forall_congr' fun hi => ?_
  subst hi
  rfl

/-- A section that only the master can leave: it does so alone, or it leaves the others behind. -/
theorem forall_zero_or {p : Prop} : (∀ i : Fin (n + 1), ¬ (i = 0 → p)) ↔ n = 0 ∧ ¬ p := by
  constructor
  · intro h
    have h0 := h 0
    refine ⟨?_, fun hp => h0 fun _ => hp⟩
    by_contra hn
    obtain ⟨m, rfl⟩ := Nat.exists_eq_succ_of_ne_zero hn
    exact h 1 fun h1 => absurd h1 (by simp)
  · rintro ⟨rfl, hp⟩ i h
    exact hp (h (Fin.eq_zero i))

theorem forall_zero {p : Prop} : (∀ i : Fin (n + 1), i = 0 → p) ↔ p :=
  ⟨fun h => h 0 rfl, fun h _ _ => h⟩

/-- A master-only block at every daemon. -/
theorem masterBlock_resolve {ρ β : Type} (j : Job n)
    (p : Fin (n + 1) → Daemon SockOp SockOp.Ans ρ β) (b : β) {x₀ : Except ρ (β × Feed)}
    (h : (p 0).resolve Feed.answer j.feed = Daemon.ofExcept x₀) :
    ∃ x : Fin (n + 1) → Except ρ (β × Feed),
      (∀ i, (if (j.daemon i).isMaster then p i else pure b).resolve Feed.answer j.feed =
        Daemon.ofExcept (x i)) ∧
      x 0 = x₀ ∧ ∀ i, (∃ r, x i = .ok r) ↔ (i = 0 → ∃ r, x₀ = .ok r) := by
  refine ⟨fun i => if i = 0 then x₀ else .ok (b, j.feed), ?_, if_pos rfl, ?_⟩
  · intro i
    dsimp only
    by_cases hi : i = 0
    · subst hi
      rw [if_pos j.isMaster_zero, if_pos rfl, h]
    · rw [if_neg fun h => hi ((j.isMaster_iff i).mp h), if_neg hi]
      rfl
  · intro i
    dsimp only
    by_cases hi : i = 0
    · rw [if_pos hi]
      exact ⟨fun h _ => h, fun h => h hi⟩
    · rw [if_neg hi]
      exact iff_of_true ⟨_, rfl⟩ fun h => absurd h hi

/-- A section of a fleet that is told by a predicate: all fail, or all succeed and what is behind it
    matches. -/
theorem matched_block {ρ α β : Type} {x : Fin (n + 1) → Except ρ (β × Feed)}
    {p : Fin (n + 1) → Prop} {q : Prop} {g : Fin (n + 1) → β → Daemon SockOp SockOp.Ans ρ α}
    {c : Collective} {buf : Fin (n + 1) → β → List UInt8}
    {k : Fin (n + 1) → β → List UInt8 → Daemon SockOp SockOp.Ans ρ α}
    (hg : ∀ i b, g i b = .meet c (buf i b) (k i b)) (hp : ∀ i, (∃ r, x i = .ok r) ↔ p i)
    (hq : ∀ r : Fin (n + 1) → β × Feed, (∀ i, x i = .ok (r i)) →
      (Matched (fun i => (g i (r i).1).resolve Feed.answer (r i).2) ↔ q)) :
    Matched (fun i => Daemon.ofExcept (x i) >>= fun r => (g i r.1).resolve Feed.answer r.2) ↔
      (∀ i, ¬ p i) ∨ (∀ i, p i) ∧ q := by
  simp only [hg] at hq ⊢
  refine matched_section.trans ?_
  simp only [error_iff, hp]
  refine or_congr_right ⟨?_, ?_⟩
  · rintro ⟨r, hr, h⟩
    exact ⟨fun i => (hp i).mp ⟨_, hr i⟩, (hq r hr).mp (matched_meet.mpr h)⟩
  · rintro ⟨hall, h⟩
    choose r hr using fun i => (hp i).mpr (hall i)
    exact ⟨r, hr, matched_meet.mp ((hq r hr).mpr h)⟩

/-- The first master-only block: the master has its buffer, or it is alone and returns. -/
theorem buffer_matched {α : Type} (j : Job n) {k : Fin (n + 1) → List UInt8 → Comm LmonRc α} :
    Matched (fun i => Daemon.ofExcept (beGatherBuffer (j.calls i) (j.daemon i)) >>= fun _ =>
      .meet (.gather lmonDaemonHnMax) (j.hosts i) (k i)) ↔
      (n = 0 ∧ ¬ j.Buffer) ∨ j.Buffer ∧ Matched fun i =>
        k i (delivered (.gather lmonDaemonHnMax) (fun i => j.hosts i) i) := by
  refine matched_section.trans ?_
  simp only [error_iff, Job.buffer_ok]
  rw [forall_zero_or]
  refine or_congr_right ⟨?_, ?_⟩
  · rintro ⟨u, hu, h⟩
    exact ⟨(Job.buffer_ok 0).mp ⟨_, hu 0⟩ rfl, h⟩
  · rintro ⟨hbuffer, h⟩
    choose u hu using fun i => (Job.buffer_ok (j := j) i).mpr fun _ => hbuffer
    exact ⟨u, hu, h⟩

/-- A back-end daemon that is alone is unanimous. -/
theorem tailAgrees_alone {calls : Fin (0 + 1) → Calls} {b : PerBeData} {sent : Bool} :
    TailAgrees calls b sent := by
  have hsingle : ∀ p : Fin (0 + 1) → Prop, (∀ i, p i) ↔ p 0 := fun p =>
    ⟨fun h => h 0, fun h i => by rwa [Fin.eq_zero i]⟩
  refine ⟨fun i hi => absurd (Fin.eq_zero i) hi, ?_⟩
  rw [Unanimous, hsingle, hsingle, hsingle, hsingle]
  by_cases h : (calls 0).SyncOk b
  · exact Or.inr ⟨h, Classical.em _⟩
  · exact Or.inl h

/-- **LMON_be_handshake.**  The daemons of a job make the same collectives until they return, and all
    succeed or all fail, exactly when the master is alone or it gives up in none of its own blocks, no
    slave is short of memory, and in each section that all daemons run all give up or none does. -/
theorem be_matched (j : Job n) : Matched j.be ↔ n = 0 ∨
    j.Buffer ∧ BeReads (UInt32.ofNat (n + 1)) j.gathered j.feed ∧
      TailAgrees j.calls (received j.feed) (j.feed.sent 1) := by
  have hbe : j.be = fun i => Daemon.ofExcept (beGatherBuffer (j.calls i) (j.daemon i)) >>= fun _ =>
      .meet (.gather lmonDaemonHnMax) (j.hosts i) fun buf =>
        (beMasterBlock (j.daemon i) buf >>= beTail (j.calls i) (j.daemon i)).resolve
          Feed.answer j.feed := by
    funext i
    rw [Job.be, lmonBeHandshake_eq, Daemon.resolve_ofExcept_bind]
    rfl
  obtain ⟨x₀, hx₀, hok, hiff₀⟩ := beMasterOnly_resolve (j.daemon 0) j.gathered j.feed
  obtain ⟨x, hx, rfl, hiff⟩ := masterBlock_resolve j (fun i => beMasterOnly (j.daemon i)
    (delivered (.gather lmonDaemonHnMax) (fun i => j.hosts i) i)) .init hx₀
  simp only [hiff₀] at hiff
  have hsecond := @matched_block n _ _ _ x _ _
    (fun i b => beTail (j.calls i) (j.daemon i) b) (.broadcast 4) (fun i b => le32 b.isLaunch) _
    (fun i b => rfl) hiff fun r hr => by
      rw [beTail_matched j (fun i => (r i).1) (fun i => (r i).2), (hok _ (hr 0)).1,
        (hok _ (hr 0)).2]
  rw [hbe, buffer_matched]
  simp only [Daemon.resolve_bind, beMasterBlock, hx]
  rw [hsecond, forall_zero_or, forall_zero]
  constructor
  · rintro (⟨hn, -⟩ | ⟨hbuffer, ⟨hn, -⟩ | h⟩)
    · exact Or.inl hn
    · exact Or.inl hn
    · exact Or.inr ⟨hbuffer, h⟩
  · rintro (rfl | ⟨hbuffer, h⟩)
    · by_cases hbuffer : j.Buffer
      · by_cases hreads : BeReads (UInt32.ofNat (0 + 1)) j.gathered j.feed
        · exact Or.inr ⟨hbuffer, Or.inr ⟨hreads, tailAgrees_alone⟩⟩
        · exact Or.inr ⟨hbuffer, Or.inl ⟨rfl, hreads⟩⟩
      · exact Or.inl ⟨rfl, hbuffer⟩
    · exact Or.inr ⟨hbuffer, Or.inr h⟩

/-! ## The middleware -/

/-- The middleware's master finds user data. -/
structure MwReads (width : UInt32) (hngatherbuf : List UInt8) (f : Feed) : Prop where
  names : hostnameMsg .fetomw FeToMwMsg.mwfeHostname.ctorIdx width hngatherbuf ≠ none
  usrdata : (f.headers 0).2.type.toNat = FeToMwMsg.femwUsrdata.ctorIdx

theorem mwMasterOnly_resolve (d : PerDaemonData) (buf : List UInt8) (f : Feed) :
    ∃ x, (mwMasterOnly d buf).resolve Feed.answer f = Daemon.ofExcept x ∧
      ((∃ r, x = .ok r) ↔ MwReads d.width buf f) := by
  unfold mwMasterOnly
  split
  · rename_i hnone
    exact ⟨.error .ebdmsg, rfl, iff_of_false (by simp) fun h => h.names hnone⟩
  · rename_i msg size hmsg
    rw [writeLmonpLongMsg_bind (hostnameMsg_size hmsg), Daemon.resolve_op, readLmonpMsgheader,
      Daemon.ask_bind, Daemon.resolve_op]
    dsimp only [Feed.answer]
    split
    · rename_i ht
      exact ⟨.error .ebdmsg, rfl, iff_of_false (by simp) fun h => ht h.usrdata⟩
    · rename_i ht
      have hreads : MwReads d.width buf f := ⟨by simp [hmsg], not_not.mp ht⟩
      split
      · exact ⟨.ok (_, _), rfl, iff_of_true ⟨_, rfl⟩ hreads⟩
      · exact ⟨.ok (_, _), rfl, iff_of_true ⟨_, rfl⟩ hreads⟩

/-- **LMON_mw_handshake.**  The daemons are matched exactly when the master is alone or gives up in
    none of its blocks. -/
theorem mw_matched (j : Job n) : Matched j.mw ↔
    n = 0 ∨ j.Buffer ∧ MwReads (UInt32.ofNat (n + 1)) j.gathered j.feed := by
  have hmw : j.mw = fun i => Daemon.ofExcept (beGatherBuffer (j.calls i) (j.daemon i)) >>= fun _ =>
      .meet (.gather lmonDaemonHnMax) (j.hosts i) fun buf =>
        (mwMasterBlock (j.daemon i) buf >>= fun udata => Daemon.barrier >>= fun _ =>
          (pure udata : Sock (Option (List UInt8)))).resolve Feed.answer j.feed := by
    funext i
    rw [Job.mw, lmonMwHandshake, Daemon.resolve_ofExcept_bind]
    rfl
  obtain ⟨x₀, hx₀, hiff₀⟩ := mwMasterOnly_resolve (j.daemon 0) j.gathered j.feed
  obtain ⟨x, hx, rfl, hiff⟩ := masterBlock_resolve j (fun i => mwMasterOnly (j.daemon i)
    (delivered (.gather lmonDaemonHnMax) (fun i => j.hosts i) i)) none hx₀
  simp only [hiff₀] at hiff
  have hsecond := @matched_last n LmonRc _ _ x .barrier (fun _ _ => []) (fun _ r _ => r)
  simp only [hiff] at hsecond
  rw [hmw, buffer_matched]
  simp only [Daemon.resolve_bind, mwMasterBlock, hx]
  refine (or_congr_right (and_congr_right fun _ => hsecond)).trans ?_
  rw [forall_zero_or, forall_zero]
  constructor
  · rintro (⟨hn, -⟩ | ⟨hbuffer, h | ⟨hn, -⟩⟩)
    · exact Or.inl hn
    · exact Or.inr ⟨hbuffer, h⟩
    · exact Or.inl hn
  · rintro (hn | ⟨hbuffer, h⟩)
    · by_cases hbuffer : j.Buffer
      · exact Or.inr ⟨hbuffer, (Classical.em _).imp_right fun h => ⟨hn, h⟩⟩
      · exact Or.inl ⟨hn, hbuffer⟩
    · exact Or.inr ⟨hbuffer, Or.inl h⟩

/-! ## The colocation spawner -/

/-- The master finds the request to assist, and its payload. -/
structure Requested (f : Feed) : Prop where
  msgclass : (f.headers 0).2.msgclass.toNat = MsgClass.fetobe.ctorIdx
  type : isFetobe (f.headers 0).2 .febeAssistMwColoc = true
  length : (f.headers 0).2.lmonPayloadLength ≠ 0
  payload : bytesread (f.payloads 0) =
    (f.headers 0).2.lmonPayloadLength + (f.headers 0).2.usrPayloadLength

theorem bemasterRequest_resolve (f : Feed) :
    ∃ x, bemasterRequest.resolve Feed.answer f = Daemon.ofExcept x ∧
      (∀ r, x = .ok r → r.1.1 = (f.headers 0).2.lmonPayloadLength) ∧
      ((∃ r, x = .ok r) ↔ Requested f) := by
  rw [bemasterRequest, readLmonpMsgheader, Daemon.ask_bind, Daemon.resolve_op]
  dsimp only [Feed.answer]
  split
  · rename_i hbad
    refine ⟨.error _, rfl, fun _ hr => (by cases hr), iff_of_false (by simp) fun h => ?_⟩
    rcases hbad with hbad | hbad | hbad
    · exact hbad h.msgclass
    · rw [h.type] at hbad
      cases hbad
    · exact h.length hbad
  · rename_i hgood
    push Not at hgood
    obtain ⟨hc, ht, hl⟩ := hgood
    rw [readLmonpPayloads, Daemon.ask_bind, Daemon.resolve_op]
    by_cases hpl : bytesread (f.payloads 0) =
      (f.headers 0).2.lmonPayloadLength + (f.headers 0).2.usrPayloadLength
    · refine ⟨.ok (((f.headers 0).2.lmonPayloadLength, (f.payloads 0).getD []),
        afterPayload (afterHeader f)),
        congrArg (fun p : Assist _ => p.resolve _ _) (if_neg (not_not.mpr hpl)), ?_,
        iff_of_true ⟨_, rfl⟩ ⟨hc, by simpa using ht, hl, hpl⟩⟩
      rintro _ ⟨⟩
      rfl
    · exact ⟨.error _, congrArg (fun p : Assist _ => p.resolve _ _) (if_pos hpl),
        fun _ hr => (by cases hr), iff_of_false (by simp) fun h => hpl h.payload⟩

/-- Either side of the spawner behind the broadcast of the length. -/
def assistDaemon (c : Calls) (d : PerDaemonData) (leng : UInt32) (lmonpl : List UInt8) :
    Assist (List UInt8 × List (List UInt8)) := do
  Daemon.ofExcept (if d.isMaster then .ok () else beslaveBuffer c leng)
  let lmonpl ← Daemon.broadcast leng.toNat lmonpl
  return parseMwAssistLmonpl lmonpl

/-- Either side of the spawner behind the request. -/
def assistTail (c : Calls) (d : PerDaemonData) (r : UInt32 × List UInt8) :
    Assist (List UInt8 × List (List UInt8)) := do
  let bs ← Daemon.broadcast 4 (if d.isMaster then le32 r.1 else [])
  assistDaemon c d (if d.isMaster then r.1 else (readLe32 bs).getD 0) r.2

theorem spawn_eq (c : Calls) (d : PerDaemonData) : spawn c d =
    (if d.isMaster then bemasterRequest else pure (0, [])) >>= assistTail c d := by
  cases hm : d.isMaster with
  | true =>
    rw [spawn, hm, if_pos rfl, if_pos rfl, doBemaster]
    refine congrArg (bemasterRequest >>= ·) (funext fun r => ?_)
    simp only [assistTail, assistDaemon, hm, if_true, Daemon.ofExcept_ok_bind]
  | false =>
    simp only [spawn, doBeslave, assistTail, assistDaemon, hm, Bool.false_eq_true, if_false, Daemon.pure_eq,
      Daemon.ret_bind]

theorem beslaveBuffer_ok {j : Job n} {leng : UInt32} (i : Fin (n + 1)) :
    (∃ u, (if (j.daemon i).isMaster then .ok () else beslaveBuffer (j.calls i) leng) = .ok u) ↔
      (i ≠ 0 → (j.calls i).malloc leng.toNat = true) := by
  by_cases hi : i = 0
  · rw [if_pos ((j.isMaster_iff i).mpr hi)]
    exact iff_of_true ⟨_, rfl⟩ fun h => absurd hi h
  · rw [if_neg fun h => hi ((j.isMaster_iff i).mp h), beslaveBuffer]
    cases (j.calls i).malloc leng.toNat <;> simp [hi]

/-- The master's length is everybody's, and a slave needs that much memory. -/
theorem assistTail_matched (j : Job n) (r : Fin (n + 1) → UInt32 × List UInt8)
    (f : Fin (n + 1) → Feed) :
    Matched (fun i => (assistTail (j.calls i) (j.daemon i) (r i)).resolve Feed.answer (f i)) ↔
      ∀ i, i ≠ 0 → (j.calls i).malloc (r 0).1.toNat = true := by
  refine (@matched_meet n _ _ (.broadcast 4)
    (fun i => if (j.daemon i).isMaster then le32 (r i).1 else []) _).trans ?_
  have hleng : ∀ i, (if (j.daemon i).isMaster then (r i).1 else
      (readLe32 (if (j.daemon 0).isMaster then le32 (r 0).1 else [])).getD 0) = (r 0).1 := by
    intro i
    rw [if_pos j.isMaster_zero, readLe32_le32, Option.getD_some]
    split
    · rename_i hm
      rw [(j.isMaster_iff i).mp hm]
    · rfl
  show Matched (fun i => (assistDaemon (j.calls i) (j.daemon i) (if (j.daemon i).isMaster then (r i).1
    else (readLe32 (if (j.daemon 0).isMaster then le32 (r 0).1 else [])).getD 0) (r i).2).resolve
      Feed.answer (f i)) ↔ _
  simp only [hleng, assistDaemon, Daemon.resolve_ofExcept_bind]
  refine (@matched_last n String _ _ (fun i => if (j.daemon i).isMaster then .ok () else
    beslaveBuffer (j.calls i) (r 0).1) (.broadcast (r 0).1.toNat) (fun i _ => (r i).2)
    (fun i _ bs => (parseMwAssistLmonpl bs, f i))).trans ?_
  simp only [beslaveBuffer_ok]
  refine or_iff_left fun h => h 0 fun h => absurd rfl h

/-- **The colocation spawner.**  The daemons are matched exactly when the master is alone, or it finds
    its request and every slave has a buffer for it. -/
theorem coloc_matched (j : Job n) : Matched j.coloc ↔ n = 0 ∨ Requested j.feed ∧
    ∀ i, i ≠ 0 → (j.calls i).malloc (j.feed.headers 0).2.lmonPayloadLength.toNat = true := by
  obtain ⟨x₀, hx₀, hok, hiff₀⟩ := bemasterRequest_resolve j.feed
  obtain ⟨x, hx, rfl, hiff⟩ := masterBlock_resolve j (fun _ => bemasterRequest) (0, []) hx₀
  simp only [hiff₀] at hiff
  have hblock := @matched_block n _ _ _ x _ _
    (fun i r => assistTail (j.calls i) (j.daemon i) r) (.broadcast 4)
    (fun i r => if (j.daemon i).isMaster then le32 r.1 else []) _ (fun i r => rfl) hiff fun r hr => by
      rw [assistTail_matched j (fun i => (r i).1) (fun i => (r i).2), hok _ (hr 0)]
  have hcoloc : j.coloc = fun i => Daemon.ofExcept (x i) >>= fun r =>
      (assistTail (j.calls i) (j.daemon i) r.1).resolve Feed.answer r.2 := by
    funext i
    rw [Job.coloc, spawn_eq, Daemon.resolve_bind, hx]
  rw [hcoloc, hblock, forall_zero_or, forall_zero]
  constructor
  · rintro (⟨hn, -⟩ | h)
    · exact Or.inl hn
    · exact Or.inr h
  · rintro (rfl | h)
    · by_cases hreq : Requested j.feed
      · exact Or.inr ⟨hreq, fun i hi => absurd (Fin.eq_zero i) hi⟩
      · exact Or.inl ⟨rfl, hreq⟩
    · exact Or.inr h

/-! ## All three -/

/-- **The collectives match** in none but these cases. -/
theorem collectives_matched (j : Job n) :
    (Matched j.be ↔ n = 0 ∨ j.Buffer ∧ BeReads (UInt32.ofNat (n + 1)) j.gathered j.feed ∧
      TailAgrees j.calls (received j.feed) (j.feed.sent 1)) ∧
    (Matched j.mw ↔ n = 0 ∨ j.Buffer ∧ MwReads (UInt32.ofNat (n + 1)) j.gathered j.feed) ∧
    (Matched j.coloc ↔ n = 0 ∨ Requested j.feed ∧
      ∀ i, i ≠ 0 → (j.calls i).malloc (j.feed.headers 0).2.lmonPayloadLength.toNat = true) :=
  ⟨be_matched j, mw_matched j, coloc_matched j⟩

/-- Calls of which none fails. -/
def wellCalls : Calls where
  malloc _ := true
  getMyProctabSize _ := (.ok, 1)
  getMyProctab _ _ := .ok
  procctlInit _ _ _ _ := .ok
  procctlInitdone _ _ _ := .ok
  procctlRun _ _ := .ok

/-- Two daemons, and user data where their master expects the process table. -/
def wrongMessage : Job 1 where
  calls _ := wellCalls
  hosts _ := 104 :: List.replicate 107 0
  feed :=
    { headers := fun _ => (true, setMsgHeader .fetobe FeToBeMsg.febeUsrdata.ctorIdx 0 0 0 0 0 0 0)
      payloads := fun _ => none
      sent := fun _ => true }

/-- **The master returns LMON_EBDMSG** and the other daemon waits in a broadcast. -/
theorem wrongMessage_unmatched : ¬ Matched wrongMessage.be := by
  rw [be_matched]
  rintro (h | ⟨-, h, -⟩)
  · cases h
  · exact absurd h.proctab.1 (by decide)

end LaunchMON.Backend
