/-
  The six functions that receive user data: `LMON_fe_handleBeFeUsrData` and `LMON_fe_handleMwFeUsrData`,
  the user data of `LMON_be_handshake` and of `LMON_mw_handshake`, `LMON_be_recvUsrData` and
  `LMON_mw_recvUsrData`.

  All of them read a header, make room for the user data that it announces, read these, and hand them to
  a callback.  They have been copied from each other, and they differ in what they look at:

                       the header    the room      the user data   the callback   its result
      front end           no           yes             no              yes            yes
      handshake           no           no              no              no             no
      recvUsrData         yes          yes             no              yes            yes

  1. **What arrives** (`World`) is a sequence of bytes, and then the connection fails.  So a header or the
     user data are complete or not; memory that has not been written holds anything.

  2. **What should be** (`Honest`): the callback is called only if there is one and with what has been
     announced, and LMON_OK is returned only for a message that has been received as a whole.

  3. **When it is so** (`usrReceive_iff`): the front end and `recvUsrData` go wrong only where they get as
     far as the callback with an incomplete message; the handshakes need a complete message, and a
     callback that succeeds, whenever the type is right.
-/
import LaunchMON.Backend.Sections
import LaunchMON.Backend.UsrData
import LaunchMON.Frontend.MwHandshake

namespace LaunchMON.Frontend.UsrReceive

open Backend CBytes Fleet Lmonp

/-! ## What the functions find -/

/-- The session or daemon, its memory, and the bytes that arrive before the connection fails.  A null
    pointer for the data of the caller is of interest in the front end only. -/
structure World where
  registered : Bool
  unpack : Option (List UInt8 → Int32)
  dataNull : Bool
  malloc : ℕ → Bool
  /-- a block from `malloc` -/
  garbage : List UInt8
  /-- the variable for the header -/
  stale : List UInt8
  arrived : List UInt8

/-- `read_lmonp_msgheader`: whether it succeeds, and the variable afterwards. -/
def World.header (w : World) : Bool × Header :=
  if sizeofLmonp ≤ w.arrived.length then (true, Header.ofBytes w.arrived)
  else (false, Header.ofBytes (w.arrived ++ w.stale.drop w.arrived.length))

/-- The size of the user data in the variable. -/
def World.usr (w : World) : UInt32 := w.header.2.usrPayloadLength

/-- `read_lmonp_payloads` behind the header, as the other models have it.  Its length is an `int`, and
    `read` takes no negative one. -/
def World.payload (w : World) : Option (List UInt8) :=
  if w.header.1 = true ∧ 0 < w.usr.toInt32 ∧ sizeofLmonp + w.usr.toNat ≤ w.arrived.length then
    some ((w.arrived.drop sizeofLmonp).take w.usr.toNat)
  else none

/-- The block for the user data after `read_lmonp_payloads`, and which bytes of the connection fill it:
    the place of the first, and how many.  There may be no block. -/
def World.readUsr (w : World) (block : Bool) : List UInt8 × Option (ℕ × ℕ) :=
  match block, w.payload with
  | true, some bs => (bs, some (sizeofLmonp, w.usr.toNat))
  | _, _ => (w.garbage, none)

/-- The bytes of the connection that have been received. -/
def World.took (w : World) (filled : Option (ℕ × ℕ)) : ℕ :=
  (if w.header.1 then sizeofLmonp else 0) + (filled.map Prod.snd).getD 0

/-- A call of the callback: the block, what fills it, and the result; `none` where the pointer to the
    callback is null. -/
structure Unpacking where
  buf : List UInt8
  filled : Option (ℕ × ℕ)
  ret : Option Int32
  deriving DecidableEq

/-- What a function does.  It does not return if it calls through a null pointer. -/
structure Outcome where
  rc : Option LmonRc
  unpackings : List Unpacking
  took : ℕ
  deriving DecidableEq

/-! ## The functions -/

/-- The two functions of the front end: the messages that they accept, and the code for a callback that
    fails. -/
def World.handleUsrData (w : World) (isMsg : Header → Bool) (negative : LmonRc) : Outcome :=
  if w.registered = false then ⟨some .ebdarg, [], 0⟩
  else
    let msg := w.header.2
    if isMsg msg = false ∨ msg.lmonPayloadLength ≠ 0 then ⟨some .ebdmsg, [], w.took none⟩
    else if msg.usrPayloadLength = 0 then ⟨some .enopld, [], w.took none⟩
    else if w.malloc msg.usrPayloadLength.toNat = false then ⟨some .enomem, [], w.took none⟩
    else
      let (usrdatabuf, filled) := w.readUsr true
      match w.unpack with
      | none => ⟨some .encllb, [], w.took filled⟩
      | some unpack =>
        if w.dataNull then ⟨some .encllb, [], w.took filled⟩
        else ⟨some (if unpack usrdatabuf < 0 then negative else .ok),
          [⟨usrdatabuf, filled, some (unpack usrdatabuf)⟩], w.took filled⟩

/-- The messages with user data of the back end. -/
def isBefe (h : Header) : Bool := isFetobeMsg h .befeReady || isFetobeMsg h .befeUsrdata

/-- The messages with user data of the middleware. -/
def isMwfe (h : Header) : Bool := isFetomwMsg h .mwfeReady || isFetomwMsg h .mwfeUsrdata

/-- `LMON_fe_handleBeFeUsrData`. -/
def World.lmonFeHandleBeFeUsrData (w : World) : Outcome := w.handleUsrData isBefe .enegcb

/-- `LMON_fe_handleMwFeUsrData`. -/
def World.lmonFeHandleMwFeUsrData (w : World) : Outcome := w.handleUsrData isMwfe .ecllb

/-- A handshake from the user data on; `rest` is what it returns if it gets behind them. -/
def World.handshake (w : World) (type : ℕ) (rest : LmonRc) : Outcome :=
  let recvmsg := w.header.2
  if recvmsg.type.toNat ≠ type then ⟨some .ebdmsg, [], w.took none⟩
  else if 0 < recvmsg.usrPayloadLength.toInt32 then
    let (usrpl, filled) := w.readUsr (w.malloc recvmsg.usrPayloadLength.toNat)
    match w.unpack with
    | none => ⟨none, [⟨usrpl, filled, none⟩], w.took filled⟩
    | some unpack => ⟨some rest, [⟨usrpl, filled, some (unpack usrpl)⟩], w.took filled⟩
  else ⟨some rest, [], w.took none⟩

/-- `LMON_be_handshake`, the master. -/
def World.lmonBeHandshake (w : World) (rest : LmonRc) : Outcome :=
  w.handshake FeToBeMsg.febeUsrdata.ctorIdx rest

/-- `LMON_mw_handshake`, the master. -/
def World.lmonMwHandshake (w : World) (rest : LmonRc) : Outcome :=
  w.handshake FeToMwMsg.femwUsrdata.ctorIdx rest

/-- The result of a receiving call of the master, if the broadcast behind it returns `rest`. -/
def duplicated (rest lrc : LmonRc) : LmonRc := if rest = .ok then lrc else .esubcom

/-- The two receiving calls of a master. -/
def World.recvUsrData (w : World) (type : ℕ) (rest : LmonRc) : Outcome :=
  if w.header.1 = false then ⟨some (duplicated rest .esys), [], w.took none⟩
  else
    let recvmsg := w.header.2
    if recvmsg.type.toNat ≠ type then ⟨some (duplicated rest .ebdmsg), [], w.took none⟩
    else if 0 < recvmsg.usrPayloadLength.toInt32 then
      if w.malloc recvmsg.usrPayloadLength.toNat = false then
        ⟨some (duplicated rest .enomem), [], w.took none⟩
      else
        let (usrpl, filled) := w.readUsr true
        match w.unpack with
        | none => ⟨some (duplicated rest .encllb), [], w.took filled⟩
        | some unpack =>
          ⟨some (duplicated rest (if unpack usrpl < 0 then .enegcb else .ok)),
            [⟨usrpl, filled, some (unpack usrpl)⟩], w.took filled⟩
    else ⟨some (duplicated rest .enopld), [], w.took none⟩

/-- `LMON_be_recvUsrData`. -/
def World.lmonBeRecvUsrData (w : World) (rest : LmonRc) : Outcome :=
  w.recvUsrData FeToBeMsg.febeUsrdata.ctorIdx rest

/-- `LMON_mw_recvUsrData`. -/
def World.lmonMwRecvUsrData (w : World) (rest : LmonRc) : Outcome :=
  w.recvUsrData FeToMwMsg.femwUsrdata.ctorIdx rest

/-! ## What should be -/

/-- **A receive that tells of nothing but what it has got.** -/
structure Honest (w : World) (o : Outcome) : Prop where
  called : ∀ u ∈ o.unpackings, w.unpack ≠ none ∧ w.header.1 = true ∧
    u.filled = some (sizeofLmonp + w.header.2.lmonPayloadLength.toNat, w.usr.toNat)
  ok : o.rc = some .ok → w.header.1 = true ∧
    o.took = sizeofLmonp + w.header.2.lmonPayloadLength.toNat + w.usr.toNat ∧
    (0 < w.usr.toNat → ∃ u ∈ o.unpackings, ∃ r, u.ret = some r ∧ 0 ≤ r)
  returns : o.rc ≠ none

/-- A message with user data and nothing else has arrived as a whole. -/
structure World.Complete (w : World) : Prop where
  header : w.header.1 = true
  lmon : w.header.2.lmonPayloadLength = 0
  size : 0 < w.usr.toInt32
  payload : sizeofLmonp + w.usr.toNat ≤ w.arrived.length

variable {w : World}

theorem honest_error {rc : LmonRc} {took : ℕ} (h : rc ≠ .ok) : Honest w ⟨some rc, [], took⟩ where
  called _ hu := absurd hu List.not_mem_nil
  ok hok := absurd (Option.some.inj hok) h
  returns := nofun

theorem readUsr_complete (h : w.Complete) :
    w.readUsr true = ((w.arrived.drop sizeofLmonp).take w.usr.toNat, some (sizeofLmonp, w.usr.toNat)) := by
  have hpayload : w.payload = some ((w.arrived.drop sizeofLmonp).take w.usr.toNat) :=
    if_pos ⟨h.header, h.size, h.payload⟩
  unfold World.readUsr
  rw [hpayload]

/-- **The callback with a complete message**, and a result that goes with the one of the callback. -/
theorem honest_unpacked {unpack : List UInt8 → Int32} {rc : LmonRc} {bs : List UInt8} (h : w.Complete)
    (hsome : w.unpack = some unpack) (hrc : rc = .ok → 0 ≤ unpack bs) :
    Honest w ⟨some rc, [⟨bs, some (sizeofLmonp, w.usr.toNat), some (unpack bs)⟩],
      w.took (some (sizeofLmonp, w.usr.toNat))⟩ where
  called u hu := by
    obtain rfl := List.mem_singleton.mp hu
    refine ⟨by rw [hsome]; exact nofun, h.header, ?_⟩
    rw [h.lmon]
    rfl
  ok hok := by
    refine ⟨h.header, ?_, fun _ => ?_⟩
    · rw [World.took, h.header, h.lmon]
      rfl
    · exact ⟨_, List.mem_singleton_self _, _, rfl, hrc (Option.some.inj hok)⟩
  returns := nofun

/-- Where the callback has been called as it should be, the message is complete. -/
theorem complete_of_called {block : Bool} (hmem : ∃ rc ret took,
      Honest w ⟨rc, [⟨(w.readUsr block).1, (w.readUsr block).2, ret⟩], took⟩) :
    block = true ∧ w.Complete := by
  obtain ⟨rc, ret, took, h⟩ := hmem
  obtain ⟨-, hheader, hfilled⟩ := h.called _ (List.mem_singleton_self _)
  dsimp only at hfilled
  unfold World.readUsr at hfilled
  split at hfilled
  · next bs hpayload =>
    have hsplit := hpayload
    unfold World.payload at hsplit
    split at hsplit
    · next hand =>
      refine ⟨rfl, hheader, ?_, hand.2.1, hand.2.2⟩
      have hplace := (Prod.mk.inj (Option.some.inj hfilled)).1
      exact UInt32.toNat_inj.mp (by rw [UInt32.toNat_zero]; omega)
    · cases hsplit
  · cases hfilled

/-! ## When it is so -/

/-- The front end: if it gets as far as the callback, the message is complete. -/
def World.FrontEndSafe (w : World) (isMsg : Header → Bool) : Prop :=
  w.registered = true → isMsg w.header.2 = true → w.header.2.lmonPayloadLength = 0 → w.usr ≠ 0 →
    w.malloc w.usr.toNat = true → w.unpack ≠ none → w.dataNull = false → w.Complete

/-- A handshake: a message of the right type that announces user data is complete, and there are a block
    and a callback that succeeds; one that announces none has arrived, and is empty. -/
def World.HandshakeSafe (w : World) (type : ℕ) : Prop :=
  w.header.2.type.toNat = type →
    (0 < w.usr.toInt32 → w.malloc w.usr.toNat = true ∧ w.Complete ∧ ∃ unpack, w.unpack = some unpack ∧
      0 ≤ unpack ((w.arrived.drop sizeofLmonp).take w.usr.toNat)) ∧
    (¬0 < w.usr.toInt32 → w.header.1 = true ∧ w.header.2.lmonPayloadLength = 0 ∧ w.usr = 0)

/-- A receiving call: if it gets as far as the callback, the message is complete. -/
def World.RecvSafe (w : World) (type : ℕ) : Prop :=
  w.header.1 = true → w.header.2.type.toNat = type → 0 < w.usr.toInt32 →
    w.malloc w.usr.toNat = true → w.unpack ≠ none → w.Complete

theorem handleUsrData_iff (isMsg : Header → Bool) {negative : LmonRc} (hneg : negative ≠ .ok) :
    Honest w (w.handleUsrData isMsg negative) ↔ w.FrontEndSafe isMsg := by
  unfold World.handleUsrData World.FrontEndSafe
  by_cases hreg : w.registered = false
  · rw [if_pos hreg]
    refine iff_of_true (honest_error (by decide)) fun h => ?_
    rw [hreg] at h
    cases h
  rw [if_neg hreg]
  dsimp only
  by_cases hmsg : isMsg w.header.2 = false ∨ w.header.2.lmonPayloadLength ≠ 0
  · rw [if_pos hmsg]
    refine iff_of_true (honest_error (by decide)) fun _ hclass hlmon => ?_
    rcases hmsg with hmsg | hmsg
    · rw [hmsg] at hclass
      cases hclass
    · exact absurd hlmon hmsg
  rw [if_neg hmsg]
  by_cases husr : w.header.2.usrPayloadLength = 0
  · rw [if_pos husr]
    exact iff_of_true (honest_error (by decide)) fun _ _ _ hne => absurd husr hne
  rw [if_neg husr]
  by_cases hmalloc : w.malloc w.header.2.usrPayloadLength.toNat = false
  · rw [if_pos hmalloc]
    refine iff_of_true (honest_error (by decide)) fun _ _ _ _ hblock => ?_
    cases hmalloc.symm.trans hblock
  rw [if_neg hmalloc]
  cases hunpack : w.unpack with
  | none => exact iff_of_true (honest_error (by decide)) fun _ _ _ _ _ hne => absurd rfl hne
  | some unpack =>
    dsimp only
    by_cases hnull : w.dataNull = true
    · rw [if_pos hnull]
      refine iff_of_true (honest_error (by decide)) fun _ _ _ _ _ _ hdata => ?_
      cases hnull.symm.trans hdata
    rw [if_neg hnull]
    rw [not_or, Bool.not_eq_false, not_not] at hmsg
    constructor
    · intro h _ _ _ _ _ _ _
      exact (complete_of_called ⟨_, _, _, h⟩).2
    · intro h
      have hcomplete := h (Bool.eq_true_of_not_eq_false hreg) hmsg.1 hmsg.2 husr
        (Bool.eq_true_of_not_eq_false hmalloc) nofun (Bool.eq_false_of_not_eq_true hnull)
      rw [readUsr_complete hcomplete]
      refine honest_unpacked hcomplete hunpack fun hrc => ?_
      by_contra hlt
      rw [if_pos (Int32.not_le.mp hlt)] at hrc
      exact hneg hrc

theorem handshake_iff (type : ℕ) : (∀ rest, Honest w (w.handshake type rest)) ↔ w.HandshakeSafe type := by
  unfold World.handshake World.HandshakeSafe
  dsimp only
  by_cases htype : w.header.2.type.toNat ≠ type
  · simp only [if_pos htype]
    exact iff_of_true (fun _ => honest_error (by decide)) fun h => absurd h htype
  simp only [if_neg htype]
  rw [not_not] at htype
  -- a length that is not positive reads nothing, and only an honest zero may do so
  by_cases hsize : 0 < w.header.2.usrPayloadLength.toInt32
  · simp only [if_pos hsize]
    cases hunpack : w.unpack with
    | none =>
      dsimp only
      refine iff_of_false (fun h => (h .ok).returns rfl) fun h => ?_
      obtain ⟨-, -, unpack, hsome, -⟩ := (h htype).1 hsize
      cases hsome
    | some unpack =>
      dsimp only
      constructor
      · rintro h -
        obtain ⟨hblock, hcomplete⟩ := complete_of_called ⟨_, _, _, h .ok⟩
        refine ⟨fun _ => ⟨hblock, hcomplete, unpack, rfl, ?_⟩, fun hno => absurd hsize hno⟩
        have hok := h .ok
        rw [show w.malloc w.header.2.usrPayloadLength.toNat = true from hblock,
          readUsr_complete hcomplete] at hok
        have hpos : 0 < w.usr.toNat := by
          rcases Nat.eq_zero_or_pos w.usr.toNat with hzero | hpos
          · have husr : w.usr = 0 := UInt32.toNat_inj.mp hzero
            have := hcomplete.size
            rw [husr] at this
            exact absurd this (by decide)
          · exact hpos
        obtain ⟨u, hu, r, hr, hle⟩ := (hok.ok rfl).2.2 hpos
        obtain rfl := List.mem_singleton.mp hu
        cases hr
        exact hle
      · intro h rest
        obtain ⟨hblock, hcomplete, unpack', hsome, hle⟩ := (h htype).1 hsize
        cases hsome
        rw [show w.malloc w.header.2.usrPayloadLength.toNat = true from hblock,
          readUsr_complete hcomplete]
        exact honest_unpacked hcomplete hunpack fun _ => hle
  · simp only [if_neg hsize]
    constructor
    · rintro h -
      refine ⟨fun hno => absurd hno hsize, fun _ => ?_⟩
      obtain ⟨hheader, htook, -⟩ := (h .ok).ok rfl
      have hlen : w.took none = sizeofLmonp := by
        rw [World.took, hheader]
        rfl
      dsimp only at htook
      rw [hlen] at htook
      exact ⟨hheader, UInt32.toNat_inj.mp (by rw [UInt32.toNat_zero]; omega),
        UInt32.toNat_inj.mp (by rw [UInt32.toNat_zero]; omega)⟩
    · intro h rest
      obtain ⟨hheader, hlmon, husr⟩ := (h htype).2 hsize
      constructor
      · exact fun u hu => absurd hu List.not_mem_nil
      · intro _
        refine ⟨hheader, ?_, fun hpos => ?_⟩
        · rw [hlmon, husr, World.took, hheader]
          rfl
        · rw [husr] at hpos
          exact absurd hpos (by decide)
      · exact nofun

theorem recvUsrData_iff (type : ℕ) :
    (∀ rest, Honest w (w.recvUsrData type rest)) ↔ w.RecvSafe type := by
  have herror : ∀ {lrc : LmonRc} {took : ℕ}, lrc ≠ .ok → ∀ rest,
      Honest w ⟨some (duplicated rest lrc), [], took⟩ := by
    intro lrc took hlrc rest
    refine honest_error ?_
    unfold duplicated
    split
    · exact hlrc
    · decide
  unfold World.recvUsrData World.RecvSafe
  dsimp only
  by_cases hheader : w.header.1 = false
  · simp only [if_pos hheader]
    exact iff_of_true (herror (by decide)) fun h => nomatch hheader.symm.trans h
  simp only [if_neg hheader]
  by_cases htype : w.header.2.type.toNat ≠ type
  · simp only [if_pos htype]
    exact iff_of_true (herror (by decide)) fun _ h => absurd h htype
  simp only [if_neg htype]
  by_cases hsize : 0 < w.header.2.usrPayloadLength.toInt32
  swap
  · simp only [if_neg hsize]
    exact iff_of_true (herror (by decide)) fun _ _ h => absurd h hsize
  simp only [if_pos hsize]
  by_cases hmalloc : w.malloc w.header.2.usrPayloadLength.toNat = false
  · simp only [if_pos hmalloc]
    exact iff_of_true (herror (by decide)) fun _ _ _ h => nomatch hmalloc.symm.trans h
  simp only [if_neg hmalloc]
  cases hunpack : w.unpack with
  | none => exact iff_of_true (herror (by decide)) fun _ _ _ _ h => absurd rfl h
  | some unpack =>
    dsimp only
    constructor
    · intro h _ _ _ _ _
      exact (complete_of_called ⟨_, _, _, h .ok⟩).2
    · intro h rest
      have hcomplete := h (Bool.eq_true_of_not_eq_false hheader) (not_not.mp htype) hsize
        (Bool.eq_true_of_not_eq_false hmalloc) nofun
      rw [readUsr_complete hcomplete]
      refine honest_unpacked hcomplete hunpack fun hrc => ?_
      by_contra hlt
      rw [if_pos (Int32.not_le.mp hlt)] at hrc
      unfold duplicated at hrc
      split at hrc <;> cases hrc

/-! ## The six functions -/

inductive Path
  | lmonFeHandleBeFeUsrData
  | lmonFeHandleMwFeUsrData
  | lmonBeHandshake
  | lmonMwHandshake
  | lmonBeRecvUsrData
  | lmonMwRecvUsrData
  deriving DecidableEq

/-- A function; `rest` is what comes behind the user data, if anything does. -/
def Path.run (p : Path) (w : World) (rest : LmonRc) : Outcome :=
  match p with
  | .lmonFeHandleBeFeUsrData => w.lmonFeHandleBeFeUsrData
  | .lmonFeHandleMwFeUsrData => w.lmonFeHandleMwFeUsrData
  | .lmonBeHandshake => w.lmonBeHandshake rest
  | .lmonMwHandshake => w.lmonMwHandshake rest
  | .lmonBeRecvUsrData => w.lmonBeRecvUsrData rest
  | .lmonMwRecvUsrData => w.lmonMwRecvUsrData rest

/-- The condition for a function. -/
def Path.Safe (p : Path) (w : World) : Prop :=
  match p with
  | .lmonFeHandleBeFeUsrData => w.FrontEndSafe isBefe
  | .lmonFeHandleMwFeUsrData => w.FrontEndSafe isMwfe
  | .lmonBeHandshake => w.HandshakeSafe FeToBeMsg.febeUsrdata.ctorIdx
  | .lmonMwHandshake => w.HandshakeSafe FeToMwMsg.femwUsrdata.ctorIdx
  | .lmonBeRecvUsrData => w.RecvSafe FeToBeMsg.febeUsrdata.ctorIdx
  | .lmonMwRecvUsrData => w.RecvSafe FeToMwMsg.femwUsrdata.ctorIdx

/-- **When user data are received as they should be**, whatever comes behind them. -/
theorem usrReceive_iff (p : Path) (w : World) : (∀ rest, Honest w (p.run w rest)) ↔ p.Safe w := by
  have hfrontEnd : ∀ (isMsg : Header → Bool) {negative : LmonRc}, negative ≠ .ok →
      ((∀ _ : LmonRc, Honest w (w.handleUsrData isMsg negative)) ↔ w.FrontEndSafe isMsg) := by
    intro isMsg negative hneg
    rw [← handleUsrData_iff isMsg hneg]
    exact ⟨fun h => h .ok, fun h _ => h⟩
  cases p with
  | lmonFeHandleBeFeUsrData => exact hfrontEnd isBefe (by decide)
  | lmonFeHandleMwFeUsrData => exact hfrontEnd isMwfe (by decide)
  | lmonBeHandshake => exact handshake_iff _
  | lmonMwHandshake => exact handshake_iff _
  | lmonBeRecvUsrData => exact recvUsrData_iff _
  | lmonMwRecvUsrData => exact recvUsrData_iff _

/-- A header that announces four bytes, and two of them. -/
def cutOff : World where
  registered := true
  unpack := some fun _ => 0
  dataNull := false
  malloc := fun _ => true
  garbage := [7, 7, 7, 7]
  stale := []
  arrived := (setMsgHeader .fetobe FeToBeMsg.febeUsrdata.ctorIdx 0 0 0 0 0 0 4).bytes ++ [1, 2]

/-- `LMON_be_recvUsrData` hands a block with something in it to the callback, and returns LMON_OK. -/
theorem usrReceive_counterexample :
    ¬∀ rest, Honest cutOff (Path.lmonBeRecvUsrData.run cutOff rest) := by
  intro h
  have hrun : Path.lmonBeRecvUsrData.run cutOff .ok = ⟨some .ok, [⟨[7, 7, 7, 7], none, some 0⟩], 28⟩ := by
    decide
  have hcalled := (h .ok).called
  rw [hrun] at hcalled
  cases (hcalled _ (List.mem_singleton_self _)).2.2

/-! ## The programs on a socket -/

/-- What the calls of a program find. -/
def World.feed (w : World) : Feed := ⟨fun _ => w.header, fun _ => w.payload, fun _ => true⟩

theorem readUsr_true (w : World) : (w.readUsr true).1 = w.payload.getD w.garbage := by
  unfold World.readUsr
  cases w.payload <;> rfl

/-- `LMON_fe_handleBeFeUsrData`, the program: it returns the same. -/
theorem handleBeFeUsrData_resolve {s : FeSession} (hreg : s.registered = w.registered)
    (hmalloc : s.malloc = w.malloc) (hgarbage : w.garbage = []) {unpack : List UInt8 → Int32}
    (hunpack : w.unpack = some unpack) (hnull : w.dataNull = false) :
    ∃ rc given f, (lmonFeHandleBeFeUsrData s (.unpack unpack)).resolve Feed.answer w.feed =
        .ret ((rc, given), f) ∧
      w.lmonFeHandleBeFeUsrData.rc = some rc ∧
      w.lmonFeHandleBeFeUsrData.unpackings.head?.map Unpacking.buf = given := by
  unfold World.lmonFeHandleBeFeUsrData World.handleUsrData lmonFeHandleBeFeUsrData
  rw [hreg, hmalloc, hunpack, hnull]
  by_cases hno : w.registered = false
  · rw [if_pos hno, if_pos hno]
    exact ⟨_, _, _, rfl, rfl, rfl⟩
  rw [if_neg hno, if_neg hno]
  have hor : isBefe w.header.2 = false ∨ w.header.2.lmonPayloadLength ≠ 0 ↔
      (isFetobeMsg w.header.2 .befeReady = false ∧ isFetobeMsg w.header.2 .befeUsrdata = false) ∨
        w.header.2.lmonPayloadLength ≠ 0 := by
    rw [isBefe, Bool.or_eq_false_iff]
  show ∃ rc given f, Daemon.resolve Feed.answer
    (if (isFetobeMsg w.header.2 .befeReady = false ∧ isFetobeMsg w.header.2 .befeUsrdata = false) ∨
        w.header.2.lmonPayloadLength ≠ 0 then _ else _) _ = _ ∧ _
  dsimp only
  rw [if_congr hor rfl rfl]
  by_cases hmsg : (isFetobeMsg w.header.2 .befeReady = false ∧ isFetobeMsg w.header.2 .befeUsrdata = false) ∨
      w.header.2.lmonPayloadLength ≠ 0
  · simp only [if_pos hmsg]
    exact ⟨_, _, _, rfl, rfl, rfl⟩
  simp only [if_neg hmsg]
  have hanswer : (w.feed.answer .readMsgheader).1 = w.header := rfl
  simp only [hanswer]
  by_cases husr : w.header.2.usrPayloadLength = 0
  · simp only [if_pos husr]
    exact ⟨_, _, _, rfl, rfl, rfl⟩
  simp only [if_neg husr]
  by_cases hblock : w.malloc w.header.2.usrPayloadLength.toNat = false
  · simp only [if_pos hblock]
    exact ⟨_, _, _, rfl, rfl, rfl⟩
  simp only [if_neg hblock, readUsr_true, hgarbage]
  show ∃ rc given f, Daemon.resolve Feed.answer
    (if unpack (w.payload.getD []) < 0 then _ else _) _ = _ ∧ _
  by_cases hlt : unpack (w.payload.getD []) < 0
  · simp only [if_pos hlt]
    exact ⟨_, _, _, rfl, rfl, rfl⟩
  · simp only [if_neg hlt]
    exact ⟨_, _, _, rfl, rfl, rfl⟩

/-- `LMON_be_recvUsrData` and `LMON_mw_recvUsrData`, the block of the master: it returns the same. -/
theorem recvUsrDataMaster_resolve (type : ℕ) {c : UsrSide} (hmalloc : c.malloc = w.malloc)
    (hgarbage : c.garbage = w.garbage) (hunpack : c.unpack = w.unpack) :
    ∃ lrc f, (recvUsrDataMaster type c).resolve Feed.answer w.feed = .ret (lrc, f) ∧
      (w.recvUsrData type .ok).rc = some lrc := by
  show ∃ lrc f, (recvUsrPayload type c w.header.1 w.header.2).resolve Feed.answer _ = .ret (lrc, f) ∧ _
  unfold recvUsrPayload World.recvUsrData
  rw [hmalloc]
  by_cases hheader : w.header.1 = false
  · simp only [if_pos hheader]
    exact ⟨_, _, rfl, rfl⟩
  simp only [if_neg hheader]
  by_cases htype : w.header.2.type.toNat ≠ type
  · simp only [if_pos htype]
    exact ⟨_, _, rfl, rfl⟩
  simp only [if_neg htype]
  by_cases hsize : 0 < w.header.2.usrPayloadLength.toInt32
  swap
  · simp only [if_neg hsize]
    exact ⟨_, _, rfl, rfl⟩
  simp only [if_pos hsize]
  by_cases hblock : w.malloc w.header.2.usrPayloadLength.toNat = false
  · simp only [if_pos hblock]
    exact ⟨_, _, rfl, rfl⟩
  simp only [if_neg hblock, readUsr_true]
  refine ⟨unpackUsrData c (w.payload.getD c.garbage), _, rfl, ?_⟩
  rw [unpackUsrData, hunpack, hgarbage]
  cases w.unpack <;> rfl

/-- `LMON_be_handshake`, the part with the user data: what it gives to a callback is the same. -/
theorem beRecvUsrdata_resolve (rest : LmonRc) {unpack : List UInt8 → Int32}
    (hunpack : w.unpack = some unpack) (hmalloc : w.malloc w.usr.toNat = true) (hgarbage : w.garbage = [])
    (htype : isFetobe w.header.2 .febeUsrdata = true) :
    ∃ f, beRecvUsrdata.resolve Feed.answer w.feed =
      .ret ((w.lmonBeHandshake rest).unpackings.head?.map Unpacking.buf, f) := by
  have hno : ¬w.header.2.type.toNat ≠ FeToBeMsg.febeUsrdata.ctorIdx := not_not.mpr (of_decide_eq_true htype)
  obtain ⟨f', hf', -⟩ := @beRecvUsrdata_ok w.feed htype
  refine ⟨f', hf'.trans ?_⟩
  unfold World.lmonBeHandshake World.handshake
  simp only [if_neg hno]
  by_cases hsize : 0 < w.header.2.usrPayloadLength.toInt32
  · have hblock : w.malloc w.header.2.usrPayloadLength.toNat = true := hmalloc
    have hgiven : 0 < (w.feed.headers 0).2.usrPayloadLength.toInt32 := hsize
    simp only [if_pos hsize, if_pos hgiven, hunpack, hblock, readUsr_true, hgarbage]
    rfl
  · have hgiven : ¬0 < (w.feed.headers 0).2.usrPayloadLength.toInt32 := hsize
    simp only [if_neg hsize, if_neg hgiven]
    rfl

end LaunchMON.Frontend.UsrReceive
