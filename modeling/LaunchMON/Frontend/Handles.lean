/-
  The session handles of the front-end API, and the elements of `sess.sessionDescArray` that a call
  reads and writes.

  Every function that takes a handle begins with the same test, written out by hand.  It lets
  MAX_LMON_SESSION pass, and the element with that index is the one behind the array.

  1. **The array** — a run works on the elements by their indices, whether or not they are in the
     array, and leaves a list of the elements that it has been at.

  2. **The functions** — all of them are `api`: the range test, with a test of another argument in the
     same condition or behind it, and then a body that is at the element of the handle.  The bodies are
     those of `Calls` where these exist; what a handshake or an exchange of messages does with its
     descriptor is an argument.  Functions that call each other hand on the handle, so an element is
     found, and its handle is tested, more than once in a call.

  3. **Frames** — whatever is done at the element of a handle leaves all others alone (`Only`).  So a
     call that passes its tests is at that element and at no other one (`run_good`), a call that does not
     is at none (`run_refused`), and the range test is exact but for one handle
     (`handle_validation_iff`).
-/
import LaunchMON.Frontend.Locks
import LaunchMON.Lib.Strings

namespace LaunchMON.Frontend.Handles

open CBytes Effect Lmonp

-- A handshake is a long program to find the frame of.
set_option synthInstance.maxSize 512

/-! ## The array -/

/-- A descriptor, with the fields that only the functions below use.  A function pointer is a number, a
    list of environment variables is a list. -/
structure Elem extends Desc where
  pack : Option ℕ
  unpack : Option ℕ
  mwPack : Option ℕ
  mwUnpack : Option ℕ
  daemonEnvList0 : List (CString × CString)
  daemonEnvList1 : List (CString × CString)
  resourceHandle : Int
  rmSupportedTypes : List ℕ
  indexToCurInstance : Int
  rmLauncherPid : Int
  statusCB : Option ℕ

/-- LMON_INIT. -/
def lmonInit : Int := -1

/-- A program on one descriptor. -/
abbrev ElemM := EStateM Exit Elem

/-- `LMON_init_sess`, when there are no supported types. -/
def Elem.init : Elem :=
  { Desc.init with
    pack := none, unpack := none, mwPack := none, mwUnpack := none
    daemonEnvList0 := [], daemonEnvList1 := []
    resourceHandle := lmonInit
    rmSupportedTypes := [], indexToCurInstance := -1, rmLauncherPid := -1
    statusCB := none }

/-- The array with what is in memory beside it, and the elements that have been read or written. -/
structure Sess where
  elem : Int → Elem
  accessed : List Int

/-- A program on the array. -/
abbrev SessM := EStateM Exit Sess

variable {α β : Type}

/-- `mydesc = &sess.sessionDescArray[sessionHandle]`, and what is done with it. -/
def element (sessionHandle : Int) (x : ElemM α) : SessM α := fun s =>
  match x (s.elem sessionHandle) with
  | .ok a e => .ok a ⟨Function.update s.elem sessionHandle e, s.accessed ++ [sessionHandle]⟩
  | .error x e => .error x ⟨Function.update s.elem sessionHandle e, s.accessed ++ [sessionHandle]⟩

/-- A call of another function: its `return` is a value. -/
def returned (x : SessM LmonRc) : SessM LmonRc := fun s =>
  match x s with
  | .ok rc s => .ok rc s
  | .error (.ret rc) s => .ok rc s
  | .error e s => .error e s

/-- A program of `Calls` on the descriptor. -/
def onDesc (x : ApiM α) : ElemM α := fun e =>
  match x ⟨e.toDesc, []⟩ with
  | .ok a s => .ok a { e with toDesc := s.desc }
  | .error x s => .error x { e with toDesc := s.desc }

/-- `return rc` under a condition. -/
def returnIf (c : Bool) (rc : LmonRc) : EStateM Exit β Unit := whenever c (throw (.ret rc))

/-- The head of a function of the API: the range test with another test in its condition, a test behind
    it, and the rest. -/
def api (sessionHandle : Int) (among behind : Bool) (rest : SessM α) : SessM α := do
  returnIf (sessionHandle < 0 ∨ sessionHandle > maxLmonSession ∨ among) .ebdarg
  returnIf behind .ebdarg
  rest

/-! ## Functions that register something -/

/-- A descriptor that has been handed out and whose daemons have not been spawned is changed. -/
def beforeSpawn (x : Elem → LmonRc × Elem) : ElemM LmonRc := do
  let e ← get
  returnIf (!e.registered) .ebdarg
  if e.spawned then return .einval
  else do
    set (x e).2
    return (x e).1

/-- `LMON_fe_regPackForFeToBe`. -/
def lmonFeRegPackForFeToBe (h : Int) (packFebe : Option ℕ) : SessM LmonRc :=
  api h false packFebe.isNone (element h (beforeSpawn fun e => (.ok, { e with pack := packFebe })))

/-- `LMON_fe_regUnpackForBeToFe`. -/
def lmonFeRegUnpackForBeToFe (h : Int) (unpackBefe : Option ℕ) : SessM LmonRc :=
  api h false unpackBefe.isNone (element h (beforeSpawn fun e => (.ok, { e with unpack := unpackBefe })))

/-- `LMON_fe_regPackForFeToMw`. -/
def lmonFeRegPackForFeToMw (h : Int) (packFemw : Option ℕ) : SessM LmonRc :=
  api h false packFemw.isNone (element h (beforeSpawn fun e => (.ok, { e with mwPack := packFemw })))

/-- `LMON_fe_regUnpackForMwToFe`. -/
def lmonFeRegUnpackForMwToFe (h : Int) (unpackMwfe : Option ℕ) : SessM LmonRc :=
  api h false unpackMwfe.isNone (element h (beforeSpawn fun e => (.ok, { e with mwUnpack := unpackMwfe })))

/-- `LMON_fe_putToDaemonEnv`, when `malloc` can give `nodes` nodes. -/
def lmonFePutToDaemonEnv (sessEnv : List (CString × CString)) (dmonEnv : Option (List (CString × CString)))
    (numElem : Int) (nodes : ℕ) : LmonRc × List (CString × CString) :=
  match dmonEnv with
  | none => (.einval, sessEnv)
  | some env =>
    if numElem ≤ 0 then (.einval, sessEnv)
    else (if nodes < numElem.toNat then .enomem else .ok, sessEnv ++ (env.take numElem.toNat).take nodes)

/-- `LMON_fe_putToBeDaemonEnv`. -/
def lmonFePutToBeDaemonEnv (h : Int) (dmonEnv : Option (List (CString × CString))) (numElem : Int)
    (nodes : ℕ) : SessM LmonRc :=
  api h false false (element h (beforeSpawn fun e =>
    let (rc, env) := lmonFePutToDaemonEnv e.daemonEnvList0 dmonEnv numElem nodes
    (rc, { e with daemonEnvList0 := env })))

/-- `LMON_fe_putToMwDaemonEnv`. -/
def lmonFePutToMwDaemonEnv (h : Int) (dmonEnv : Option (List (CString × CString))) (numElem : Int)
    (nodes : ℕ) : SessM LmonRc :=
  api h false false (element h (beforeSpawn fun e =>
    let (rc, env) := lmonFePutToDaemonEnv e.daemonEnvList1 dmonEnv numElem nodes
    (rc, { e with daemonEnvList1 := env })))

/-- `LMON_fe_regStatusCB`. -/
def lmonFeRegStatusCB (h : Int) (func : Option ℕ) : SessM LmonRc :=
  api h false func.isNone (element h do
    modify fun e => { e with statusCB := func }
    return .ok)

/-! ## User data -/

/-- What the four handlers of user data share: `exchange` is what is said on the connection. -/
def handleUsrData (h : Int) (exchange : ElemM LmonRc) : SessM LmonRc :=
  api h false false (element h do
    returnIf (!(← get).registered) .ebdarg
    exchange)

/-- `LMON_fe_handleFeBeUsrData`. -/
def lmonFeHandleFeBeUsrData : Int → ElemM LmonRc → SessM LmonRc := handleUsrData

/-- `LMON_fe_handleFeMwUsrData`. -/
def lmonFeHandleFeMwUsrData : Int → ElemM LmonRc → SessM LmonRc := handleUsrData

/-- `LMON_fe_handleBeFeUsrData`. -/
def lmonFeHandleBeFeUsrData : Int → ElemM LmonRc → SessM LmonRc := handleUsrData

/-- `LMON_fe_handleMwFeUsrData`. -/
def lmonFeHandleMwFeUsrData : Int → ElemM LmonRc → SessM LmonRc := handleUsrData

/-- A handler between the two operations on the mutex of the descriptor. -/
def usrData (handle : Int → ElemM LmonRc → SessM LmonRc) (h : Int) (exchange : ElemM LmonRc) :
    SessM LmonRc :=
  api h false false do
    element h (pure ())
    let rc ← returned (handle h exchange)
    element h (pure ())
    return rc

/-- `LMON_fe_sendUsrDataBe`. -/
def lmonFeSendUsrDataBe : Int → ElemM LmonRc → SessM LmonRc := usrData lmonFeHandleFeBeUsrData

/-- `LMON_fe_recvUsrDataBe`. -/
def lmonFeRecvUsrDataBe : Int → ElemM LmonRc → SessM LmonRc := usrData lmonFeHandleBeFeUsrData

/-- `LMON_fe_sendUsrDataMw`. -/
def lmonFeSendUsrDataMw : Int → ElemM LmonRc → SessM LmonRc := usrData lmonFeHandleFeMwUsrData

/-- `LMON_fe_recvUsrDataMw`. -/
def lmonFeRecvUsrDataMw : Int → ElemM LmonRc → SessM LmonRc := usrData lmonFeHandleMwFeUsrData

/-! ## Requests to the engine -/

/-- `LMON_fe_detach`. -/
def lmonFeDetach (h : Int) (sent : Bool) (wakes : List Wake) : SessM LmonRc :=
  api h false false (element h (onDesc (Frontend.lmonFeDetach h sent wakes)))

/-- `LMON_fe_kill`. -/
def lmonFeKill (h : Int) (sent : Bool) (wakes : List Wake) : SessM LmonRc :=
  api h false false (element h (onDesc (Frontend.lmonFeKill h sent wakes)))

/-- `LMON_fe_shutdownDaemons`. -/
def lmonFeShutdownDaemons (h : Int) (sent : Bool) (wakes : List Wake) : SessM LmonRc :=
  api h false false (element h (onDesc (Frontend.lmonFeShutdownDaemons h sent wakes)))

/-! ## Functions that look something up -/

/-- `LMON_fe_getProctableSize`. -/
def lmonFeGetProctableSize (h : Int) : SessM LmonRc :=
  api h false false (element h (onDesc (Frontend.lmonFeGetProctableSize h)))

/-- `LMON_fe_getProctable`; the length is unsigned, so the test in the condition never fails. -/
def lmonFeGetProctable (h : Int) (proctable : Option (Buf Lmonp.ProcdescExt)) (maxlen : UInt32) :
    SessM LmonRc :=
  api h (maxlen < 0) false (element h (onDesc (Frontend.lmonFeGetProctable h proctable maxlen)))

/-- `fe_getStatus`. -/
def feGetStatus (e : Elem) : ℕ :=
  e.registered.toNat + 2 * e.spawned.toNat + 4 * e.mwSpawned.toNat + 8 * e.detached.toNat + 16 * e.killed.toNat

/-- `LMON_fe_getStatus`, with the status; `status` tells whether there is a place for it. -/
def lmonFeGetStatus (h : Int) (status : Bool) : SessM (LmonRc × ℕ) :=
  api h (!status) false (element h do return (.ok, feGetStatus (← get)))

/-- `LMON_fe_getResourceHandle`, with what it stores in `handle` and in `size`. -/
def lmonFeGetResourceHandle (h : Int) (maxstring : Int) : SessM (LmonRc × CText.Str × Int) :=
  api h (maxstring < 0) false (element h do
    let e ← get
    returnIf (!e.registered) .ebdarg
    returnIf (!e.spawned) .edunav
    returnIf (e.resourceHandle = lmonInit) .edunav
    let resbuf := CText.percentD e.resourceHandle
    let len : Int := resbuf.length + 1
    return (.ok, resbuf.take maxstring.toNat, if len > maxstring then maxstring else len))

/-- `LMON_fe_getRMInfo`, with what it stores; `info` tells whether there is a place for it. -/
def lmonFeGetRMInfo (h : Int) (info : Bool) : SessM (LmonRc × List ℕ × Int × Int) :=
  api h false (!info) (element h do
    let e ← get
    returnIf (!e.registered) .einval
    return (if e.rmLauncherPid ≠ -1 then .ok else .edunav, e.rmSupportedTypes, e.indexToCurInstance,
      e.rmLauncherPid))

/-- `LMON_fe_getMwHostlist`. -/
def lmonFeGetMwHostlist (h : Int) (maxlen : UInt32) : SessM LmonRc :=
  api h false false (element h (onDesc (Frontend.lmonFeGetMwHostlist h maxlen)))

/-- `LMON_fe_getMwHostlistSize`. -/
def lmonFeGetMwHostlistSize (h : Int) : SessM LmonRc :=
  api h false false (element h (onDesc (Frontend.lmonFeGetMwHostlistSize h)))

/-! ## Handshakes -/

/-- What is done with the descriptor in the handshakes and in front of them, up to the user data and
    between them. -/
structure Parts where
  setOptions : ElemM LmonRc
  accept : ElemM LmonRc
  watch : ElemM LmonRc
  start : ElemM LmonRc
  sendUsrData : ElemM LmonRc
  cont : ElemM LmonRc
  recvUsrData : ElemM LmonRc

/-- A result of user data with which a handshake goes on. -/
def goesOn (rc : LmonRc) : Bool := rc = .ok ∨ rc = .enopld

/-- `LMON_fe_acceptEngine`. -/
def lmonFeAcceptEngine (h : Int) (p : Parts) : SessM LmonRc := element h p.accept

/-- `LMON_fe_beHandshakeSequence`. -/
def lmonFeBeHandshakeSequence (h : Int) (p : Parts) : SessM LmonRc := do
  let lrc ← element h p.start
  returnIf (lrc ≠ .ok) lrc
  let lrc ← returned (lmonFeHandleFeBeUsrData h p.sendUsrData)
  returnIf (!goesOn lrc) lrc
  let lrc ← element h p.cont
  returnIf (lrc ≠ .ok) lrc
  let lrc ← returned (lmonFeHandleBeFeUsrData h p.recvUsrData)
  returnIf (!goesOn lrc) lrc
  return .ok

/-- `LMON_fe_mwHandshakeSequence`. -/
def lmonFeMwHandshakeSequence (h : Int) (p : Parts) : SessM LmonRc := do
  let lrc ← element h p.start
  returnIf (lrc ≠ .ok) lrc
  let lrc ← returned (lmonFeHandleFeMwUsrData h p.sendUsrData)
  returnIf (!goesOn lrc) lrc
  let lrc ← returned (lmonFeHandleMwFeUsrData h p.recvUsrData)
  returnIf (!goesOn lrc) lrc
  return .ok

/-- What `LMON_fe_launchAndSpawnDaemons` and `LMON_fe_attachAndSpawnDaemons` share. -/
def spawnDaemons (attach : Bool) (h : Int) (p : Parts) : SessM LmonRc :=
  api h false false do
    element h do returnIf (!(← get).registered) .ebdarg
    let lrc ← element h p.setOptions
    returnIf (lrc ≠ .ok) .ebdarg
    let lrc ← returned (lmonFeAcceptEngine h p)
    returnIf (lrc ≠ .ok) lrc
    let lrc ← element h p.watch
    returnIf (lrc ≠ .ok) lrc
    element h do returnIf (attach && !(← get).spawned) .ebug
    returned (lmonFeBeHandshakeSequence h p)

/-- `LMON_fe_launchAndSpawnDaemons`. -/
def lmonFeLaunchAndSpawnDaemons : Int → Parts → SessM LmonRc := spawnDaemons false

/-- `LMON_fe_attachAndSpawnDaemons`. -/
def lmonFeAttachAndSpawnDaemons : Int → Parts → SessM LmonRc := spawnDaemons true

/-- `LMON_fe_launchMwDaemons`. -/
def lmonFeLaunchMwDaemons (h : Int) (req : List DistRequest) (nreq : Int) (p : Parts) : SessM LmonRc :=
  api h false (nreq ≤ 0 ∨ nreq > lmonNMwTypes) do
    let _ ← element h (onDesc do
      mutexOp .lock
      if req.length < nreq.toNat then throw .undefined else pushSpawners (req.take nreq.toNat))
    let lrc ← returned (lmonFeMwHandshakeSequence h p)
    element h (onDesc do
      if lrc ≠ .ok then do
        mutexOp .unlock
        leave lrc
      else do
        setDesc { (← getDesc) with mwSpawned := true }
        mutexOp .unlock
        return .ok)

/-! ## The API -/

/-- A function with its arguments, but for the handle: the API, and the handlers behind it. -/
inductive ApiCall
  | handleFeBeUsrData (exchange : ElemM LmonRc)
  | handleFeMwUsrData (exchange : ElemM LmonRc)
  | handleBeFeUsrData (exchange : ElemM LmonRc)
  | handleMwFeUsrData (exchange : ElemM LmonRc)
  | regPackForFeToBe (packFebe : Option ℕ)
  | regUnpackForBeToFe (unpackBefe : Option ℕ)
  | regPackForFeToMw (packFemw : Option ℕ)
  | regUnpackForMwToFe (unpackMwfe : Option ℕ)
  | putToBeDaemonEnv (dmonEnv : Option (List (CString × CString))) (numElem : Int) (nodes : ℕ)
  | putToMwDaemonEnv (dmonEnv : Option (List (CString × CString))) (numElem : Int) (nodes : ℕ)
  | sendUsrDataBe (exchange : ElemM LmonRc)
  | recvUsrDataBe (exchange : ElemM LmonRc)
  | sendUsrDataMw (exchange : ElemM LmonRc)
  | recvUsrDataMw (exchange : ElemM LmonRc)
  | detach (sent : Bool) (wakes : List Wake)
  | kill (sent : Bool) (wakes : List Wake)
  | shutdownDaemons (sent : Bool) (wakes : List Wake)
  | getProctableSize
  | getProctable (proctable : Option (Buf ProcdescExt)) (maxlen : UInt32)
  | regStatusCB (func : Option ℕ)
  | getStatus (status : Bool)
  | getResourceHandle (maxstring : Int)
  | getRMInfo (info : Bool)
  | launchAndSpawnDaemons (p : Parts)
  | attachAndSpawnDaemons (p : Parts)
  | launchMwDaemons (req : List DistRequest) (nreq : Int) (p : Parts)
  | getMwHostlist (maxlen : UInt32)
  | getMwHostlistSize

/-- The call with a handle. -/
def ApiCall.run (h : Int) : ApiCall → SessM LmonRc
  | handleFeBeUsrData exchange => lmonFeHandleFeBeUsrData h exchange
  | handleFeMwUsrData exchange => lmonFeHandleFeMwUsrData h exchange
  | handleBeFeUsrData exchange => lmonFeHandleBeFeUsrData h exchange
  | handleMwFeUsrData exchange => lmonFeHandleMwFeUsrData h exchange
  | regPackForFeToBe packFebe => lmonFeRegPackForFeToBe h packFebe
  | regUnpackForBeToFe unpackBefe => lmonFeRegUnpackForBeToFe h unpackBefe
  | regPackForFeToMw packFemw => lmonFeRegPackForFeToMw h packFemw
  | regUnpackForMwToFe unpackMwfe => lmonFeRegUnpackForMwToFe h unpackMwfe
  | putToBeDaemonEnv dmonEnv numElem nodes => lmonFePutToBeDaemonEnv h dmonEnv numElem nodes
  | putToMwDaemonEnv dmonEnv numElem nodes => lmonFePutToMwDaemonEnv h dmonEnv numElem nodes
  | sendUsrDataBe exchange => lmonFeSendUsrDataBe h exchange
  | recvUsrDataBe exchange => lmonFeRecvUsrDataBe h exchange
  | sendUsrDataMw exchange => lmonFeSendUsrDataMw h exchange
  | recvUsrDataMw exchange => lmonFeRecvUsrDataMw h exchange
  | detach sent wakes => lmonFeDetach h sent wakes
  | kill sent wakes => lmonFeKill h sent wakes
  | shutdownDaemons sent wakes => lmonFeShutdownDaemons h sent wakes
  | getProctableSize => lmonFeGetProctableSize h
  | getProctable proctable maxlen => lmonFeGetProctable h proctable maxlen
  | regStatusCB func => lmonFeRegStatusCB h func
  | getStatus status => Prod.fst <$> lmonFeGetStatus h status
  | getResourceHandle maxstring => Prod.fst <$> lmonFeGetResourceHandle h maxstring
  | getRMInfo info => Prod.fst <$> lmonFeGetRMInfo h info
  | launchAndSpawnDaemons p => lmonFeLaunchAndSpawnDaemons h p
  | attachAndSpawnDaemons p => lmonFeAttachAndSpawnDaemons h p
  | launchMwDaemons req nreq p => lmonFeLaunchMwDaemons h req nreq p
  | getMwHostlist maxlen => lmonFeGetMwHostlist h maxlen
  | getMwHostlistSize => lmonFeGetMwHostlistSize h

/-- Another argument that the head of the function does not take. -/
def ApiCall.refused : ApiCall → Bool
  | regPackForFeToBe f | regUnpackForBeToFe f | regPackForFeToMw f | regUnpackForMwToFe f
  | regStatusCB f => f.isNone
  | getStatus stored | getRMInfo stored => !stored
  | getResourceHandle maxstring => maxstring < 0
  | launchMwDaemons _ nreq _ => nreq ≤ 0 ∨ nreq > lmonNMwTypes
  | _ => false

/-! ## Frames -/

/-- All that has been worked on from `s` to `s'` is the element of `h`. -/
structure Only (h : Int) (s s' : Sess) : Prop where
  accessed : ∃ l, s'.accessed = s.accessed ++ l ∧ ∀ i ∈ l, i = h
  elem : ∀ i, i ≠ h → s'.elem i = s.elem i

/-- The element of `h`, and no other one, has been worked on. -/
structure Uses (h : Int) (s s' : Sess) : Prop where
  accessed : ∃ l, s'.accessed = s.accessed ++ h :: l ∧ ∀ i ∈ l, i = h
  elem : ∀ i, i ≠ h → s'.elem i = s.elem i

variable {h : Int}

instance : IsPreorder Sess (Only h) where
  refl s := ⟨⟨[], by simp⟩, fun _ _ => rfl⟩
  trans s₁ s₂ s₃ h₁ h₂ := by
    obtain ⟨l₁, hl₁, hm₁⟩ := h₁.accessed
    obtain ⟨l₂, hl₂, hm₂⟩ := h₂.accessed
    refine ⟨⟨l₁ ++ l₂, ?_, ?_⟩, fun i hi => (h₂.elem i hi).trans (h₁.elem i hi)⟩
    · rw [hl₂, hl₁, List.append_assoc]
    · intro i hi
      rcases List.mem_append.mp hi with hi | hi
      · exact hm₁ i hi
      · exact hm₂ i hi

theorem Uses.only {s s' : Sess} (hu : Uses h s s') : Only h s s' := by
  obtain ⟨l, hl, hm⟩ := hu.accessed
  refine ⟨⟨h :: l, hl, ?_⟩, hu.elem⟩
  intro i hi
  rcases List.mem_cons.mp hi with rfl | hi
  · rfl
  · exact hm i hi

theorem Uses.trans {s₁ s₂ s₃ : Sess} (h₁ : Uses h s₁ s₂) (h₂ : Only h s₂ s₃) : Uses h s₁ s₃ := by
  obtain ⟨l₁, hl₁, hm₁⟩ := h₁.accessed
  obtain ⟨l₂, hl₂, hm₂⟩ := h₂.accessed
  refine ⟨⟨l₁ ++ l₂, ?_, ?_⟩, fun i hi => (h₂.elem i hi).trans (h₁.elem i hi)⟩
  · rw [hl₂, hl₁, List.append_assoc, List.cons_append]
  · intro i hi
    rcases List.mem_append.mp hi with hi | hi
    · exact hm₁ i hi
    · exact hm₂ i hi

/-- Every run of `x` is at the element of `h`, and at no other one. -/
class Enters (h : Int) (x : SessM α) : Prop where
  out : ∀ s, Uses h s (final x s)

instance Enters.element (x : ElemM α) : Enters h (element h x) where
  out s := by
    have hs : ∀ e, Uses h s ⟨Function.update s.elem h e, s.accessed ++ [h]⟩ := fun e =>
      ⟨⟨[], rfl, by simp⟩, fun i hi => Function.update_of_ne hi _ _⟩
    unfold final Handles.element
    cases x (s.elem h) with
    | ok a e => exact hs e
    | error x e => exact hs e

instance (x : ElemM α) : Within (Only h) (element h x) := ⟨fun s => ((Enters.element x).out s).only⟩

/-- A sequence is at the element of `h` if its first part is. -/
instance Enters.bind (x : SessM α) (f : α → SessM β) [hx : Enters h x] [hf : ∀ a, Within (Only h) (f a)] :
    Enters h (x >>= f) where
  out s := by
    cases hs : x s with
    | ok a s' =>
      rw [final_bind_ok hs]
      exact (final_ok hs ▸ hx.out s : Uses h s s').trans ((hf a).out s')
    | error e s' =>
      rw [final_bind_error hs]
      exact final_error hs ▸ hx.out s

instance Enters.map (f : α → β) (x : SessM α) [Enters h x] : Enters h (f <$> x) := by
  rw [← bind_pure_comp]
  exact Enters.bind x _

instance {R : Sess → Sess → Prop} [IsPreorder Sess R] (c : Bool) (rc : LmonRc) :
    Within R (returnIf c rc : SessM Unit) :=
  inferInstanceAs (Within R (whenever c (throw (Exit.ret rc))))

theorem final_returned (x : SessM LmonRc) (s : Sess) : final (returned x) s = final x s := by
  unfold final returned
  rcases x s with ⟨rc, s'⟩ | ⟨_ | _, s'⟩ <;> rfl

instance {R : Sess → Sess → Prop} (x : SessM LmonRc) [hx : Within R x] : Within R (returned x) :=
  ⟨fun s => by rw [final_returned]; exact hx.out s⟩

instance {R : Sess → Sess → Prop} [IsPreorder Sess R] (i : Int) (a b : Bool) (x : SessM α)
    [Within R x] : Within R (api i a b x) :=
  inferInstanceAs (Within R (do
    returnIf (i < 0 ∨ i > maxLmonSession ∨ a) .ebdarg
    returnIf b .ebdarg
    x))

/-! ## The functions are alike -/

section Parts

variable (exchange : ElemM LmonRc) (p : Parts)

instance : Within (Only h) (handleUsrData h exchange) :=
  inferInstanceAs (Within (Only h) (api h false false _))

instance : Within (Only h) (lmonFeHandleFeBeUsrData h exchange) :=
  inferInstanceAs (Within (Only h) (handleUsrData h exchange))

instance : Within (Only h) (lmonFeHandleFeMwUsrData h exchange) :=
  inferInstanceAs (Within (Only h) (handleUsrData h exchange))

instance : Within (Only h) (lmonFeHandleBeFeUsrData h exchange) :=
  inferInstanceAs (Within (Only h) (handleUsrData h exchange))

instance : Within (Only h) (lmonFeHandleMwFeUsrData h exchange) :=
  inferInstanceAs (Within (Only h) (handleUsrData h exchange))

instance : Within (Only h) (lmonFeBeHandshakeSequence h p) := by
  unfold lmonFeBeHandshakeSequence
  infer_instance

instance : Within (Only h) (lmonFeMwHandshakeSequence h p) := by
  unfold lmonFeMwHandshakeSequence
  infer_instance

instance : Within (Only h) (lmonFeAcceptEngine h p) :=
  inferInstanceAs (Within (Only h) (element h p.accept))

end Parts

theorem map_api (f : α → β) (i : Int) (a b : Bool) (x : SessM α) :
    f <$> api i a b x = api i a b (f <$> x) := by
  unfold api
  rw [map_bind]
  congr 1
  funext _
  exact map_bind ..

/-- A function is what `api` makes of something that is at the element of the handle. -/
def IsApi (h : Int) (c : Bool) (x : SessM LmonRc) : Prop :=
  ∃ a b rest, x = api h a b rest ∧ (a || b) = c ∧ Enters h rest

theorem IsApi.intro (a b : Bool) (rest : SessM LmonRc) [hr : Enters h rest] :
    IsApi h (a || b) (api h a b rest) := ⟨a, b, rest, rfl, rfl, hr⟩

theorem IsApi.among (a : Bool) (rest : SessM LmonRc) [hr : Enters h rest] :
    IsApi h a (api h a false rest) := ⟨a, false, rest, rfl, Bool.or_false a, hr⟩

/-- All functions are alike: the tests, and behind them something that is at the element of the handle. -/
theorem ApiCall.isApi (c : ApiCall) (h : Int) : IsApi h c.refused (c.run h) := by
  cases c with
  | handleFeBeUsrData _ => exact IsApi.intro false false _
  | handleFeMwUsrData _ => exact IsApi.intro false false _
  | handleBeFeUsrData _ => exact IsApi.intro false false _
  | handleMwFeUsrData _ => exact IsApi.intro false false _
  | regPackForFeToBe f => exact IsApi.intro false f.isNone _
  | regUnpackForBeToFe f => exact IsApi.intro false f.isNone _
  | regPackForFeToMw f => exact IsApi.intro false f.isNone _
  | regUnpackForMwToFe f => exact IsApi.intro false f.isNone _
  | putToBeDaemonEnv _ _ _ => exact IsApi.intro false false _
  | putToMwDaemonEnv _ _ _ => exact IsApi.intro false false _
  | sendUsrDataBe _ => exact IsApi.intro false false _
  | recvUsrDataBe _ => exact IsApi.intro false false _
  | sendUsrDataMw _ => exact IsApi.intro false false _
  | recvUsrDataMw _ => exact IsApi.intro false false _
  | detach _ _ => exact IsApi.intro false false _
  | kill _ _ => exact IsApi.intro false false _
  | shutdownDaemons _ _ => exact IsApi.intro false false _
  | getProctableSize => exact IsApi.intro false false _
  | getProctable _ maxlen =>
    -- `maxlen` is unsigned here, so the negative-length test never refuses
    have hlt : decide (maxlen < 0) = false := by simp
    show IsApi h false (api h _ false _)
    rw [hlt]
    exact IsApi.intro false false _
  | regStatusCB f => exact IsApi.intro false f.isNone _
  | getStatus status =>
    show IsApi h (!status) (Prod.fst <$> api h _ _ _)
    rw [map_api]
    exact IsApi.among (!status) _
  | getResourceHandle maxstring =>
    show IsApi h (maxstring < 0) (Prod.fst <$> api h _ _ _)
    rw [map_api]
    exact IsApi.among _ _
  | getRMInfo info =>
    show IsApi h (!info) (Prod.fst <$> api h _ _ _)
    rw [map_api]
    exact IsApi.intro false (!info) _
  | launchAndSpawnDaemons _ => exact IsApi.intro false false _
  | attachAndSpawnDaemons _ => exact IsApi.intro false false _
  | launchMwDaemons _ _ _ => exact IsApi.intro false _ _
  | getMwHostlist _ => exact IsApi.intro false false _
  | getMwHostlistSize => exact IsApi.intro false false _

/-! ## Runs -/

variable {a b : Bool} {rest : SessM α}

theorem api_refused (hc : h < 0 ∨ h > maxLmonSession ∨ (a || b) = true) (s : Sess) :
    api h a b rest s = .error (.ret .ebdarg) s := by
  unfold api returnIf
  by_cases ha : h < 0 ∨ h > maxLmonSession ∨ a = true
  · refine error_bind ?_
    rw [decide_eq_true ha]
    rfl
  · rw [decide_eq_false ha]
    have hb : b = true := by
      rw [Bool.or_eq_true] at hc
      tauto
    rw [hb]
    rfl

theorem api_good (hh : 0 ≤ h ∧ h ≤ maxLmonSession) (hc : (a || b) = false) (s : Sess) :
    api h a b rest s = rest s := by
  obtain ⟨ha, hb⟩ := Bool.or_eq_false_iff.mp hc
  have hn : ¬(h < 0 ∨ h > maxLmonSession ∨ a = true) := by
    rw [ha]
    rintro (hlt | hlt | hf)
    · omega
    · omega
    · exact Bool.noConfusion hf
  unfold api returnIf
  rw [decide_eq_false hn, hb]
  rfl

variable {c : ApiCall}

/-- A call that fails a test has touched nothing. -/
theorem ApiCall.run_refused (hc : h < 0 ∨ h > maxLmonSession ∨ c.refused = true) (s : Sess) :
    c.run h s = .error (.ret .ebdarg) s := by
  obtain ⟨a, b, rest, hrun, hab, -⟩ := c.isApi h
  rw [hrun]
  rw [← hab] at hc
  exact api_refused hc s

/-- A call that passes its tests is at the element of its handle and at no other one. -/
theorem ApiCall.run_good (hh : 0 ≤ h ∧ h ≤ maxLmonSession) (hc : c.refused = false) (s : Sess) :
    Uses h s (final (c.run h) s) := by
  obtain ⟨a, b, rest, hrun, hab, hr⟩ := c.isApi h
  have hs : c.run h s = rest s := by
    rw [hrun]
    exact api_good hh (hab.trans hc) s
  unfold final
  rw [hs]
  exact hr.out s

/-! ## Exact validation -/

/-- A call with a handle keeps to the array: a handle outside is turned away before any element is looked
    at, and one inside leads to its element alone. -/
structure Validated (c : ApiCall) (h : Int) : Prop where
  outside : ¬ Handle h → ∀ s, c.run h s = .error (.ret .ebdarg) s
  inside : Handle h → c.refused = false → ∀ s, Uses h s (final (c.run h) s)
  inBounds : ∀ s, s.accessed = [] → ∀ i ∈ (final (c.run h) s).accessed, Handle i

theorem Validated.of_refused (hc : h < 0 ∨ h > maxLmonSession ∨ c.refused = true) : Validated c h where
  outside _ := ApiCall.run_refused hc
  inside hh hr := by
    obtain ⟨h0, h1⟩ := hh
    rcases hc with hc | hc | hc
    · omega
    · omega
    · rw [hr] at hc
      exact Bool.noConfusion hc
  inBounds s hs := by
    rw [final_error (ApiCall.run_refused hc s), hs]
    intro i hi
    exact absurd hi List.not_mem_nil

theorem Validated.of_handle (hh : Handle h) (hc : c.refused = false) : Validated c h where
  outside hn := absurd hh hn
  inside _ _ := ApiCall.run_good ⟨hh.1, Int.le_of_lt hh.2⟩ hc
  inBounds s hs := by
    obtain ⟨l, hl, hm⟩ := (ApiCall.run_good ⟨hh.1, Int.le_of_lt hh.2⟩ hc s).accessed
    rw [hl, hs]
    intro i hi
    rcases List.mem_cons.mp hi with rfl | hi
    · exact hh
    · exact hm i hi ▸ hh

/-- The one handle for which the test is wrong: the element behind the array is worked on. -/
theorem not_validated_max (hc : c.refused = false) : ¬ Validated c maxLmonSession := by
  intro hv
  let s : Sess := ⟨fun _ => Elem.init, []⟩
  obtain ⟨l, hl, -⟩ := (ApiCall.run_good ⟨Int.natCast_nonneg _, Int.le_refl _⟩ hc s).accessed
  have hmem : (maxLmonSession : Int) ∈ (final (c.run maxLmonSession) s).accessed := by
    rw [hl]
    exact List.mem_append_right _ List.mem_cons_self
  exact absurd (hv.inBounds s rfl _ hmem).2 (Int.lt_irrefl _)

/-- **The range tests are exact but for one handle.**  Every function keeps to the array for every handle,
    except that MAX_LMON_SESSION passes, unless another argument is refused. -/
theorem handle_validation_iff (c : ApiCall) (h : Int) :
    Validated c h ↔ (h = maxLmonSession → c.refused = true) := by
  constructor
  · rintro hv rfl
    by_contra hc
    exact not_validated_max (Bool.not_eq_true _ ▸ hc) hv
  · intro hc
    by_cases hr : h < 0 ∨ h > maxLmonSession ∨ c.refused = true
    · exact Validated.of_refused hr
    · refine Validated.of_handle ⟨?_, ?_⟩ ?_
      · omega
      · have hne : h ≠ maxLmonSession := fun he => hr (Or.inr (Or.inr (hc he)))
        omega
      · exact Bool.not_eq_true _ ▸ fun ht => hr (Or.inr (Or.inr ht))

/-- The status of the descriptor behind the array is handed out. -/
theorem getStatus_max_not_validated : ¬ Validated (.getStatus true) 100 := by
  intro hv
  let s : Sess := ⟨fun _ => Elem.init, []⟩
  have hout := hv.outside (by decide) s
  cases hout

end LaunchMON.Frontend.Handles
