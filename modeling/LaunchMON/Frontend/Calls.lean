/-
  The calls of the front-end API on one session, with what they do to its mutex.

  A call checks its handle, takes `eventMutex`, reads and writes the descriptor and gives the mutex
  back.  It is a program on the descriptor (`Effect`) that leaves a trace of its mutex operations; a
  `return` in the middle of it is an exception that carries the return code.  What the outside does
  (whether a write goes through, what a timed wait comes back with and what the watchdog has made of
  the descriptor by then, how the middleware handshake ends) is an argument.

  `LMON_fe_detach`, `LMON_fe_kill` and `LMON_fe_shutdownDaemons` are one program with a parameter
  (`control`): they differ in their check, in the flag they wait for and in what they leave.
-/
import LaunchMON.Frontend.Watchdog
import LaunchMON.Lib.Effect
import LaunchMON.Lmonp.Proctab

namespace LaunchMON.Frontend

open CBytes Effect Lmonp

/-! ## The descriptor and the mutex -/

/-- `dist_req_opt_e`. -/
inductive DistReqOpt
  | subsetStride
  | subsetHosts
  | hostlists
  | newallocNhosts
  | reqNone
  | spaceForRent
  deriving DecidableEq, Repr

/-- `dist_request_t`; a null argument vector or host list is an empty one. -/
structure DistRequest where
  md : BitVec 32
  mwDaemonPath : CString
  dArgv : List CString
  ndaemon : Int32
  block : Int32
  cyclic : Int32
  optkind : DistReqOpt
  hl : List CString

/-- An element of `spawner_vector`: `spawner_coloc_t` or `spawner_rsh_t`. -/
structure Spawner where
  coloc : Bool
  daemonPath : CString
  daemonArgs : List CString
  hosts : List CString

/-- `lmon_session_desc_t`, as far as the calls below use it. -/
structure Desc extends Session where
  mwSpawned : Bool
  proctabMsg : Option Msg
  pMap : Proctable
  spawnerVector : List Spawner

/-- `LMON_destroy_sess` and `LMON_init_sess`. -/
def Desc.init : Desc := ⟨.init, false, none, ∅, []⟩

/-- What a thread does to `eventMutex`. -/
inductive MutexOp
  | lock
  | unlock
  | timedwait
  deriving DecidableEq, Repr

/-- The mutex, seen by a thread that has it or not: `none` where the thread blocks on itself, gives
    back what it does not have, or waits without it. -/
def Mutex.step : Bool → MutexOp → Option Bool
  | false, .lock => some true
  | true, .unlock => some false
  | true, .timedwait => some true
  | true, .lock | false, .unlock | false, .timedwait => none

/-! ## Programs on a descriptor -/

/-- What a call works on. -/
structure Thread where
  desc : Desc
  trace : List MutexOp

/-- A call that does not reach its last line: it returns earlier, it waits for ever, or it reads or
    writes outside of its objects. -/
inductive Exit
  | ret (rc : LmonRc)
  | blocked
  | undefined
  deriving DecidableEq, Repr

abbrev ApiM := EStateM Exit Thread

def mutexOp (o : MutexOp) : ApiM Unit := modify fun s => { s with trace := s.trace ++ [o] }

def getDesc : ApiM Desc := do return (← get).desc

def setDesc (d : Desc) : ApiM Unit := modify fun s => { s with desc := d }

/-- `return rc` with the mutex given back. -/
def leave (rc : LmonRc) : ApiM LmonRc := do
  mutexOp .unlock
  throw (.ret rc)

/-- The test at the head of every call.  It lets MAX_LMON_SESSION pass, which is no index of the array
    of descriptors. -/
def checkHandle (sessionHandle : Int) : ApiM Unit :=
  if sessionHandle < 0 ∨ sessionHandle > maxLmonSession then throw (.ret .ebdarg)
  else if sessionHandle = maxLmonSession then throw .undefined
  else pure ()

/-- A call on the descriptor of its handle: its return code, the descriptor it leaves and what it has
    done to the mutex; `none` where it does not return. -/
def call (x : ApiM LmonRc) (d : Desc) : Option (LmonRc × Desc × List MutexOp) :=
  match x ⟨d, []⟩ with
  | .ok rc s | .error (.ret rc) s => some (rc, s.desc, s.trace)
  | .error .blocked _ | .error .undefined _ => none

/-! ## Detach, kill, shutdown -/

/-- What `pthread_cond_timedwait` returns. -/
inductive WaitRc
  | ok
  | etimedout
  | other
  deriving DecidableEq, Repr

/-- The end of a timed wait: what the watchdog has made of the flags by then, and the result. -/
structure Wake where
  session : Session
  rc : WaitRc

/-- The descriptor after a call: `LMON_fe_kill` and `LMON_fe_shutdownDaemons` destroy it. -/
def Call.leaves (d : Desc) : Call → Desc
  | .kill | .shutdownDaemons => .init
  | .detach | .launchAndSpawnDaemons | .attachAndSpawnDaemons => d

/-- The loop around `pthread_cond_timedwait`. -/
def waitFor (c : Call) : List Wake → ApiM LmonRc
  | [] => do
    if c.flag (← getDesc).toSession then return .ok else throw .blocked
  | w :: ws => do
    if c.flag (← getDesc).toSession then return .ok
    else
      mutexOp .timedwait
      setDesc { (← getDesc) with toSession := w.session }
      match w.rc with
      | .etimedout => return .etout
      | .other => return .einval
      | .ok => waitFor c ws

/-- The body shared by the three calls that send a request to the engine.  `sent` tells whether the
    whole header went out. -/
def control (c : Call) (sessionHandle : Int) (sent : Bool) (wakes : List Wake) : ApiM LmonRc := do
  checkHandle sessionHandle
  mutexOp .lock
  if c.check (← getDesc).toSession = false then leave .ebdarg
  else if sent = false then throw (.ret .einval)
  else
    let lrc ← waitFor c wakes
    setDesc (c.leaves (← getDesc))
    mutexOp .unlock
    return lrc

/-- `LMON_fe_detach`. -/
def lmonFeDetach : Int → Bool → List Wake → ApiM LmonRc := control .detach

/-- `LMON_fe_kill`. -/
def lmonFeKill : Int → Bool → List Wake → ApiM LmonRc := control .kill

/-- `LMON_fe_shutdownDaemons`. -/
def lmonFeShutdownDaemons : Int → Bool → List Wake → ApiM LmonRc := control .shutdownDaemons

/-! ## The process table -/

/-- `LMON_fe_getProctableSize`; the size is written where the result is LMON_OK. -/
def lmonFeGetProctableSize (sessionHandle : Int) : ApiM LmonRc := do
  checkHandle sessionHandle
  mutexOp .lock
  let d ← getDesc
  if d.registered = false then leave .ebdarg
  else if d.spawned = false then leave .edunav
  else if d.proctabMsg = none then leave .edunav
  else
    mutexOp .unlock
    return .ok

/-- `LMON_fe_getProctable`, as a user of the mutex: `Lmonp.lmonFeGetProctable` says what it copies. -/
def lmonFeGetProctable (sessionHandle : Int) (proctable : Option (Buf ProcdescExt))
    (maxlen : UInt32) : ApiM LmonRc := do
  checkHandle sessionHandle
  mutexOp .lock
  let d ← getDesc
  if d.registered = false then leave .ebdarg
  else if d.spawned = false then leave .edunav
  else
    match d.proctabMsg, proctable with
    | none, _ | _, none => leave .edunav
    | some m, some table =>
      match getLmonpayloadBegin m.hdr with
      | none => throw (.ret .edunav)
      | some traverse =>
        let strtab := ((getStrtabBegin m.hdr).map m.payload.drop).getD []
        match fetchRows strtab (min (ntasks m.hdr) maxlen.toNat) 0 (m.payload.drop traverse) table with
        | none => throw .undefined
        | some _ =>
          mutexOp .unlock
          return if maxlen.toNat < ntasks m.hdr then .etrunc else .ok

/-! ## Middleware -/

/-- The kinds of `lmon_mw_mode_t`. -/
def isMwColoc (flag : BitVec 32) : Bool := flag &&& 0x1 ≠ 0
def isMwExistingalloc (flag : BitVec 32) : Bool := flag &&& 0x1 <<< 1 ≠ 0
def isMwNewalloc (flag : BitVec 32) : Bool := flag &&& 0x1 <<< 2 ≠ 0
def isMwHostlist (flag : BitVec 32) : Bool := flag &&& 0x1 <<< 3 ≠ 0

/-- LMON_N_MW_TYPES. -/
def lmonNMwTypes : Int := 4

/-- One daemon for each node, and nothing else, is asked for. -/
def DistRequest.plain (r : DistRequest) : Bool := r.ndaemon = -1 ∧ r.block = -1 ∧ r.cyclic = -1

/-- The spawner of a request, or the code with which `LMON_fe_launchMwDaemons` gives up. -/
def DistRequest.spawner (pMap : Proctable) (r : DistRequest) : Except LmonRc Spawner :=
  if isMwColoc r.md then
    if r.plain then .ok ⟨true, r.mwDaemonPath, r.dArgv, pMap.keys⟩ else .error .notimpl
  else if isMwExistingalloc r.md then .error .notimpl
  else if isMwNewalloc r.md then .error .notimpl
  else if isMwHostlist r.md then
    if r.plain then
      if r.optkind = .hostlists then .ok ⟨false, r.mwDaemonPath, r.dArgv, r.hl⟩ else .error .ebdarg
    else .error .notimpl
  else .error .ebdarg

/-- The loop over the requests: the spawners that have been pushed stay. -/
def pushSpawners : List DistRequest → ApiM LmonRc
  | [] => return .ok
  | r :: rs => do
    let d ← getDesc
    match r.spawner d.pMap with
    | .error lrc => leave lrc
    | .ok s =>
      setDesc { d with spawnerVector := d.spawnerVector ++ [s] }
      pushSpawners rs

/-- `LMON_fe_launchMwDaemons`; `handshake` is the result of `LMON_fe_mwHandshakeSequence`.  The code at
    `op_went_bad` gives the mutex back, and the branch that gets there from the handshake has done so
    already. -/
def lmonFeLaunchMwDaemons (sessionHandle : Int) (req : List DistRequest) (nreq : Int)
    (handshake : LmonRc) : ApiM LmonRc := do
  checkHandle sessionHandle
  if nreq ≤ 0 ∨ nreq > lmonNMwTypes then throw (.ret .ebdarg)
  else if req.length < nreq.toNat then throw .undefined
  else
    mutexOp .lock
    let _ ← pushSpawners (req.take nreq.toNat)
    if handshake ≠ .ok then
      mutexOp .unlock
      leave handshake
    else
      setDesc { (← getDesc) with mwSpawned := true }
      mutexOp .unlock
      return .ok

/-- The hosts of all spawners, in the order of the middleware ranks. -/
def combineHosts (spawnerVector : List Spawner) : List CString := spawnerVector.flatMap Spawner.hosts

/-- `LMON_fe_getMwHostlist`: it writes `min size (maxlen + 1)` names. -/
def lmonFeGetMwHostlist (sessionHandle : Int) (maxlen : UInt32) : ApiM LmonRc := do
  checkHandle sessionHandle
  mutexOp .lock
  let d ← getDesc
  if d.registered = false then leave .ebdarg
  else if d.mwSpawned = false then leave .edunav
  else
    let size := (combineHosts d.spawnerVector).length
    let i := min size (maxlen.toNat + 1)
    mutexOp .unlock
    return if i = maxlen.toNat ∧ maxlen.toNat < size then .etrunc else .ok

/-- `LMON_fe_getMwHostlistSize`. -/
def lmonFeGetMwHostlistSize (sessionHandle : Int) : ApiM LmonRc := do
  checkHandle sessionHandle
  mutexOp .lock
  let d ← getDesc
  if d.registered = false then leave .ebdarg
  else if d.mwSpawned = false then leave .edunav
  else
    mutexOp .unlock
    return .ok

end LaunchMON.Frontend
