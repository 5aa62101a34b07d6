/-
  The state of the engine and the operations of its tracer: `breakpoint_base_t`,
  `linux_breakpoint_t`, `process_base_t` and `linux_ptracer_t`, on x86_64.

  The engine keeps one `process_base_t` for the launcher, with a list of threads, two hidden
  breakpoints and the flags of pending requests, and one `launchmon_base_t`.  A tracer operation acts
  on the thread that `get_pid` names: the master thread, the thread on top of the stack of contexts,
  or a child that is not in the thread list.

  Programs are `EStateM`: a C++ exception keeps the state it was thrown in.  `crash` stands for what
  is not an exception (an assertion that fails, a NULL pointer, an undefined read), so nothing
  catches it.  Messages to the front end go to a log.
-/
import LaunchMON.Engine.Target
import LaunchMON.Lib.Effect
import LaunchMON.Lmonp.Proctab
import Mathlib.Data.List.Sort

namespace LaunchMON.Engine

open Effect CBytes Lmonp

/-! ## Breakpoints -/

/-- T_UNINIT_HEX. -/
def uninitHex : VA := 0xdeadbeefdeadbeef

/-- IT_UNINIT_HEX. -/
def itUninitHex : Word := fun i => [0xef, 0xbe, 0xad, 0xde, 0xef, 0xbe, 0xad, 0xde].getD i 0

/-- T_TRAP_INSTRUCTION, 0xcc. -/
def trapInstruction : Word := fun i => if i = 0 then 0xcc else 0

/-- T_BLEND_MASK, 0xffffffffffffff00. -/
def blendMask : Word := fun i => if i = 0 then 0 else 0xff

/-- The trap, with the bytes of the original instruction behind it. -/
def blend (orig : Word) : Word := fun i => orig i &&& blendMask i ||| trapInstruction i

theorem blend_zero (orig : Word) : blend orig 0 = 0xcc := by
  show orig 0 &&& 0 ||| 0xcc = 0xcc
  rw [UInt8.and_zero]
  rfl

theorem blend_of_ne {i : Fin 8} (h : i ≠ 0) (orig : Word) : blend orig i = orig i := by
  show orig i &&& (if i = 0 then 0 else 0xff) ||| (if i = 0 then 0xcc else 0) = orig i
  rw [if_neg h, if_neg h, UInt8.or_zero]
  exact UInt8.and_neg_one

/-- `bp_status_e`. -/
inductive BpStatus
  | unset
  | set
  | enabled
  | disabled
  deriving DecidableEq, Repr

/-- `linux_breakpoint_t`, without indirection. -/
structure Bp where
  addressAt : VA
  returnAddr : VA
  origInstruction : Word
  status : BpStatus

namespace Bp

/-- The constructor. -/
def new : Bp := ⟨uninitHex, uninitHex, itUninitHex, .unset⟩

def set (b : Bp) : Bp := if b.status = .unset then { b with status := .set } else b

/-- A new breakpoint at an address, after `set`. -/
def setAt (addr : VA) : Bp := set { new with addressAt := addr }

def enable (b : Bp) : Bp :=
  if b.status = .set ∨ b.status = .disabled then { b with status := .enabled } else b

def disable (b : Bp) : Bp := if b.status = .enabled then { b with status := .disabled } else b

/-- NUM_BYTE_INCR_AFTER_TRAP. -/
def numByteIncrAfterTrap : Nat := 1

/-- NUM_BYTE_INCR_AFTER_SINGLESTEP. -/
def numByteIncrAfterSinglestep : Nat := 8

/-- `get_where_pc_would_be`. -/
def wherePcWouldBe (b : Bp) : VA := off b.addressAt numByteIncrAfterTrap

/-- `is_pc_part_of_bp_op`. -/
def isPcPartOfBpOp (b : Bp) (pc : VA) : Bool :=
  if pc = b.wherePcWouldBe ∨
      b.wherePcWouldBe < pc ∧ pc ≤ off b.addressAt numByteIncrAfterSinglestep then true
  else pc = b.returnAddr

end Bp

/-- The two hidden breakpoints of a process. -/
inductive BpSel
  | launch
  | loader
  deriving DecidableEq, Repr

/-! ## Images and configuration -/

/-- The symbols that the engine looks up in the image of the launcher and of its library. -/
inductive Sym
  | launchBreakpoint
  | debugState
  | beingDebug
  | proctable
  | proctableSize
  | jobId
  | execPath
  | serverArgs
  | attachFifo
  deriving DecidableEq, Repr

structure Symbol where
  relocatedAddress : VA
  isDefined : Bool
  deriving DecidableEq

/-- A relocated image; `none` for a symbol it does not have. -/
abbrev Image := Sym → Option Symbol

/-- Where the resource ID comes from, `is_rid_sup`, `is_rid_via_symbol`, `is_rid_via_pid` and the
    `dtype` of the job ID. -/
inductive RidSource
  | unsupported
  | cstring
  | integer32
  | otherType
  | viaPid
  | nowhere
  deriving DecidableEq, Repr

/-- What does not change during a run: options, the resource manager, and the launcher. -/
structure Config where
  apiMode : Bool
  attach : Bool
  /-- the launcher, which is its own master thread -/
  pid : LwpId
  /-- the original text of the launcher, with all that will ever be mapped -/
  text : Mem
  mainImage : Image
  /-- the library `get_launcher_so_name`; `none` if its file cannot be read -/
  rmsoImage : Option Image
  /-- where the engine finds the dynamic loader to be loaded -/
  loaderBase : Option VA
  /-- the loader breakpoint symbol, relative to that -/
  loaderBreakpointSym : Option VA
  /-- the uninitialised address of a symbol that was not found -/
  garbage : VA
  needCheckLauncherSo : Bool
  colocSup : Bool
  attfifoSup : Bool
  contOnAtt : Bool
  failDetectSup : Bool
  modelchecker : Bool
  rid : RidSource
  rm : Nat
  /-- `rm_daemon_path`, and the arguments for `MPIR_server_arguments` if they fit -/
  daemonPath : List UInt8
  serverArguments : Option (List UInt8)
  /-- a file for the host names can be opened -/
  hostsFileOk : Bool
  /-- what `fork` returns for the tool launcher -/
  toolPid : Nat
  /-- `/proc` shows `T` for a thread that is stopped by its tracer (older kernels) or `t` -/
  procStatT : Bool

/-! ## State -/

/-- `thread_base_t`. -/
structure Thr where
  master : Bool
  traced : Bool
  eventRegistered : Bool
  deriving DecidableEq, Repr

/-- `pcont_req_reason`. -/
inductive Reason
  | reservedForRent
  | rmBeDaemonExited
  | rmMwDaemonExited
  | rmJobMpirAborting
  | feRequestedDetach
  | feRequestedShutdownDmon
  | feRequestedKill
  | feDisconnected
  | engineDyingWsignal
  deriving DecidableEq, Repr

/-- `process_base_t`.  The register sets of the threads are not kept: they are fetched before each
    use. -/
structure Process where
  /-- in the order of the keys -/
  thrlist : List (LwpId × Thr)
  threadCtxStack : List LwpId
  /-- `none` for 0, which is no pid -/
  newChildPid : Option LwpId
  launchHiddenBp : Option Bp
  loaderHiddenBp : Option Bp
  neverTrapped : Bool
  pleaseDetach : Bool
  pleaseKill : Bool
  reason : Reason
  /-- the base addresses of these two images are known -/
  threadLibFound : Bool
  libcFound : Bool
  /-- `get_myrmso_image`, once its base address is known -/
  rmso : Option Image
  symAttachFifo : Option VA

/-- `mpir_start` and the other values of `engine_state`. -/
inductive EngineState
  | start
  | null
  | spawned
  | abort
  | unknown
  deriving DecidableEq, Repr

/-- A call of `acquire_proctable`: the memory and the library it reads from, the table it adds to,
    and its result. -/
structure Acquisition where
  mem : Mem
  rmso : Option Image
  before : Proctable
  ok : Bool

/-- `launchmon_base_t`. -/
structure Lmon where
  engineState : EngineState
  pcount : Int32
  proctableCopy : Proctable
  resid : Int
  toollauncherpid : Option Nat
  /-- ghost: the last call of `acquire_proctable` -/
  acquisition : Option Acquisition

/-- What leaves the engine. -/
inductive Note
  | said (m : FeToFeMsg)
  | shippedProctab (acquisition : Option Acquisition) (tab : Proctable) (pcount : Int32)
      (s : Shipment)
  | shippedResourcehandle (rid : Int)
  | shippedRminfo (pid rm : Nat)
  | gracefulRmkill (pid : Option Nat)

structure World where
  target : Target
  proc : Process
  lmon : Lmon
  log : List Note

/-- The three exception classes, and `crash`. -/
inductive Exn
  | symtab
  | tracer
  | machine
  | crash
  deriving DecidableEq, Repr

abbrev EngineM := EStateM Exn World

/-- The three `catch` clauses that end most functions of the engine. -/
def catchAll {α : Type} (r : α) (x : EngineM α) : EngineM α := catching (· ≠ .crash) r x

def modifyTarget (f : Target → Target) : EngineM Unit :=
  modify fun w => { w with target := f w.target }

def modifyProc (f : Process → Process) : EngineM Unit := modify fun w => { w with proc := f w.proc }

def modifyLmon (f : Lmon → Lmon) : EngineM Unit := modify fun w => { w with lmon := f w.lmon }

def note (n : Note) : EngineM Unit := modify fun w => { w with log := w.log ++ [n] }

/-- The value of an option, or an exception. -/
def orThrow {α : Type} (e : Exn) : Option α → EngineM α
  | some a => pure a
  | none => throw e

/-! ## Threads and contexts -/

namespace Process

def thr (p : Process) (t : LwpId) : Option Thr := p.thrlist.lookup t

/-- `get_thrlist().find(t) != end()`. -/
def hasThr (p : Process) (t : LwpId) : Bool := (p.thr t).isSome

def insertThr (p : Process) (t : LwpId) (r : Thr) : Process :=
  { p with thrlist := p.thrlist.orderedInsert (fun a b => a.1 ≤ b.1) (t, r) }

def eraseThr (p : Process) (t : LwpId) : Process :=
  { p with thrlist := p.thrlist.filter fun e => e.1 ≠ t }

def mapThr (p : Process) (t : LwpId) (f : Thr → Thr) : Process :=
  { p with thrlist := p.thrlist.map fun e => if e.1 = t then (e.1, f e.2) else e }

def bp (p : Process) : BpSel → Option Bp
  | .launch => p.launchHiddenBp
  | .loader => p.loaderHiddenBp

def setBp (p : Process) (b : Option Bp) : BpSel → Process
  | .launch => { p with launchHiddenBp := b }
  | .loader => { p with loaderHiddenBp := b }

end Process

/-- `make_context`. -/
def makeContext (key : LwpId) : EngineM Unit := do
  let p := (← get).proc
  if p.hasThr key then modifyProc fun p => { p with threadCtxStack := key :: p.threadCtxStack }
  else if p.newChildPid = none then modifyProc fun p => { p with newChildPid := some key }
  else throw .machine

/-- `check_and_undo_context`. -/
def checkAndUndoContext (key : LwpId) : EngineM Unit := do
  let p := (← get).proc
  if p.newChildPid = some key then modifyProc fun p => { p with newChildPid := none }
  else if p.threadCtxStack.head? = some key then
    modifyProc fun p => { p with threadCtxStack := p.threadCtxStack.tail }
  else throw .machine

variable (cfg : Config)

/-- `get_pid`; `none` for THREAD_KEY_INVALID.  `top` of an empty stack is undefined. -/
def getPid (useCxt : Bool) : EngineM (Option LwpId) := do
  let w ← get
  if useCxt = false then pure (some cfg.pid)
  else if w.proc.newChildPid.isSome then pure w.proc.newChildPid
  else do
    let t ← orThrow .crash w.proc.threadCtxStack.head?
    pure (if w.proc.hasThr t then some t else none)

/-- `get_cur_thread_ctx`. -/
def curThreadCtx (p : Process) : Option LwpId := p.threadCtxStack.head?

/-! ## The tracer -/

/-- The thread that a request is about, if there is one for it. -/
def focus? (useCxt : Bool) : EngineM (Option (LwpId × Lwp)) := do
  let pid ← getPid cfg useCxt
  let w ← get
  pure (pid.bind fun t => (w.target.lwps t).map fun l => (t, l))

/-- The thread that a PTRACE request is about: any other request fails. -/
def focus (useCxt : Bool) : EngineM (LwpId × Lwp) := do
  let o ← focus? cfg useCxt
  orThrow .tracer (o.filter fun p => p.2.Ptraceable)

def setLwp (t : LwpId) (l : Lwp) : EngineM Unit := modifyTarget fun T => T.setLwp t l

/-- The registers the engine looks at.  The others go back as they came. -/
structure Regs where
  pc : VA
  sp : VA

/-- `get_gprset`: the register set belongs to the thread on top of the stack. -/
def getGprset : EngineM Unit := do
  let w ← get
  orThrow .tracer (w.proc.threadCtxStack.head?.bind fun t => (w.proc.thr t).map fun _ => ())

/-- `tracer_getregs`. -/
def tracerGetregs : EngineM Regs := do
  getGprset
  let f ← focus cfg true
  pure ⟨f.2.pc, f.2.sp⟩

/-- `tracer_setregs`. -/
def tracerSetregs (r : Regs) : EngineM Unit := do
  getGprset
  let f ← focus cfg true
  setLwp f.1 { f.2 with pc := r.pc, sp := r.sp }

/-- `tracer_read`. -/
def tracerRead (useCxt : Bool) (addr : VA) (size : Nat) : EngineM (List UInt8) := do
  let f ← focus cfg useCxt
  let w ← get
  orThrow .tracer (peekBytes (w.target.mem f.2.mm) addr size)

/-- `tracer_read` of one word. -/
def tracerReadWord (useCxt : Bool) (addr : VA) : EngineM Word := do
  let f ← focus cfg useCxt
  let w ← get
  orThrow .tracer (peek (w.target.mem f.2.mm) addr)

/-- `tracer_read_string`. -/
def tracerReadString (useCxt : Bool) (addr : VA) (size : Nat) : EngineM (List UInt8) := do
  let f ← focus cfg useCxt
  let w ← get
  orThrow .tracer (peekString (w.target.mem f.2.mm) addr (words size))

/-- `tracer_write`. -/
def tracerWrite (useCxt : Bool) (addr : VA) (buf : List UInt8) : EngineM Unit := do
  let f ← focus cfg useCxt
  let w ← get
  let r := pokeLoop (w.target.mem f.2.mm) addr (words buf.length) buf
  modifyTarget fun T => T.setMem f.2.mm r.1
  if r.2 then pure () else throw .tracer

/-- `tracer_continue`. -/
def tracerContinue (useCxt : Bool) : EngineM Unit := do
  let f ← focus cfg useCxt
  setLwp f.1 f.2.resume

/-- `tracer_deliver_signal`. -/
def tracerDeliverSignal (sig : Nat) : EngineM Unit := do
  let f ← focus cfg true
  setLwp f.1 { f.2.resume with delivered := f.2.delivered ++ [sig] }

/-- `tracer_singlestep`. -/
def tracerSinglestep : EngineM Unit := do
  let f ← focus cfg true
  setLwp f.1 { f.2 with run := .stepping, report := none, stepFrom := some f.2.pc }

/-- `tracer_stop`, by `tkill`. -/
def tracerStop (useCxt : Bool) : EngineM Unit := do
  let o ← focus? cfg useCxt
  o.elim (pure ()) fun p => setLwp p.1 { p.2 with stopRequested := true }

/-- `tracer_detach`; a failure is a return value that no caller looks at. -/
def tracerDetach (useCxt : Bool) : EngineM Unit := do
  let o ← focus? cfg useCxt
  (o.filter fun p => p.2.Ptraceable).elim (pure ()) fun p =>
    setLwp p.1 { p.2.resume with traced := false }

/-- `tracer_setoptions` and `tracer_unsetoptions`, which report no failure. -/
def tracerOptions (useCxt : Bool) (on : Bool) : EngineM Unit := do
  let o ← focus? cfg useCxt
  (o.filter fun p => p.2.Ptraceable).elim (pure ()) fun p => setLwp p.1 { p.2 with opts := on }

/-- `tracer_get_event_msg`. -/
def tracerGetEventMsg : EngineM LwpId := do
  let f ← focus cfg true
  pure f.2.eventMsg

/-- SDBG_TRACE_ESRCH_ERR, SDBG_TRACE_STOPPED and SDBG_TRACE_RUNNING. -/
inductive TraceStatus
  | esrch
  | stopped
  | running
  deriving DecidableEq, Repr

/-- The state letter in `/proc/<tid>/stat` is `T`. -/
def Lwp.statT (procStatT : Bool) (l : Lwp) : Bool := l.run = .stopped ∧ procStatT

/-- `status`. -/
def tracerStatus (useCxt : Bool) : EngineM TraceStatus := do
  let o ← focus? cfg useCxt
  pure <| o.elim .esrch fun p =>
    if p.2.run = .gone ∧ p.2.report = none then .esrch else if p.2.statT cfg.procStatT then .stopped else .running

/-! ## Breakpoint operations -/

/-- `*p.get_launch_hidden_bp()` and `*p.get_loader_hidden_bp()`. -/
def getBp (sel : BpSel) : EngineM Bp := do
  let w ← get
  orThrow .crash (w.proc.bp sel)

def setBp (sel : BpSel) (b : Option Bp) : EngineM Unit := modifyProc fun p => p.setBp b sel

/-- `set_return_addr`. -/
def setReturnAddr (sel : BpSel) (ra : VA) : EngineM Unit := do
  let b ← getBp sel
  setBp sel (some { b with returnAddr := ra })

/-- `enable_breakpoint`, with the state change. -/
def enableBreakpoint (sel : BpSel) : EngineM Unit := do
  let b ← getBp sel
  if b.status = .set ∨ b.status = .disabled then do
    let orig ← tracerReadWord cfg true b.addressAt
    let b := { b with origInstruction := orig }
    setBp sel (some b)
    tracerWrite cfg true b.addressAt (List.ofFn (blend orig))
    setBp sel (some b.enable)
  else pure ()

/-- `disable_breakpoint`. -/
def disableBreakpoint (sel : BpSel) (useCxt changeState : Bool) : EngineM Unit := do
  let b ← getBp sel
  if b.status = .enabled then do
    tracerWrite cfg useCxt b.addressAt (List.ofFn b.origInstruction)
    whenever changeState (setBp sel (some b.disable))
  else pure ()

end LaunchMON.Engine
