/-
  What the engine says to the front end, in any run.

  The engine talks in four ways.  At the first stop of a launcher that it has attached to, and at each
  stop at the launch breakpoint that finds new tasks, it announces the process table: the table, the
  resource handle, the resource manager, and the kind of the stop.  It completes a request.  It says that
  the launcher is gone, and it says that the job has been aborted.  All but the first are the last thing
  it says.

  `Conversation` is the language of these messages: at most one announcement of an attach, and it comes
  first; then announcements of launches; then at most one message that closes.  An event adds one of its
  words, or nothing (`Speech`), because every function below the handlers is `Silent`; a handler that
  closes the conversation does not return LAUNCHMON_OK, so the engine ends with it.
-/
import LaunchMON.Engine.Requests
import LaunchMON.Engine.Shipping

namespace LaunchMON.Engine

open Effect Lmonp

set_option synthInstance.maxSize 4096

variable {cfg : Config}

/-! ## The language of the messages -/

/-- The message of a note, if it goes to the front end. -/
def Note.message : Note → Option FeToFeMsg
  | .said m => some m
  | .shippedProctab .. => some .proctableAvail
  | .shippedResourcehandle _ => some .resourcehandleAvail
  | .shippedRminfo .. => some .rminfo
  | .gracefulRmkill _ => none

/-- The messages of a log, in their order. -/
def messages (log : List Note) : List FeToFeMsg := log.filterMap Note.message

/-- The messages that announce a process table, at a stop of kind `m`. -/
def announcement (m : FeToFeMsg) : List FeToFeMsg :=
  [.proctableAvail, .resourcehandleAvail, .rminfo, m]

/-- The messages behind which there is none. -/
def closes (m : FeToFeMsg) : Bool :=
  completes m || decide (m = .exited) || decide (m = .stopAtLaunchBpAbort)

/-- The messages of a run; `true` once the conversation is closed. -/
inductive Conversation (attach : Bool) : List FeToFeMsg → Bool → Prop
  | nothing : Conversation attach [] false
  | attached (h : attach = true) : Conversation attach (announcement .stopAtFirstAttach) false
  | launched {ms : List FeToFeMsg} (h : Conversation attach ms false) :
      Conversation attach (ms ++ announcement .stopAtLaunchBpSpawned) false
  | closed {ms : List FeToFeMsg} {m : FeToFeMsg} (h : Conversation attach ms false)
      (hm : closes m = true) : Conversation attach (ms ++ [m]) true

/-! ## Functions that say nothing -/

/-- A process table that is shipped is the one of the engine, and if it has been acquired then the
    launcher's. -/
def Note.Genuine (cfg : Config) : Note → Prop
  | .shippedProctab acq tab pcount s =>
    shipProctabMsg cfg.apiMode tab pcount .proctableAvail = some s ∧
      ∃ A, acq = some A ∧ (∀ es, A.Finds cfg es → A.ok = true) ∧
        (A.ok = true → ∃ es, A.Finds cfg es ∧ tab = es.foldl push A.before ∧ pcount.toInt = es.length)
  | _ => True

/-- From `w` to `w'` the engine has said `ms`, and has shipped no other table than it has.  The first
    trap does not come back. -/
structure Says (cfg : Config) (ms : List FeToFeMsg) (w w' : World) : Prop where
  messages_eq : messages w'.log = messages w.log ++ ms
  never : w'.proc.neverTrapped = true → w.proc.neverTrapped = true
  genuine : (∀ n ∈ w.log, n.Genuine cfg) → ∀ n ∈ w'.log, n.Genuine cfg

/-- From `w` to `w'` the engine has said nothing. -/
abbrev Silent (cfg : Config) : World → World → Prop := Says cfg []

/-- Silence behind what is said, and in front of it, adds nothing. -/
theorem Says.then_silent {ms : List FeToFeMsg} {w w' w'' : World} (h : Says cfg ms w w')
    (h' : Silent cfg w' w'') : Says cfg ms w w'' :=
  ⟨by rw [h'.messages_eq, h.messages_eq, List.append_nil], fun hn => h.never (h'.never hn),
    fun hg => h'.genuine (h.genuine hg)⟩

theorem Silent.then_said {ms : List FeToFeMsg} {w w' w'' : World} (h : Silent cfg w w')
    (h' : Says cfg ms w' w'') : Says cfg ms w w'' :=
  ⟨by rw [h'.messages_eq, h.messages_eq, List.append_nil], fun hn => h.never (h'.never hn),
    fun hg => h'.genuine (h.genuine hg)⟩

instance : IsPreorder World (Silent cfg) where
  refl _ := ⟨(List.append_nil _).symm, id, id⟩
  trans _ _ _ h h' := h.then_silent h'

/-- A note adds its message to those of the log, if it has one. -/
theorem messages_append (log : List Note) (n : Note) :
    messages (log ++ [n]) = messages log ++ n.message.toList := by
  rw [messages, List.filterMap_append]
  refine congrArg (messages log ++ ·) ?_
  cases h : n.message with
  | none => rw [List.filterMap_cons_none h]; rfl
  | some m => rw [List.filterMap_cons_some h]; rfl

/-- A change of the process that does not take the first trap back says nothing. -/
theorem silent_modifyProc (cfg : Config) {f : Process → Process}
    (h : ∀ p, (f p).neverTrapped = true → p.neverTrapped = true) :
    Within (Silent cfg) (modifyProc f) :=
  within_modify fun w => ⟨(List.append_nil _).symm, h w.proc, id⟩

/-- A note says its message; a table in it has to be that of the engine. -/
theorem said_note {n : Note} (hn : n.Genuine cfg) (w : World) :
    Says cfg n.message.toList w (final (note n) w) where
  messages_eq := messages_append w.log n
  never := id
  genuine hg n' hn' := by
    rcases List.mem_append.mp hn' with hn' | hn'
    · exact hg n' hn'
    · cases List.mem_singleton.mp hn'
      exact hn

-- what only changes the target or the data of `launchmon_base_t`, and what only puts a note for itself

instance (f : Target → Target) : Within (Silent cfg) (modifyTarget f) :=
  within_modify fun _ => ⟨(List.append_nil _).symm, id, id⟩

instance (f : Lmon → Lmon) : Within (Silent cfg) (modifyLmon f) :=
  within_modify fun _ => ⟨(List.append_nil _).symm, id, id⟩

instance (pid : Option Nat) : Within (Silent cfg) (gracefulRmkill pid) :=
  ⟨said_note (n := .gracefulRmkill pid) trivial⟩

instance : Within (Silent cfg) setNeverTrapped := silent_modifyProc cfg fun _ h => Bool.noConfusion h

-- the tracer

instance (t : LwpId) (l : Lwp) : Within (Silent cfg) (setLwp t l) := by unfold setLwp; infer_instance

instance (sel : BpSel) (b : Option Bp) : Within (Silent cfg) (setBp sel b) := by
  cases sel <;> exact silent_modifyProc cfg fun _ => id

instance (sel : BpSel) (ra : VA) : Within (Silent cfg) (setReturnAddr sel ra) := by
  unfold setReturnAddr; infer_instance

instance (b : Bool) (a : VA) (bs : List UInt8) : Within (Silent cfg) (tracerWrite cfg b a bs) := by
  unfold tracerWrite; infer_instance

instance (b on : Bool) : Within (Silent cfg) (tracerOptions cfg b on) := by
  unfold tracerOptions; infer_instance

instance (b : Bool) : Within (Silent cfg) (tracerContinue cfg b) := by
  unfold tracerContinue; infer_instance

instance (sig : Nat) : Within (Silent cfg) (tracerDeliverSignal cfg sig) := by
  unfold tracerDeliverSignal; infer_instance

instance (r : Regs) : Within (Silent cfg) (tracerSetregs cfg r) := by unfold tracerSetregs; infer_instance

instance : Within (Silent cfg) (tracerSinglestep cfg) := by unfold tracerSinglestep; infer_instance

instance (b : Bool) : Within (Silent cfg) (tracerStop cfg b) := by unfold tracerStop; infer_instance

instance (b : Bool) : Within (Silent cfg) (tracerDetach cfg b) := by unfold tracerDetach; infer_instance

instance (sel : BpSel) (b c : Bool) : Within (Silent cfg) (disableBreakpoint cfg sel b c) := by
  unfold disableBreakpoint; infer_instance

instance (sel : BpSel) : Within (Silent cfg) (enableBreakpoint cfg sel) := by
  unfold enableBreakpoint; infer_instance

-- contexts, and loops over the threads

instance (t : LwpId) : Within (Silent cfg) (makeContext t) := by
  have h₁ := silent_modifyProc cfg (f := fun p => { p with threadCtxStack := t :: p.threadCtxStack })
    fun _ => id
  have h₂ := silent_modifyProc cfg (f := fun p => { p with newChildPid := some t }) fun _ => id
  unfold makeContext; infer_instance

instance (t : LwpId) : Within (Silent cfg) (checkAndUndoContext t) := by
  have h₁ := silent_modifyProc cfg (f := fun p => { p with newChildPid := none }) fun _ => id
  have h₂ := silent_modifyProc cfg (f := fun p => { p with threadCtxStack := p.threadCtxStack.tail })
    fun _ => id
  unfold checkAndUndoContext; infer_instance

theorem silent_eachThr (cfg : Config) (c : Thr → Bool) (x : EngineM Unit) [Within (Silent cfg) x] :
    Within (Silent cfg) (eachThr c x) := by
  unfold eachThr; infer_instance

instance (b c : Bool) : Within (Silent cfg) (disableAllBPs cfg b c) := by
  unfold disableAllBPs; infer_instance

instance (b : Bool) : Within (Silent cfg) (detachStopped cfg b) := by unfold detachStopped; infer_instance

instance (b : Bool) : Within (Silent cfg) (unsetBeingDebugged cfg b) := by
  unfold unsetBeingDebugged; infer_instance

instance : Within (Silent cfg) (letGo cfg) := by
  have := silent_eachThr cfg (fun r => !r.master) do
    tracerOptions cfg true false
    tracerDetach cfg true
  unfold letGo; infer_instance

-- the process table as it is acquired, and the daemons

instance (table : List UInt8) (i : Nat) : Within (Silent cfg) (acquireRow cfg table i) := by
  unfold acquireRow; infer_instance

instance (w : World) (rid : RidSource) : Within (Silent cfg) (acquireResid cfg w rid) := by
  cases rid <;> unfold acquireResid <;> try unfold setResid
  all_goals infer_instance

instance (w : World) (n : Nat) : Within (Silent cfg) (acquireTable cfg w n) := by
  unfold acquireTable; infer_instance

instance : Within (Silent cfg) (acquireProctable cfg) := by
  unfold acquireProctable acquireBody; infer_instance

instance : Within (Silent cfg) (launchToolDaemons cfg) := by unfold launchToolDaemons; infer_instance

instance (s : Int32) : Within (Silent cfg) (setEngineState s) := by unfold setEngineState; infer_instance

instance (a : VA) : Within (Silent cfg) (registerLaunchBp cfg a) := by
  unfold registerLaunchBp; infer_instance

-- the symbols of the launcher and its libraries

instance (a : VA) (o : Option (List UInt8)) : Within (Silent cfg) (writeServerArgs cfg a o) := by
  cases o <;> unfold writeServerArgs <;> infer_instance

instance (ep sa : Option Symbol) : Within (Silent cfg) (writeColocation cfg ep sa) := by
  cases ep <;> cases sa <;> unfold writeColocation <;> infer_instance

instance (im : Image) : Within (Silent cfg) (handleColocation cfg im) := by
  have := silent_modifyProc cfg
    (f := fun p => { p with symAttachFifo := (im .attachFifo).map Symbol.relocatedAddress }) fun _ => id
  unfold handleColocation; infer_instance

instance (im : Image) : Within (Silent cfg) (handleMpirVariables cfg im) := by
  unfold handleMpirVariables; infer_instance

instance (o : Option Image) : Within (Silent cfg) (initRmso cfg o) := by
  cases o with
  | none => exact inferInstanceAs (Within (Silent cfg) (throw _))
  | some im =>
    have := silent_modifyProc cfg (f := fun p => { p with rmso := some im }) fun _ => id
    unfold initRmso; infer_instance

instance (rmso : Option Image) (name : SoName) : Within (Silent cfg) (visitSo cfg rmso name) := by
  have h₁ := silent_modifyProc cfg (f := fun p => { p with threadLibFound := true }) fun _ => id
  have h₂ := silent_modifyProc cfg (f := fun p => { p with libcFound := true }) fun _ => id
  cases name <;> unfold visitSo <;> infer_instance

instance (entries : List (Option SoName)) : Within (Silent cfg) (walkLinkMap cfg entries) := by
  unfold walkLinkMap; infer_instance

instance : Within (Silent cfg) (checkDependentSOs cfg) := by unfold checkDependentSOs; infer_instance

instance : Within (Silent cfg) (registerLoaderBp cfg) := by unfold registerLoaderBp; infer_instance

instance : Within (Silent cfg) (continueOnAttach cfg) := by unfold continueOnAttach; infer_instance

instance (o : Option VA) : Within (Silent cfg) (attachColocated cfg o) := by
  unfold attachColocated; infer_instance

-- parts of the handlers, and requests

instance (sel : BpSel) : Within (Silent cfg) (handleBpPrologue cfg sel) := by
  unfold handleBpPrologue; infer_instance

instance (sel : BpSel) : Within (Silent cfg) (isBpPrologueDone cfg sel) := by
  unfold isBpPrologueDone; infer_instance

instance : Within (Silent cfg) (holdOrContinue cfg) := by
  have := fun t => silent_modifyProc cfg
    (f := fun p => p.mapThr t fun r => { r with eventRegistered := true }) fun _ => id
  unfold holdOrContinue registerEvent; infer_instance

instance (t : LwpId) : Within (Silent cfg) (handleThrcreateRequest t) := by
  have := silent_modifyProc cfg (f := fun p => p.insertThr t ⟨false, false, false⟩) fun _ => id
  unfold handleThrcreateRequest; infer_instance

instance : Within (Silent cfg) (requestContLaunchBp cfg) := by
  have := fun t => silent_modifyProc cfg
    (f := fun p => p.mapThr t fun r => { r with eventRegistered := false }) fun _ => id
  have : ∀ t, Within (Silent cfg) (contHeld cfg t) := fun t => by unfold contHeld; infer_instance
  unfold requestContLaunchBp; infer_instance

/-- A request of the front end is recorded and stops the threads; its reply comes with the stop. -/
theorem silent_request {f : Process → Process}
    (h : ∀ p, (f p).neverTrapped = p.neverTrapped) (reason : Reason) :
    Within (Silent cfg) (request cfg f reason) := by
  have : Within (Silent cfg) (modifyProc fun p => { f p with reason := reason }) :=
    silent_modifyProc cfg fun p hn => h p ▸ hn
  have : Within (Silent cfg) (stopThreads cfg) := by
    have : Within (Silent cfg) (stopRunning cfg) := by unfold stopRunning; infer_instance
    exact silent_eachThr cfg _ _
  unfold request; infer_instance

instance (reason : Reason) : Within (Silent cfg) (requestDetach cfg reason) :=
  silent_request (f := fun p => { p with pleaseDetach := true }) (fun _ => rfl) reason

instance (reason : Reason) : Within (Silent cfg) (requestKill cfg reason) :=
  silent_request (f := fun p => { p with pleaseKill := true }) (fun _ => rfl) reason

instance (m : FeInput) : Within (Silent cfg) (handleIncomingSocketEvent cfg m) := by
  unfold handleIncomingSocketEvent
  cases m with
  | msg type => cases type <;> infer_instance
  | _ => infer_instance

instance : Within (Silent cfg) (handleDaemonExitEvent cfg) := by
  unfold handleDaemonExitEvent; infer_instance

/-! ## Functions that say something -/

/-- `x` returns, and in API mode it has said `ms`. -/
def Tells (cfg : Config) (ms : List FeToFeMsg) (x : EngineM Unit) : Prop :=
  ∀ w, ∃ w', x w = .ok () w' ∧ Says cfg (if cfg.apiMode then ms else []) w w'

theorem tells_note {n : Note} {m : FeToFeMsg} (hm : n.message = some m) (hn : n.Genuine cfg) :
    Tells cfg [m] (whenever cfg.apiMode (note n)) := by
  intro w
  cases hapi : cfg.apiMode with
  | false => exact ⟨w, rfl, refl_of (Silent cfg) w⟩
  | true =>
    refine ⟨{ w with log := w.log ++ [n] }, rfl, ?_⟩
    have h := said_note hn w
    rwa [hm] at h

/-- What is said in API mode one after the other is said in API mode. -/
theorem Says.append {ms ms' : List FeToFeMsg} {w w₁ w₂ : World}
    (h : Says cfg (if cfg.apiMode then ms else []) w w₁)
    (h' : Says cfg (if cfg.apiMode then ms' else []) w₁ w₂) :
    Says cfg (if cfg.apiMode then ms ++ ms' else []) w w₂ := by
  refine ⟨?_, fun hn => h.never (h'.never hn), fun hg => h'.genuine (h.genuine hg)⟩
  rw [h'.messages_eq, h.messages_eq, List.append_assoc]
  cases cfg.apiMode <;> rfl

theorem Tells.bind {ms ms' : List FeToFeMsg} {x y : EngineM Unit} (hx : Tells cfg ms x)
    (hy : Tells cfg ms' y) : Tells cfg (ms ++ ms') (do x; y) := by
  intro w
  obtain ⟨w₁, hx, hsaid⟩ := hx w
  obtain ⟨w₂, hy, hsaid'⟩ := hy w₁
  exact ⟨w₂, by rw [ok_bind hx, hy], hsaid.append hsaid'⟩

theorem tells_sayFetofeMsg (m : FeToFeMsg) : Tells cfg [m] (sayFetofeMsg cfg m) :=
  tells_note rfl trivial

theorem tells_shipResourcehandle : Tells cfg [.resourcehandleAvail] (shipResourcehandle cfg) := by
  intro w
  unfold shipResourcehandle
  rw [ok_bind (show (get : EngineM World) w = .ok w w from rfl)]
  exact @tells_note cfg (.shippedResourcehandle w.lmon.resid) .resourcehandleAvail rfl trivial w

theorem tells_shipRminfo : Tells cfg [.rminfo] (shipRminfo cfg) := tells_note rfl trivial

/-- The table that the engine has is the launcher's, if it has been acquired. -/
def Lmon.Acquired (cfg : Config) (lm : Lmon) : Prop :=
  ∃ A, lm.acquisition = some A ∧ (∀ es, A.Finds cfg es → A.ok = true) ∧
    (A.ok = true → ∃ es, A.Finds cfg es ∧ lm.proctableCopy = es.foldl push A.before ∧
      lm.pcount.toInt = es.length)

/-- Whatever the memory of the launcher has, `acquire_proctable` leaves it recorded what was read. -/
theorem acquireProctable_acquired {w w' : World} {t : LwpId} {l : Lwp} (h : w.Halted t l) {u : Unit}
    (hx : acquireProctable cfg w = .ok u w') : w'.lmon.Acquired cfg := by
  obtain ⟨ok, w₁, hbody, rfl⟩ := acquireProctable_eq_ok hx
  refine ⟨w.acquisition ok, rfl, fun es hf => acquireBody_of_finds h hf hbody, fun hok => ?_⟩
  obtain rfl : ok = true := hok
  obtain ⟨es, hf, hcount, hcopy, -⟩ := acquireBody_true h true hbody
  exact ⟨es, hf, hcopy, hcount⟩

/-- The table goes out in API mode, and the note has it as the engine has acquired it. -/
theorem shipProctab_said {w : World} (h : w.lmon.Acquired cfg) : ∃ w', shipProctab cfg w = .ok () w' ∧
    Says cfg (if cfg.apiMode then [.proctableAvail] else []) w w' := by
  unfold shipProctab
  rw [ok_bind (show (get : EngineM World) w = .ok w w from rfl)]
  cases hs : shipProctabMsg cfg.apiMode w.lmon.proctableCopy w.lmon.pcount .proctableAvail with
  | none =>
    -- without a front end there is no message
    have hapi : cfg.apiMode = false := by
      cases hapi : cfg.apiMode with
      | false => rfl
      | true =>
        rw [hapi] at hs
        cases hs
    rw [hapi]
    exact ⟨w, rfl, refl_of (Silent cfg) w⟩
  | some s =>
    have hapi : cfg.apiMode = true := by
      cases hapi : cfg.apiMode with
      | true => rfl
      | false =>
        rw [hapi] at hs
        cases hs
    have hgenuine : Note.Genuine cfg
        (.shippedProctab w.lmon.acquisition w.lmon.proctableCopy w.lmon.pcount s) := ⟨hs, h⟩
    rw [hapi]
    exact ⟨_, rfl, said_note hgenuine w⟩

/-- The process table is announced as a whole, unless the engine does not survive its acquisition. -/
theorem announceProctable_said (m : FeToFeMsg) {w : World} {t : LwpId} {l : Lwp} (h : w.Halted t l) :
    Silent cfg w (final (announceProctable cfg m) w) ∨
      Says cfg (announcement m) w (final (announceProctable cfg m) w) := by
  have htold : Tells cfg [.resourcehandleAvail, .rminfo, m] (do
      shipResourcehandle cfg
      shipRminfo cfg
      sayFetofeMsg cfg m) :=
    tells_shipResourcehandle.bind (tells_shipRminfo.bind (tells_sayFetofeMsg m))
  have hsplit : announceProctable cfg m = (do
      acquireProctable cfg
      shipProctab cfg
      (do shipResourcehandle cfg; shipRminfo cfg; sayFetofeMsg cfg m)
      launchToolDaemons cfg) := by
    unfold announceProctable acquireAndShip
    simp only [bind_assoc]
  rw [hsplit]
  cases hacq : acquireProctable cfg w with
  | error e w₁ =>
    -- the exception of `acquire_proctable` is not caught here: none of the four messages is sent
    left
    rw [final_bind_error hacq]
    exact Within.of_error hacq
  | ok u w₁ =>
    -- nothing throws from here on to the last message
    have hsilent : Silent cfg w w₁ := Within.of_ok hacq
    obtain ⟨w₂, hship, hsaid⟩ := shipProctab_said (acquireProctable_acquired h hacq)
    obtain ⟨w₃, hok, hsaid'⟩ := htold w₂
    have hall := hsilent.then_said (hsaid.append hsaid')
    rw [final_bind_ok hacq, final_bind_ok hship, final_bind_ok hok]
    cases hapi : cfg.apiMode with
    | false =>
      rw [hapi] at hall
      exact Or.inl (hall.then_silent (Within.out w₃))
    | true =>
      rw [hapi] at hall
      exact Or.inr (hall.then_silent (Within.out w₃))

/-! ## What an event says -/

/-- What may be said while the engine goes on: nothing, or an announcement. -/
inductive Speech (cfg : Config) (w w' : World) : Prop
  | nothing (h : Silent cfg w w')
  | launched (h : Says cfg (announcement .stopAtLaunchBpSpawned) w w')
      (hn : w'.proc.neverTrapped = false)
  | attached (ha : cfg.attach = true) (h : Says cfg (announcement .stopAtFirstAttach) w w')
      (hn : w.proc.neverTrapped = true) (hn' : w'.proc.neverTrapped = false)

/-- Once the first trap has been handled it stays so. -/
theorem Says.trapped {ms : List FeToFeMsg} {w w' : World} (h : Says cfg ms w w')
    (hn : w.proc.neverTrapped = false) : w'.proc.neverTrapped = false := by
  cases hn' : w'.proc.neverTrapped with
  | false => rfl
  | true => exact absurd (hn.symm.trans (h.never hn')) (by decide)

/-- The same for what is said in one step: silence behind it keeps that the trap has been handled. -/
theorem Speech.then_silent {w w' w'' : World} (h : Speech cfg w w') (h' : Silent cfg w' w'') :
    Speech cfg w w'' := by
  cases h with
  | nothing h => exact .nothing (h.then_silent h')
  | launched h hn => exact .launched (h.then_silent h') (h'.trapped hn)
  | attached ha h hn hn' => exact .attached ha (h.then_silent h') hn (h'.trapped hn')

/-- Silence in front of it keeps that the trap has not been handled. -/
theorem Silent.then_speech {w w' w'' : World} (h : Silent cfg w w') (h' : Speech cfg w' w'') :
    Speech cfg w w'' := by
  cases h' with
  | nothing h' => exact .nothing (h.then_silent h')
  | launched h' hn => exact .launched (h.then_said h') hn
  | attached ha h' hn hn' => exact .attached ha (h.then_said h') (h.never hn) hn'

/-- What `x` says from `w` on: a speech, or a message that closes; and then it does not return
    LAUNCHMON_OK. -/
def Spoken (cfg : Config) (x : EngineM Rc) (w : World) : Prop :=
  Speech cfg w (final x w) ∨
    ∃ m, closes m = true ∧ Says cfg [m] w (final x w) ∧ ∀ w', x w ≠ .ok .ok w'

theorem Spoken.of_silent (x : EngineM Rc) [h : Within (Silent cfg) x] (w : World) : Spoken cfg x w :=
  Or.inl (.nothing (h.out w))

/-- **Below a handler**: behind a silent function it is the rest that speaks; and where the function throws,
    nothing is said. -/
theorem Spoken.bind {α : Type} {x : EngineM α} {f : α → EngineM Rc} [Within (Silent cfg) x] {w : World}
    (h : ∀ a w₁, x w = .ok a w₁ → Spoken cfg (f a) w₁) : Spoken cfg (x >>= f) w := by
  cases hx : x w with
  | error e w₁ =>
    left
    rw [final_bind_error hx]
    exact .nothing (Within.of_error hx)
  | ok a w₁ =>
    have hsilent : Silent cfg w w₁ := Within.of_ok hx
    rcases h a w₁ hx with h | ⟨m, hm, hsaid, hne⟩
    · left
      rw [final_bind_ok hx]
      exact hsilent.then_speech h
    · refine Or.inr ⟨m, hm, ?_, fun w' h' => ?_⟩
      · rw [final_bind_ok hx]
        exact hsilent.then_said hsaid
      · rw [ok_bind hx] at h'
        exact hne w' h'

/-- The `try` around a handler makes another result of an exception, never LAUNCHMON_OK. -/
theorem Spoken.catchAll {x : EngineM Rc} {r : Rc} {w : World} (h : Spoken cfg x w) (hr : r ≠ .ok) :
    Spoken cfg (catchAll r x) w := by
  unfold Spoken LaunchMON.Engine.catchAll
  rw [final_catching]
  refine h.imp_right fun ⟨m, hm, hsaid, hne⟩ => ⟨m, hm, hsaid, fun w' h' => ?_⟩
  rcases catching_eq_ok h' with h' | h'
  · exact hne w' h'
  · exact hr h'.symm

/-- A silent function behind `x` says nothing, also where `x` throws and it does not run. -/
theorem silent_behind {α β : Type} (x : EngineM α) {f : α → EngineM β} [hf : ∀ a, Within (Silent cfg) (f a)]
    (w : World) : Silent cfg (final x w) (final (x >>= f) w) := by
  cases hx : x w with
  | error e w₁ =>
    rw [final_bind_error hx, final_error hx]
    exact refl_of (Silent cfg) w₁
  | ok a w₁ =>
    rw [final_bind_ok hx, final_ok hx]
    exact (hf a).out w₁

/-- A silent `y` behind `x`, in front of the result of `x`, leaves what `x` says and how it ends. -/
theorem Spoken.then_silent {x : EngineM Rc} {y : EngineM Unit} [Within (Silent cfg) y] {w : World}
    (h : Spoken cfg x w) : Spoken cfg (do let rc ← x; y; pure rc) w := by
  have hsilent : Silent cfg (final x w) (final (do let rc ← x; y; pure rc : EngineM Rc) w) :=
    silent_behind x w
  rcases h with h | ⟨m, hm, hsaid, hne⟩
  · exact Or.inl (h.then_silent hsilent)
  · refine Or.inr ⟨m, hm, hsaid.then_silent hsilent, fun w' h' => ?_⟩
    -- LAUNCHMON_OK of the whole would be that of `x`
    obtain ⟨rc, w₁, hx, h'⟩ := bind_eq_ok h'
    obtain ⟨u, w₂, -, h'⟩ := bind_eq_ok h'
    cases h'
    exact hne w₁ hx

/-- A message that closes, in front of a result that ends the engine. -/
theorem spoken_closing {x : EngineM Unit} {m : FeToFeMsg} (hm : closes m = true)
    (hx : Tells cfg [m] x) {rc : Rc} (hrc : rc ≠ .ok) (w : World) :
    Spoken cfg (do x; pure rc) w := by
  obtain ⟨w', hok, hsaid⟩ := hx w
  unfold Spoken
  rw [final_bind_pure, final_ok hok]
  cases hapi : cfg.apiMode with
  | false =>
    rw [hapi] at hsaid
    exact Or.inl (.nothing hsaid)
  | true =>
    rw [hapi] at hsaid
    exact Or.inr ⟨m, hm, hsaid, Never.bind (fun _ => never_pure hrc) w⟩

/-- What `x` says from `w` on is `ms` or nothing, and `ms` only behind the first trap. -/
def Adds (cfg : Config) (ms : List FeToFeMsg) {α : Type} (x : EngineM α) (w : World) : Prop :=
  Silent cfg w (final x w) ∨ Says cfg ms w (final x w) ∧ (final x w).proc.neverTrapped = false

theorem Adds.bind {ms : List FeToFeMsg} {α β : Type} {x : EngineM α} {f : α → EngineM β}
    [Within (Silent cfg) x] {w : World} (h : ∀ a w₁, x w = .ok a w₁ → Adds cfg ms (f a) w₁) :
    Adds cfg ms (x >>= f) w := by
  unfold Adds
  cases hx : x w with
  | error e w₁ =>
    left
    rw [final_bind_error hx]
    exact Within.of_error hx
  | ok a w₁ =>
    have hsilent : Silent cfg w w₁ := Within.of_ok hx
    rw [final_bind_ok hx]
    exact (h a w₁ hx).imp (trans_of (Silent cfg) hsilent) fun h => ⟨hsilent.then_said h.1, h.2⟩

theorem Adds.then_silent {ms : List FeToFeMsg} {α β : Type} {x : EngineM α} {f : α → EngineM β}
    [∀ a, Within (Silent cfg) (f a)] {w : World} (h : Adds cfg ms x w) : Adds cfg ms (x >>= f) w := by
  have hsilent : Silent cfg (final x w) (final (x >>= f) w) := silent_behind x w
  exact h.imp (fun h => trans_of (Silent cfg) h hsilent) fun h =>
    ⟨h.1.then_silent hsilent, hsilent.trapped h.2⟩

theorem announceProctable_adds (m : FeToFeMsg) {w : World} (hn : w.proc.neverTrapped = false)
    {t : LwpId} {l : Lwp} (h : w.Halted t l) :
    Adds cfg (announcement m) (announceProctable cfg m) w :=
  (announceProctable_said m h).imp id fun h => ⟨h, h.trapped hn⟩

/-! ## Handlers -/

instance : Within (Silent cfg) (handleTrapAfterExecEvent cfg) := by
  unfold handleTrapAfterExecEvent; infer_instance

instance : Within (Silent cfg) (handleLoaderBpEvent cfg) := by unfold handleLoaderBpEvent; infer_instance

instance : Within (Silent cfg) (handleThrcreateTrapEvent cfg) := by
  unfold handleThrcreateTrapEvent; infer_instance

instance : Within (Silent cfg) (handleNewthreadTraceEvent cfg) := by
  have := fun t => silent_modifyProc cfg
    (f := fun p => p.mapThr t fun r => { r with traced := true }) fun _ => id
  unfold handleNewthreadTraceEvent; infer_instance

instance : Within (Silent cfg) (handleNewprocForkedEvent cfg) := by
  unfold handleNewprocForkedEvent; infer_instance

instance (sig : Nat) : Within (Silent cfg) (handleRelaySignalEvent cfg sig) := by
  unfold handleRelaySignalEvent; infer_instance

instance : Within (Silent cfg) (handleNotInterestedEvent cfg) := by
  unfold handleNotInterestedEvent; infer_instance

/-- The end of the first attach: an announcement, unless the engine colocates or continues the launcher. -/
theorem attachRest_adds {w : World} {t : LwpId} {l : Lwp} (h : w.Halted t l) (hn : w.proc.neverTrapped = false) :
    Adds cfg (announcement .stopAtFirstAttach) (attachRest cfg) w := by
  have hplain : Adds cfg (announcement .stopAtFirstAttach) (attachPlain cfg) w := by
    refine Adds.bind fun continued w₁ hcont => ?_
    cases continued with
    | true =>
      -- the launcher has been set running, and nothing is announced
      exact Or.inl (refl_of (Silent cfg) w₁)
    | false =>
      obtain rfl : w₁ = w := by
        split at hcont
        · exact continueOnAttach_false h hcont
        · cases hcont
          rfl
      exact (announceProctable_adds _ hn h).then_silent
  refine Adds.bind fun w₁ w₂ hget => ?_
  cases hget
  cases hc : cfg.colocSup with
  | true => exact Or.inl (Within.out (x := attachColocated cfg w.proc.symAttachFifo) w)
  | false => exact hplain

section Context

variable {w : World} {t : LwpId} (hstack : w.proc.threadCtxStack = [t])
  (hchild : w.proc.newChildPid = none)

include hstack hchild

/-- At the launch breakpoint a spawn is announced, and an abort closes the conversation. -/
theorem launchBody_spoken (hn : w.proc.neverTrapped = false) : Spoken cfg (launchBody cfg) w := by
  have haborting : ∀ w', Spoken cfg (launchAborting cfg) w' := by
    intro w'
    have := silent_eachThr cfg (fun r => !r.master) (detachStopped cfg true)
    exact Spoken.bind fun _ w₁ _ => Spoken.bind fun _ w₂ _ => Spoken.bind fun _ w₃ _ =>
      Spoken.bind fun _ w₄ _ => Spoken.bind fun _ w₅ _ =>
        spoken_closing rfl (tells_sayFetofeMsg _) (by decide) w₅
  refine Spoken.bind fun w₁ w₂ hget => ?_
  cases hget
  refine Spoken.bind fun bs w₁ hread => ?_
  -- the read has succeeded, so the thread is stopped
  obtain ⟨f, w₂, hf, -⟩ := bind_eq_ok hread
  have hh := World.Halted.of_focus hstack hchild hf
  obtain ⟨-, rfl⟩ := (tracerRead_eq_ok (A := w.acquisition true) hh rfl).mp hread
  dsimp only
  -- a transition that is not accepted, a spawn, an abort, and any other value
  split
  · exact Spoken.of_silent _ w₁
  · split
    · have h : Adds cfg (announcement .stopAtLaunchBpSpawned) (launchSpawned cfg (readInt bs)) w₁ :=
        (announceProctable_adds _ hn hh).then_silent
      exact Or.inl (h.elim .nothing fun h => .launched h.1 h.2)
    · split
      · exact haborting w₁
      · exact Spoken.of_silent _ w₁

/-- **`handle_launch_bp_event`**, whose prologue is silent. -/
theorem handleLaunchBpEvent_spoken (hn : w.proc.neverTrapped = false) :
    Spoken cfg (handleLaunchBpEvent cfg) w := by
  refine Spoken.catchAll (Spoken.bind fun done w₁ hdone => ?_) (by decide)
  have hsilent : Silent cfg w w₁ := Within.of_ok hdone
  have hsteady : Steady cfg w w₁ := Within.of_ok hdone
  cases done with
  | true =>
    exact launchBody_spoken (hsteady.stack.trans hstack) (hsteady.child.trans hchild)
      (hsilent.trapped hn)
  | false => exact Spoken.of_silent (pure Rc.ok) w₁

/-- **`handle_trap_after_attach_event`** announces at most once, with the first trap. -/
theorem handleTrapAfterAttachEvent_spoken (ha : cfg.attach = true)
    (hn : w.proc.neverTrapped = true) : Spoken cfg (handleTrapAfterAttachEvent cfg) w := by
  have h : Adds cfg (announcement .stopAtFirstAttach) (handleTrapAfterAttachEvent cfg) w := by
    unfold Adds handleTrapAfterAttachEvent catchAll
    rw [final_catching]
    refine Adds.bind fun _ w₁ hmpir => ?_
    have hsame : SameThreads w w₁ := Within.of_ok hmpir
    split
    · exact Or.inl (refl_of (Silent cfg) w₁)
    · -- the breakpoint of the loader is set through the thread of the context, so that one is halted
      refine Adds.bind fun _ w₂ hloader => ?_
      obtain ⟨l, hh⟩ := registerLoaderBp_halted (hsame.stack.trans hstack) (hsame.child.trans hchild)
        hloader
      refine Adds.bind fun _ w₃ hdep => Adds.bind fun _ w₄ htrap => ?_
      have hh₃ : w₃.Halted t l := hh.same (Within.of_ok hdep)
      have hh₄ : w₄.Halted t l := hh₃.same (by cases htrap; exact ⟨rfl, rfl, rfl, rfl⟩)
      have hn₄ : w₄.proc.neverTrapped = false := by
        cases htrap
        rfl
      exact (attachRest_adds hh₄ hn₄).then_silent
  exact Or.inl (h.elim .nothing fun h => .attached ha h.1 hn h.2)

end Context

/-- **The reply of a detach**, where its reason has one, closes the conversation. -/
theorem detachReply_spoken (reason : Reason) (w : World) :
    Spoken cfg (do detachReply cfg reason; pure .stopTrace) w := by
  have hsay : ∀ (m : FeToFeMsg) (w : World), closes m = true →
      Spoken cfg (do sayFetofeMsg cfg m; pure .stopTrace) w := fun m w hm =>
    spoken_closing hm (tells_sayFetofeMsg m) (by decide) w
  cases reason with
  | rmBeDaemonExited => exact hsay _ w rfl
  | rmMwDaemonExited => exact hsay _ w rfl
  | rmJobMpirAborting => exact hsay _ w rfl
  | feRequestedDetach => exact hsay _ w rfl
  | engineDyingWsignal => exact hsay _ w rfl
  | feRequestedShutdownDmon =>
    -- the daemons are killed first
    unfold detachReply
    simp only [bind_assoc]
    exact Spoken.bind fun _ w₁ _ => Spoken.bind fun _ w₂ _ => hsay _ w₂ rfl
  | feDisconnected =>
    have : Within (Silent cfg) (detachReply cfg .feDisconnected) := by unfold detachReply; infer_instance
    exact Spoken.of_silent _ w
  | reservedForRent => exact Spoken.of_silent (pure .stopTrace) w
  | feRequestedKill => exact Spoken.of_silent (pure .stopTrace) w

theorem handleDetachCmdEvent_spoken (w : World) : Spoken cfg (handleDetachCmdEvent cfg) w :=
  Spoken.catchAll (Spoken.bind fun _ _ _ => Spoken.bind fun w' w₂ _ =>
    detachReply_spoken w'.proc.reason w₂) (by decide)

/-- **The reply of a kill**, where its reason has one, closes the conversation. -/
theorem killReply_spoken (reason : Reason) (w : World) :
    Spoken cfg (do killReply cfg reason; pure .stopTrace) w := by
  cases reason with
  | feRequestedKill => exact spoken_closing rfl (tells_sayFetofeMsg .killDone) (by decide) w
  | _ => exact Spoken.of_silent (pure .stopTrace) w

theorem handleKillCmdEvent_spoken (w : World) : Spoken cfg (handleKillCmdEvent cfg) w :=
  Spoken.catchAll (Spoken.bind fun _ _ _ => Spoken.bind fun _ _ _ => Spoken.bind fun w' _ _ =>
    Spoken.bind fun _ w₄ _ => killReply_spoken w'.proc.reason w₄) (by decide)

/-- **`handle_exit_event`** closes the conversation if the launcher itself is gone. -/
theorem handleExitEvent_spoken (w : World) : Spoken cfg (handleExitEvent cfg) w := by
  refine Spoken.catchAll (Spoken.bind fun w' w₁ _ => Spoken.bind fun t w₂ _ => ?_) (by decide)
  split
  · exact spoken_closing rfl (tells_sayFetofeMsg .exited) (by decide) w₂
  · have := silent_modifyProc cfg (f := fun p => p.eraseThr t) fun _ => id
    exact Spoken.of_silent _ w₂

/-! ## What the handling of one event says -/

/-- What `decipher_an_event` has seen when it chooses an event that talks. -/
structure Event.Seen (cfg : Config) (w : World) (ev : Event) : Prop where
  attach : ev = .stopAtFirstAttach → cfg.attach = true ∧ w.proc.neverTrapped = true
  launch : ev = .stopAtLaunchBp → w.proc.neverTrapped = false
  terminated : ev ≠ .terminated

theorem decipherAnEvent_seen {r : Report} {ev : Event} {w w' : World}
    (h : decipherAnEvent cfg r w = .ok ev w') : w' = w ∧ ev.Seen cfg w := by
  have hw : w = w' := Within.of_ok (R := Eq) h
  subst hw
  refine ⟨rfl, ?_⟩
  cases r with
  | stopped signum event =>
    -- the only one that reads the state: `classify` asks for the first trap and for the breakpoints
    obtain ⟨regs, w₁, -, h⟩ := bind_eq_ok h
    obtain ⟨pid, w₂, -, h⟩ := bind_eq_ok h
    obtain ⟨w₃, w₄, hget, h⟩ := bind_eq_ok h
    cases hget
    cases h
    have hchosen := classify_chosen cfg w.proc pid regs.pc signum event
    generalize classify cfg w.proc pid regs.pc signum event = ev at hchosen
    cases hchosen with
    | firstAttach hn ha => exact ⟨fun _ => ⟨ha, hn⟩, by simp, by simp⟩
    | launch hn hpc => exact ⟨by simp, fun _ => hn, by simp⟩
    | _ => exact ⟨by simp, by simp, by simp⟩
  | exited => cases h; exact ⟨by simp, by simp, by simp⟩
  | terminated => cases h; exact ⟨by simp, by simp, by simp⟩

/-- **`invoke_handler`**, one handler after the other: five of them speak. -/
theorem invokeHandler_spoken {ev : Event} {w : World} (hev : ev.Seen cfg w) {t : LwpId}
    (hstack : w.proc.threadCtxStack = [t]) (hchild : w.proc.newChildPid = none) (data : Nat) :
    Spoken cfg (invokeHandler cfg ev data) w := by
  cases ev with
  | stopAtFirstAttach =>
    obtain ⟨ha, hn⟩ := hev.attach rfl
    exact handleTrapAfterAttachEvent_spoken hstack hchild ha hn
  | stopAtLaunchBp => exact handleLaunchBpEvent_spoken hstack hchild (hev.launch rfl)
  | stopForDetach => exact handleDetachCmdEvent_spoken w
  | stopForKill => exact handleKillCmdEvent_spoken w
  | exited => exact handleExitEvent_spoken w
  | terminated => exact absurd rfl hev.terminated
  | stopAtFirstExec => exact Spoken.of_silent (handleTrapAfterExecEvent cfg) w
  | stopAtLoaderBp => exact Spoken.of_silent (handleLoaderBpEvent cfg) w
  | requestNewThread => exact Spoken.of_silent (handleThrcreateRequest data) w
  | stopAtThreadCreation => exact Spoken.of_silent (handleThrcreateTrapEvent cfg) w
  | stopNewThreadTrace => exact Spoken.of_silent (handleNewthreadTraceEvent cfg) w
  | stopNewForkedProcess => exact Spoken.of_silent (handleNewprocForkedEvent cfg) w
  | relaySignal => exact Spoken.of_silent (handleRelaySignalEvent cfg data) w
  | stopNotInterested => exact Spoken.of_silent (handleNotInterestedEvent cfg) w
  | hitABp => exact Spoken.of_silent (pure _) w
  | invalid => exact Spoken.of_silent (pure _) w

theorem handleEvent_spoken {w : World} (h : w.Tidy cfg) {t : LwpId} (ht : w.proc.hasThr t = true)
    (r : Report) : Spoken cfg (handleEvent cfg t r) w := by
  refine Spoken.bind fun _ w₁ henter => Spoken.bind fun ev w₂ hev => ?_
  cases (makeContext_tidy h t).symm.trans henter
  obtain ⟨rfl, hseen⟩ := decipherAnEvent_seen hev
  have hat := h.enter_at ht
  exact (invokeHandler_spoken hseen hat.stack hat.child r.signum).then_silent

/-- **`poll_processes`** for one report, whatever it comes from. -/
theorem pollEvent_spoken {w : World} (h : w.Tidy cfg) (id : LwpId) (en : Entity) (r : Report) :
    Spoken cfg (pollEvent cfg id en r) w := by
  refine Spoken.bind fun w₁ w₂ hget => ?_
  cases hget
  cases en with
  | process =>
    dsimp only
    split
    · -- the launcher
      rename_i hid
      subst hid
      exact handleEvent_spoken h h.pid r
    · -- the process of the daemons, or a child that the launcher has forked
      split
      · cases r with
        | stopped => exact Spoken.of_silent (pure _) w
        | exited => exact Spoken.of_silent (handleDaemonExitEvent cfg) w
        | terminated => exact Spoken.of_silent (handleDaemonExitEvent cfg) w
      · cases r with
        | stopped =>
          exact Spoken.of_silent (do
            makeContext id
            let rc ← handleNewprocForkedEvent cfg
            checkAndUndoContext id
            pure rc) w
        | exited => exact Spoken.of_silent (pure _) w
        | terminated => exact Spoken.of_silent (pure _) w
  | thread =>
    have : Within (Silent cfg) (enterThread cfg id r) := by
      have : Within (Silent cfg) (invokeHandler cfg .requestNewThread id) :=
        inferInstanceAs (Within (Silent cfg) (handleThrcreateRequest id))
      cases r <;> unfold enterThread <;> infer_instance
    -- a thread that is not in the list yet is entered there, and only then its event is handled
    refine Spoken.bind fun rc w₁ hrun => Spoken.bind fun w' w₂ hget => ?_
    cases hget
    have htidy : w₁.Tidy cfg := by
      cases (enterThread_run w id r).symm.trans hrun
      cases r with
      | stopped => exact h.enlist id
      | exited => exact h
      | terminated => exact h
    split
    · exact handleEvent_spoken htidy ‹_› r
    · exact Spoken.of_silent (pure _) w₁

/-! ## What one step of the engine says -/

/-- What a step says: a speech, or a message that closes; and then the engine has ended. -/
def Sys.Speaks (cfg : Config) (s s' : Sys) : Prop :=
  Speech cfg s.w s'.w ∨ ∃ m, closes m = true ∧ Says cfg [m] s.w s'.w ∧ s'.mode = .ended

theorem Spoken.run {x : EngineM Rc} {s₀ s : Sys} (hs : Silent cfg s₀.w s.w) (h : Spoken cfg x s.w) :
    s₀.Speaks cfg (s.run x) := by
  unfold Sys.Speaks
  rw [Sys.run_w]
  exact h.imp hs.then_speech fun ⟨m, hm, hsaid, hne⟩ =>
    ⟨m, hm, hs.then_said hsaid, Sys.run_ended hne⟩

/-- **A step** says a word of the language, or nothing. -/
theorem Sys.step_speaks {s s' : Sys} {a : Label} (ht : s.w.Tidy cfg) (h : s.step cfg a = some s') :
    s.Speaks cfg s' := by
  cases a with
  | env a =>
    -- the kernel does something to the target: the log is as before
    obtain ⟨-, T, -, rfl⟩ := Sys.step_env h
    exact Or.inl (.nothing ⟨(List.append_nil _).symm, id, id⟩)
  | poll t =>
    obtain ⟨-, l, r, -, -, -, -, rfl⟩ := Sys.step_poll h
    have htidy : (s.w.reap t l).Tidy cfg := ⟨ht.stack, ht.child, ht.pid⟩
    exact Spoken.run ⟨(List.append_nil _).symm, id, id⟩ (pollEvent_spoken htidy t l.entity r)
  | pollTool killed =>
    obtain ⟨-, t, -, rfl⟩ := Sys.step_pollTool h
    exact Spoken.run (refl_of (Silent cfg) s.w) (pollEvent_spoken ht t _ _)
  | idle =>
    obtain ⟨-, rfl⟩ := Sys.step_idle h
    exact Or.inl (.nothing (refl_of (Silent cfg) s.w))
  | fe m =>
    obtain ⟨-, rfl⟩ := Sys.step_fe h
    exact Spoken.run (refl_of (Silent cfg) s.w) (Spoken.of_silent (handleIncomingSocketEvent cfg m) s.w)
  | signal =>
    obtain ⟨-, hw, -⟩ := Sys.step_signal h
    left
    rw [hw]
    exact .nothing (Within.out s.w)

/-- A step takes back nothing of what has been said, and ships no other table than the engine has. -/
theorem Sys.step_messages {s s' : Sys} {a : Label} (ht : s.w.Tidy cfg) (h : s.step cfg a = some s') :
    (∃ ms, messages s'.w.log = messages s.w.log ++ ms) ∧
      ((∀ n ∈ s.w.log, n.Genuine cfg) → ∀ n ∈ s'.w.log, n.Genuine cfg) := by
  rcases Sys.step_speaks ht h with hspeech | ⟨m, -, hsaid, -⟩
  · cases hspeech with
    | nothing h => exact ⟨⟨_, h.messages_eq⟩, h.genuine⟩
    | launched h => exact ⟨⟨_, h.messages_eq⟩, h.genuine⟩
    | attached _ h => exact ⟨⟨_, h.messages_eq⟩, h.genuine⟩
  · exact ⟨⟨_, hsaid.messages_eq⟩, hsaid.genuine⟩

/-! ## What a whole run says -/

/-- The conversation so far.  Before the first trap nothing has been said, unless the engine has ended
    with it. -/
def Sys.Conversed (cfg : Config) (s : Sys) : Prop :=
  ∃ closed, Conversation cfg.attach (messages s.w.log) closed ∧
    (closed = true → s.mode = .ended) ∧
    (closed = false → s.w.proc.neverTrapped = true → messages s.w.log = [])

/-- Step lemma: the word of a step continues the conversation. -/
theorem Sys.Conversed.step {s s' : Sys} {a : Label} (hs : s.Conversed cfg) (ht : s.w.Tidy cfg)
    (h : s.step cfg a = some s') : s'.Conversed cfg := by
  obtain ⟨closed, hconv, hended, hnever⟩ := hs
  -- an engine that has closed the conversation takes no step
  have hopen : closed = false := by
    cases hc : closed with
    | false => rfl
    | true => exact absurd (hended hc) (Sys.step_alive h)
  subst hopen
  rcases Sys.step_speaks ht h with hspeech | ⟨m, hm, hsaid, hmode⟩
  · cases hspeech with
    | nothing hsilent =>
      have heq : messages s'.w.log = messages s.w.log := by
        rw [hsilent.messages_eq, List.append_nil]
      refine ⟨false, by rw [heq]; exact hconv, Bool.noConfusion, fun _ hn => ?_⟩
      rw [heq]
      exact hnever rfl (hsilent.never hn)
    | launched hsaid hn =>
      refine ⟨false, ?_, Bool.noConfusion, fun _ hn' => absurd (hn.symm.trans hn') (by decide)⟩
      rw [hsaid.messages_eq]
      exact hconv.launched
    | attached ha hsaid hn hn' =>
      -- there was no trap before, so nothing has been said: the announcement is the first word
      refine ⟨false, ?_, Bool.noConfusion, fun _ h' => absurd (hn'.symm.trans h') (by decide)⟩
      rw [hsaid.messages_eq, hnever rfl hn]
      exact .attached ha
  · refine ⟨true, ?_, fun _ => hmode, Bool.noConfusion⟩
    rw [hsaid.messages_eq]
    exact hconv.closed hm

/-- Run lemma: every run leaves a conversation behind. -/
theorem Sys.Conversed.of_run {s₀ s : Sys} (h₀ : Initial cfg s₀)
    (h : Run cfg (fun _ _ => True) s₀ s) : s.Conversed cfg := by
  induction h with
  | refl =>
    obtain ⟨T, -, rfl⟩ := h₀
    exact ⟨false, .nothing, Bool.noConfusion, fun _ _ => rfl⟩
  | step h _ hs ih => exact ih.step (Run.kin h₀ h (Sys.step_alive hs)).1 hs

/-- **What the engine says, in every run**, is a conversation: one announcement of the attach at most,
    and it is the first thing said; announcements of launches, each of them complete and in order; and
    at most one message that closes, with which the engine ends. -/
theorem engine_conversation {s₀ s : Sys} (h₀ : Initial cfg s₀) (h : Run cfg (fun _ _ => True) s₀ s) :
    ∃ closed, Conversation cfg.attach (messages s.w.log) closed ∧
      (closed = true → s.mode = .ended) := by
  obtain ⟨closed, hconv, hended, -⟩ := Sys.Conversed.of_run h₀ h
  exact ⟨closed, hconv, hended⟩

/-- The engine attaches, announces the one task, and is asked to detach. -/
theorem engine_conversation_attached : ∃ s closed,
    (Sys.start attachedSample (sampleTarget 0x1010 oneTask)).runAll attachedSample
      [.poll 100, .fe (.msg .detach), .env (.signal 100 sigstop), .poll 100] = some s ∧
    messages s.w.log = announcement .stopAtFirstAttach ++ [.detachDone] ∧ s.mode = .ended ∧
    Conversation true (messages s.w.log) closed := by
  have hrun : ((Sys.start attachedSample (sampleTarget 0x1010 oneTask)).runAll attachedSample
      [.poll 100, .fe (.msg .detach), .env (.signal 100 sigstop), .poll 100]).map
        (fun s => (messages s.w.log, s.mode)) =
      some (announcement .stopAtFirstAttach ++ [.detachDone], .ended) := by decide +kernel
  obtain ⟨s, hs, hobs⟩ := Option.map_eq_some_iff.mp hrun
  obtain ⟨hms, hmode⟩ := Prod.mk.inj hobs
  obtain ⟨closed, hconv, -⟩ :=
    engine_conversation ⟨_, attachedSample_launched _ _, rfl⟩ (Run.of_runAll _ hs)
  exact ⟨s, closed, hs, hms, hmode, hconv⟩

/-! ## What a reader of the messages knows -/

/-- A message announces something, or it closes. -/
theorem Conversation.mem {attach closed : Bool} {ms : List FeToFeMsg} {m : FeToFeMsg}
    (h : Conversation attach ms closed) (hm : m ∈ ms) :
    m ∈ announcement .stopAtFirstAttach ∨ m ∈ announcement .stopAtLaunchBpSpawned ∨
      closes m = true := by
  induction h with
  | nothing => cases hm
  | attached => exact Or.inl hm
  | launched h ih =>
    rcases List.mem_append.mp hm with hm | hm
    · exact ih hm
    · exact Or.inr (Or.inl hm)
  | closed h hc ih =>
    rcases List.mem_append.mp hm with hm | hm
    · exact ih hm
    · cases List.mem_singleton.mp hm
      exact Or.inr (Or.inr hc)

/-- No message before the last one closes. -/
theorem Conversation.open_of_mem {attach : Bool} {ms : List FeToFeMsg} {m : FeToFeMsg}
    (h : Conversation attach ms false) (hm : m ∈ ms) : closes m = false := by
  generalize hc : false = closed at h
  induction h with
  | nothing => cases hm
  | attached =>
    have : ∀ m ∈ announcement .stopAtFirstAttach, closes m = false := by decide
    exact this m hm
  | launched h ih =>
    have : ∀ m ∈ announcement .stopAtLaunchBpSpawned, closes m = false := by decide
    exact (List.mem_append.mp hm).elim (fun hm => ih hm hc) (this m)
  | closed => cases hc

/-- A message that closes is the last one. -/
theorem Conversation.closes_last {attach closed : Bool} {ms : List FeToFeMsg} {m : FeToFeMsg} {k : Nat}
    (h : Conversation attach ms closed) (hk : ms[k]? = some m) (hm : closes m = true) :
    closed = true ∧ k + 1 = ms.length := by
  have hnot : ∀ {ms : List FeToFeMsg}, Conversation attach ms false → m ∉ ms := fun h hmem => by
    rw [h.open_of_mem hmem] at hm
    cases hm
  cases h with
  | nothing => cases hk
  | attached ha => exact absurd (List.mem_of_getElem? hk) (hnot (.attached ha))
  | launched h => exact absurd (List.mem_of_getElem? hk) (hnot h.launched)
  | closed h hc =>
    -- it is not among the messages in front of the last one
    rename_i ms m'
    refine ⟨rfl, ?_⟩
    have hlt : k < (ms ++ [m']).length := (List.getElem?_eq_some_iff.mp hk).1
    have hge : ¬ k < ms.length := fun hlt => by
      rw [List.getElem?_append_left hlt] at hk
      exact hnot h (List.mem_of_getElem? hk)
    rw [List.length_append, List.length_singleton] at hlt ⊢
    omega

/-- The engine ends with a message that closes, and says nothing after it. -/
theorem Sys.Conversed.closes_last {s : Sys} {m : FeToFeMsg} {k : Nat} (h : s.Conversed cfg)
    (hk : (messages s.w.log)[k]? = some m) (hm : closes m = true) :
    s.mode = .ended ∧ k + 1 = (messages s.w.log).length := by
  obtain ⟨closed, hconv, hended, -⟩ := h
  obtain ⟨hclosed, hlast⟩ := hconv.closes_last hk hm
  exact ⟨hended hclosed, hlast⟩

/-- A process table that has been shipped is the one that the engine had. -/
theorem genuine_of_run {s₀ s : Sys} (h₀ : Initial cfg s₀) (h : Run cfg (fun _ _ => True) s₀ s) :
    ∀ n ∈ s.w.log, n.Genuine cfg := by
  induction h with
  | refl =>
    obtain ⟨T, -, rfl⟩ := h₀
    intro n hn
    cases hn
  | step h _ hs ih => exact (Sys.step_messages (Run.kin h₀ h (Sys.step_alive hs)).1 hs).2 ih

theorem completions_eq (log : List Note) : completions log = (messages log).filter completes := by
  induction log with
  | nil => rfl
  | cons n log ih =>
    have hc : completions (n :: log) = completions [n] ++ completions log :=
      List.filterMap_append (l := [n])
    have hm : messages (n :: log) = messages [n] ++ messages log :=
      List.filterMap_append (l := [n])
    rw [hc, hm, List.filter_append, ← ih]
    congr 1
    cases n with
    | said m => cases h : completes m <;> simp [completions, messages, Note.message, h]
    | _ => rfl

/-- A completion message is the reply to the request that is recorded. -/
theorem replied_of_run {s₀ s : Sys} (h₀ : Initial cfg s₀) (h : Run cfg (fun _ _ => True) s₀ s)
    {m : FeToFeMsg} (hm : m ∈ messages s.w.log) (hc : completes m = true) :
    ∃ r : Request, s.w.proc.Records r ∧ r.reply = some m := by
  have hmem : m ∈ completions s.w.log := by
    rw [completions_eq]
    exact List.mem_filter.mpr ⟨hm, hc⟩
  -- only an answered request has put a completion into the log
  cases Phase.of_run h₀ h with
  | none _ hnone =>
    rw [hnone] at hmem
    cases hmem
  | pending _ _ _ hnone =>
    rw [hnone] at hmem
    cases hmem
  | answered r _ hr _ hreply =>
    rw [hreply] at hmem
    exact ⟨r, hr, Option.mem_toList.mp hmem⟩

end LaunchMON.Engine
