/-
  The threads of Blue Gene/Q processes: `hold_all_threads`, `release_all_threads` and
  `acquire_control_authority`.

  1. **The programs.**  Holding and releasing go over the ranks of all compute nodes, ask for the threads
     of each, and then send one command for every thread in the list.  They are one program; what is
     different is the command and the routine that reads the list.

  2. **The conversations** are the same programs with exchanges as they should be.  In each of them the
     acknowledgements are the answers of the server, in order, the sequence ids go up by one, and a run
     that returns has visited every thread of the lists (`Talks`).

  3. **The list of the threads** is as long as its header announces.  `hold_all_threads` reads it so, and
     is in trouble only where nothing is announced.  `release_all_threads` reads the whole structure, and
     waits for ever for the rest of a list that is shorter.

  4. **The result.**  The streams are aligned exactly if no list in the conversation is empty, for
     holding, and exactly if all lists have their full size, for releasing and for acquiring
     (`streams_aligned_iff`).
-/
import LaunchMON.Backend.Cdti
import LaunchMON.Lib.Bytes

namespace LaunchMON.Backend.Bgq

open CBytes Effect

/-! ## The programs -/

section Programs

variable {σ : Type}

/-- `IOToolMap.CN2Ranks`, in the order of the map. -/
abbrev CN2Ranks := List (Int32 × List Int32)

/-- The loops over the compute nodes and their ranks. -/
def forRanks (cn2Ranks : CN2Ranks) (f : Int32 → Int32 → EStateM Stop σ Unit) : EStateM Stop σ Unit :=
  each cn2Ranks fun cn => each cn.2 fun i => f cn.1 i

/-- What is done for a rank: `askList` gets the list of its threads, and `askThread` is done for each of
    them. -/
def commandThreads (t : Toolctl) (askList : Int32 → Int32 → EStateM Stop σ (List UInt8))
    (askThread : UInt32 → Int32 → Int32 → EStateM Stop σ (List UInt8)) (cn i : Int32) :
    EStateM Stop σ Unit := do
  let ackMsg ← askList cn i
  each (t.threadlist ackMsg) fun threadId => do
    let _ ← askThread threadId cn i
    pure ()

/-- What is done for a rank: one exchange. -/
def askControl (ask : Int32 → Int32 → EStateM Stop σ (List UInt8)) (cn i : Int32) :
    EStateM Stop σ Unit := do
  let _ ← ask cn i
  pure ()

end Programs

section Code

variable {t : Toolctl} (srv : Cdti t) (tool : Tool) (cn2Ranks : CN2Ranks)

/-- `hold_all_threads`. -/
def holdAllThreads : Prog Unit :=
  forRanks cn2Ranks (commandThreads t
    (fun cn i => exchange srv tool cn i .threadList
      (readCiosLongmsg t cn t.thrListAckMessageSize t.queryAckSize))
    (fun threadId cn i => exchange srv tool cn i (.hold threadId) (readRaw cn t.holdThrAckSize)))

/-- `release_all_threads`; the list is read with `lmon_read_raw` here. -/
def releaseAllThreads : Prog Unit :=
  forRanks cn2Ranks (commandThreads t
    (fun cn i => exchange srv tool cn i .threadList (readRaw cn t.thrListAckMessageSize))
    (fun threadId cn i => exchange srv tool cn i (.release threadId)
      (readRaw cn t.releaseThrAckSize)))

/-- `acquire_control_authority`. -/
def acquireControlAuthority : Prog Unit := do
  forRanks cn2Ranks (askControl fun cn i =>
    exchange srv tool cn i .control (readRaw cn t.controlAckSize))
  releaseAllThreads srv tool cn2Ranks

end Code

/-! ## The conversations -/

section Talks

variable {t : Toolctl} (srv : Cdti t) (tool : Tool) (seq0 : UInt32) (cn2Ranks : CN2Ranks)

def holdTalk : EStateM Stop (List Exchange) Unit :=
  forRanks cn2Ranks (commandThreads t (converse srv tool seq0 .threadList)
    fun threadId => converse srv tool seq0 (.hold threadId))

def releaseTalk : EStateM Stop (List Exchange) Unit :=
  forRanks cn2Ranks (commandThreads t (converse srv tool seq0 .threadList)
    fun threadId => converse srv tool seq0 (.release threadId))

def acquireTalk : EStateM Stop (List Exchange) Unit := do
  forRanks cn2Ranks (askControl (converse srv tool seq0 .control))
  releaseTalk srv tool seq0 cn2Ranks

end Talks

/-- Who is asked for what in an exchange. -/
def Exchange.about (e : Exchange) : Int32 × UInt32 × Body := (e.cn, e.request.rank, e.request.body)

/-- The ranks, with their compute nodes. -/
def CN2Ranks.ranks (cn2Ranks : CN2Ranks) : List (Int32 × Int32) :=
  cn2Ranks.flatMap fun cn => cn.2.map (Prod.mk cn.1)

/-- The exchanges are, rank after rank, one for the list of its threads and one for each thread in the
    list that has come back. -/
def Visits (t : Toolctl) (command : UInt32 → Body) : List (Int32 × Int32) → List Exchange → Prop
  | [], talk => talk = []
  | p :: ps, talk => ∃ list threads rest, talk = list :: threads ++ rest ∧
      list.about = (p.1, p.2.toUInt32, .threadList) ∧
      threads.map Exchange.about =
        (t.threadlist list.got).map (fun threadId => (p.1, p.2.toUInt32, command threadId)) ∧
      Visits t command ps rest

/-- The exchanges are one for the control of each rank, and then those of the release. -/
def Acquires (t : Toolctl) (ps : List (Int32 × Int32)) (talk : List Exchange) : Prop :=
  ∃ controls rest, talk = controls ++ rest ∧
    controls.map Exchange.about = ps.map (fun p => (p.1, p.2.toUInt32, .control)) ∧
    Visits t .release ps rest

/-- Every exchange got the answer of the server to its request, and the sequence ids are consecutive. -/
def Numbered {t : Toolctl} (srv : Cdti t) (seq0 : UInt32) (talk : List Exchange) : Prop :=
  ∀ k e, talk[k]? = some e →
    e.got = srv.answer k e.cn e.request ∧ e.request.sequenceId = seq0 + UInt32.ofNat k

/-- The last acknowledgement is the reason of a failure. -/
def FailedAtLast (t : Toolctl) (talk : List Exchange) : Prop :=
  ∃ e, talk.getLast? = some e ∧ verify t e.request e.got = false

/-- What is known of a conversation. -/
structure Talks {t : Toolctl} (srv : Cdti t) (seq0 : UInt32) (Covers : List Exchange → Prop)
    (y : EStateM Stop (List Exchange) Unit) : Prop where
  numbered : Numbered srv seq0 (final y [])
  fails : ∀ e talk, y [] = .error e talk → e = .failed ∧ FailedAtLast t talk
  covers : ∀ talk, y [] = .ok () talk → Covers talk

/-! ## What a conversation says -/

section Sayings

variable {t : Toolctl} (srv : Cdti t) (tool : Tool) (seq0 : UInt32) (body : Body) (cn i : Int32)

theorem numbered_reply {talk : List Exchange} (h : Numbered srv seq0 talk) :
    Numbered srv seq0 (talk ++ [reply srv tool seq0 body cn i talk.length]) := by
  intro k e he
  rcases Nat.lt_trichotomy k talk.length with hk | rfl | hk
  · rw [List.getElem?_append_left hk] at he
    exact h k e he
  · rw [List.getElem?_concat_length] at he
    cases he
    exact ⟨rfl, rfl⟩
  · rw [List.getElem?_eq_none (by rw [List.length_append]; exact hk)] at he
    cases he

instance converse_numbered : Within (Keeps (Numbered srv seq0)) (converse srv tool seq0 body cn i) where
  out talk h := by
    rw [final_converse]
    exact numbered_reply srv tool seq0 body cn i h

theorem converse_raises :
    Raises (fun e talk => e = .failed ∧ FailedAtLast t talk) (converse srv tool seq0 body cn i) := by
  intro talk e talk' h
  unfold converse say at h
  split at h
  · cases h
  · rename_i hv
    cases h
    exact ⟨rfl, _, List.getLast?_concat, Bool.eq_false_iff.mpr hv⟩

theorem converse_ok {talk talk' : List Exchange} {ack : List UInt8}
    (h : converse srv tool seq0 body cn i talk = .ok ack talk') :
    ∃ e, talk' = talk ++ [e] ∧ e.got = ack ∧ e.about = (cn, i.toUInt32, body) := by
  unfold converse say at h
  split at h
  · cases h
    exact ⟨_, rfl, rfl, rfl⟩
  · cases h

end Sayings

/-! ## The conversations are as they should be -/

section Programs

variable {t : Toolctl} (srv : Cdti t) (tool : Tool) (seq0 : UInt32)

theorem forRanks_eq {σ : Type} (cn2Ranks : CN2Ranks) (f : Int32 → Int32 → EStateM Stop σ Unit) :
    forRanks cn2Ranks f = each cn2Ranks.ranks fun p => f p.1 p.2 := by
  unfold forRanks CN2Ranks.ranks
  rw [each_flatMap]
  simp only [each_map]

/-- What a rank of the conversation adds. -/
theorem commandThreads_ok (command : UInt32 → Body) (cn i : Int32) {talk talk' : List Exchange}
    (h : commandThreads t (converse srv tool seq0 .threadList)
      (fun threadId => converse srv tool seq0 (command threadId)) cn i talk = .ok () talk') :
    ∃ list threads, talk' = talk ++ list :: threads ∧
      list.about = (cn, i.toUInt32, .threadList) ∧
      threads.map Exchange.about =
        (t.threadlist list.got).map (fun threadId => (cn, i.toUInt32, command threadId)) := by
  obtain ⟨ackMsg, talk₁, hlist, hthreads⟩ := bind_eq_ok h
  obtain ⟨list, rfl, rfl, habout⟩ := converse_ok srv tool seq0 .threadList cn i hlist
  have hloop := @each_eq_ok _ _ _
    (fun threadIds (s s' : List Exchange) => ∃ threads, s' = s ++ threads ∧ threads.map Exchange.about =
      threadIds.map fun threadId => (cn, i.toUInt32, command threadId))
    _ (fun s => ⟨[], (List.append_nil s).symm, rfl⟩) ?_ _ _ _ hthreads
  · obtain ⟨threads, rfl, hmap⟩ := hloop
    exact ⟨list, threads, by rw [List.append_assoc]; rfl, habout, hmap⟩
  -- one thread's command appends one exchange
  · intro threadId threadIds s s₁ s₂ hone hrest
    obtain ⟨_, s', hask, hpure⟩ := bind_eq_ok hone
    cases hpure
    obtain ⟨e, rfl, -, he⟩ := converse_ok srv tool seq0 (command threadId) cn i hask
    obtain ⟨threads, rfl, hmap⟩ := hrest
    refine ⟨e :: threads, by rw [List.append_assoc]; rfl, ?_⟩
    rw [List.map_cons, he, hmap]
    rfl

theorem visits_ok (command : UInt32 → Body) (cn2Ranks : CN2Ranks) {talk talk' : List Exchange}
    (h : forRanks cn2Ranks (commandThreads t (converse srv tool seq0 .threadList)
      fun threadId => converse srv tool seq0 (command threadId)) talk = .ok () talk') :
    ∃ new, talk' = talk ++ new ∧ Visits t command cn2Ranks.ranks new := by
  rw [forRanks_eq] at h
  refine @each_eq_ok _ _ _
    (fun ps (s s' : List Exchange) => ∃ new, s' = s ++ new ∧ Visits t command ps new)
    _ (fun s => ⟨[], (List.append_nil s).symm, rfl⟩) ?_ _ _ _ h
  intro p ps s s₁ s₂ hone hrest
  obtain ⟨list, threads, rfl, habout, hmap⟩ := commandThreads_ok srv tool seq0 command p.1 p.2 hone
  obtain ⟨rest, rfl, hvisits⟩ := hrest
  exact ⟨list :: threads ++ rest, List.append_assoc _ _ _,
    list, threads, rest, rfl, habout, hmap, hvisits⟩

theorem controls_ok (cn2Ranks : CN2Ranks) {talk talk' : List Exchange}
    (h : forRanks cn2Ranks (askControl (converse srv tool seq0 .control)) talk = .ok () talk') :
    ∃ new, talk' = talk ++ new ∧
      new.map Exchange.about = cn2Ranks.ranks.map fun p => (p.1, p.2.toUInt32, .control) := by
  rw [forRanks_eq] at h
  refine @each_eq_ok _ _ _
    (fun ps (s s' : List Exchange) => ∃ new, s' = s ++ new ∧
      new.map Exchange.about = ps.map fun p => (p.1, p.2.toUInt32, .control))
    _ (fun s => ⟨[], (List.append_nil s).symm, rfl⟩) ?_ _ _ _ h
  intro p ps s s₁ s₂ hone hrest
  obtain ⟨_, s', hask, hpure⟩ := bind_eq_ok hone
  cases hpure
  obtain ⟨e, rfl, -, he⟩ := converse_ok srv tool seq0 .control p.1 p.2 hask
  obtain ⟨new, rfl, hmap⟩ := hrest
  refine ⟨e :: new, by rw [List.append_assoc]; rfl, ?_⟩
  rw [List.map_cons, he, hmap]
  rfl

/-- Exchanges keep what `R` says, and so do the programs that are made of them. -/
instance within_commandThreads {σ : Type} {R : σ → σ → Prop} [IsPreorder σ R]
    (askList : Int32 → Int32 → EStateM Stop σ (List UInt8))
    (askThread : UInt32 → Int32 → Int32 → EStateM Stop σ (List UInt8))
    [∀ cn i, Within R (askList cn i)] [∀ threadId cn i, Within R (askThread threadId cn i)]
    (cn2Ranks : CN2Ranks) : Within R (forRanks cn2Ranks (commandThreads t askList askThread)) := by
  unfold forRanks commandThreads
  infer_instance

theorem raises_commandThreads {σ : Type} {Q : Stop → σ → Prop}
    {askList : Int32 → Int32 → EStateM Stop σ (List UInt8)}
    {askThread : UInt32 → Int32 → Int32 → EStateM Stop σ (List UInt8)}
    (hlist : ∀ cn i, Raises Q (askList cn i))
    (hthread : ∀ threadId cn i, Raises Q (askThread threadId cn i)) (cn2Ranks : CN2Ranks) :
    Raises Q (forRanks cn2Ranks (commandThreads t askList askThread)) := by
  refine Raises.each (fun cn => Raises.each (fun i => ?_) cn.2) cn2Ranks
  refine (hlist cn.1 i).bind fun ackMsg => Raises.each (fun threadId => ?_) _
  exact (hthread threadId cn.1 i).bind fun _ => Raises.pure ()

/-- The conversation about one command for all threads. -/
theorem commandTalk_talks (command : UInt32 → Body) (cn2Ranks : CN2Ranks) :
    Talks srv seq0 (Visits t command cn2Ranks.ranks)
      (forRanks cn2Ranks (commandThreads t (converse srv tool seq0 .threadList)
        fun threadId => converse srv tool seq0 (command threadId))) := by
  constructor
  case numbered =>
    refine Within.out (R := Keeps (Numbered srv seq0)) [] ?_
    intro k e he
    cases he
  case fails =>
    exact raises_commandThreads (fun cn i => converse_raises srv tool seq0 .threadList cn i)
      (fun threadId cn i => converse_raises srv tool seq0 (command threadId) cn i) cn2Ranks []
  case covers =>
    intro talk h
    obtain ⟨new, rfl, hvisits⟩ := visits_ok srv tool seq0 command cn2Ranks h
    exact hvisits

theorem holdTalk_talks (cn2Ranks : CN2Ranks) :
    Talks srv seq0 (Visits t .hold cn2Ranks.ranks) (holdTalk srv tool seq0 cn2Ranks) :=
  commandTalk_talks srv tool seq0 .hold cn2Ranks

theorem releaseTalk_talks (cn2Ranks : CN2Ranks) :
    Talks srv seq0 (Visits t .release cn2Ranks.ranks) (releaseTalk srv tool seq0 cn2Ranks) :=
  commandTalk_talks srv tool seq0 .release cn2Ranks

theorem acquireTalk_talks (cn2Ranks : CN2Ranks) :
    Talks srv seq0 (Acquires t cn2Ranks.ranks) (acquireTalk srv tool seq0 cn2Ranks) := by
  constructor
  case numbered =>
    have hwithin : Within (Keeps (Numbered srv seq0)) (acquireTalk srv tool seq0 cn2Ranks) := by
      unfold acquireTalk releaseTalk forRanks askControl commandThreads
      infer_instance
    refine hwithin.out [] ?_
    intro k e he
    cases he
  case fails =>
    refine Raises.bind (Raises.each (fun cn => Raises.each (fun i => ?_) cn.2) cn2Ranks)
      (fun _ => raises_commandThreads (fun cn i => converse_raises srv tool seq0 .threadList cn i)
        (fun threadId cn i => converse_raises srv tool seq0 (.release threadId) cn i) cn2Ranks) []
    exact (converse_raises srv tool seq0 .control cn.1 i).bind fun _ => Raises.pure ()
  case covers =>
    intro talk h
    obtain ⟨_, talk₁, hcontrols, hrelease⟩ := bind_eq_ok h
    obtain ⟨_, rfl, hmap⟩ := controls_ok srv tool seq0 cn2Ranks hcontrols
    obtain ⟨rest, rfl, hvisits⟩ := visits_ok srv tool seq0 .release cn2Ranks hrelease
    exact ⟨talk₁, rest, rfl, hmap, hvisits⟩

end Programs

/-! ## The code follows -/

/-- A list of threads has a payload. -/
def NonemptyList (t : Toolctl) (body : Body) (ack : List UInt8) : Prop :=
  body = .threadList → t.queryAckSize < ack.length

/-- A list of threads has its full size. -/
def FullList (t : Toolctl) (body : Body) (ack : List UInt8) : Prop :=
  body = .threadList → ack.length = t.thrListAckMessageSize

section Follows

variable {t : Toolctl} (srv : Cdti t) (tool : Tool) (seq0 : UInt32) (cn2Ranks : CN2Ranks)

theorem forRanks_follows {σ τ : Type} {R E : σ → τ → Prop} {Good : τ → Prop} {Stuck : σ → Prop}
    {f : Int32 → Int32 → EStateM Stop σ Unit} {g : Int32 → Int32 → EStateM Stop τ Unit}
    (h : ∀ cn i, Follows R E Good Stuck (f cn i) (g cn i)) :
    Follows R E Good Stuck (forRanks cn2Ranks f) (forRanks cn2Ranks g) := by
  refine Follows.each (fun cn => ?_) cn2Ranks
  exact Follows.each (fun i => h cn.1 i) cn.2

theorem commandThreads_follows {σ τ : Type} {R E : σ → τ → Prop} {Good : τ → Prop} {Stuck : σ → Prop}
    {askList : Int32 → Int32 → EStateM Stop σ (List UInt8)}
    {askThread : UInt32 → Int32 → Int32 → EStateM Stop σ (List UInt8)}
    {askList' : Int32 → Int32 → EStateM Stop τ (List UInt8)}
    {askThread' : UInt32 → Int32 → Int32 → EStateM Stop τ (List UInt8)}
    (hlist : ∀ cn i, Follows R E Good Stuck (askList cn i) (askList' cn i))
    (hthread : ∀ threadId cn i, Follows R E Good Stuck (askThread threadId cn i)
      (askThread' threadId cn i)) (cn i : Int32) :
    Follows R E Good Stuck (commandThreads t askList askThread cn i)
      (commandThreads t askList' askThread' cn i) :=
  (hlist cn i).bind fun _ => Follows.each (fun threadId =>
    (hthread threadId cn i).bind fun _ => Follows.pure ()) _

/-- The acknowledgement of a command for one thread is read whole. -/
theorem reads_command {body : Body} {size : ℕ} (Whole : Body → List UInt8 → Prop) (cn : Int32)
    (hpos : 0 < size) (hsize : ∀ ack, t.Sized body ack → ack.length = size)
    (hwhole : ∀ ack, Whole body ack) : Reads t cn body (Whole body) (readRaw cn size) :=
  (reads_fixed cn hpos fun ack hack => Nat.le_of_eq (hsize ack hack)).congr fun ack hack =>
    iff_of_true (hsize ack hack) (hwhole ack)

theorem holdAllThreads_follows :
    Follows (Ready seq0) InStep (AllWhole (NonemptyList t)) Behind (holdAllThreads srv tool cn2Ranks)
      (holdTalk srv tool seq0 cn2Ranks) := by
  refine forRanks_follows cn2Ranks (commandThreads_follows (fun cn i => ?_) fun threadId cn i => ?_)
  · refine exchange_follows srv tool seq0 cn i ((reads_longmsg t cn).congr fun ack _ => ?_)
    exact ⟨fun h _ => h, fun h => h rfl⟩
  · exact exchange_follows srv tool seq0 cn i
      (reads_command (NonemptyList t) cn t.holdThrAck_pos (fun _ h => h) fun _ h => by cases h)

theorem releaseAllThreads_follows :
    Follows (Ready seq0) InStep (AllWhole (FullList t)) Behind (releaseAllThreads srv tool cn2Ranks)
      (releaseTalk srv tool seq0 cn2Ranks) := by
  refine forRanks_follows cn2Ranks (commandThreads_follows (fun cn i => ?_) fun threadId cn i => ?_)
  · refine exchange_follows srv tool seq0 cn i (Reads.congr (reads_fixed cn ?_ ?_) fun ack _ => ?_)
    · exact Nat.add_pos_left t.queryAck_pos _
    · rintro ack ⟨hlen, hroom⟩
      rw [hlen]
      exact Nat.add_le_add_left hroom _
    · exact ⟨fun h _ => h, fun h => h rfl⟩
  · exact exchange_follows srv tool seq0 cn i
      (reads_command (FullList t) cn t.releaseThrAck_pos (fun _ h => h) fun _ h => by cases h)

theorem acquireControlAuthority_follows :
    Follows (Ready seq0) InStep (AllWhole (FullList t)) Behind
      (acquireControlAuthority srv tool cn2Ranks) (acquireTalk srv tool seq0 cn2Ranks) := by
  refine (forRanks_follows cn2Ranks fun cn i => ?_).bind
    fun _ => releaseAllThreads_follows srv tool seq0 cn2Ranks
  refine (exchange_follows srv tool seq0 cn i ?_).bind fun _ => Follows.pure ()
  exact reads_command (FullList t) cn t.controlAck_pos (fun _ h => h) fun _ h => by cases h

end Follows

/-! ## The result -/

/-- The streams are aligned: nothing is left on a socket, every request has had its check, each check saw
    the answer of the server to the request just sent, and the sequence ids go up by one. -/
structure InOrder {t : Toolctl} (srv : Cdti t) (seq0 : UInt32) (s : St) : Prop where
  empty : ∀ cn, s.unread cn = []
  checked : s.seen.map Exchange.asked = s.sent
  answers : Numbered srv seq0 s.seen

/-- How a call is to end.  It returns LMON_OK with the next sequence id, and has covered what it should,
    or it returns LMON_EINVAL because the last acknowledgement did not pass its check. -/
def Kept {t : Toolctl} (srv : Cdti t) (seq0 : UInt32) (Covers : List Exchange → Prop)
    (call : Prog Unit) : Prop :=
  match call (St.start seq0) with
  | .ok _ s => InOrder srv seq0 s ∧ s.sequenceId = seq0 + UInt32.ofNat s.sent.length ∧ Covers s.seen
  | .error e s => e = .failed ∧ InOrder srv seq0 s ∧ FailedAtLast t s.seen

/-- A call that follows a conversation is in order exactly if it can read what is said in it. -/
theorem kept_iff {t : Toolctl} {srv : Cdti t} {seq0 : UInt32} {Covers : List Exchange → Prop}
    {Whole : Body → List UInt8 → Prop} {call : Prog Unit} {talk : EStateM Stop (List Exchange) Unit}
    (hfollows : Follows (Ready seq0) InStep (AllWhole Whole) Behind call talk)
    (htalks : Talks srv seq0 Covers talk) :
    Kept srv seq0 Covers call ↔ AllWhole Whole (final talk []) := by
  have hready : Ready seq0 (St.start seq0) [] :=
    ⟨⟨fun _ => rfl, rfl, rfl⟩, (UInt32.add_zero seq0).symm⟩
  have horder : ∀ {s : St} {said : List Exchange}, InStep s said → Numbered srv seq0 said →
      InOrder srv seq0 s := by
    rintro s said ⟨hunread, hsent, rfl⟩ hnumbered
    exact ⟨hunread, hsent.symm, hnumbered⟩
  constructor
  · intro hkept
    -- a reply that does not fit stops the call with a request sent and not checked
    refine Classical.byContradiction fun hbad => ?_
    obtain ⟨e, s, hrun, hbehind⟩ :=
      hfollows.stuck _ _ hready (fun e he => absurd he List.not_mem_nil) hbad
    unfold Kept at hkept
    rw [hrun] at hkept
    obtain ⟨-, hin, -⟩ := hkept
    have hlen := congrArg List.length hin.checked
    rw [List.length_map] at hlen
    exact absurd hlen (Nat.ne_of_lt hbehind)
  · intro hgood
    have hm := hfollows.good _ _ hready hgood
    have hnumbered := htalks.numbered
    unfold Kept
    cases hy : talk [] with
    | ok u said =>
      rw [hy] at hm
      rw [final_ok hy] at hnumbered
      obtain ⟨s, hs, hR⟩ := hm.of_ok
      rw [hs]
      refine ⟨horder hR.toInStep hnumbered, ?_, ?_⟩
      · rw [hR.sent, List.length_map]
        exact hR.next
      · rw [hR.seen]
        exact htalks.covers said hy
    | error e said =>
      rw [hy] at hm
      rw [final_error hy] at hnumbered
      obtain ⟨s, hs, hE⟩ := hm.of_error
      obtain ⟨he, hlast⟩ := htalks.fails e said hy
      rw [hs]
      refine ⟨he, horder hE hnumbered, ?_⟩
      rw [hE.seen]
      exact hlast

/-- The control streams stay aligned in each of the three functions, and what is to be done is done for
    every thread in the lists of every rank. -/
structure StreamsAligned {t : Toolctl} (srv : Cdti t) (tool : Tool) (seq0 : UInt32)
    (cn2Ranks : CN2Ranks) : Prop where
  hold : Kept srv seq0 (Visits t .hold cn2Ranks.ranks) (holdAllThreads srv tool cn2Ranks)
  release : Kept srv seq0 (Visits t .release cn2Ranks.ranks) (releaseAllThreads srv tool cn2Ranks)
  acquire : Kept srv seq0 (Acquires t cn2Ranks.ranks) (acquireControlAuthority srv tool cn2Ranks)

/-- The lists that the server gives can be read by the routines that are used: in the conversation about
    holding none is empty, and in the two others all have the size of the whole structure. -/
structure Readable {t : Toolctl} (srv : Cdti t) (tool : Tool) (seq0 : UInt32) (cn2Ranks : CN2Ranks) :
    Prop where
  hold : AllWhole (NonemptyList t) (final (holdTalk srv tool seq0 cn2Ranks) [])
  release : AllWhole (FullList t) (final (releaseTalk srv tool seq0 cn2Ranks) [])
  acquire : AllWhole (FullList t) (final (acquireTalk srv tool seq0 cn2Ranks) [])

/-- **When the control streams stay aligned**: exactly if the lists of threads are readable. -/
theorem streams_aligned_iff {t : Toolctl} (srv : Cdti t) (tool : Tool) (seq0 : UInt32)
    (cn2Ranks : CN2Ranks) :
    StreamsAligned srv tool seq0 cn2Ranks ↔ Readable srv tool seq0 cn2Ranks := by
  have hhold := kept_iff (holdAllThreads_follows srv tool seq0 cn2Ranks)
    (holdTalk_talks srv tool seq0 cn2Ranks)
  have hrelease := kept_iff (releaseAllThreads_follows srv tool seq0 cn2Ranks)
    (releaseTalk_talks srv tool seq0 cn2Ranks)
  have hacquire := kept_iff (acquireControlAuthority_follows srv tool seq0 cn2Ranks)
    (acquireTalk_talks srv tool seq0 cn2Ranks)
  constructor
  · rintro ⟨h, r, a⟩
    exact ⟨hhold.mp h, hrelease.mp r, hacquire.mp a⟩
  · rintro ⟨h, r, a⟩
    exact ⟨hhold.mpr h, hrelease.mpr r, hacquire.mpr a⟩

/-- A small layout.  Every acknowledgement begins with the rank and the sequence id.  Behind them a query
    has one byte for the length of its payload, and the payload has room for two thread ids. -/
def smallLayout : Toolctl where
  success := 0
  cmdSuccess := 0
  controlAck := 0
  queryAck := 0
  updateAck := 0
  getThreadListAck := 0
  holdThreadAck := 0
  releaseThreadAck := 0
  controlAckSize := 8
  queryAckSize := 9
  threadListAckSize := 2
  holdThrAckSize := 8
  releaseThrAckSize := 8
  maxMemorySize := 4
  header bs := ⟨0, 0, (readLe32 bs).getD 0, (readLe32 (bs.drop 4)).getD 0⟩
  numCommands _ := 1
  command bs := ⟨0, (bs.getD 8 0).toNat, 0⟩
  threadlist bs := (bs.drop 9).map UInt8.toUInt32
  controlAck_pos := by decide
  queryAck_pos := by decide
  threadListAck_pos := by decide
  holdThrAck_pos := by decide
  releaseThrAck_pos := by decide

/-- Its server, in a job where every process has one thread, which is thread 7. -/
def oneThread : Cdti smallLayout where
  answer _ _ r :=
    match r.body with
    | .threadList => le32 r.rank ++ le32 r.sequenceId ++ [1, 7]
    | .getMemory _ _ => le32 r.rank ++ le32 r.sequenceId ++ [0]
    | _ => le32 r.rank ++ le32 r.sequenceId
  sized k cn r := by
    obtain ⟨tool, rank, sequenceId, body⟩ := r
    cases body with
    | threadList => exact ⟨rfl, show 1 ≤ 2 by decide⟩
    | getMemory addr length => rfl
    | control => rfl
    | hold threadId => rfl
    | release threadId => rfl

/-- One compute node with one rank, and a process with one thread where the list has room for two: the
    release waits for ever. -/
theorem streams_aligned_counterexample :
    ¬StreamsAligned oneThread ⟨1, 0, 0⟩ 0 [(0, [0])] := by
  rintro ⟨-, hrelease, -⟩
  have hblocked : ∃ s, releaseAllThreads oneThread ⟨1, 0, 0⟩ [(0, [0])] (St.start 0) =
      .error .blocked s := ⟨_, rfl⟩
  obtain ⟨s, hs⟩ := hblocked
  unfold Kept at hrelease
  rw [hs] at hrelease
  cases hrelease.1

end LaunchMON.Backend.Bgq
