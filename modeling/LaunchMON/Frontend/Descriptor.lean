/-
  What a session descriptor keeps from one session to the next: `LMON_init_sess` and
  `LMON_destroy_sess` of `lmon_fe.cxx`, with all fields of `lmon_session_desc_t`.

  1. **The slot** — a descriptor and the heap.  `LMON_fe_init` initialises it once; from then on each
     session begins with `LMON_fe_createSession` and ends with `LMON_destroy_sess` and
     `LMON_init_sess`, in `LMON_fe_kill` or `LMON_fe_shutdownDaemons`.  In between the calls of the API
     and the watchdog store into the descriptor, in any order (`Op`, one for each place of the source
     that does so).

  2. **What is left** — no function resets `cipher_hndl`, `nDaemons`, `fetofeMonitoringThr` and
     `hntab_mw_msg`; and `bzero` of `ipInfo` is told the size of the constant MAX_LMON_STRING, an `int`,
     instead of its value.  So no session leaves the descriptor as it was (`cipherHndl_finish`).

  3. **What is freed twice** — `LMON_destroy_sess` frees what `hntab_mw_msg` points to, and the pointer
     stays.  A later session overwrites it, if it has a middleware handshake too, or frees it again.
     All other pointers are apart and are freed once: `Owned` is kept by every store (`Owned.store`)
     and turned into nothing by the end of the session (`Owned.finish`).
-/
import LaunchMON.Frontend.Calls
import LaunchMON.Lib.Buf
import LaunchMON.Lib.Heap

namespace LaunchMON.Frontend.Descriptor

open CBytes

/-! ## The descriptor -/

/-- `struct sockaddr_in`. -/
structure SockAddr where
  family : ℕ
  port : ℕ
  addr : ℕ
  deriving DecidableEq

/-- The index of `commDesc`. -/
inductive Conn
  | feBe
  | feMw
  | feEngine
  deriving DecidableEq

/-- `lmon_session_comm_desc_t`. -/
structure CommDesc where
  servAddr : SockAddr
  ipInfo : Buf UInt8
  sessionListenSockFd : Int
  sessionAcceptSockFd : Int
  nDaemons : Int

/-- `lmon_rm_info_t`; the array of types with what is in it. -/
structure RmInfo where
  rmSupportedTypes : Option (Ptr × List ℕ)
  numSupportedTypes : ℕ
  indexToCurInstance : Int
  rmLauncherPid : Int

/-- `MPIR_PROCDESC_EXT`: the pointers of an entry of `pMap`, and the pointer to the entry. -/
structure PMapEntry where
  executableName : Ptr
  hostName : Ptr
  self : Ptr

/-- `lmon_session_desc_t`.  A list of environment variables is the list of its nodes, a function
    pointer is a number. -/
structure SessionDesc where
  registered : Bool
  spawned : Bool
  mwSpawned : Bool
  detached : Bool
  killed : Bool
  lePid : Int
  rmLauncherPid : Int
  rmInfo : RmInfo
  cipherHndl : Option Ptr
  sharedKey : Buf UInt8
  randomID : Int
  pack : Option ℕ
  unpack : Option ℕ
  mwPack : Option ℕ
  mwUnpack : Option ℕ
  commDesc : Conn → CommDesc
  fetofeMonitoringThr : ℕ
  resourceHandle : Int
  daemonEnvList0 : List Ptr
  daemonEnvList1 : List Ptr
  proctabMsg : Option Ptr
  hntabMsg : Option Ptr
  hntabMwMsg : Option Ptr
  pMap : List (CString × List PMapEntry)
  spawnerVector : List Ptr
  statusCB : Option ℕ

/-- LMON_INIT, LMON_KEY_LENGTH, and the `sizeof` of the `int` MAX_LMON_STRING. -/
def lmonInit : Int := -1
def lmonKeyLength : ℕ := 16
def sizeofMaxLmonString : ℕ := 4

/-- LMON_FALSE as a number: `boolean_e` begins with LMON_TRUE. -/
def lmonFalse : ℕ := 1

/-- `bzero`. -/
def bzero (m : Buf UInt8) (n : ℕ) : Buf UInt8 := m.write 0 (List.replicate n 0)

/-- Both functions on the address and the string of a connection. -/
def CommDesc.clear (c : CommDesc) : CommDesc :=
  { c with servAddr := ⟨0, 0, 0⟩, ipInfo := bzero c.ipInfo sizeofMaxLmonString }

/-- A descriptor and the heap. -/
structure Slot where
  desc : SessionDesc
  heap : Heap

/-- The array of types that `LMON_init_sess` allocates: none if no resource manager is supported. -/
def supportedTypes (rms : List ℕ) (h : Heap) : Option (Ptr × List ℕ) × Heap :=
  if rms.isEmpty then (none, h) else (some (h.malloc.1, rms), h.malloc.2)

/-- `LMON_init_sess`; `rms` are the types of `get_supported_rms`. -/
def initSess (rms : List ℕ) (s : Slot) : Slot where
  desc := { s.desc with
    pack := none
    unpack := none
    mwPack := none
    mwUnpack := none
    daemonEnvList0 := []
    daemonEnvList1 := []
    registered := false
    spawned := false
    mwSpawned := false
    detached := false
    killed := false
    lePid := lmonFalse
    rmLauncherPid := lmonFalse
    rmInfo :=
      { rmSupportedTypes := (supportedTypes rms s.heap).1
        numSupportedTypes := rms.length
        indexToCurInstance := -1
        rmLauncherPid := -1 }
    sharedKey := bzero s.desc.sharedKey lmonKeyLength
    randomID := lmonFalse
    commDesc := fun c =>
      { (s.desc.commDesc c).clear with
        sessionListenSockFd := lmonInit
        sessionAcceptSockFd := lmonInit }
    proctabMsg := none
    hntabMsg := none
    resourceHandle := lmonInit
    statusCB := none }
  heap := (supportedTypes rms s.heap).2

/-- The pointers of `pMap`, as they are freed. -/
def PMapEntry.ptrs (e : PMapEntry) : List Ptr := [e.executableName, e.hostName, e.self]

def pMapPtrs (m : List (CString × List PMapEntry)) : List Ptr := m.flatMap fun k => k.2.flatMap PMapEntry.ptrs

/-- What `LMON_destroy_sess` frees: up to `hntab_msg`, and behind `hntab_mw_msg`. -/
def SessionDesc.freedFirst (d : SessionDesc) : List Ptr :=
  d.daemonEnvList0.reverse ++ d.daemonEnvList1.reverse ++ (d.rmInfo.rmSupportedTypes.map Prod.fst).toList ++
    d.cipherHndl.toList ++ d.proctabMsg.toList ++ d.hntabMsg.toList

def SessionDesc.freedLast (d : SessionDesc) : List Ptr := pMapPtrs d.pMap ++ d.spawnerVector

/-- `LMON_destroy_sess`.  The recursion of `LMON_freeDaemonEnvList` frees the last node first. -/
def destroySess (s : Slot) : Slot where
  desc := { s.desc with
    pack := none
    unpack := none
    mwPack := none
    mwUnpack := none
    daemonEnvList0 := []
    daemonEnvList1 := []
    registered := false
    spawned := false
    mwSpawned := false
    detached := false
    killed := false
    lePid := lmonFalse
    rmLauncherPid := lmonFalse
    rmInfo :=
      { rmSupportedTypes := none
        numSupportedTypes := lmonFalse
        indexToCurInstance := lmonFalse
        rmLauncherPid := lmonFalse }
    sharedKey := bzero s.desc.sharedKey lmonKeyLength
    randomID := lmonFalse
    commDesc := fun c => (s.desc.commDesc c).clear
    proctabMsg := none
    hntabMsg := none
    resourceHandle := lmonInit
    pMap := []
    spawnerVector := []
    statusCB := none }
  heap := ((s.heap.freeAll s.desc.freedFirst).free s.desc.hntabMwMsg).freeAll s.desc.freedLast

/-- Static memory: zeros, and a flag that is zero is LMON_TRUE. -/
def SessionDesc.zero : SessionDesc where
  registered := true
  spawned := true
  mwSpawned := true
  detached := true
  killed := true
  lePid := 0
  rmLauncherPid := 0
  rmInfo := ⟨none, 0, 0, 0⟩
  cipherHndl := none
  sharedKey := fun _ => 0
  randomID := 0
  pack := none
  unpack := none
  mwPack := none
  mwUnpack := none
  commDesc := fun _ => ⟨⟨0, 0, 0⟩, fun _ => 0, 0, 0, 0⟩
  fetofeMonitoringThr := 0
  resourceHandle := 0
  daemonEnvList0 := []
  daemonEnvList1 := []
  proctabMsg := none
  hntabMsg := none
  hntabMwMsg := none
  pMap := []
  spawnerVector := []
  statusCB := none

/-- A slot after `LMON_fe_init`. -/
def feInit (rms : List ℕ) : Slot := initSess rms ⟨.zero, .empty⟩

/-! ## Sessions -/

/-- What the system calls and the cipher library give to `LMON_fe_createSession`: the sockets, the
    strings of `inet_ntop`, the random numbers, and the numbers of environment variables. -/
structure Created where
  listenSockFd : Conn → Int
  servAddr : Conn → SockAddr
  ip : Conn → CString
  randomID : Int
  key : CString
  nEnv : ℕ
  nMwEnv : ℕ

/-- `LMON_fe_putToDaemonEnv`, of `n` variables. -/
def putToDaemonEnv (s : Slot) (mw : Bool) (n : ℕ) : Slot :=
  let (nodes, heap) := s.heap.mallocs n
  let d := s.desc
  { desc := if mw then { d with daemonEnvList1 := d.daemonEnvList1 ++ nodes }
      else { d with daemonEnvList0 := d.daemonEnvList0 ++ nodes }
    heap := heap }

/-- `LMON_fe_createSession`, up to the lists of environment variables. -/
def openSession (s : Slot) (c : Created) : Slot where
  desc := { s.desc with
    commDesc := fun i => { s.desc.commDesc i with
      sessionListenSockFd := c.listenSockFd i
      servAddr := c.servAddr i
      ipInfo := (s.desc.commDesc i).ipInfo.write 0 ((c.ip i).bytes ++ [0]) }
    randomID := c.randomID
    sharedKey := (bzero s.desc.sharedKey lmonKeyLength).write 0 (c.key.bytes ++ [0])
    cipherHndl := some s.heap.malloc.1
    registered := true }
  heap := s.heap.malloc.2

/-- `LMON_fe_createSession` of a slot that is free. -/
def createSession (s : Slot) (c : Created) : Slot :=
  putToDaemonEnv (putToDaemonEnv (openSession s c) false c.nEnv) true c.nMwEnv

/-- What the other calls and the watchdog store. -/
inductive Op
  | putToDaemonEnv (mw : Bool) (n : ℕ)
  | pack (f : Option ℕ)
  | unpack (f : Option ℕ)
  | mwPack (f : Option ℕ)
  | mwUnpack (f : Option ℕ)
  | statusCB (f : Option ℕ)
  | acceptSockFd (c : Conn) (fd : Int)
  | monitoringThr (t : ℕ)
  | flags (spawned mwSpawned detached killed : Bool)
  | resourceHandle (rid : Int)
  | rmInfo (pid : Int) (rm : ℕ)
  | proctabMsg
  | hntabMsg
  | hntabMwMsg
  /-- `parse_raw_RPDTAB_msg` of a table with these host names -/
  | parseRPDTAB (hosts : List CString)
  | nDaemons (n : Int)
  | spawner

/-- An entry in `pMap`. -/
def pushEntry (host : CString) (e : PMapEntry) :
    List (CString × List PMapEntry) → List (CString × List PMapEntry)
  | [] => [(host, [e])]
  | (k, es) :: m => if k = host then (k, es ++ [e]) :: m else (k, es) :: pushEntry host e m

/-- An iteration of `parse_raw_RPDTAB_msg`. -/
def parseRow (s : Slot) (host : CString) : Slot :=
  let (self, h₁) := s.heap.malloc
  let (executableName, h₂) := h₁.malloc
  let (hostName, h₃) := h₂.malloc
  { desc := { s.desc with pMap := pushEntry host { executableName, hostName, self } s.desc.pMap }
    heap := h₃ }

/-- `LMON_handle_rminfo_event`: a type that is not supported leaves the index alone. -/
def RmInfo.store (r : RmInfo) (pid : Int) (rm : ℕ) : RmInfo :=
  { r with
    rmLauncherPid := pid
    indexToCurInstance := ((r.rmSupportedTypes.bind fun a => a.2.idxOf? rm).map fun i => (i : Int)).getD
      r.indexToCurInstance }

def Slot.store (s : Slot) : Op → Slot
  | .putToDaemonEnv mw n => Descriptor.putToDaemonEnv s mw n
  | .pack f => { s with desc := { s.desc with pack := f } }
  | .unpack f => { s with desc := { s.desc with unpack := f } }
  | .mwPack f => { s with desc := { s.desc with mwPack := f } }
  | .mwUnpack f => { s with desc := { s.desc with mwUnpack := f } }
  | .statusCB f => { s with desc := { s.desc with statusCB := f } }
  | .acceptSockFd c fd => { s with desc := { s.desc with
      commDesc := Function.update s.desc.commDesc c
        { s.desc.commDesc c with sessionAcceptSockFd := fd } } }
  | .monitoringThr t => { s with desc := { s.desc with fetofeMonitoringThr := t } }
  | .flags spawned mwSpawned detached killed =>
    { s with desc := { s.desc with spawned, mwSpawned, detached, killed } }
  | .resourceHandle rid => { s with desc := { s.desc with resourceHandle := rid } }
  | .rmInfo pid rm => { s with desc := { s.desc with
      rmLauncherPid := pid
      rmInfo := s.desc.rmInfo.store pid rm } }
  | .proctabMsg => ⟨{ s.desc with proctabMsg := some s.heap.malloc.1 }, s.heap.malloc.2⟩
  | .hntabMsg => ⟨{ s.desc with hntabMsg := some s.heap.malloc.1 }, s.heap.malloc.2⟩
  | .hntabMwMsg => ⟨{ s.desc with hntabMwMsg := some s.heap.malloc.1 }, s.heap.malloc.2⟩
  | .parseRPDTAB hosts => if s.desc.pMap.isEmpty then hosts.foldl parseRow s else s
  | .nDaemons n => { s with desc := { s.desc with
      commDesc := Function.update s.desc.commDesc .feBe { s.desc.commDesc .feBe with nDaemons := n } } }
  | .spawner => ⟨{ s.desc with spawnerVector := s.desc.spawnerVector ++ [s.heap.malloc.1] },
      s.heap.malloc.2⟩

/-- The end of `LMON_fe_kill` and `LMON_fe_shutdownDaemons`. -/
def finish (rms : List ℕ) (s : Slot) : Slot := initSess rms (destroySess s)

/-- A session, from its creation to its end. -/
structure SessionRun where
  created : Created
  ops : List Op

def Op.isMw : Op → Bool
  | .hntabMwMsg => true
  | _ => false

/-- The session has received a hostname table from the middleware master. -/
def SessionRun.hasMw (r : SessionRun) : Bool := r.ops.any Op.isMw

def SessionRun.body (r : SessionRun) (s : Slot) : Slot := r.ops.foldl Slot.store (createSession s r.created)

def SessionRun.run (rms : List ℕ) (s : Slot) (r : SessionRun) : Slot := finish rms (r.body s)

/-- The slot after some sessions. -/
def afterSessions (rms : List ℕ) (rs : List SessionRun) : Slot := rs.foldl (SessionRun.run rms) (feInit rms)

/-! ## A descriptor as new -/

/-- A descriptor without the address of the array of types, which is allocated anew. -/
def SessionDesc.values (d : SessionDesc) : SessionDesc :=
  { d with rmInfo := { d.rmInfo with rmSupportedTypes := d.rmInfo.rmSupportedTypes.map fun a => (0, a.2) } }

/-- Every field has the value that it had after `LMON_fe_init`. -/
def SessionDesc.IsNew (rms : List ℕ) (d : SessionDesc) : Prop := d.values = (feInit rms).desc.values

/-- Message pointers are null, maps and vectors empty, sockets LMON_INIT, flags false, and the index of
    the resource manager is -1. -/
structure SessionDesc.Emptied (d : SessionDesc) : Prop where
  proctabMsg : d.proctabMsg = none
  hntabMsg : d.hntabMsg = none
  hntabMwMsg : d.hntabMwMsg = none
  pMap : d.pMap = []
  spawnerVector : d.spawnerVector = []
  listenSock : ∀ c, (d.commDesc c).sessionListenSockFd = lmonInit
  acceptSock : ∀ c, (d.commDesc c).sessionAcceptSockFd = lmonInit
  flags : d.registered = false ∧ d.spawned = false ∧ d.mwSpawned = false ∧ d.detached = false ∧
    d.killed = false
  index : d.rmInfo.indexToCurInstance = -1

/-- A sequence of sessions in one slot goes as it should: at the end of each the descriptor is new, and
    nothing is freed twice. -/
structure CleanSessions (rms : List ℕ) (rs : List SessionRun) : Prop where
  isNew : ∀ l, l <+: rs → (afterSessions rms l).desc.IsNew rms
  freedOnce : (afterSessions rms rs).heap.freed.Nodup

/-! ## What the calls store -/

/-- What the end of the session frees, apart from `hntab_mw_msg`. -/
def SessionDesc.owned (d : SessionDesc) : List Ptr := d.freedFirst ++ d.freedLast

/-- `s'` comes from `s` by stores: what the descriptor points to is still apart, from each other and
    from whatever else is held, and nothing has been freed. -/
structure Stores (s s' : Slot) : Prop where
  cipher : s'.desc.cipherHndl = s.desc.cipherHndl
  mw : s'.desc.hntabMwMsg = s.desc.hntabMwMsg
  freed : s'.heap.freed = s.heap.freed
  holds : ∀ ps, s.heap.Holds (ps ++ s.desc.owned) → s'.heap.Holds (ps ++ s'.desc.owned)

theorem Stores.refl (s : Slot) : Stores s s := ⟨rfl, rfl, rfl, fun _ h => h⟩

theorem Stores.trans {s₁ s₂ s₃ : Slot} (h₁ : Stores s₁ s₂) (h₂ : Stores s₂ s₃) : Stores s₁ s₃ :=
  ⟨h₂.cipher.trans h₁.cipher, h₂.mw.trans h₁.mw, h₂.freed.trans h₁.freed,
    fun ps h => h₂.holds ps (h₁.holds ps h)⟩

/-- A store that touches no pointer. -/
theorem Stores.plain {s s' : Slot} (hcipher : s'.desc.cipherHndl = s.desc.cipherHndl)
    (hmw : s'.desc.hntabMwMsg = s.desc.hntabMwMsg) (howned : s'.desc.owned = s.desc.owned)
    (hheap : s'.heap = s.heap) : Stores s s' :=
  ⟨hcipher, hmw, by rw [hheap], fun ps h => by rw [hheap, howned]; exact h⟩

/-- A store of allocated pointers. -/
theorem Stores.alloc {s s' : Slot} {n : ℕ} (hcipher : s'.desc.cipherHndl = s.desc.cipherHndl)
    (hmw : s'.desc.hntabMwMsg = s.desc.hntabMwMsg) (hheap : s'.heap = (s.heap.mallocs n).2)
    (howned : ∀ p, s'.desc.owned.count p ≤ ((s.heap.mallocs n).1 ++ s.desc.owned).count p) :
    Stores s s' := by
  refine ⟨hcipher, hmw, ?_, fun ps h => ?_⟩
  · rw [hheap, Heap.freed_mallocs]
  · rw [hheap]
    refine (h.mallocs n).mono (List.subperm_ext_iff.mpr fun p _ => ?_)
    have hp := howned p
    simp only [List.count_append] at hp ⊢
    omega

theorem count_pMapPtrs_pushEntry (host : CString) (e : PMapEntry) (p : Ptr) :
    ∀ m, (pMapPtrs (pushEntry host e m)).count p = e.ptrs.count p + (pMapPtrs m).count p := by
  intro m
  induction m with
  | nil => simp [pushEntry, pMapPtrs]
  | cons k m ih =>
    obtain ⟨k, es⟩ := k
    unfold pushEntry
    split
    · simp only [pMapPtrs, List.flatMap_cons, List.flatMap_append, List.flatMap_nil, List.append_nil,
        List.count_append]
      omega
    · simp only [pMapPtrs, List.flatMap_cons, List.count_append] at ih ⊢
      omega

theorem stores_putToDaemonEnv (s : Slot) (mw : Bool) (n : ℕ) : Stores s (putToDaemonEnv s mw n) := by
  cases mw with
  | false =>
    refine Stores.alloc rfl rfl rfl fun p => ?_
    simp only [putToDaemonEnv, SessionDesc.owned, SessionDesc.freedFirst, SessionDesc.freedLast,
      List.count_append, List.count_reverse]
    simp
    omega
  | true =>
    refine Stores.alloc rfl rfl rfl fun p => ?_
    simp only [putToDaemonEnv, SessionDesc.owned, SessionDesc.freedFirst, SessionDesc.freedLast,
      List.count_append, List.count_reverse]
    simp
    omega

theorem stores_parseRow (s : Slot) (host : CString) : Stores s (parseRow s host) := by
  refine @Stores.alloc _ _ 3 rfl rfl rfl fun p => ?_
  have hpush := fun e => count_pMapPtrs_pushEntry host e p s.desc.pMap
  simp only [parseRow, SessionDesc.owned, SessionDesc.freedFirst, SessionDesc.freedLast,
    List.count_append, hpush]
  simp only [PMapEntry.ptrs, Heap.mallocs, Heap.malloc, List.count_cons, List.count_nil]
  omega

theorem stores_parse (hosts : List CString) : ∀ s, Stores s (hosts.foldl parseRow s) := by
  induction hosts with
  | nil => exact Stores.refl
  | cons host hosts ih => exact fun s => (stores_parseRow s host).trans (ih _)

/-- A pointer that is overwritten, or appended, by one that is allocated. -/
theorem Stores.alloc_one {s s' : Slot} (hcipher : s'.desc.cipherHndl = s.desc.cipherHndl)
    (hmw : s'.desc.hntabMwMsg = s.desc.hntabMwMsg) (hheap : s'.heap = s.heap.malloc.2)
    (howned : ∀ p, s'.desc.owned.count p ≤ [s.heap.malloc.1].count p + s.desc.owned.count p) :
    Stores s s' :=
  @Stores.alloc _ _ 1 hcipher hmw hheap fun p => (howned p).trans (List.count_append).ge

/-- **Every store but that of the middleware's hostname table.** -/
theorem stores_store (s : Slot) (o : Op) (ho : o.isMw = false) : Stores s (s.store o) := by
  cases o with
  | putToDaemonEnv mw n => exact stores_putToDaemonEnv s mw n
  | proctabMsg | hntabMsg =>
    refine Stores.alloc_one rfl rfl rfl fun p => ?_
    simp only [Slot.store, SessionDesc.owned, SessionDesc.freedFirst, SessionDesc.freedLast,
      List.count_append, Option.toList_some]
    omega
  | hntabMwMsg => cases ho
  | spawner =>
    refine Stores.alloc_one rfl rfl rfl fun p => ?_
    simp only [Slot.store, SessionDesc.owned, SessionDesc.freedFirst, SessionDesc.freedLast,
      List.count_append]
    omega
  | parseRPDTAB hosts =>
    show Stores s (if s.desc.pMap.isEmpty then hosts.foldl parseRow s else s)
    split
    · exact stores_parse hosts s
    · exact Stores.refl s
  | _ => exact Stores.plain rfl rfl rfl rfl

/-! ## Sessions -/

/-- A slot within a session.  `had`: an earlier session had a hostname table from the middleware;
    `got`: this one has. -/
structure InSession (s : Slot) (had got : Bool) : Prop where
  cipher : s.desc.cipherHndl.isSome = true
  holds : s.heap.Holds ((if got then s.desc.hntabMwMsg.toList else []) ++ s.desc.owned)
  own : got = true → s.desc.hntabMwMsg.isSome = true
  stale : got = false → had = true → ∃ m ∈ s.heap.freed, s.desc.hntabMwMsg = some m
  null : got = false → had = false → s.desc.hntabMwMsg = none

/-- A slot between two sessions. -/
structure AtRest (s : Slot) (had : Bool) : Prop where
  holds : s.heap.Holds (s.desc.rmInfo.rmSupportedTypes.map Prod.fst).toList
  env : s.desc.daemonEnvList0 = [] ∧ s.desc.daemonEnvList1 = []
  msgs : s.desc.proctabMsg = none ∧ s.desc.hntabMsg = none
  lists : s.desc.pMap = [] ∧ s.desc.spawnerVector = []
  stale : had = true → ∃ m ∈ s.heap.freed, s.desc.hntabMwMsg = some m
  null : had = false → s.desc.hntabMwMsg = none

theorem InSession.stores {s s' : Slot} {had got : Bool} (h : InSession s had got) (hs : Stores s s') :
    InSession s' had got where
  cipher := by rw [hs.cipher]; exact h.cipher
  holds := by rw [hs.mw]; exact hs.holds _ h.holds
  own := by rw [hs.mw]; exact h.own
  stale := by rw [hs.mw, hs.freed]; exact h.stale
  null := by rw [hs.mw]; exact h.null

theorem InSession.store {s : Slot} {had got : Bool} (h : InSession s had got) (o : Op) :
    InSession (s.store o) had (got || o.isMw) := by
  cases ho : o.isMw with
  | false =>
    rw [Bool.or_false]
    exact h.stores (stores_store s o ho)
  | true =>
    cases o with
    | hntabMwMsg =>
      rw [Bool.or_true]
      have hown : s.heap.Holds s.desc.owned := h.holds.mono (List.sublist_append_right _ _).subperm
      constructor
      · exact h.cipher
      · exact hown.malloc
      · exact fun _ => rfl
      · exact fun hg => by cases hg
      · exact fun hg => by cases hg
    | _ => cases ho

theorem InSession.ops {had : Bool} (os : List Op) : ∀ {s : Slot} {got : Bool}, InSession s had got →
    InSession (os.foldl Slot.store s) had (got || os.any Op.isMw) := by
  induction os with
  | nil =>
    intro s got h
    rw [List.any_nil, Bool.or_false]
    exact h
  | cons o os ih =>
    intro s got h
    rw [List.any_cons, ← Bool.or_assoc]
    exact ih (h.store o)

theorem stores_createSession (s : Slot) (c : Created) : Stores (openSession s c) (createSession s c) :=
  (stores_putToDaemonEnv _ false c.nEnv).trans (stores_putToDaemonEnv _ true c.nMwEnv)

theorem AtRest.create {s : Slot} {had : Bool} (h : AtRest s had) (c : Created) :
    InSession (createSession s c) had false := by
  have howned : (openSession s c).desc.owned =
      (s.desc.rmInfo.rmSupportedTypes.map Prod.fst).toList ++ [s.heap.malloc.1] := by
    simp [openSession, SessionDesc.owned, SessionDesc.freedFirst, SessionDesc.freedLast, h.env.1, h.env.2,
      h.msgs.1, h.msgs.2, h.lists.1, h.lists.2, pMapPtrs]
  have hopen : InSession (openSession s c) had false := by
    constructor
    · rfl
    · -- the cipher handle that is left from the last session is overwritten
      rw [howned]
      exact h.holds.malloc.mono (List.perm_append_singleton _ _).subperm
    · exact fun hg => by cases hg
    · exact fun _ => h.stale
    · exact fun _ => h.null
  exact hopen.stores (stores_createSession s c)

theorem InSession.body {s : Slot} {had : Bool} (h : AtRest s had) (r : SessionRun) :
    InSession (r.body s) had r.hasMw := by
  have hops := (h.create r.created).ops r.ops
  rw [Bool.false_or] at hops
  exact hops

/-! ## The end of a session -/

/-- All that the end of the session frees. -/
def SessionDesc.freedAll (d : SessionDesc) : List Ptr := d.freedFirst ++ d.hntabMwMsg.toList ++ d.freedLast

theorem heap_destroySess (s : Slot) : (destroySess s).heap = s.heap.freeAll s.desc.freedAll := by
  show ((s.heap.freeAll _).freeAll _).freeAll _ = _
  rw [Heap.freeAll_freeAll, Heap.freeAll_freeAll, SessionDesc.freedAll, List.append_assoc]

theorem freed_finish (rms : List ℕ) (s : Slot) :
    (finish rms s).heap.freed = s.heap.freed ++ s.desc.freedAll := by
  have hdestroy : (destroySess s).heap.freed = s.heap.freed ++ s.desc.freedAll := by
    rw [heap_destroySess]
    rfl
  unfold finish initSess supportedTypes
  split
  · exact hdestroy
  · exact hdestroy

/-- The end of the session frees what it holds, if `hntab_mw_msg` is its own. -/
theorem InSession.holds_freedAll {s : Slot} {had got : Bool} (h : InSession s had got)
    (hok : had = true → got = true) : s.heap.Holds s.desc.freedAll := by
  cases got with
  | true =>
    refine h.holds.mono (List.Perm.subperm ?_)
    rw [if_pos rfl, SessionDesc.freedAll, SessionDesc.owned, ← List.append_assoc]
    exact List.perm_append_comm.append_right _
  | false =>
    have hnone : s.desc.hntabMwMsg = none := by
      cases had with
      | true => cases hok rfl
      | false => exact h.null rfl rfl
    have hholds := h.holds
    rw [if_neg (by decide), List.nil_append] at hholds
    rw [SessionDesc.freedAll, hnone, Option.toList_none, List.append_nil]
    exact hholds

/-- **Something is freed twice** exactly at the end of a session without a hostname table from the
    middleware, after one that had it. -/
theorem InSession.freed_nodup_iff {s : Slot} {had got : Bool} (h : InSession s had got) (rms : List ℕ) :
    (finish rms s).heap.freed.Nodup ↔ (had = true → got = true) := by
  rw [freed_finish]
  constructor
  · intro hn hhad
    cases hgot : got with
    | true => rfl
    | false =>
      obtain ⟨m, hm, hmw⟩ := h.stale hgot hhad
      refine absurd ?_ (List.disjoint_of_nodup_append hn hm)
      rw [SessionDesc.freedAll, hmw]
      exact List.mem_append_left _ (List.mem_append_right _ (List.mem_singleton_self m))
  · exact fun hok => (h.holds_freedAll hok).nodup

theorem InSession.finish {s : Slot} {had got : Bool} (h : InSession s had got)
    (hok : had = true → got = true) (rms : List ℕ) : AtRest (finish rms s) (had || got) := by
  have hfreed := freed_finish rms s
  have hholds : (s.heap.freeAll s.desc.freedAll).Holds [] := by
    have hall := h.holds_freedAll hok
    rw [← List.append_nil s.desc.freedAll] at hall
    exact hall.freeAll
  constructor
  · show (supportedTypes rms (destroySess s).heap).2.Holds _
    unfold Descriptor.finish initSess supportedTypes
    rw [heap_destroySess]
    split
    · exact hholds
    · exact hholds.malloc
  · exact ⟨rfl, rfl⟩
  · exact ⟨rfl, rfl⟩
  · exact ⟨rfl, rfl⟩
  · intro hor
    have hgot : got = true := by
      cases had with
      | true => exact hok rfl
      | false => exact hor
    obtain ⟨m, hm⟩ := Option.isSome_iff_exists.mp (h.own hgot)
    refine ⟨m, ?_, hm⟩
    rw [hfreed, SessionDesc.freedAll, hm]
    exact List.mem_append_right _
      (List.mem_append_left _ (List.mem_append_right _ (List.mem_singleton_self m)))
  · intro hor
    obtain ⟨hhad, hgot⟩ := Bool.or_eq_false_iff.mp hor
    exact h.null hgot hhad

/-- The end of the session resets these fields, and leaves the cipher handle. -/
theorem finish_flags (rms : List ℕ) (s : Slot) : (finish rms s).desc.registered = false ∧
    (finish rms s).desc.spawned = false ∧ (finish rms s).desc.mwSpawned = false ∧
    (finish rms s).desc.detached = false ∧ (finish rms s).desc.killed = false :=
  ⟨rfl, rfl, rfl, rfl, rfl⟩

/-- The flags that the watchdog and the calls look at. -/
def SessionDesc.session (d : SessionDesc) : Session := ⟨d.registered, d.spawned, d.detached, d.killed⟩

theorem cipherHndl_finish (rms : List ℕ) (s : Slot) :
    (finish rms s).desc.cipherHndl = s.desc.cipherHndl := rfl

/-- A slot at rest is emptied if the middleware's hostname table is null. -/
theorem emptied_finish_iff (rms : List ℕ) (s : Slot) :
    (finish rms s).desc.Emptied ↔ s.desc.hntabMwMsg = none := by
  constructor
  · exact fun h => h.hntabMwMsg
  · intro h
    exact ⟨rfl, rfl, h, rfl, rfl, fun _ => rfl, fun _ => rfl, finish_flags rms s, rfl⟩

/-! ## Sequences of sessions -/

theorem atRest_feInit (rms : List ℕ) : AtRest (feInit rms) false := by
  constructor
  · show (supportedTypes rms Heap.empty).2.Holds _
    unfold feInit initSess supportedTypes
    split
    · exact Heap.holds_empty
    · exact Heap.holds_empty.malloc
  · exact ⟨rfl, rfl⟩
  · exact ⟨rfl, rfl⟩
  · exact ⟨rfl, rfl⟩
  · exact fun h => by cases h
  · exact fun _ => rfl

/-- What every store, also that of the middleware's hostname table, does to what is compared below. -/
theorem store_frame (s : Slot) (o : Op) : (s.store o).heap.freed = s.heap.freed ∧
    (s.store o).desc.cipherHndl = s.desc.cipherHndl ∧
    (s.store o).desc.hntabMwMsg.isSome = (s.desc.hntabMwMsg.isSome || o.isMw) := by
  cases ho : o.isMw with
  | false =>
    have hs := stores_store s o ho
    exact ⟨hs.freed, hs.cipher, by rw [hs.mw, Bool.or_false]⟩
  | true =>
    cases o with
    | hntabMwMsg => exact ⟨rfl, rfl, (Bool.or_true _).symm⟩
    | _ => cases ho

theorem ops_frame (os : List Op) : ∀ s : Slot, (os.foldl Slot.store s).heap.freed = s.heap.freed ∧
    (os.foldl Slot.store s).desc.cipherHndl = s.desc.cipherHndl ∧
    (os.foldl Slot.store s).desc.hntabMwMsg.isSome = (s.desc.hntabMwMsg.isSome || os.any Op.isMw) := by
  induction os with
  | nil => exact fun s => ⟨rfl, rfl, (Bool.or_false _).symm⟩
  | cons o os ih =>
    intro s
    obtain ⟨hf, hc, hm⟩ := store_frame s o
    obtain ⟨hf', hc', hm'⟩ := ih (s.store o)
    refine ⟨hf'.trans hf, hc'.trans hc, hm'.trans ?_⟩
    rw [hm, List.any_cons, Bool.or_assoc]

theorem body_frame (r : SessionRun) (s : Slot) : (r.body s).heap.freed = s.heap.freed ∧
    (r.body s).desc.cipherHndl.isSome = true ∧
    (r.body s).desc.hntabMwMsg.isSome = (s.desc.hntabMwMsg.isSome || r.hasMw) := by
  obtain ⟨hf, hc, hm⟩ := ops_frame r.ops (createSession s r.created)
  have hcreate := stores_createSession s r.created
  refine ⟨hf.trans hcreate.freed, ?_, ?_⟩
  · refine (congrArg Option.isSome hc).trans ?_
    rw [hcreate.cipher]
    rfl
  · refine hm.trans ?_
    rw [hcreate.mw]
    rfl

/-- What has been freed twice stays so. -/
theorem nodup_of_run {rms : List ℕ} : ∀ (rs : List SessionRun) {s : Slot},
    (rs.foldl (SessionRun.run rms) s).heap.freed.Nodup → s.heap.freed.Nodup := by
  intro rs
  induction rs with
  | nil => exact fun h => h
  | cons r rs ih =>
    intro s h
    have hrun := ih h
    rw [SessionRun.run, freed_finish, (body_frame r s).1] at hrun
    exact hrun.of_append_left

theorem freed_nodup_iff (rms : List ℕ) : ∀ (rs : List SessionRun) {s : Slot} {had : Bool},
    AtRest s had → ((rs.foldl (SessionRun.run rms) s).heap.freed.Nodup ↔
      (∀ r ∈ rs, had = true → r.hasMw = true) ∧
        rs.Pairwise fun a b => a.hasMw = true → b.hasMw = true) := by
  intro rs
  induction rs with
  | nil =>
    intro s had h
    exact ⟨fun _ => ⟨fun r hr => absurd hr List.not_mem_nil, List.Pairwise.nil⟩,
      fun _ => h.holds.freed⟩
  | cons r rs ih =>
    intro s had h
    have hbody := InSession.body h r
    have hiff := hbody.freed_nodup_iff rms
    rw [List.foldl_cons, List.pairwise_cons]
    by_cases hok : had = true → r.hasMw = true
    · rw [show SessionRun.run rms s r = finish rms (r.body s) from rfl, ih (hbody.finish hok rms)]
      constructor
      · rintro ⟨hall, hpair⟩
        refine ⟨fun x hx hhad => ?_, fun x hx hr => hall x hx (by rw [hr, Bool.or_true]), hpair⟩
        rcases List.mem_cons.mp hx with rfl | hx
        · exact hok hhad
        · exact hall x hx (by rw [hhad, Bool.true_or])
      · rintro ⟨hall, hfirst, hpair⟩
        refine ⟨fun x hx hor => ?_, hpair⟩
        rcases Bool.or_eq_true_iff.mp hor with hhad | hr
        · exact hall x (List.mem_cons_of_mem _ hx) hhad
        · exact hfirst x hx hr
    · refine iff_of_false (fun hn => hok (hiff.mp (nodup_of_run rs hn))) fun hall => hok ?_
      exact hall.1 r List.mem_cons_self

/-- A hostname table of the middleware stays in the descriptor. -/
theorem hntabMwMsg_after (rms : List ℕ) (rs : List SessionRun) : ∀ s : Slot,
    (rs.foldl (SessionRun.run rms) s).desc.hntabMwMsg.isSome =
      (s.desc.hntabMwMsg.isSome || rs.any SessionRun.hasMw) := by
  induction rs with
  | nil => exact fun s => (Bool.or_false _).symm
  | cons r rs ih =>
    intro s
    rw [List.foldl_cons, ih, List.any_cons, ← Bool.or_assoc, ← (body_frame r s).2.2]
    rfl

/-- After a session the descriptor is emptied if there has been no hostname table of the middleware. -/
theorem emptied_after_iff (rms : List ℕ) (rs : List SessionRun) :
    (afterSessions rms rs).desc.Emptied ↔ ∀ r ∈ rs, r.hasMw = false := by
  have hmw : (afterSessions rms rs).desc.hntabMwMsg = none ↔ ∀ r ∈ rs, r.hasMw = false := by
    have hafter := hntabMwMsg_after rms rs (feInit rms)
    rw [← Option.not_isSome_iff_eq_none, afterSessions, hafter]
    simp [feInit, initSess, SessionDesc.zero]
  rw [← hmw]
  constructor
  · exact fun h => h.hntabMwMsg
  · intro h
    rcases List.eq_nil_or_concat rs with rfl | ⟨rs', r, rfl⟩
    · exact ⟨rfl, rfl, rfl, rfl, rfl, fun _ => rfl, fun _ => rfl, ⟨rfl, rfl, rfl, rfl, rfl⟩, rfl⟩
    · rw [List.concat_eq_append, afterSessions, List.foldl_append] at h ⊢
      exact (emptied_finish_iff rms _).mpr h

/-- A descriptor is not new after a session: its cipher handle is that of the session. -/
theorem not_isNew (rms : List ℕ) (r : SessionRun) (s : Slot) : ¬ (SessionRun.run rms s r).desc.IsNew rms := by
  intro h
  have hcipher : (r.body s).desc.cipherHndl = none :=
    (cipherHndl_finish rms _).symm.trans (congrArg SessionDesc.cipherHndl h)
  have hsome := (body_frame r s).2.1
  rw [hcipher] at hsome
  cases hsome

/-- **The life of a descriptor.**  No sequence of sessions is clean but the empty one: the cipher handle
    stays.  Apart from what the code nowhere resets, the descriptor is emptied at the end of each session
    exactly if none has received a hostname table from the middleware; and nothing is freed twice
    exactly if each session behind one that has received such a table receives one too. -/
theorem sessions_lifecycle (rms : List ℕ) (rs : List SessionRun) :
    (CleanSessions rms rs ↔ rs = []) ∧
    ((∀ l, l <+: rs → (afterSessions rms l).desc.Emptied) ↔ ∀ r ∈ rs, r.hasMw = false) ∧
    ((afterSessions rms rs).heap.freed.Nodup ↔
      rs.Pairwise fun a b => a.hasMw = true → b.hasMw = true) := by
  refine ⟨⟨fun h => ?_, ?_⟩, ⟨fun h => ?_, fun h l hl => ?_⟩, ?_⟩
  · rcases List.eq_nil_or_concat rs with rfl | ⟨rs', r, rfl⟩
    · rfl
    · have hnew := h.isNew _ (List.prefix_refl _)
      rw [List.concat_eq_append, afterSessions, List.foldl_append] at hnew
      exact absurd hnew (not_isNew rms r _)
  · rintro rfl
    refine ⟨fun l hl => ?_, (atRest_feInit rms).holds.freed⟩
    rw [List.prefix_nil.mp hl]
    rfl
  · exact (emptied_after_iff rms rs).mp (h rs (List.prefix_refl _))
  · exact (emptied_after_iff rms l).mpr fun r hr => h r (hl.subset hr)
  · refine (freed_nodup_iff rms rs (atRest_feInit rms)).trans (and_iff_right fun r _ h => ?_)
    cases h

theorem noNul_loopback : (0 : UInt8) ∉ ([49, 50, 55, 46, 48, 46, 48, 46, 49] : List UInt8) := by decide

/-- "127.0.0.1". -/
def loopback : CString := ⟨[49, 50, 55, 46, 48, 46, 48, 46, 49], noNul_loopback⟩

theorem noNul_sampleKey : (0 : UInt8) ∉ ([52, 50] : List UInt8) := by decide

/-- "42". -/
def sampleKey : CString := ⟨[52, 50], noNul_sampleKey⟩

/-- What the system calls give to a session. -/
def sampleCreated : Created where
  listenSockFd _ := 5
  servAddr _ := ⟨2, 4000, 2130706433⟩
  ip _ := loopback
  randomID := 7
  key := sampleKey
  nEnv := 4
  nMwEnv := 4

/-- A session with middleware daemons, and a session without. -/
def withMw : SessionRun :=
  ⟨sampleCreated, [.proctabMsg, .parseRPDTAB [.letter 0, .letter 1], .hntabMsg, .spawner, .hntabMwMsg]⟩

def withoutMw : SessionRun := ⟨sampleCreated, [.proctabMsg, .parseRPDTAB [.letter 0], .hntabMsg]⟩

/-- The table of the first session is kept by the descriptor, and freed again by the second. -/
theorem sessions_counterexample :
    (afterSessions [1] [withMw]).desc.hntabMwMsg = some 19 ∧
      ((afterSessions [1] [withMw, withoutMw]).heap.freed.count 19 = 2) ∧
      ¬ (afterSessions [1] [withMw]).desc.Emptied ∧ ¬ CleanSessions [1] [withMw, withoutMw] := by
  have hmw : (afterSessions [1] [withMw]).desc.hntabMwMsg = some 19 := by decide +kernel
  have htwice : (afterSessions [1] [withMw, withoutMw]).heap.freed.count 19 = 2 := by decide +kernel
  refine ⟨hmw, htwice, fun h => ?_, fun h => ?_⟩
  · exact absurd (hmw.symm.trans h.hntabMwMsg) (Option.some_ne_none 19)
  · have hone := List.nodup_iff_count_le_one.mp h.freedOnce 19
    rw [htwice] at hone
    exact absurd hone (by decide)

end LaunchMON.Frontend.Descriptor
