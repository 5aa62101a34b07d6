/-
  From the memory of the launcher to the tool.

  The engine reads the table of the launcher entry by entry and appends each to the list of its host;
  what it ships is that map, what the front end stores is the message, what it forwards is the message
  in another class, and each daemon rebuilds the map and takes one list of it.  Over all of these steps
  nothing is lost, but the ranks do not stay in their order: the tool has the entries of the launcher
  host by host, in the order of the host names, and only those of one host in the order of the launcher
  (`byHost`).  A daemon has the entries of one host, the first of its aliases that the launcher uses
  (`share`); these are all of its node unless the launcher calls the node by two names.
-/
import LaunchMON.Engine.Messages
import LaunchMON.Backend.LocalTables

namespace LaunchMON.Backend

open CBytes Lmonp Frontend Std

/-! ## The map of a list of entries -/

/-- `proctable_copy` after the entries of `es`, from an empty copy. -/
def gather (es : List ProcdescExt) : Proctable := es.foldl push ∅

theorem getElem?_gather (es : List ProcdescExt) (host : CString) :
    (gather es)[host]? = if es.filter (fun e => e.hostName = host) = [] then none
      else some (es.filter fun e => e.hostName = host) := by
  unfold gather
  rw [getElem?_foldl_push, ExtTreeMap.getElem?_empty, Option.getD_none, List.nil_append]

theorem gather_ok (es : List ProcdescExt) : ProctableOk (gather es) where
  ne_nil host es' h := by
    rw [getElem?_gather] at h
    split at h
    · cases h
    · cases h
      assumption
  host_eq host es' h e he := by
    rw [getElem?_gather] at h
    split at h
    · cases h
    · cases h
      exact of_decide_eq_true (List.mem_filter.mp he).2

/-- The entries of a host come back in their order. -/
theorem filter_rows_gather (es : List ProcdescExt) (host : CString) :
    (rows (gather es)).filter (fun e => e.hostName = host) = es.filter fun e => e.hostName = host := by
  rw [filter_rows (gather_ok es), getElem?_gather]
  split
  · next hnil =>
    rw [hnil]
    rfl
  · rfl

/-- Nothing is lost, and nothing is there twice. -/
theorem rows_gather_perm (es : List ProcdescExt) : (rows (gather es)).Perm es := by
  refine List.perm_iff_count.mpr fun e => ?_
  have hcount : ∀ xs : List ProcdescExt,
      xs.count e = (xs.filter fun e' => e'.hostName = e.hostName).count e := fun xs =>
    (List.count_filter (p := fun e' : ProcdescExt => decide (e'.hostName = e.hostName)) (decide_eq_true rfl)).symm
  rw [hcount, hcount es, filter_rows_gather]

/-- The entries of `es`, host by host. -/
def byHost (hosts : List CString) (es : List ProcdescExt) : List ProcdescExt :=
  hosts.flatMap fun host => es.filter fun e => e.hostName = host

/-- The rows come in the order of the host names. -/
theorem rows_gather (es : List ProcdescExt) : rows (gather es) = byHost (gather es).keys es := by
  rw [byHost, ← ExtTreeMap.map_fst_toList_eq_keys, List.flatMap_map]
  refine List.flatMap_congr fun p hp => ?_
  have hget := ExtTreeMap.mem_toList_iff_getElem?_eq_some.mp hp
  rw [getElem?_gather] at hget
  split at hget
  · cases hget
  · exact (Option.some.inj hget).symm

theorem mem_keys_gather {es : List ProcdescExt} {host : CString} :
    host ∈ (gather es).keys ↔ ∃ e ∈ es, e.hostName = host := by
  rw [ExtTreeMap.mem_keys, ExtTreeMap.mem_iff_isSome_getElem?, getElem?_gather]
  split
  · next hnil =>
    refine iff_of_false Bool.false_ne_true fun ⟨e, he, hhost⟩ => ?_
    exact List.filter_eq_nil_iff.mp hnil e he (decide_eq_true hhost)
  · next hne =>
    obtain ⟨e, he⟩ := List.exists_mem_of_ne_nil _ hne
    exact iff_of_true rfl ⟨e, List.mem_of_mem_filter he, of_decide_eq_true (List.mem_filter.mp he).2⟩

/-- Has one of the entries this host name? -/
def knows (es : List ProcdescExt) (host : CString) : Bool := es.any fun e => e.hostName = host

theorem knows_iff {es : List ProcdescExt} {host : CString} :
    knows es host = true ↔ ∃ e ∈ es, e.hostName = host := by
  simp [knows]

/-- What a daemon takes of `es`: the entries of the first of its aliases that is there. -/
def share (hostAliases : List CString) (es : List ProcdescExt) : List ProcdescExt :=
  es.filter fun e => hostAliases.find? (knows es) = some e.hostName

theorem findSome?_gather (es : List ProcdescExt) (hostAliases : List CString) :
    hostAliases.findSome? (fun a => (gather es)[a]?) =
      (hostAliases.find? (knows es)).map fun a => es.filter fun e => e.hostName = a := by
  induction hostAliases with
  | nil => rfl
  | cons a as ih =>
    rw [List.findSome?_cons, getElem?_gather, List.find?_cons]
    by_cases hnil : es.filter (fun e => e.hostName = a) = []
    · have hnone : knows es a = false := by
        rw [knows, List.any_eq_false]
        exact List.filter_eq_nil_iff.mp hnil
      rw [if_pos hnil, hnone]
      exact ih
    · have hsome : knows es a = true := by
        obtain ⟨e, he⟩ := List.exists_mem_of_ne_nil _ hnil
        exact List.any_eq_true.mpr ⟨e, List.mem_of_mem_filter he, (List.mem_filter.mp he).2⟩
      rw [if_neg hnil, hsome]
      rfl

theorem myEntries_gather (hostAliases : List CString) (es : List ProcdescExt) :
    myEntries hostAliases (gather es) = share hostAliases es := by
  rw [myEntries, findSome?_gather, share]
  cases hostAliases.find? (knows es) with
  | none => exact (List.filter_eq_nil_iff.mpr fun e _ h => by simp at h).symm
  | some a =>
    refine List.filter_congr fun e _ => decide_eq_decide.mpr ?_
    rw [Option.some.injEq]
    exact eq_comm

/-- A daemon whose node goes by one name takes all entries of its node. -/
theorem share_oneName {hostAliases : List CString} {es : List ProcdescExt}
    (hone : ∀ e ∈ es, ∀ e' ∈ es, e.hostName ∈ hostAliases → e'.hostName ∈ hostAliases →
      e.hostName = e'.hostName) :
    share hostAliases es = es.filter fun e => e.hostName ∈ hostAliases := by
  refine List.filter_congr fun e he => decide_eq_decide.mpr ⟨fun h => List.mem_of_find?_eq_some h, ?_⟩
  intro hmem
  have hthere : (hostAliases.find? (knows es)).isSome :=
    List.find?_isSome.mpr ⟨_, hmem, knows_iff.mpr ⟨e, he, rfl⟩⟩
  obtain ⟨a, ha⟩ := Option.isSome_iff_exists.mp hthere
  obtain ⟨e', he', rfl⟩ := knows_iff.mp (List.find?_some ha)
  rw [ha, hone e he e' he' hmem (List.mem_of_find?_eq_some ha)]

/-! ## The delivery -/

/-- What `LMON_fe_getProctable` and the calls of the daemons hand out of a message is the list `es`:
    to the tool all of it, host by host in the order of the names, and to a daemon its share. -/
structure Delivers (m : Msg) (es : List ProcdescExt) : Prop where
  tool : ∃ hosts : List CString, hosts.Pairwise (fun a b => compare a b = .lt) ∧
    (∀ host, host ∈ hosts ↔ ∃ e ∈ es, e.hostName = host) ∧ (byHost hosts es).Perm es ∧
    ∀ (sess : List SessionDesc) (handle : ℕ) (d : SessionDesc) (array : Buf ProcdescExt)
      (maxlen : UInt32), handle < maxLmonSession → sess[handle]? = some d → d.registered = true →
      d.spawned = true → d.proctabMsg = some m ∨ d.proctabMsg = some (forwardToBe m) →
      es.length ≤ maxlen.toNat → lmonFeGetProctable sess handle (some array) maxlen = some
        { rc := .ok
          size := some (UInt32.ofNat es.length)
          proctable := some (array.write 0 (byHost hosts es)) }
  daemons : ∀ {ι : Type} (hostAliases : ι → List CString),
    Returns hostAliases ((forwardToBe m).hdr.bytes ++ (forwardToBe m).payload)
      fun i => share (hostAliases i) es
  whole : ∀ hostAliases : List CString,
    (∀ e ∈ es, ∀ e' ∈ es, e.hostName ∈ hostAliases → e'.hostName ∈ hostAliases →
      e.hostName = e'.hostName) →
    share hostAliases es = es.filter fun e => e.hostName ∈ hostAliases

theorem delivers_gather {es : List ProcdescExt} {pcount : Int32} {s : Shipment}
    (hs : shipProctabMsg true (gather es) pcount .proctableAvail = some s)
    (hcount : pcount.toInt = es.length) (hpos : 1 ≤ es.length)
    (hsize : proctabMsgSize (gather es) < 2 ^ 31) : Delivers s.msg es := by
  have hlen : (rows (gather es)).length = es.length := (rows_gather_perm es).length_eq
  obtain ⟨s', hs', hship, hforward⟩ :=
    shipProctabMsg_carries (by rw [hlen, hcount]) (by rw [hlen]; exact hpos) hsize
  cases hs.symm.trans hs'
  refine ⟨⟨(gather es).keys, ExtTreeMap.ordered_keys, fun _ => mem_keys_gather, ?_, ?_⟩, ?_,
    fun _ => share_oneName⟩
  · rw [← rows_gather]
    exact rows_gather_perm es
  · intro sess handle d array maxlen hhandle hd hreg hspawned hmsg hmax
    have hget : ∀ {m : Msg}, Carries m (gather es) → d.proctabMsg = some m →
        lmonFeGetProctable sess handle (some array) maxlen = some
          { rc := .ok
            size := some (UInt32.ofNat es.length)
            proctable := some (array.write 0 (byHost (gather es).keys es)) } := by
      intro m hm hmsg
      rw [hm.getProctable hsize hhandle hd hreg hspawned hmsg, hlen, if_neg (by omega),
        Nat.min_eq_left hmax, ← hlen, List.take_length, rows_gather]
    exact hmsg.elim (hget hship) (hget hforward)
  · intro ι hostAliases
    have hcache : proctabCache ((forwardToBe s.msg).hdr.bytes ++ (forwardToBe s.msg).payload) =
        some (gather es) := by
      rw [proctabCache, msgOfBytes_bytes, hforward.parse (gather_ok es) hsize]
      rfl
    have hown : (fun i => share (hostAliases i) es) = fun i => myEntries (hostAliases i) (gather es) :=
      funext fun i => (myEntries_gather (hostAliases i) es).symm
    rw [hown]
    refine returns_myEntries hcache fun i => ?_
    have := length_myEntries (gather_ok es) (hostAliases i)
    unfold proctabMsgSize at hsize
    omega

/-- **The tool gets the launcher's table**, host by host.  In every run of the engine, when a process
    table has been shipped whose acquisition began with an empty copy, and the launcher has had a table
    of `es` in its memory at that time, then those are the entries that the front end hands to the tool,
    and each daemon gets its share of them. -/
theorem launcher_table_delivered {cfg : Engine.Config} {s₀ s : Engine.Sys}
    (h₀ : Engine.Initial cfg s₀) (h : Engine.Run cfg (fun _ _ => True) s₀ s)
    {A : Engine.Acquisition} {tab : Proctable} {pcount : Int32} {m : Shipment}
    (hm : .shippedProctab (some A) tab pcount m ∈ s.w.log) {es : List ProcdescExt}
    (hfinds : A.Finds cfg es) (hbefore : A.before = ∅) (hsize : proctabMsgSize (gather es) < 2 ^ 31) :
    A.ok = true ∧ Delivers m.msg es := by
  obtain ⟨hship, A', hA, hok, hacquired⟩ := Engine.genuine_of_run h₀ h _ hm
  cases hA
  have hok := hok es hfinds
  obtain ⟨es', hfinds', htab, hcount⟩ := hacquired hok
  obtain rfl := hfinds.unique hfinds'
  rw [hbefore] at htab
  have hapi : cfg.apiMode = true := by
    cases hapi : cfg.apiMode with
    | true => rfl
    | false =>
      rw [hapi] at hship
      cases hship
  rw [hapi, htab] at hship
  exact ⟨hok, delivers_gather hship hcount hfinds.length_pos hsize⟩

/-- What a note tells of an acquisition: its result, whether it began with an empty copy, the size of the
    message and the ranks in the order of the tool. -/
def acquired : Engine.Note → Option (Bool × Bool × ℕ × List Int32)
  | .shippedProctab (some A) tab _ _ =>
    some (A.ok, A.before.isEmpty, proctabMsgSize tab, (rows tab).map ProcdescExt.mpirank)
  | _ => none

/-- The memory of a launcher of three tasks of one program, dealt out to the hosts "b" and "a". -/
def cyclicTasks : List UInt8 :=
  List.replicate 16 0 ++ [0x40, 0x20, 0, 0, 0, 0, 0, 0] ++ [3] ++ List.replicate 39 0 ++
    [0x90, 0x20, 0, 0, 0, 0, 0, 0] ++ [0xa0, 0x20, 0, 0, 0, 0, 0, 0] ++ [5, 0, 0, 0, 0, 0, 0, 0] ++
    [0x98, 0x20, 0, 0, 0, 0, 0, 0] ++ [0xa0, 0x20, 0, 0, 0, 0, 0, 0] ++ [6, 0, 0, 0, 0, 0, 0, 0] ++
    [0x90, 0x20, 0, 0, 0, 0, 0, 0] ++ [0xa0, 0x20, 0, 0, 0, 0, 0, 0] ++ [7, 0, 0, 0, 0, 0, 0, 0] ++
    List.replicate 8 0 ++ [98, 0, 0, 0, 0, 0, 0, 0] ++ [97, 0, 0, 0, 0, 0, 0, 0] ++ [120]

/-- The tool has rank 1 first. -/
theorem launcher_table_delivered_cyclic : ∃ s A tab pcount m es,
    (Engine.Sys.start Engine.attachedSample (Engine.sampleTarget 0x1010 cyclicTasks)).runAll
      Engine.attachedSample [.poll 100] = some s ∧
    .shippedProctab (some A) tab pcount m ∈ s.w.log ∧ A.Finds Engine.attachedSample es ∧
    (rows tab).map ProcdescExt.mpirank = [1, 0, 2] ∧ Delivers m.msg es := by
  have hrun : ((Engine.Sys.start Engine.attachedSample
      (Engine.sampleTarget 0x1010 cyclicTasks)).runAll Engine.attachedSample [.poll 100]).map
        (fun s => s.w.log.filterMap acquired) = some [(true, true, 94, [1, 0, 2])] := by decide +kernel
  obtain ⟨s, hs, hobs⟩ := Option.map_eq_some_iff.mp hrun
  obtain ⟨n, hn, hobs⟩ := List.mem_filterMap.mp (hobs ▸ List.mem_singleton_self _)
  have h₀ : Engine.Initial Engine.attachedSample (.start Engine.attachedSample
      (Engine.sampleTarget 0x1010 cyclicTasks)) := ⟨_, Engine.attachedSample_launched _ _, rfl⟩
  have hgenuine := Engine.genuine_of_run h₀ (Engine.Run.of_runAll _ hs) n hn
  cases n with
  | shippedProctab acq tab pcount m =>
    cases acq with
    | none => cases hobs
    | some A =>
      obtain ⟨hok, hbefore, hsize, hranks⟩ := by simpa [acquired] using hobs
      obtain ⟨-, A', hA, -, hacquired⟩ := hgenuine
      cases hA
      obtain ⟨es, hfinds, htab, -⟩ := hacquired hok
      have hgather : tab = gather es := by rw [htab, hbefore, gather]
      refine ⟨s, A, tab, pcount, m, es, hs, hn, hfinds, hranks, ?_⟩
      exact (launcher_table_delivered h₀ (Engine.Run.of_runAll _ hs) hn hfinds hbefore
        (by rw [← hgather, hsize]; decide)).2
  | _ => cases hobs

end LaunchMON.Backend
