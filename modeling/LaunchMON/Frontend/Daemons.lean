/-
  How many back-end daemons there are, for the front end.

  Two numbers are derived from one process table.  `ship_proctab_msg` counts the names of the table
  while it builds the string table, and the header carries the counts in 16-bit fields;
  `LMON_assist_ICCL_BE_init` takes the number of daemons from there.  The list of hosts that it gives to
  `cobo_server_open` are the keys of the map that it has decoded from the rows.

  A name enters the string table once, and is counted where it enters it: as an executable or as a
  host.  `Counted` is what the two counters are worth at any time of the loop.  So both are true as
  long as no host has the name of an executable, and they survive the header below 65536
  (`name_counts`).
-/
import LaunchMON.Lmonp.Proctab
import Mathlib.Data.Finset.Card

namespace LaunchMON.Frontend

open CBytes Lmonp Std

/-! ## The two sides -/

/-- The names of the executables of a table. -/
def execs (tab : Proctable) : Finset CString := ((rows tab).map ProcdescExt.executableName).toFinset

/-- The names of the hosts of a table. -/
def hosts (tab : Proctable) : Finset CString := ((rows tab).map ProcdescExt.hostName).toFinset

/-- What `LMON_assist_ICCL_BE_init` has when it calls `cobo_server_open`: `nDaemons` of the connection,
    and the hosts. -/
structure IcclInit where
  nDaemons : ℕ
  hostlist : List CString

/-- `LMON_assist_ICCL_BE_init` up to `cobo_server_open`; `none` if it reads past the message.  `malloc`
    tells whether the two lists can be allocated. -/
def lmonAssistIcclBeInit (proctabMsg : Option Msg) (pMap : Proctable) (malloc : Bool) :
    Option (Except LmonRc IcclInit) :=
  match proctabMsg with
  | none => some (.error .ebug)
  | some m => do
    let (rc, pMap) ← parseRawRPDTABmsg (some m) pMap
    if rc < 0 then return .error .esys
    else if pMap.size ≠ 0 ∧ malloc = false then return .error .enomem
    else return .ok ⟨m.hdr.numHostName.toNat, pMap.keys⟩

/-! ## The counters -/

/-- After the executables `E` and the hosts `H` the map holds their names, and the counters have
    counted each of them once. -/
structure Counted (t : StrTab) (E H : Finset CString) : Prop where
  mem : ∀ s, s ∈ t.execHostName ↔ s ∈ E ∪ H
  counts : ∃ a b, t.numUniqueExec = UInt32.ofNat a ∧ t.numUniqueHn = UInt32.ofNat b ∧
    a ≤ E.card ∧ b ≤ H.card ∧ a + b = (E ∪ H).card

namespace Counted

variable {t : StrTab} {E H : Finset CString}

theorem empty : Counted StrTab.empty ∅ ∅ where
  mem s := by simp [StrTab.empty]
  counts := ⟨0, 0, rfl, rfl, le_rfl, le_rfl, rfl⟩

theorem addExec (h : Counted t E H) (e : ProcdescExt) :
    Counted (t.addExec e) (insert e.executableName E) H := by
  obtain ⟨a, b, ha, hb, hE, hH, hsum⟩ := h.counts
  unfold StrTab.addExec
  split
  · rename_i hin
    have hin : e.executableName ∈ E ∪ H := (h.mem _).mp hin
    have hunion : insert e.executableName E ∪ H = E ∪ H := by
      rw [Finset.insert_union, Finset.insert_eq_of_mem hin]
    have hle := Finset.card_le_card (Finset.subset_insert e.executableName E)
    exact ⟨fun s => by rw [hunion, h.mem], a, b, ha, hb, by omega, hH, by rw [hunion, hsum]⟩
  · rename_i hout
    have hout : e.executableName ∉ E ∪ H := fun hin => hout ((h.mem _).mpr hin)
    have hE' : e.executableName ∉ E := fun hin => hout (Finset.mem_union_left _ hin)
    refine ⟨fun s => ?_, a + 1, b, ?_, hb, ?_, hH, ?_⟩
    · show s ∈ (t.addName e.executableName).execHostName ↔ _
      rw [StrTab.mem_addName, h.mem, Finset.insert_union, Finset.mem_insert]
    · show t.numUniqueExec + 1 = _
      rw [ha, UInt32.ofNat_add]
      rfl
    · rw [Finset.card_insert_of_notMem hE']
      omega
    · rw [Finset.insert_union, Finset.card_insert_of_notMem hout]
      omega

theorem addHost (h : Counted t E H) (e : ProcdescExt) :
    Counted (t.addHost e) E (insert e.hostName H) := by
  obtain ⟨a, b, ha, hb, hE, hH, hsum⟩ := h.counts
  unfold StrTab.addHost
  split
  · rename_i hin
    have hin : e.hostName ∈ E ∪ H := (h.mem _).mp hin
    have hunion : E ∪ insert e.hostName H = E ∪ H := by
      rw [Finset.union_insert, Finset.insert_eq_of_mem hin]
    have hle := Finset.card_le_card (Finset.subset_insert e.hostName H)
    exact ⟨fun s => by rw [hunion, h.mem], a, b, ha, hb, hE, by omega, by rw [hunion, hsum]⟩
  · rename_i hout
    have hout : e.hostName ∉ E ∪ H := fun hin => hout ((h.mem _).mpr hin)
    have hH' : e.hostName ∉ H := fun hin => hout (Finset.mem_union_right _ hin)
    refine ⟨fun s => ?_, a, b + 1, ha, ?_, hE, ?_, ?_⟩
    · show s ∈ (t.addName e.hostName).execHostName ↔ _
      rw [StrTab.mem_addName, h.mem, Finset.union_insert, Finset.mem_insert]
    · show t.numUniqueHn + 1 = _
      rw [hb, UInt32.ofNat_add]
      rfl
    · rw [Finset.card_insert_of_notMem hH']
      omega
    · rw [Finset.union_insert, Finset.card_insert_of_notMem hout]
      omega

/-- The loop over the entries. -/
theorem foldl_addRow : ∀ (es : List ProcdescExt) {t : StrTab} {E H : Finset CString},
    Counted t E H → Counted (es.foldl StrTab.addRow t)
      (E ∪ (es.map ProcdescExt.executableName).toFinset)
      (H ∪ (es.map ProcdescExt.hostName).toFinset) := by
  intro es
  induction es with
  | nil =>
    intro t E H h
    simpa using h
  | cons e es ih =>
    intro t E H h
    have := ih ((h.addExec e).addHost e)
    simpa [StrTab.addRow, Finset.union_insert, Finset.insert_union] using this

/-- The counters are true exactly when no host has the name of an executable, and no count is lost on
    its way into 16 bits. -/
theorem true_iff (h : Counted t E H) :
    (t.numUniqueExec.toUInt16.toNat = E.card ∧ t.numUniqueHn.toUInt16.toNat = H.card) ↔
      Disjoint E H ∧ E.card < 2 ^ 16 ∧ H.card < 2 ^ 16 := by
  obtain ⟨a, b, ha, hb, hE, hH, hsum⟩ := h.counts
  have hcard := Finset.card_union_add_card_inter E H
  have ha' : t.numUniqueExec.toUInt16.toNat = a % 2 ^ 16 := by
    rw [ha, UInt32.toNat_toUInt16, UInt32.toNat_ofNat']
    omega
  have hb' : t.numUniqueHn.toUInt16.toNat = b % 2 ^ 16 := by
    rw [hb, UInt32.toNat_toUInt16, UInt32.toNat_ofNat']
    omega
  rw [ha', hb', Finset.disjoint_iff_inter_eq_empty, ← Finset.card_eq_zero]
  omega

end Counted

theorem counted_strTab (tab : Proctable) : Counted (strTab tab) (execs tab) (hosts tab) := by
  have := Counted.foldl_addRow (rows tab) Counted.empty
  rw [Finset.empty_union, Finset.empty_union] at this
  exact this

/-! ## The decoded map -/

/-- The keys of a map of processes are the names of their hosts. -/
theorem length_keys {tab : Proctable} (hok : ProctableOk tab) : tab.keys.length = (hosts tab).card := by
  have hnodup : tab.keys.Nodup := by
    refine ExtTreeMap.distinct_keys.imp ?_
    rintro a b hab rfl
    exact hab ReflCmp.compare_self
  have hset : tab.keys.toFinset = hosts tab := by
    ext s
    rw [List.mem_toFinset, hosts, List.mem_toFinset, List.mem_map, ExtTreeMap.mem_keys]
    constructor
    · intro hs
      obtain ⟨es, hes⟩ : ∃ es, tab[s]? = some es := ⟨_, ExtTreeMap.getElem?_eq_some_getElem hs⟩
      obtain ⟨e, he⟩ := List.exists_mem_of_ne_nil es (hok.ne_nil s es hes)
      refine ⟨e, List.mem_flatMap.mpr ⟨(s, es), ?_, he⟩, hok.host_eq s es hes e he⟩
      exact ExtTreeMap.mem_toList_iff_getElem?_eq_some.mpr hes
    · rintro ⟨e, he, rfl⟩
      obtain ⟨⟨host, es⟩, hp, he⟩ := List.mem_flatMap.mp he
      have hes := ExtTreeMap.mem_toList_iff_getElem?_eq_some.mp hp
      rw [hok.host_eq host es hes e he]
      exact ExtTreeMap.mem_iff_isSome_getElem?.mpr (by rw [hes]; rfl)
  rw [← hset, List.toFinset_card_of_nodup hnodup]

/-- The names of the header are the counters of the loop. -/
theorem shipProctabMsg_names {tab : Proctable} {pcount : Int32} {t : FeToFeMsg} {s : Shipment}
    (hs : shipProctabMsg true tab pcount t = some s) :
    s.msg.hdr.numExecName = (strTab tab).numUniqueExec.toUInt16 ∧
      s.msg.hdr.numHostName = (strTab tab).numUniqueHn.toUInt16 := by
  cases hs
  constructor <;> (dsimp only; split <;> rfl)

/-- A table without a task has no payload, and the front end cannot decode it. -/
theorem parse_no_rows {tab : Proctable} {pcount : Int32} {t : FeToFeMsg} {s : Shipment}
    (hrows : rows tab = []) (hcount : pcount.toInt = 0)
    (hs : shipProctabMsg true tab pcount t = some s) :
    parseRawRPDTABmsg (some s.msg) ∅ = some (-2, ∅) := by
  have hzero : pcount = 0 := Int32.toInt_inj.mp (by rw [hcount]; rfl)
  have htab : strTab tab = StrTab.empty := by rw [strTab, hrows, List.foldl_nil]
  subst hzero
  cases hs
  simp only [parseRawRPDTABmsg, ExtTreeMap.size_empty, htab]
  rfl

/-- What the front end opens the tree with. -/
theorem lmonAssistIcclBeInit_hosts {tab : Proctable} (hok : ProctableOk tab) {pcount : Int32}
    (hcount : pcount.toInt = (rows tab).length) (hsize : proctabMsgSize tab < 2 ^ 31) {s : Shipment}
    (hs : shipProctabMsg true tab pcount .proctableAvail = some s) {malloc : Bool} {r : IcclInit}
    (hr : lmonAssistIcclBeInit (some s.msg) ∅ malloc = some (.ok r)) :
    r.nDaemons = s.msg.hdr.numHostName.toNat ∧ r.hostlist.length = (hosts tab).card := by
  by_cases hrows : rows tab = []
  · have hparse := parse_no_rows hrows (by rw [hcount, hrows]; rfl) hs
    simp [lmonAssistIcclBeInit, hparse] at hr
  · obtain ⟨s', hs', hcarries, -⟩ := shipProctabMsg_carries hcount
      (List.length_pos_iff.mpr hrows) hsize
    cases hs.symm.trans hs'
    have hparse := hcarries.parse hok hsize
    simp only [lmonAssistIcclBeInit, hparse, Option.bind_eq_bind, Option.bind_some] at hr
    rw [if_neg (by decide)] at hr
    split at hr
    · cases hr
    · cases hr
      exact ⟨rfl, length_keys hok⟩

/-! ## The counts -/

/-- **Name counts**: the header tells the number of executables and of hosts, and the number of daemons
    is the number of hosts in the tree, exactly when no host has the name of an executable and neither
    number needs more than 16 bits. -/
theorem name_counts (tab : Proctable) (hok : ProctableOk tab) (pcount : Int32)
    (hcount : pcount.toInt = (rows tab).length) (hsize : proctabMsgSize tab < 2 ^ 31) :
    ∃ s, shipProctabMsg true tab pcount .proctableAvail = some s ∧
      ((s.msg.hdr.numExecName.toNat = (execs tab).card ∧
          s.msg.hdr.numHostName.toNat = (hosts tab).card ∧
          ∀ malloc r, lmonAssistIcclBeInit (some s.msg) ∅ malloc = some (.ok r) →
            r.nDaemons = r.hostlist.length) ↔
        Disjoint (execs tab) (hosts tab) ∧ (execs tab).card < 2 ^ 16 ∧ (hosts tab).card < 2 ^ 16) := by
  obtain ⟨s, hs⟩ : ∃ s, shipProctabMsg true tab pcount .proctableAvail = some s := ⟨_, rfl⟩
  obtain ⟨hexec, hhost⟩ := shipProctabMsg_names hs
  refine ⟨s, hs, ?_⟩
  rw [← (counted_strTab tab).true_iff, hexec, hhost]
  constructor
  · rintro ⟨he, hh, -⟩
    exact ⟨he, hh⟩
  · rintro ⟨he, hh⟩
    refine ⟨he, hh, fun malloc r hr => ?_⟩
    obtain ⟨hn, hl⟩ := lmonAssistIcclBeInit_hosts hok hcount hsize hs hr
    rw [hn, hl, hhost, hh]

/-- Two tasks of one program, on two hosts with other names. -/
def oneProgram : Proctable :=
  ((∅ : Proctable).insert (.letter 1) [⟨.letter 0, .letter 1, 10, 0, 0⟩]).insert (.letter 2)
    [⟨.letter 0, .letter 2, 11, 1, 1⟩]

theorem name_counts_oneProgram :
    ∃ s, shipProctabMsg true oneProgram 2 .proctableAvail = some s ∧
      ((s.msg.hdr.numExecName.toNat = (execs oneProgram).card ∧
          s.msg.hdr.numHostName.toNat = (hosts oneProgram).card ∧
          ∀ malloc r, lmonAssistIcclBeInit (some s.msg) ∅ malloc = some (.ok r) →
            r.nDaemons = r.hostlist.length) ↔
        Disjoint (execs oneProgram) (hosts oneProgram) ∧ (execs oneProgram).card < 2 ^ 16 ∧
          (hosts oneProgram).card < 2 ^ 16) :=
  name_counts oneProgram (by decide) 2 (by decide) (by decide)

/-- A host with the name of the executable: the table has two hosts, the header says one. -/
theorem name_counts_counterexample :
    ∃ s r, shipProctabMsg true twoHosts 3 .proctableAvail = some s ∧
      s.msg.hdr.numHostName.toNat = 1 ∧ (hosts twoHosts).card = 2 ∧
      lmonAssistIcclBeInit (some s.msg) ∅ true = some (.ok r) ∧ r.nDaemons = 1 ∧
      r.hostlist.length = 2 := by
  obtain ⟨s, hs, hcarries, -⟩ := shipProctabMsg_carries
    (show (3 : Int32).toInt = (rows twoHosts).length by decide) (by decide) (by decide)
  have hparse := hcarries.parse (by decide) (by decide)
  refine ⟨s, ⟨s.msg.hdr.numHostName.toNat, twoHosts.keys⟩, hs, ?_, by decide, ?_, ?_, ?_⟩
  · cases hs
    decide
  · simp only [lmonAssistIcclBeInit, hparse]
    rfl
  · cases hs
    decide
  · show twoHosts.keys.length = 2
    decide

end LaunchMON.Frontend
