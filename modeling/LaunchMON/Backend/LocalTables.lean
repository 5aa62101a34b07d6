/-
  The parts of the process table that the daemons take.

  Every daemon has the whole table.  `LMON_be_getMyProctab` looks for the aliases of its node in the map
  that `parse_raw_RPDTAB_msg` has filled, stops at the first alias that is a key of it, and copies the
  entries behind that key.

  No daemon takes an entry of another: a key is an alias of one node only, and the entries behind it
  carry its name.  Whether nothing is left over depends on the resource manager.  Where it calls a node
  by one name in all entries, the alias that is found is that name.  Where it uses two, the entries
  behind the second are nobody's (`localTables_partition`).
-/
import LaunchMON.Frontend.Conformance

namespace LaunchMON.Backend

open CBytes Lmonp Frontend Std

/-! ## The call -/

/-- What `LMON_be_getMyProctab` leaves behind: its return code, `*size` if it was written, and the
    caller's array. -/
structure MyProctab where
  rc : LmonRc
  size : Option UInt32
  proctabbuf : Buf ProcdescExt

/-- The loop of `LMON_be_getMyProctab` from element `i` on, for at most `n` more. -/
def copyEntries : ℕ → ℕ → List ProcdescExt → Buf ProcdescExt → Buf ProcdescExt
  | 0, _, _, proctabbuf => proctabbuf
  | _ + 1, _, [], proctabbuf => proctabbuf
  | n + 1, i, e :: es, proctabbuf => copyEntries n (i + 1) es (proctabbuf.write i [e])

/-- `LMON_be_getMyProctab` with its array; the code it returns is that of `lmonBeGetMyProctab`. -/
def getMyProctab (hostAliases : List CString) (proctabMsg : List UInt8) (proctabbuf : Buf ProcdescExt)
    (proctabNumElem : UInt32) : MyProctab :=
  let rc := lmonBeGetMyProctab hostAliases proctabMsg proctabNumElem
  match proctabCache proctabMsg with
  | none => ⟨rc, none, proctabbuf⟩
  | some cache =>
    let es := myEntries hostAliases cache
    ⟨rc, some (UInt32.ofNat es.length), copyEntries proctabNumElem.toNat 0 es proctabbuf⟩

theorem copyEntries_eq : ∀ (n i : ℕ) (es : List ProcdescExt) (proctabbuf : Buf ProcdescExt),
    copyEntries n i es proctabbuf = proctabbuf.write i (es.take n) := by
  intro n
  induction n with
  | zero =>
    intro i es proctabbuf
    rw [List.take_zero, Buf.write_nil]
    rfl
  | succ n ih =>
    intro i es proctabbuf
    cases es with
    | nil => exact (Buf.write_nil _ _).symm
    | cons e es =>
      show copyEntries n (i + 1) es (proctabbuf.write i [e]) = _
      rw [ih]
      exact Buf.write_write proctabbuf i [e] (es.take n)

/-- A caller with room for all of them has the entries of his node. -/
theorem getMyProctab_room {hostAliases : List CString} {proctabMsg : List UInt8} {cache : Proctable}
    (hcache : proctabCache proctabMsg = some cache) (proctabbuf : Buf ProcdescExt) {n : UInt32}
    (hlen : (myEntries hostAliases cache).length < 2 ^ 31)
    (hn : (myEntries hostAliases cache).length ≤ n.toNat) :
    getMyProctab hostAliases proctabMsg proctabbuf n =
      ⟨.ok, some (UInt32.ofNat (myEntries hostAliases cache).length),
        proctabbuf.write 0 (myEntries hostAliases cache)⟩ := by
  have hroom : ¬n < UInt32.ofNat (myEntries hostAliases cache).length := by
    rw [UInt32.lt_iff_toNat_lt, UInt32.toNat_ofNat_of_lt' (show _ < 2 ^ 32 by omega)]
    omega
  have hrc : lmonBeGetMyProctab hostAliases proctabMsg n = .ok := by
    rw [lmonBeGetMyProctab, hcache]
    exact if_neg hroom
  rw [getMyProctab, hcache, hrc]
  show MyProctab.mk _ _ _ = _
  rw [copyEntries_eq, List.take_of_length_le hn]

/-! ## Aliases -/

/-- The alias at which the search of a daemon stops. -/
theorem myEntries_cases (hostAliases : List CString) (tab : Proctable) :
    (∃ a ∈ hostAliases, ∃ es, tab[a]? = some es ∧ myEntries hostAliases tab = es) ∨
      (∀ a ∈ hostAliases, tab[a]? = none) ∧ myEntries hostAliases tab = [] := by
  unfold myEntries
  cases h : hostAliases.findSome? fun a => tab[a]? with
  | none => exact Or.inr ⟨List.findSome?_eq_none_iff.mp h, rfl⟩
  | some es =>
    obtain ⟨a, ha, hes⟩ := List.exists_of_findSome?_eq_some h
    exact Or.inl ⟨a, ha, es, hes, rfl⟩

section

variable {tab : Proctable}

theorem mem_rows_of_getElem? {host : CString} {es : List ProcdescExt} (hes : tab[host]? = some es)
    {e : ProcdescExt} (he : e ∈ es) : e ∈ rows tab :=
  List.mem_flatMap.mpr ⟨(host, es), ExtTreeMap.mem_toList_iff_getElem?_eq_some.mpr hes, he⟩

/-- An entry is behind the name of its host. -/
theorem exists_of_mem_rows (hok : ProctableOk tab) {e : ProcdescExt} (he : e ∈ rows tab) :
    ∃ es, tab[e.hostName]? = some es ∧ e ∈ es := by
  obtain ⟨⟨host, es⟩, hp, hes⟩ := List.mem_flatMap.mp he
  have hget := ExtTreeMap.mem_toList_iff_getElem?_eq_some.mp hp
  obtain rfl := hok.host_eq host es hget e hes
  exact ⟨es, hget, hes⟩

/-- What a daemon takes carries one of its aliases, and is a part of the table in its order. -/
theorem mem_myEntries (hok : ProctableOk tab) {hostAliases : List CString} {e : ProcdescExt}
    (he : e ∈ myEntries hostAliases tab) : e.hostName ∈ hostAliases ∧ e ∈ rows tab := by
  rcases myEntries_cases hostAliases tab with ⟨a, ha, es, hes, heq⟩ | ⟨-, hnil⟩
  · rw [heq] at he
    exact ⟨hok.host_eq a es hes e he ▸ ha, mem_rows_of_getElem? hes he⟩
  · rw [hnil] at he
    exact absurd he List.not_mem_nil

theorem myEntries_sublist (hok : ProctableOk tab) (hostAliases : List CString) :
    (myEntries hostAliases tab).Sublist (rows tab) := by
  rcases myEntries_cases hostAliases tab with ⟨a, -, es, hes, heq⟩ | ⟨-, hnil⟩
  · have hfilter := filter_rows hok a
    rw [hes, Option.getD_some] at hfilter
    rw [heq, ← hfilter]
    exact List.filter_sublist
  · rw [hnil]
    exact List.nil_sublist _

/-- A row that carries an alias of the daemon is taken as often as it is in the table, if the daemon
    knows the table by one name. -/
theorem count_myEntries (hok : ProctableOk tab) {hostAliases : List CString}
    (hone : ∀ a ∈ hostAliases, ∀ b ∈ hostAliases, a ∈ tab → b ∈ tab → a = b) {e : ProcdescExt}
    (he : e ∈ rows tab) (hhost : e.hostName ∈ hostAliases) :
    (myEntries hostAliases tab).count e = (rows tab).count e := by
  obtain ⟨es, hes, -⟩ := exists_of_mem_rows hok he
  have hkey : e.hostName ∈ tab := ExtTreeMap.mem_iff_isSome_getElem?.mpr (by rw [hes]; rfl)
  rcases myEntries_cases hostAliases tab with ⟨a, ha, es', hes', heq⟩ | ⟨hnone, -⟩
  · have hkey' : a ∈ tab := ExtTreeMap.mem_iff_isSome_getElem?.mpr (by rw [hes']; rfl)
    obtain rfl : a = e.hostName := hone a ha _ hhost hkey' hkey
    have hfilter := filter_rows hok e.hostName
    rw [hes', Option.getD_some] at hfilter
    rw [heq, ← hfilter]
    exact List.count_filter (decide_eq_true rfl)
  · rw [hnone _ hhost] at hes
    cases hes

end

/-! ## The partition -/

section

variable {ι : Type}

/-- What the calls of the daemons return: to each the number of its entries, and the entries to a
    caller with room for them. -/
structure Returns (hostAliases : ι → List CString) (proctabMsg : List UInt8)
    (own : ι → List ProcdescExt) : Prop where
  size : ∀ i, ∃ size, lmonBeGetMyProctabSize (hostAliases i) proctabMsg = (.ok, size) ∧
    size.toNat = (own i).length
  entries : ∀ (i : ι) (proctabbuf : Buf ProcdescExt) (n : UInt32), (own i).length ≤ n.toNat →
    getMyProctab (hostAliases i) proctabMsg proctabbuf n =
      ⟨.ok, some (UInt32.ofNat (own i).length), proctabbuf.write 0 (own i)⟩

/-- Each row of the table is with one daemon, as often as it is in the table, and no daemon has changed
    the order. -/
structure Partitions (own : ι → List ProcdescExt) (tab : Proctable) : Prop where
  once : ∀ e ∈ rows tab, ∃ i, (own i).count e = (rows tab).count e ∧ ∀ j, j ≠ i → e ∉ own j
  order : ∀ i, (own i).Sublist (rows tab)

/-- No node goes by two names in the table. -/
def OneName (hostAliases : ι → List CString) (tab : Proctable) : Prop :=
  ∀ i, ∀ a ∈ hostAliases i, ∀ b ∈ hostAliases i, a ∈ tab → b ∈ tab → a = b

variable {hostAliases : ι → List CString} {tab : Proctable} {proctabMsg : List UInt8}

/-- The message of a table without rows is refused. -/
theorem proctabCache_no_rows {pcount : Int32} {s : Shipment} (hrows : rows tab = [])
    (hcount : pcount.toInt = 0) (hs : shipProctabMsg true tab pcount .proctableAvail = some s) :
    proctabCache ((forwardToBe s.msg).hdr.bytes ++ (forwardToBe s.msg).payload) = none := by
  have hzero : pcount = 0 := Int32.toInt_inj.mp (by rw [hcount]; rfl)
  have htab : strTab tab = StrTab.empty := by rw [strTab, hrows, List.foldl_nil]
  subst hzero
  cases hs
  rw [proctabCache, msgOfBytes_bytes]
  simp only [parseRawRPDTABmsg, ExtTreeMap.size_empty, htab]
  rfl

theorem returns_myEntries (hcache : proctabCache proctabMsg = some tab)
    (hlen : ∀ i, (myEntries (hostAliases i) tab).length < 2 ^ 31) :
    Returns hostAliases proctabMsg fun i => myEntries (hostAliases i) tab where
  size i := by
    refine ⟨UInt32.ofNat (myEntries (hostAliases i) tab).length, ?_, ?_⟩
    · unfold lmonBeGetMyProctabSize
      rw [hcache]
    · have := hlen i
      exact UInt32.toNat_ofNat_of_lt' (show _ < 2 ^ 32 by omega)
  entries i proctabbuf n hn := getMyProctab_room hcache proctabbuf (hlen i) hn

/-- The calls return nothing else. -/
theorem Returns.own_eq {own : ι → List ProcdescExt} (h : Returns hostAliases proctabMsg own)
    (hcache : proctabCache proctabMsg = some tab)
    (hlen : ∀ i, (myEntries (hostAliases i) tab).length < 2 ^ 31) (i : ι) :
    own i = myEntries (hostAliases i) tab := by
  have hlen := hlen i
  obtain ⟨size, hsize, hown⟩ := h.size i
  have hcount : (own i).length = (myEntries (hostAliases i) tab).length := by
    unfold lmonBeGetMyProctabSize at hsize
    rw [hcache] at hsize
    injection hsize with _ hsize
    rw [← hown, ← hsize]
    exact UInt32.toNat_ofNat_of_lt' (show _ < 2 ^ 32 by omega)
  let proctabbuf : Buf ProcdescExt := fun _ => ⟨⟨[], by decide⟩, ⟨[], by decide⟩, 0, 0, 0⟩
  have hcall := h.entries i proctabbuf size (by omega)
  rw [getMyProctab_room hcache proctabbuf hlen (by omega)] at hcall
  have hbuf : proctabbuf.write 0 (myEntries (hostAliases i) tab) = proctabbuf.write 0 (own i) :=
    congrArg MyProctab.proctabbuf hcall
  calc own i = Buf.read (proctabbuf.write 0 (own i)) 0 (own i).length := (Buf.read_write _ _ _).symm
    _ = Buf.read (proctabbuf.write 0 (myEntries (hostAliases i) tab)) 0
        (myEntries (hostAliases i) tab).length := by rw [hbuf, hcount]
    _ = myEntries (hostAliases i) tab := Buf.read_write _ _ _

/-- With one name for each node the daemons leave nothing over. -/
theorem partitions_of_oneName (hok : ProctableOk tab)
    (hnode : ∀ e ∈ rows tab, ∃! i, e.hostName ∈ hostAliases i) (hone : OneName hostAliases tab) :
    Partitions (fun i => myEntries (hostAliases i) tab) tab where
  once e he := by
    obtain ⟨i, hi, huniq⟩ := hnode e he
    refine ⟨i, count_myEntries hok (hone i) he hi, fun j hj hmem => hj ?_⟩
    exact huniq j (mem_myEntries hok hmem).1
  order i := myEntries_sublist hok (hostAliases i)

/-- A row that is with a daemon is behind the name at which its search has stopped, so no second name
    of the node has rows. -/
theorem oneName_of_partitions (hok : ProctableOk tab)
    (hnode : ∀ e ∈ rows tab, ∃! i, e.hostName ∈ hostAliases i)
    (hpart : Partitions (fun i => myEntries (hostAliases i) tab) tab) : OneName hostAliases tab := by
  have hstop : ∀ i, ∀ a ∈ hostAliases i, a ∈ tab →
      ∃ e ∈ myEntries (hostAliases i) tab, e.hostName = a := by
    intro i a ha hkey
    obtain ⟨es, hes⟩ : ∃ es, tab[a]? = some es := ⟨_, ExtTreeMap.getElem?_eq_some_getElem hkey⟩
    obtain ⟨e, he⟩ := List.exists_mem_of_ne_nil es (hok.ne_nil a es hes)
    have hrow := mem_rows_of_getElem? hes he
    obtain rfl := hok.host_eq a es hes e he
    obtain ⟨j, hcount, -⟩ := hpart.once e hrow
    have hmem : e ∈ myEntries (hostAliases j) tab := by
      rw [← List.count_pos_iff, hcount, List.count_pos_iff]
      exact hrow
    obtain rfl : j = i := (hnode e hrow).unique (mem_myEntries hok hmem).1 ha
    exact ⟨e, hmem, rfl⟩
  intro i a ha b hb hkeya hkeyb
  obtain ⟨e, he, rfl⟩ := hstop i a ha hkeya
  obtain ⟨e', he', rfl⟩ := hstop i b hb hkeyb
  rcases myEntries_cases (hostAliases i) tab with ⟨c, -, es, hes, heq⟩ | ⟨-, hnil⟩
  · rw [heq] at he he'
    rw [hok.host_eq c es hes e he, hok.host_eq c es hes e' he']
  · rw [hnil] at he
    exact absurd he List.not_mem_nil

end

/-- **Local tables**: when every host name of the table is an alias of one node, the daemons' local
    tables partition it exactly when it has a row and calls no node by two names. -/
theorem localTables_partition (n : ℕ) (hostAliases : Fin (n + 1) → List CString) (tab : Proctable)
    (hok : ProctableOk tab) (pcount : Int32) (hcount : pcount.toInt = (rows tab).length)
    (hsize : proctabMsgSize tab < 2 ^ 31)
    (hnode : ∀ e ∈ rows tab, ∃! i, e.hostName ∈ hostAliases i) :
    ∃ s, shipProctabMsg true tab pcount .proctableAvail = some s ∧
      ((∃ own, Returns hostAliases ((forwardToBe s.msg).hdr.bytes ++ (forwardToBe s.msg).payload) own ∧
          Partitions own tab) ↔ rows tab ≠ [] ∧ OneName hostAliases tab) := by
  by_cases hrows : rows tab = []
  · obtain ⟨s, hs⟩ : ∃ s, shipProctabMsg true tab pcount .proctableAvail = some s := ⟨_, rfl⟩
    refine ⟨s, hs, ⟨fun ⟨own, hreturns, _⟩ => ?_, fun h => absurd hrows h.1⟩⟩
    have hcache := proctabCache_no_rows hrows (by rw [hcount, hrows]; rfl) hs
    obtain ⟨size, hsize, -⟩ := hreturns.size 0
    rw [lmonBeGetMyProctabSize, hcache] at hsize
    cases hsize
  · obtain ⟨s, hs, -, hcarries⟩ := shipProctabMsg_carries hcount (List.length_pos_iff.mpr hrows) hsize
    have hcache : proctabCache ((forwardToBe s.msg).hdr.bytes ++ (forwardToBe s.msg).payload) =
        some tab := by
      rw [proctabCache, msgOfBytes_bytes, hcarries.parse hok hsize]
      rfl
    have hlen : ∀ i, (myEntries (hostAliases i) tab).length < 2 ^ 31 := by
      intro i
      have := length_myEntries hok (hostAliases i)
      unfold proctabMsgSize at hsize
      omega
    refine ⟨s, hs, ⟨?_, ?_⟩⟩
    · rintro ⟨own, hreturns, hpart⟩
      obtain rfl : own = fun i => myEntries (hostAliases i) tab :=
        funext fun i => hreturns.own_eq hcache hlen i
      exact ⟨hrows, oneName_of_partitions hok hnode hpart⟩
    · rintro ⟨-, hone⟩
      exact ⟨_, returns_myEntries hcache hlen, partitions_of_oneName hok hnode hone⟩

/-- Two nodes, each with a name that the table knows and one that it does not. -/
def twoNodes : Fin (1 + 1) → List CString
  | 0 => [.letter 2, .letter 1]
  | 1 => [.letter 0, .letter 3]

/-- Each host of `twoHosts` is one of the two nodes. -/
theorem twoNodes_unique : ∀ e ∈ rows twoHosts, ∃! i, e.hostName ∈ twoNodes i := by
  have hall : ∀ e ∈ rows twoHosts, ∃ i, e.hostName ∈ twoNodes i ∧
      ∀ j, e.hostName ∈ twoNodes j → j = i := by decide
  exact hall

theorem localTables_partition_twoNodes :
    ∃ s, shipProctabMsg true twoHosts 3 .proctableAvail = some s ∧
      ((∃ own, Returns twoNodes ((forwardToBe s.msg).hdr.bytes ++ (forwardToBe s.msg).payload) own ∧
          Partitions own twoHosts) ↔ rows twoHosts ≠ [] ∧ OneName twoNodes twoHosts) :=
  localTables_partition 1 twoNodes twoHosts (by decide) 3 (by decide) (by decide) twoNodes_unique

/-- One node that the table calls by two names: the daemon takes the task of the first. -/
theorem localTables_partition_counterexample :
    ∃ (hostAliases : Fin (0 + 1) → List CString) (s : Shipment),
      (∀ e ∈ rows twoHosts, ∃! i, e.hostName ∈ hostAliases i) ∧
      shipProctabMsg true twoHosts 3 .proctableAvail = some s ∧
      lmonBeGetMyProctabSize (hostAliases 0)
        ((forwardToBe s.msg).hdr.bytes ++ (forwardToBe s.msg).payload) = (.ok, 1) ∧
      (rows twoHosts).length = 3 ∧
      ¬∃ own, Returns hostAliases ((forwardToBe s.msg).hdr.bytes ++ (forwardToBe s.msg).payload) own ∧
        Partitions own twoHosts := by
  obtain ⟨s, hs, -, hcarries⟩ := shipProctabMsg_carries
    (show (3 : Int32).toInt = (rows twoHosts).length by decide) (by decide) (by decide)
  have hcache : proctabCache ((forwardToBe s.msg).hdr.bytes ++ (forwardToBe s.msg).payload) =
      some twoHosts := by
    rw [proctabCache, msgOfBytes_bytes, hcarries.parse (by decide) (by decide)]
    rfl
  let hostAliases : Fin (0 + 1) → List CString := fun _ => [⟨[97], by decide⟩, ⟨[98], by decide⟩]
  have hnode : ∀ e ∈ rows twoHosts, ∃! i, e.hostName ∈ hostAliases i := by
    have hall : ∀ e ∈ rows twoHosts, e.hostName ∈ hostAliases 0 := by decide
    intro e he
    exact ⟨0, hall e he, fun i _ => Fin.fin_one_eq_zero i⟩
  have hlen : ∀ i, (myEntries (hostAliases i) twoHosts).length < 2 ^ 31 := by decide
  refine ⟨hostAliases, s, hnode, hs, ?_, by decide, ?_⟩
  · unfold lmonBeGetMyProctabSize
    rw [hcache]
    decide
  · rintro ⟨own, hreturns, hpart⟩
    obtain rfl : own = fun i => myEntries (hostAliases i) twoHosts :=
      funext fun i => hreturns.own_eq hcache hlen i
    have hone := oneName_of_partitions (by decide) hnode hpart 0
    revert hone
    decide

end LaunchMON.Backend
