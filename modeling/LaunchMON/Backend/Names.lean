/-
  The table of host names that a master makes of the gathered names.

  It is made in two passes over the names.  The first one hands out offsets as `ship_proctab_msg` does
  for the names of a process table, so a `HostTab` is the map and the offset of a `StrTab` and has its
  invariant (`StrTab.Inv`).  The second pass writes each name when it comes to it for the first time,
  which is the order in which the first pass has handed out the offsets (`packNames_eq`).
-/
import LaunchMON.Backend.Handshake
import LaunchMON.Lmonp.Proctab

namespace LaunchMON.Backend

open CBytes Lmonp Std

/-! ## Two passes -/

/-- What the first pass does with a name, on a table that keeps the order of the names as well. -/
def noteName (t : StrTab) (s : CString) : StrTab := if s ∈ t.execHostName then t else t.addName s

/-- The table of the names. -/
def nameTab (names : List CString) : StrTab := names.foldl noteName StrTab.empty

/-- The map holds the names that have been written. -/
def Listed (t : StrTab) : Prop := ∀ s, s ∈ t.execHostName ↔ s ∈ t.orderedEHName

theorem listed_noteName {t : StrTab} (h : Listed t) (s : CString) : Listed (noteName t s) := by
  intro s'
  unfold noteName
  split
  · exact h s'
  · rw [StrTab.mem_addName, h s']
    show _ ↔ s' ∈ t.orderedEHName ++ [s]
    rw [List.mem_append, List.mem_singleton, or_comm]

theorem inv_noteName {t : StrTab} (h : t.Inv) (s : CString) : (noteName t s).Inv := by
  unfold noteName
  split
  · exact h
  · exact h.addName s

theorem mem_noteName {t : StrTab} {s s' : CString} (h : s' = s ∨ s' ∈ t.execHostName) :
    s' ∈ (noteName t s).execHostName := by
  unfold noteName
  split
  · next hs =>
    rcases h with rfl | h
    · exact hs
    · exact h
  · exact StrTab.mem_addName.mpr h

/-- What the first pass establishes. -/
theorem foldl_noteName : ∀ (names : List CString) (t : StrTab), t.Inv → Listed t →
    (names.foldl noteName t).Inv ∧ Listed (names.foldl noteName t) ∧
      (∀ s, s ∈ names ∨ s ∈ t.execHostName → s ∈ (names.foldl noteName t).execHostName) := by
  intro names
  induction names with
  | nil => exact fun t hinv hl => ⟨hinv, hl, fun s hs => hs.resolve_left List.not_mem_nil⟩
  | cons s names ih =>
    intro t hinv hl
    obtain ⟨hinv', hl', hmem⟩ := ih (noteName t s) (inv_noteName hinv s) (listed_noteName hl s)
    refine ⟨hinv', hl', fun s' hs' => hmem s' ?_⟩
    rcases hs' with hs' | hs'
    · rcases List.mem_cons.mp hs' with rfl | hs'
      · exact Or.inr (mem_noteName (Or.inl rfl))
      · exact Or.inl hs'
    · exact Or.inr (mem_noteName (Or.inr hs'))

theorem nameTab_spec (names : List CString) : (nameTab names).Inv ∧ Listed (nameTab names) ∧
    ∀ s ∈ names, s ∈ (nameTab names).execHostName := by
  obtain ⟨hinv, hl, hmem⟩ := foldl_noteName names StrTab.empty StrTab.inv_empty
    (fun s => by simp [StrTab.empty])
  exact ⟨hinv, hl, fun s hs => hmem s (Or.inl hs)⟩

/-- The first pass keeps map and offset of it. -/
theorem hostTab_eq (names : List CString) :
    hostTab names = ⟨(nameTab names).execHostName, (nameTab names).offset⟩ := by
  have hfold : ∀ (names : List CString) (t : StrTab),
      names.foldl HostTab.add ⟨t.execHostName, t.offset⟩ =
        ⟨(names.foldl noteName t).execHostName, (names.foldl noteName t).offset⟩ := by
    intro names
    induction names with
    | nil => exact fun t => rfl
    | cons s names ih =>
      intro t
      rw [List.foldl_cons, List.foldl_cons, ← ih (noteName t s)]
      congr 1
      unfold HostTab.add noteName
      dsimp only
      split <;> rfl
  exact hfold names StrTab.empty

/-- The second pass writes the names in the order of the first. -/
theorem packNames_eq (T : HostTab) (names : List CString) :
    (packNames T names).packptr = names.flatMap (fun s => le32 (T.hostName.getD s 0)) ∧
      (packNames T names).strtabptr = (nameTab names).image := by
  have hfold : ∀ (names : List CString) (t : StrTab) (p : Packed), Listed t →
      p.marked = t.orderedEHName → p.strtabptr = t.image →
      (names.foldl (Packed.add T) p).packptr =
          p.packptr ++ names.flatMap (fun s => le32 (T.hostName.getD s 0)) ∧
        (names.foldl (Packed.add T) p).strtabptr = (names.foldl noteName t).image := by
    intro names
    induction names with
    | nil => exact fun t p _ _ himg => ⟨(List.append_nil _).symm, himg⟩
    | cons s names ih =>
      intro t p hl hmark himg
      have hstep : (p.add T s).marked = (noteName t s).orderedEHName ∧
          (p.add T s).strtabptr = (noteName t s).image := by
        by_cases hs : s ∈ t.execHostName
        · simp only [Packed.add, noteName, if_pos hs, hmark, if_pos ((hl s).mp hs), himg, and_self]
        · simp only [Packed.add, noteName, if_neg hs, hmark, if_neg (mt (hl s).mpr hs), himg]
          refine ⟨rfl, ?_⟩
          show _ = (t.orderedEHName ++ [s]).flatMap CString.image
          rw [List.flatMap_append, List.flatMap_singleton]
          rfl
      obtain ⟨hpack, hstr⟩ := ih (noteName t s) (p.add T s) (listed_noteName hl s) hstep.1 hstep.2
      refine ⟨?_, hstr⟩
      rw [List.foldl_cons, hpack, List.flatMap_cons, ← List.append_assoc]
      rfl
  obtain ⟨hpack, hstr⟩ := hfold names StrTab.empty ⟨[], [], []⟩ (fun s => by simp [StrTab.empty])
    rfl rfl
  exact ⟨hpack, hstr⟩

/-- The size of a message of host names, as a number without bounds. -/
def hostnameMsgSize (names : List CString) : ℕ :=
  sizeofLmonp + 4 * names.length + tableLen (nameTab names).orderedEHName

/-! ## The gathered names -/

/-- `my_hostname` of a daemon: the name of its node, and what is behind it in the array. -/
structure HostSlot where
  name : CString
  pad : List UInt8
  size : name.strlen + 1 + pad.length = lmonDaemonHnMax

/-- The bytes of the array. -/
def HostSlot.bytes (s : HostSlot) : List UInt8 := s.name.image ++ s.pad

@[simp] theorem HostSlot.length_bytes (s : HostSlot) : s.bytes.length = lmonDaemonHnMax := by
  rw [HostSlot.bytes, List.length_append, CString.length_image, s.size]

/-- The names are found in the buffer of the gather. -/
theorem gatheredNames_flatten (slots : List HostSlot) :
    gatheredNames slots.length (slots.map HostSlot.bytes).flatten = slots.map HostSlot.name := by
  have hdrop : ∀ (slots : List HostSlot) (i : ℕ) (hi : i < slots.length),
      readCString ((slots.map HostSlot.bytes).flatten.drop (lmonDaemonHnMax * i)) =
        some slots[i].name := by
    intro slots
    induction slots with
    | nil => exact fun i hi => absurd hi (Nat.not_lt_zero i)
    | cons s slots ih =>
      intro i hi
      rw [List.map_cons, List.flatten_cons]
      cases i with
      | zero =>
        rw [Nat.mul_zero, List.drop_zero, HostSlot.bytes, List.append_assoc, readCString_append]
        rfl
      | succ i =>
        rw [Nat.mul_succ, Nat.add_comm, ← List.drop_drop, List.drop_left' s.length_bytes]
        exact ih i (Nat.lt_of_succ_lt_succ hi)
  refine List.ext_getElem (by simp [gatheredNames]) fun i hi hi' => ?_
  rw [List.length_map] at hi'
  simp only [gatheredNames, List.getElem_map, List.getElem_range, hdrop slots i hi', Option.getD_some]

/-! ## The message -/

/-- A name of a table of host names, as its reader finds it: its index in the message is an offset into
    the string table. -/
def hostnameAt (m : Msg) (i : ℕ) : Option CString := do
  let hntab ← getLmonpayloadBegin m.hdr
  let strtab ← getStrtabBegin m.hdr
  let ix ← readLe32 (m.payload.drop (hntab + 4 * i))
  readCString (m.payload.drop (strtab + ix.toNat))

/-- What a message of host names is to its reader. -/
structure Hostnames (m : Msg) (names : List CString) : Prop where
  class_eq : m.hdr.msgclass.toNat = MsgClass.fetobe.ctorIdx
  type_eq : m.hdr.type.toNat = FeToBeMsg.befeHostname.ctorIdx
  length_eq : m.payload.length = m.hdr.lmonPayloadLength.toNat
  usr_eq : m.hdr.usrPayloadLength = 0
  ne_nil : m.payload ≠ []
  name_eq : ∀ (i : ℕ) (hi : i < names.length), hostnameAt m i = some names[i]

/-- The header over the table, with what its reader takes from it. -/
theorem hostnameHeader_spec {n : ℕ} (hn : n < 2 ^ 31) (offset : UInt32) :
    let h := hostnameHeader .fetobe FeToBeMsg.befeHostname.ctorIdx (UInt32.ofNat n) offset
    h.msgclass.toNat = MsgClass.fetobe.ctorIdx ∧
      h.type.toNat = FeToBeMsg.befeHostname.ctorIdx ∧ ntasks h = n ∧
      h.lmonPayloadLength = offset + UInt32.ofNat n * 4 ∧ h.usrPayloadLength = 0 := by
  have hnat : (UInt32.ofNat n).toNat = n := UInt32.toNat_ofNat_of_lt' (show n < 2 ^ 32 by omega)
  have hlt : (UInt32.ofNat n).toInt32 < Int32.ofNat lmonNtasksThre ↔ n < lmonNtasksThre := by
    have hint : (UInt32.ofNat n).toInt32.toInt = n := by
      rw [toInt_eq, UInt32.toUInt32_toInt32, hnat, if_pos (by omega)]
    rw [Int32.lt_iff_toInt_lt, hint]
    show (n : ℤ) < 32769 ↔ n < 32769
    omega
  dsimp only
  unfold hostnameHeader
  by_cases h : n < lmonNtasksThre
  · rw [if_pos (hlt.mpr h)]
    refine ⟨rfl, rfl, ?_, rfl, rfl⟩
    have hshort : (UInt32.ofNat n).toUInt16.toNat = n := by
      rw [UInt32.toNat_toUInt16, hnat]
      exact Nat.mod_eq_of_lt (h.trans (by decide))
    show (if (UInt32.ofNat n).toUInt16.toNat < lmonNtasksThre then (UInt32.ofNat n).toUInt16.toNat
      else _) = n
    rw [hshort, if_pos h]
  · rw [if_neg (mt hlt.mp h)]
    exact ⟨rfl, rfl, hnat, rfl, rfl⟩

/-- **Every name is found in the message**, and the message is as long as it says. -/
theorem hostnameMsg_spec {slots : List HostSlot} (hpos : slots ≠ [])
    (hfits : hostnameMsgSize (slots.map HostSlot.name) < 2 ^ 31) :
    ∃ m, hostnameMsg .fetobe FeToBeMsg.befeHostname.ctorIdx (UInt32.ofNat slots.length)
        (slots.map HostSlot.bytes).flatten = some (m, msgsize m.hdr) ∧
      sizeofLmonp + m.payload.length = hostnameMsgSize (slots.map HostSlot.name) ∧
      Hostnames m (slots.map HostSlot.name) := by
  have hlen : 0 < slots.length := List.length_pos_iff.mpr hpos
  have hfits : 28 + 4 * slots.length +
      tableLen (nameTab (slots.map HostSlot.name)).orderedEHName < 2 ^ 31 := by
    rwa [hostnameMsgSize, List.length_map] at hfits
  have hnat : (UInt32.ofNat slots.length).toNat = slots.length :=
    UInt32.toNat_ofNat_of_lt' (show _ < 2 ^ 32 by omega)
  obtain ⟨hinv, hl, hmem⟩ := nameTab_spec (slots.map HostSlot.name)
  have hoff : (nameTab (slots.map HostSlot.name)).offset.toNat =
      tableLen (nameTab (slots.map HostSlot.name)).orderedEHName := by
    rw [hinv.offset_eq, UInt32.toNat_ofNat_of_lt' (show _ < 2 ^ 32 by omega)]
  obtain ⟨hclass, htype, hnt, hlmon, husr⟩ := hostnameHeader_spec (n := slots.length) (by omega)
    (nameTab (slots.map HostSlot.name)).offset
  obtain ⟨hpack, hstr⟩ := packNames_eq (hostTab (slots.map HostSlot.name)) (slots.map HostSlot.name)
  generalize hh : hostnameHeader .fetobe FeToBeMsg.befeHostname.ctorIdx (UInt32.ofNat slots.length)
    (nameTab (slots.map HostSlot.name)).offset = h at hclass htype hnt hlmon husr
  -- neither the product nor the sum wraps, by the bound on the message
  have hlmonNat : h.lmonPayloadLength.toNat =
      tableLen (nameTab (slots.map HostSlot.name)).orderedEHName + 4 * slots.length := by
    rw [hlmon, UInt32.toNat_add, UInt32.toNat_mul, hnat, hoff]
    show (_ + slots.length * 4 % 2 ^ 32) % 2 ^ 32 = _
    omega
  have hne : h.lmonPayloadLength ≠ 0 := by
    intro hz
    rw [hz] at hlmonNat
    have : (0 : UInt32).toNat = 0 := rfl
    omega
  have hbegin : getLmonpayloadBegin h = some 0 := if_neg hne
  -- the strings stand behind one offset for each name
  have hstrtab : getStrtabBegin h = some (4 * slots.length) := by
    unfold getStrtabBegin
    rw [if_neg (by rw [hclass]; decide), if_pos hclass, if_neg (by rw [htype]; decide), if_pos htype,
      hbegin, Option.map_some, hnt, Nat.zero_add, Nat.mul_comm]
  have hpayload : (packNames (hostTab (slots.map HostSlot.name)) (slots.map HostSlot.name)).packptr ++
      (packNames (hostTab (slots.map HostSlot.name)) (slots.map HostSlot.name)).strtabptr =
      (slots.map HostSlot.name).flatMap (fun s =>
        le32 ((nameTab (slots.map HostSlot.name)).execHostName.getD s 0)) ++
        (nameTab (slots.map HostSlot.name)).image := by
    rw [hpack, hstr, hostTab_eq]
  have hplen : ((slots.map HostSlot.name).flatMap (fun s =>
        le32 ((nameTab (slots.map HostSlot.name)).execHostName.getD s 0)) ++
        (nameTab (slots.map HostSlot.name)).image).length = h.lmonPayloadLength.toNat := by
    rw [List.length_append, length_flatMap_le32, List.length_map, hlmonNat, Nat.add_comm]
    rfl
  refine ⟨⟨h, _⟩, ?_, ?_, ⟨hclass, htype, hplen, husr, ?_, ?_⟩⟩
  · unfold hostnameMsg
    simp only [hnat, gatheredNames_flatten, hpayload]
    rw [hostTab_eq]
    simp only [hh, hbegin, hstrtab, reduceCtorEq, or_self, if_false, Option.some.injEq, Prod.mk.injEq,
      true_and]
    rw [msgsize, hlmon, husr, UInt32.add_zero, UInt32.add_assoc, UInt32.add_comm _ (_ * 4)]
  · rw [hplen, hlmonNat, hostnameMsgSize, List.length_map]
    omega
  · refine List.ne_nil_of_length_pos (hplen.symm ▸ ?_)
    rw [hlmonNat]
    omega
  · intro i hi
    have hname : (slots.map HostSlot.name)[i] ∈ (nameTab (slots.map HostSlot.name)).execHostName :=
      hmem _ (List.getElem_mem hi)
    have hread := hinv.readCString_drop (show _ < 2 ^ 32 by omega) hname
    simp only [hostnameAt, hbegin, hstrtab, Option.bind_eq_bind, Option.bind_some, Nat.zero_add]
    rw [readLe32_drop_flatMap _ _ _ i hi, Option.bind_some, ← List.drop_drop, List.drop_left']
    · exact hread
    · rw [length_flatMap_le32, List.length_map]

end LaunchMON.Backend
