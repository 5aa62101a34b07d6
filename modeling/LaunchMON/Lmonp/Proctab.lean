/-
  The process table on the wire: `ship_proctab_msg` of `sdbg_base_launchmon_impl.hxx`,
  `parse_raw_RPDTAB_msg` of `lmon_lmonp_msg.cxx` and `LMON_fe_getProctable` of `lmon_fe.cxx`.

  The engine sends one row of five words for each task, followed by a string table.  A row names its
  host and its executable by their offsets in the string table, in which each name occurs once, a
  host and an executable of one name sharing their entry.  A decoder finds the string table behind
  the rows, so it depends on the row count of the header, and that moves from a 16-bit field to a
  32-bit one at `LMON_NTASKS_THRE`.

  The offsets are handed out while the string table grows.  `StrTab.Inv` says what they are worth at
  any time: the map holds, for each name, the length of what is in front of it.  With that, one row
  is read back (`readRow_serialize`), then all rows (`parseRows_serialize`), and the map that
  `parse_raw_RPDTAB_msg` fills by pushing each row to the vector of its host is the map the rows were
  taken from (`pushAll_rows`).
-/
import LaunchMON.Lib.Buf
import LaunchMON.Lmonp.Msg
import Std.Data.ExtTreeMap

namespace LaunchMON.Lmonp

open CBytes Std

/-! ## The table -/

/-- `MPIR_PROCDESC_EXT`. -/
structure ProcdescExt where
  executableName : CString
  hostName : CString
  pid : Int32
  mpirank : Int32
  cnodeid : Int32
  deriving DecidableEq

/-- `map<string, vector<MPIR_PROCDESC_EXT *>>`. -/
abbrev Proctable := ExtTreeMap CString (List ProcdescExt)

/-- The entries in the order in which two nested loops over map and vectors visit them. -/
def rows (tab : Proctable) : List ProcdescExt := tab.toList.flatMap Prod.snd

/-! ## The encoder -/

/-- The locals of `ship_proctab_msg` that build the string table. -/
structure StrTab where
  execHostName : ExtTreeMap CString UInt32
  orderedEHName : List CString
  offset : UInt32
  numUniqueExec : UInt32
  numUniqueHn : UInt32

namespace StrTab

def empty : StrTab := ⟨∅, [], 0, 0, 0⟩

/-- A name that is not in the map yet gets the current offset. -/
def addName (t : StrTab) (s : CString) : StrTab :=
  { t with
    execHostName := t.execHostName.insert s t.offset
    orderedEHName := t.orderedEHName ++ [s]
    offset := t.offset + UInt32.ofNat (s.strlen + 1) }

/-- The executable of an entry. -/
def addExec (t : StrTab) (e : ProcdescExt) : StrTab :=
  if e.executableName ∈ t.execHostName then t
  else { t.addName e.executableName with numUniqueExec := t.numUniqueExec + 1 }

/-- The host of an entry. -/
def addHost (t : StrTab) (e : ProcdescExt) : StrTab :=
  if e.hostName ∈ t.execHostName then t
  else { t.addName e.hostName with numUniqueHn := t.numUniqueHn + 1 }

/-- The body of the loop that establishes the map and the ordered vector. -/
def addRow (t : StrTab) (e : ProcdescExt) : StrTab := (t.addExec e).addHost e

/-- The string table as it goes into the send buffer. -/
def image (t : StrTab) : List UInt8 := t.orderedEHName.flatMap CString.image

end StrTab

/-- One row: host index, executable index, pid, rank, cnodeid. -/
def serialize (t : StrTab) (e : ProcdescExt) : List UInt8 :=
  le32 (t.execHostName.getD e.hostName 0) ++ (le32 (t.execHostName.getD e.executableName 0) ++
    (le32 e.pid.toUInt32 ++ (le32 e.mpirank.toUInt32 ++ le32 e.cnodeid.toUInt32)))

/-- A send buffer: the size it was allocated with, and header and payload as they were filled in. -/
structure Shipment where
  msgsize : Int32
  msg : Msg

/-- The string table of a process table. -/
def strTab (proctableCopy : Proctable) : StrTab :=
  (rows proctableCopy).foldl StrTab.addRow StrTab.empty

/-- `ship_proctab_msg`; `none` for LAUNCHMON_FAILED, if the engine is not in API mode.
    `N_Fields_MPIR_PROCDESC_EXT * sizeof(int)` is 20. -/
def shipProctabMsg (apiMode : Bool) (proctableCopy : Proctable) (pcount : Int32) (t : FeToFeMsg) :
    Option Shipment :=
  if apiMode then
    let st := strTab proctableCopy
    let lmonlen := 20 * pcount.toUInt32 + st.offset
    let hdr := if pcount < 32769 then
        setMsgHeader .fetofe t.ctorIdx pcount.toUInt32.toUInt16 0 st.numUniqueExec.toUInt16
          st.numUniqueHn.toUInt16 0 lmonlen 0
      else
        setMsgHeader .fetofe t.ctorIdx 32769 0 st.numUniqueExec.toUInt16
          st.numUniqueHn.toUInt16 pcount.toUInt32 lmonlen 0
    some
      { msgsize := (UInt32.ofNat sizeofLmonp + lmonlen).toInt32
        msg :=
          { hdr := hdr
            payload := (rows proctableCopy).flatMap (serialize st) ++ st.image } }
  else none

/-- The front end flips class and type of the message before it forwards it to the back end. -/
def forwardToBe (m : Msg) : Msg :=
  { m with hdr := { m.hdr with
      msgclass := BitVec.ofNat 3 MsgClass.fetobe.ctorIdx
      type := BitVec.ofNat 13 FeToBeMsg.febeProctab.ctorIdx } }

/-! ## The decoders -/

/-- Put an entry behind those of its host. -/
def push (tab : Proctable) (e : ProcdescExt) : Proctable :=
  match tab[e.hostName]? with
  | none => tab.insert e.hostName [e]
  | some avec => tab.insert e.hostName (avec ++ [e])

/-- The entry at `mpirent`, with its names from `strtab`. -/
def readRow (strtab mpirent : List UInt8) : Option ProcdescExt := do
  let hnIx ← readLe32 mpirent
  let execIx ← readLe32 (mpirent.drop 4)
  let pid ← readLe32 (mpirent.drop 8)
  let rank ← readLe32 (mpirent.drop 12)
  let cn ← readLe32 (mpirent.drop 16)
  let hn ← readCString (strtab.drop hnIx.toNat)
  let exe ← readCString (strtab.drop execIx.toNat)
  return ⟨exe, hn, pid.toInt32, rank.toInt32, cn.toInt32⟩

/-- The loop of `parse_raw_RPDTAB_msg`; `none` if it reads past the message. -/
def parseRows (strtab : List UInt8) : Nat → List UInt8 → Proctable → Option Proctable
  | 0, _, pTab => some pTab
  | n + 1, mpirent, pTab => do
    let anentry ← readRow strtab mpirent
    parseRows strtab n (mpirent.drop 20) (push pTab anentry)

/-- `parse_raw_RPDTAB_msg`: return code and table, `none` if it reads past the message. -/
def parseRawRPDTABmsg (proctabMsg : Option Msg) (pTab : Proctable) : Option (Int × Proctable) :=
  match proctabMsg with
  | none => some (-1, pTab)
  | some m =>
    if pTab.size ≠ 0 then some (-1, pTab)
    else
      match getLmonpayloadBegin m.hdr with
      | none => some (-2, pTab)
      | some mpirent =>
        match getStrtabBegin m.hdr with
        | none => some (-3, pTab)
        | some strtab =>
          (parseRows (m.payload.drop strtab) (ntasks m.hdr) (m.payload.drop mpirent) pTab).map
            fun tab => (0, tab)

/-- What `LMON_fe_getProctable` uses of a session descriptor. -/
structure SessionDesc where
  registered : Bool
  spawned : Bool
  proctabMsg : Option Msg

/-- `MAX_LMON_SESSION`. -/
def maxLmonSession : Nat := 100

/-- What `LMON_fe_getProctable` leaves behind: its return code, `*size` if it was written, and the
    caller's array. -/
structure Fetched where
  rc : LmonRc
  size : Option UInt32
  proctable : Option (Buf ProcdescExt)

/-- The loop of `LMON_fe_getProctable` from entry `i` on, for `n` more entries. -/
def fetchRows (strtab : List UInt8) : Nat → Nat → List UInt8 → Buf ProcdescExt →
    Option (Buf ProcdescExt)
  | 0, _, _, proctable => some proctable
  | n + 1, i, traverse, proctable => do
    let anentry ← readRow strtab traverse
    fetchRows strtab n (i + 1) (traverse.drop 20) (proctable.write i [anentry])

/-- `LMON_fe_getProctable`; `none` if it reads outside the session array or past the message. -/
def lmonFeGetProctable (sessionDescArray : List SessionDesc) (sessionHandle : Int)
    (proctable : Option (Buf ProcdescExt)) (maxlen : UInt32) : Option Fetched :=
  if sessionHandle < 0 ∨ sessionHandle > maxLmonSession then some ⟨.ebdarg, none, proctable⟩
  else do
    let mydesc ← sessionDescArray[sessionHandle.toNat]?
    if mydesc.registered = false then return ⟨.ebdarg, none, proctable⟩
    if mydesc.spawned = false then return ⟨.edunav, none, proctable⟩
    match mydesc.proctabMsg, proctable with
    | none, _ => return ⟨.edunav, none, proctable⟩
    | _, none => return ⟨.edunav, none, proctable⟩
    | some m, some table =>
      match getLmonpayloadBegin m.hdr with
      | none => return ⟨.edunav, none, proctable⟩
      | some traverse =>
        let size := ntasks m.hdr
        -- nothing can be read behind a NULL string table
        let strtab := ((getStrtabBegin m.hdr).map m.payload.drop).getD []
        let table ← fetchRows strtab (min size maxlen.toNat) 0 (m.payload.drop traverse) table
        return ⟨if maxlen.toNat < size then .etrunc else .ok, some (UInt32.ofNat size), some table⟩

/-! ## The string table -/

/-- The bytes a list of names takes in the string table. -/
def tableLen (names : List CString) : Nat := (names.flatMap CString.image).length

theorem tableLen_append (xs ys : List CString) :
    tableLen (xs ++ ys) = tableLen xs + tableLen ys := by
  simp [tableLen]

theorem tableLen_singleton (s : CString) : tableLen [s] = s.strlen + 1 := by
  simp [tableLen]

/-- The offsets of the map are right: the table grows behind everything it holds, and each name is
    behind as many bytes as its offset says. -/
structure StrTab.Inv (t : StrTab) : Prop where
  offset_eq : t.offset = UInt32.ofNat (tableLen t.orderedEHName)
  offset_of : ∀ s off, t.execHostName[s]? = some off →
    ∃ pre post, t.orderedEHName = pre ++ s :: post ∧ off = UInt32.ofNat (tableLen pre)

namespace StrTab

theorem inv_empty : empty.Inv where
  offset_eq := rfl
  offset_of s off h := by simp [empty] at h

theorem Inv.addName {t : StrTab} (h : t.Inv) (s : CString) : (t.addName s).Inv where
  offset_eq := by
    show t.offset + _ = _
    rw [h.offset_eq, ← UInt32.ofNat_add]
    show _ = UInt32.ofNat (tableLen (t.orderedEHName ++ [s]))
    rw [tableLen_append, tableLen_singleton]
  offset_of s' off hoff := by
    have hoff' : (t.execHostName.insert s t.offset)[s']? = some off := hoff
    rw [ExtTreeMap.getElem?_insert] at hoff'
    split at hoff'
    · next heq =>
      obtain rfl := LawfulEqOrd.eq_of_compare heq
      injection hoff' with hoff'
      exact ⟨t.orderedEHName, [], rfl, by rw [← hoff', h.offset_eq]⟩
    · obtain ⟨pre, post, hord, hval⟩ := h.offset_of s' off hoff'
      exact ⟨pre, post ++ [s], by simp [StrTab.addName, hord], hval⟩

theorem Inv.addExec {t : StrTab} (h : t.Inv) (e : ProcdescExt) : (t.addExec e).Inv := by
  unfold StrTab.addExec
  split
  · exact h
  · exact ⟨(h.addName _).offset_eq, (h.addName _).offset_of⟩

theorem Inv.addHost {t : StrTab} (h : t.Inv) (e : ProcdescExt) : (t.addHost e).Inv := by
  unfold StrTab.addHost
  split
  · exact h
  · exact ⟨(h.addName _).offset_eq, (h.addName _).offset_of⟩

/-- Names stay in the map. -/
theorem mem_addName {t : StrTab} {s s' : CString} :
    s' ∈ (t.addName s).execHostName ↔ s' = s ∨ s' ∈ t.execHostName := by
  show s' ∈ t.execHostName.insert s t.offset ↔ _
  rw [ExtTreeMap.mem_insert, LawfulEqOrd.compare_eq_iff_eq, eq_comm]

theorem mem_addRow_of_mem {t : StrTab} {e : ProcdescExt} {s : CString}
    (h : s ∈ t.execHostName) : s ∈ (t.addRow e).execHostName := by
  have hexec : s ∈ (t.addExec e).execHostName := by
    unfold addExec
    split
    · exact h
    · exact mem_addName.mpr (Or.inr h)
  unfold addRow addHost
  split
  · exact hexec
  · exact mem_addName.mpr (Or.inr hexec)

/-- Both names of an entry are in the map after its turn. -/
theorem mem_addRow_self (t : StrTab) (e : ProcdescExt) :
    e.executableName ∈ (t.addRow e).execHostName ∧ e.hostName ∈ (t.addRow e).execHostName := by
  have hexec : e.executableName ∈ (t.addExec e).execHostName := by
    unfold addExec
    split
    · assumption
    · exact mem_addName.mpr (Or.inl rfl)
  unfold addRow addHost
  split
  · exact ⟨hexec, by assumption⟩
  · exact ⟨mem_addName.mpr (Or.inr hexec), mem_addName.mpr (Or.inl rfl)⟩

/-- What the loop over the entries establishes. -/
theorem foldl_addRow : ∀ (es : List ProcdescExt) (t : StrTab), t.Inv →
    (es.foldl addRow t).Inv ∧
      (∀ s ∈ t.execHostName, s ∈ (es.foldl addRow t).execHostName) ∧
      ∀ e ∈ es, e.executableName ∈ (es.foldl addRow t).execHostName ∧
        e.hostName ∈ (es.foldl addRow t).execHostName := by
  intro es
  induction es with
  | nil => intro t ht; exact ⟨ht, fun s hs => hs, fun e he => absurd he List.not_mem_nil⟩
  | cons e es ih =>
    intro t ht
    obtain ⟨hinv, hkeep, hall⟩ := ih (t.addRow e) ((ht.addExec e).addHost e)
    refine ⟨hinv, fun s hs => hkeep s (mem_addRow_of_mem hs), fun e' he' => ?_⟩
    rcases List.mem_cons.mp he' with rfl | he'
    · exact ⟨hkeep _ (mem_addRow_self t e').1, hkeep _ (mem_addRow_self t e').2⟩
    · exact hall e' he'

/-- A name of the map is found at its offset. -/
theorem Inv.readCString_drop {t : StrTab} (h : t.Inv) (hlen : tableLen t.orderedEHName < 2 ^ 32)
    {s : CString} (hs : s ∈ t.execHostName) :
    readCString (t.image.drop (t.execHostName.getD s 0).toNat) = some s := by
  obtain ⟨off, hoff⟩ : ∃ off, t.execHostName[s]? = some off :=
    ⟨_, ExtTreeMap.getElem?_eq_some_getElem hs⟩
  obtain ⟨pre, post, hord, hval⟩ := h.offset_of s off hoff
  have hpre : tableLen pre < 2 ^ 32 := by
    rw [hord, tableLen_append] at hlen
    omega
  have hnat : (t.execHostName.getD s 0).toNat = (pre.flatMap CString.image).length := by
    rw [ExtTreeMap.getD_eq_getD_getElem?, hoff, Option.getD_some, hval,
      UInt32.toNat_ofNat_of_lt' hpre]
    rfl
  rw [hnat, image, hord, List.flatMap_append, List.drop_left' rfl, List.flatMap_cons,
    readCString_append]

end StrTab

theorem strTab_inv (tab : Proctable) : (strTab tab).Inv :=
  (StrTab.foldl_addRow _ _ StrTab.inv_empty).1

theorem mem_strTab {tab : Proctable} {e : ProcdescExt} (he : e ∈ rows tab) :
    e.executableName ∈ (strTab tab).execHostName ∧ e.hostName ∈ (strTab tab).execHostName :=
  (StrTab.foldl_addRow _ _ StrTab.inv_empty).2.2 e he

/-! ## Rows -/

@[simp] theorem length_serialize (t : StrTab) (e : ProcdescExt) : (serialize t e).length = 20 := by
  simp [serialize]

theorem length_flatMap_serialize (t : StrTab) (es : List ProcdescExt) :
    (es.flatMap (serialize t)).length = 20 * es.length := by
  induction es with
  | nil => rfl
  | cons e es ih =>
    rw [List.flatMap_cons, List.length_append, length_serialize, ih, List.length_cons]
    omega

/-- A row is read back, whatever comes behind it. -/
theorem readRow_serialize {t : StrTab} (h : t.Inv) (hlen : tableLen t.orderedEHName < 2 ^ 32)
    {e : ProcdescExt} (hexec : e.executableName ∈ t.execHostName)
    (hhost : e.hostName ∈ t.execHostName) (rest : List UInt8) :
    readRow t.image (serialize t e ++ rest) = some e := by
  -- a word is four list cells, so each field is where the reader looks for it by computation
  have h4 : (serialize t e ++ rest).drop 4 = le32 (t.execHostName.getD e.executableName 0) ++
    (le32 e.pid.toUInt32 ++ (le32 e.mpirank.toUInt32 ++ (le32 e.cnodeid.toUInt32 ++ rest))) := rfl
  have h8 : (serialize t e ++ rest).drop 8 = le32 e.pid.toUInt32 ++
    (le32 e.mpirank.toUInt32 ++ (le32 e.cnodeid.toUInt32 ++ rest)) := rfl
  have h12 : (serialize t e ++ rest).drop 12 = le32 e.mpirank.toUInt32 ++
    (le32 e.cnodeid.toUInt32 ++ rest) := rfl
  have h16 : (serialize t e ++ rest).drop 16 = le32 e.cnodeid.toUInt32 ++ rest := rfl
  have h0 : serialize t e ++ rest = le32 (t.execHostName.getD e.hostName 0) ++
    (serialize t e ++ rest).drop 4 := rfl
  rw [readRow, h4, h8, h12, h16, h0]
  simp only [readLe32_append, h.readCString_drop hlen hexec, h.readCString_drop hlen hhost,
    Option.bind_eq_bind, Option.bind_some, Int32.toInt32_toUInt32]
  rfl

/-- The loop of `parse_raw_RPDTAB_msg` pushes the rows that were sent. -/
theorem parseRows_serialize {t : StrTab} (h : t.Inv) (hlen : tableLen t.orderedEHName < 2 ^ 32)
    (rest : List UInt8) : ∀ (es : List ProcdescExt) (tab : Proctable),
    (∀ e ∈ es, e.executableName ∈ t.execHostName ∧ e.hostName ∈ t.execHostName) →
    parseRows t.image es.length (es.flatMap (serialize t) ++ rest) tab = some (es.foldl push tab) := by
  intro es
  induction es with
  | nil => intro tab _; rfl
  | cons e es ih =>
    intro tab hmem
    obtain ⟨hexec, hhost⟩ := hmem e List.mem_cons_self
    rw [List.flatMap_cons, List.append_assoc, List.length_cons, parseRows,
      readRow_serialize h hlen hexec hhost, Option.bind_eq_bind, Option.bind_some,
      List.drop_left' (length_serialize t e), List.foldl_cons]
    exact ih (push tab e) fun e' he' => hmem e' (List.mem_cons_of_mem _ he')

/-- The loop of `LMON_fe_getProctable` copies the rows that were sent, as far as it goes. -/
theorem fetchRows_serialize {t : StrTab} (h : t.Inv) (hlen : tableLen t.orderedEHName < 2 ^ 32)
    (rest : List UInt8) : ∀ (es : List ProcdescExt) (n i : Nat) (table : Buf ProcdescExt),
    (∀ e ∈ es, e.executableName ∈ t.execHostName ∧ e.hostName ∈ t.execHostName) → n ≤ es.length →
    fetchRows t.image n i (es.flatMap (serialize t) ++ rest) table =
      some (table.write i (es.take n)) := by
  intro es
  induction es with
  | nil =>
    intro n i table _ hn
    obtain rfl : n = 0 := by simpa using hn
    rw [fetchRows, List.take_nil, Buf.write_nil]
  | cons e es ih =>
    intro n i table hmem hn
    obtain ⟨hexec, hhost⟩ := hmem e List.mem_cons_self
    cases n with
    | zero => rw [fetchRows, List.take_zero, Buf.write_nil]
    | succ n =>
      rw [List.flatMap_cons, List.append_assoc, fetchRows, readRow_serialize h hlen hexec hhost,
        Option.bind_eq_bind, Option.bind_some, List.drop_left' (length_serialize t e),
        ih n (i + 1) _ (fun e' he' => hmem e' (List.mem_cons_of_mem _ he'))
          (by rw [List.length_cons] at hn; omega),
        List.take_succ_cons]
      exact congrArg some (Buf.write_write table i [e] (es.take n))

/-! ## The map -/

/-- The tables `ship_proctab_msg` is given: a host has an entry, and its entries say where they
    run. -/
structure ProctableOk (tab : Proctable) : Prop where
  ne_nil : ∀ (host : CString) (es : List ProcdescExt), tab[host]? = some es → es ≠ []
  host_eq : ∀ (host : CString) (es : List ProcdescExt), tab[host]? = some es →
    ∀ e ∈ es, e.hostName = host

theorem proctableOk_iff {tab : Proctable} :
    (∀ p ∈ tab.toList, p.2 ≠ [] ∧ ∀ e ∈ p.2, e.hostName = p.1) ↔ ProctableOk tab := by
  constructor
  · intro h
    exact
      { ne_nil := fun host es hes =>
          (h (host, es) (ExtTreeMap.mem_toList_iff_getElem?_eq_some.mpr hes)).1
        host_eq := fun host es hes =>
          (h (host, es) (ExtTreeMap.mem_toList_iff_getElem?_eq_some.mpr hes)).2 }
  · intro h p hp
    have := ExtTreeMap.mem_toList_iff_getElem?_eq_some.mp hp
    exact ⟨h.ne_nil p.1 p.2 this, h.host_eq p.1 p.2 this⟩

instance (tab : Proctable) : Decidable (ProctableOk tab) := decidable_of_iff _ proctableOk_iff

theorem getElem?_push (tab : Proctable) (e : ProcdescExt) (host : CString) :
    (push tab e)[host]? =
      if e.hostName = host then some (tab[host]?.getD [] ++ [e]) else tab[host]? := by
  unfold push
  split
  · next hnone =>
    rw [ExtTreeMap.getElem?_insert]
    simp only [LawfulEqOrd.compare_eq_iff_eq]
    split
    · next heq => rw [← heq, hnone]; rfl
    · rfl
  · next avec hsome =>
    rw [ExtTreeMap.getElem?_insert]
    simp only [LawfulEqOrd.compare_eq_iff_eq]
    split
    · next heq => rw [← heq, hsome]; rfl
    · rfl

/-- Pushing a list of entries appends to each host the entries that run there. -/
theorem getElem?_foldl_push (host : CString) : ∀ (es : List ProcdescExt) (tab : Proctable),
    (es.foldl push tab)[host]? =
      if es.filter (fun e => e.hostName = host) = [] then tab[host]?
      else some (tab[host]?.getD [] ++ es.filter fun e => e.hostName = host) := by
  intro es
  induction es with
  | nil => intro tab; rfl
  | cons e es ih =>
    intro tab
    rw [List.foldl_cons, ih, getElem?_push]
    by_cases heq : e.hostName = host
    · simp only [heq, if_true, List.filter_cons, decide_true, Option.getD_some, reduceCtorEq,
        if_false, List.append_assoc, List.singleton_append]
      split
      · next hnil => rw [hnil]
      · rfl
    · simp only [heq, if_false, List.filter_cons, decide_false]
      rfl

/-- Hosts that are not looked for contribute nothing. -/
theorem filter_flatMap_of_ne (host : CString) : ∀ l : List (CString × List ProcdescExt),
    (∀ p ∈ l, p.1 ≠ host ∧ ∀ e ∈ p.2, e.hostName = p.1) →
    (l.flatMap Prod.snd).filter (fun e => e.hostName = host) = [] := by
  intro l hl
  refine List.filter_eq_nil_iff.mpr fun e he => ?_
  obtain ⟨p, hp, hep⟩ := List.mem_flatMap.mp he
  have := (hl p hp).2 e hep
  simpa [this] using (hl p hp).1

/-- Among the vectors of distinct hosts only the one of `host` is left. -/
theorem filter_flatMap_of_mem (host : CString) (es : List ProcdescExt) :
    ∀ l : List (CString × List ProcdescExt), l.Pairwise (fun a b => ¬ compare a.1 b.1 = .eq) →
    (∀ p ∈ l, ∀ e ∈ p.2, e.hostName = p.1) → (host, es) ∈ l →
    (l.flatMap Prod.snd).filter (fun e => e.hostName = host) = es := by
  intro l
  induction l with
  | nil => intro _ _ hmem; exact absurd hmem List.not_mem_nil
  | cons p l ih =>
    intro hdist hhost hmem
    obtain ⟨hhead, htail⟩ := List.pairwise_cons.mp hdist
    rw [List.flatMap_cons, List.filter_append]
    rcases List.mem_cons.mp hmem with rfl | hmem
    · have hrest := filter_flatMap_of_ne host l fun q hq =>
        ⟨fun heq => hhead q hq (by rw [heq]; exact ReflCmp.compare_self),
          hhost q (List.mem_cons_of_mem _ hq)⟩
      rw [hrest, List.append_nil, List.filter_eq_self]
      intro e he
      simpa using hhost _ List.mem_cons_self e he
    · have hne : p.1 ≠ host := fun heq => hhead _ hmem (by rw [heq]; exact ReflCmp.compare_self)
      have hnil := filter_flatMap_of_ne host [p] fun q hq => by
        obtain rfl := List.mem_singleton.mp hq
        exact ⟨hne, hhost q List.mem_cons_self⟩
      rw [List.flatMap_singleton] at hnil
      rw [hnil, List.nil_append]
      exact ih htail (fun q hq => hhost q (List.mem_cons_of_mem _ hq)) hmem

/-- The entries of one host among all rows. -/
theorem filter_rows {tab : Proctable} (hok : ProctableOk tab) (host : CString) :
    (rows tab).filter (fun e => e.hostName = host) = tab[host]?.getD [] := by
  have hhost : ∀ p ∈ tab.toList, ∀ e ∈ p.2, e.hostName = p.1 := fun p hp =>
    hok.host_eq p.1 p.2 (ExtTreeMap.mem_toList_iff_getElem?_eq_some.mp hp)
  cases htab : tab[host]? with
  | none =>
    refine filter_flatMap_of_ne host _ fun p hp => ⟨fun heq => ?_, hhost p hp⟩
    have := ExtTreeMap.mem_toList_iff_getElem?_eq_some.mp hp
    rw [heq, htab] at this
    exact absurd this (by simp)
  | some es =>
    exact filter_flatMap_of_mem host es _ ExtTreeMap.distinct_keys_toList hhost
      (ExtTreeMap.mem_toList_iff_getElem?_eq_some.mpr htab)

/-- Pushing all rows into an empty map gives the map the rows were taken from. -/
theorem pushAll_rows {tab : Proctable} (hok : ProctableOk tab) :
    (rows tab).foldl push ∅ = tab := by
  refine ExtTreeMap.ext_getElem? fun host => ?_
  rw [getElem?_foldl_push, filter_rows hok]
  cases htab : tab[host]? with
  | none => simp
  | some es => simp [hok.ne_nil host es htab]

theorem nodup_toList (tab : Proctable) : tab.toList.Nodup :=
  ExtTreeMap.distinct_keys_toList.imp fun h heq => h (by rw [heq]; exact ReflCmp.compare_self)

/-- The rows of one host, and those of the others. -/
theorem length_rows_split (tab : Proctable) (host : CString) : (rows tab).length =
    (tab[host]?.getD []).length +
      ((tab.toList.filter fun p => !decide (p.1 = host)).flatMap Prod.snd).length := by
  have hown : tab.toList.filter (fun p => p.1 = host) = (tab[host]?.map (Prod.mk host)).toList := by
    cases htab : tab[host]? with
    | none =>
      refine List.filter_eq_nil_iff.mpr ?_
      rintro ⟨k, v⟩ hp hk
      obtain rfl : k = host := of_decide_eq_true hk
      rw [ExtTreeMap.mem_toList_iff_getElem?_eq_some, htab] at hp
      cases hp
    | some v =>
      refine List.perm_singleton.mp ((List.perm_ext_iff_of_nodup
        ((nodup_toList tab).filter _) (List.pairwise_singleton _ _)).mpr ?_)
      rintro ⟨k, u⟩
      rw [List.mem_filter, List.mem_singleton, ExtTreeMap.mem_toList_iff_getElem?_eq_some,
        decide_eq_true_iff, Prod.mk.injEq]
      constructor
      · rintro ⟨hu, rfl⟩
        rw [htab] at hu
        exact ⟨rfl, (Option.some.inj hu).symm⟩
      · rintro ⟨rfl, rfl⟩
        exact ⟨htab, rfl⟩
  have hperm := (List.filter_append_perm (fun p => decide (p.1 = host)) tab.toList).flatMap_right Prod.snd
  rw [rows, ← hperm.length_eq, List.flatMap_append, List.length_append, hown]
  cases tab[host]? <;> simp

/-- A vector takes the place of the one that its host had. -/
theorem length_rows_insert (tab : Proctable) (host : CString) (es : List ProcdescExt) :
    (rows (tab.insert host es)).length + (tab[host]?.getD []).length = (rows tab).length + es.length := by
  have hother : ((tab.insert host es).toList.filter fun p => !decide (p.1 = host)).Perm
      (tab.toList.filter fun p => !decide (p.1 = host)) := by
    refine (List.perm_ext_iff_of_nodup ((nodup_toList _).filter _) ((nodup_toList _).filter _)).mpr ?_
    rintro ⟨k, v⟩
    simp only [List.mem_filter, ExtTreeMap.mem_toList_iff_getElem?_eq_some, ExtTreeMap.getElem?_insert,
      LawfulEqOrd.compare_eq_iff_eq, Bool.not_eq_true', decide_eq_false_iff_not]
    refine and_congr_left fun hne => ?_
    rw [if_neg (Ne.symm hne)]
  rw [length_rows_split (tab.insert host es) host, length_rows_split tab host,
    (hother.flatMap_right Prod.snd).length_eq, ExtTreeMap.getElem?_insert_self]
  show es.length + _ + _ = _
  omega

/-- An entry that is pushed is one row more. -/
theorem length_rows_push (tab : Proctable) (e : ProcdescExt) :
    (rows (push tab e)).length = (rows tab).length + 1 := by
  unfold push
  split
  · next hnone =>
    have := length_rows_insert tab e.hostName [e]
    rw [hnone] at this
    exact this
  · next avec hsome =>
    have := length_rows_insert tab e.hostName (avec ++ [e])
    rw [hsome, List.length_append] at this
    change _ + avec.length = _ + (avec.length + 1) at this
    omega

theorem length_rows_foldl_push : ∀ (es : List ProcdescExt) (tab : Proctable),
    (rows (es.foldl push tab)).length = (rows tab).length + es.length := by
  intro es
  induction es with
  | nil => intro tab; rfl
  | cons e es ih =>
    intro tab
    rw [List.foldl_cons, ih, length_rows_push, List.length_cons]
    omega

/-! ## Messages -/

/-- The size of a process table message, as a number without bounds. -/
def proctabMsgSize (tab : Proctable) : Nat :=
  sizeofLmonp + 20 * (rows tab).length + tableLen (strTab tab).orderedEHName

/-- `m` is a process table message with the contents of `tab`, in either class. -/
structure Carries (m : Msg) (tab : Proctable) : Prop where
  ntasks_eq : ntasks m.hdr = (rows tab).length
  begin_eq : getLmonpayloadBegin m.hdr = some 0
  strtab_eq : getStrtabBegin m.hdr = some (20 * (rows tab).length)
  payload_eq : m.payload = (rows tab).flatMap (serialize (strTab tab)) ++ (strTab tab).image

/-- A header finds its string table in either class. -/
theorem getStrtabBegin_eq {h : Header} (hlen : h.lmonPayloadLength ≠ 0)
    (hclass : h.msgclass.toNat = MsgClass.fetofe.ctorIdx ∧
        h.type.toNat = FeToFeMsg.proctableAvail.ctorIdx ∨
      h.msgclass.toNat = MsgClass.fetobe.ctorIdx ∧
        h.type.toNat = FeToBeMsg.febeProctab.ctorIdx) :
    getStrtabBegin h = some (20 * ntasks h) := by
  have hbegin : getLmonpayloadBegin h = some 0 := if_neg hlen
  have hmul : 0 + ntasks h * 4 * 5 = 20 * ntasks h := by omega
  rcases hclass with ⟨hc, ht⟩ | ⟨hc, ht⟩
  · rw [getStrtabBegin, if_pos hc, if_pos ht, hbegin, Option.map_some, hmul]
  · rw [getStrtabBegin, if_neg (by rw [hc]; decide), if_pos hc, if_pos ht, hbegin, Option.map_some,
      hmul]

/-- What `ship_proctab_msg` announces, from the count and the string table it is given. -/
theorem shipProctabMsg_spec {tab : Proctable} {pcount : Int32} {n : Nat}
    (hcount : pcount.toInt = n) (hpos : 1 ≤ n)
    (hsize : sizeofLmonp + 20 * n + tableLen (strTab tab).orderedEHName < 2 ^ 31) (t : FeToFeMsg) :
    ∃ s, shipProctabMsg true tab pcount t = some s ∧
      s.msgsize.toInt = sizeofLmonp + 20 * n + tableLen (strTab tab).orderedEHName ∧
      ntasks s.msg.hdr = n ∧
      s.msg.hdr.msgclass = BitVec.ofNat 3 MsgClass.fetofe.ctorIdx ∧
      s.msg.hdr.type = BitVec.ofNat 13 t.ctorIdx ∧
      s.msg.hdr.lmonPayloadLength.toNat = 20 * n + tableLen (strTab tab).orderedEHName ∧
      s.msg.payload = (rows tab).flatMap (serialize (strTab tab)) ++ (strTab tab).image := by
  have hthre : sizeofLmonp = 28 := rfl
  have hnat : pcount.toUInt32.toNat = n := by
    have := pcount.toUInt32.toNat_lt
    rw [toInt_eq] at hcount
    split at hcount <;> omega
  have hoff : (strTab tab).offset.toNat = tableLen (strTab tab).orderedEHName := by
    rw [(strTab_inv tab).offset_eq, UInt32.toNat_ofNat_of_lt' (show _ < 2 ^ 32 by omega)]
  have hlen : (20 * pcount.toUInt32 + (strTab tab).offset).toNat =
      20 * n + tableLen (strTab tab).orderedEHName := by
    rw [UInt32.toNat_add, UInt32.toNat_mul, hnat, hoff]
    show (20 * n % 2 ^ 32 + _) % 2 ^ 32 = _
    omega
  refine ⟨_, rfl, ?_, ?_, ?_, ?_, ?_, rfl⟩
  · have hmsg : (UInt32.ofNat sizeofLmonp + (20 * pcount.toUInt32 + (strTab tab).offset)).toNat =
        28 + (20 * n + tableLen (strTab tab).orderedEHName) := by
      rw [UInt32.toNat_add, hlen]
      show (28 + _) % 2 ^ 32 = _
      omega
    show (UInt32.ofNat sizeofLmonp + (20 * pcount.toUInt32 + (strTab tab).offset)).toInt32.toInt = _
    rw [toInt_eq, UInt32.toUInt32_toInt32, hmsg, if_pos (by omega)]
    omega
  · -- below the threshold the count is in the short field, from there on in the long one
    have hlt : pcount < 32769 ↔ n < 32769 := by
      rw [Int32.lt_iff_toInt_lt, hcount]
      show (n : Int) < 32769 ↔ _
      omega
    simp only [hlt]
    split
    · next h =>
      have hshort : pcount.toUInt32.toUInt16.toNat = n := by
        rw [UInt32.toNat_toUInt16, hnat]
        omega
      show (if pcount.toUInt32.toUInt16.toNat < 32769 then pcount.toUInt32.toUInt16.toNat else _) = n
      rw [hshort, if_pos h]
    · exact hnat
  · split <;> rfl
  · split <;> rfl
  · rw [← hlen]
    split <;> rfl

/-- The message of a well-formed table carries it, before and after it is forwarded. -/
theorem shipProctabMsg_carries {tab : Proctable} {pcount : Int32}
    (hcount : pcount.toInt = (rows tab).length) (hpos : 1 ≤ (rows tab).length)
    (hsize : proctabMsgSize tab < 2 ^ 31) :
    ∃ s, shipProctabMsg true tab pcount .proctableAvail = some s ∧ Carries s.msg tab ∧
      Carries (forwardToBe s.msg) tab := by
  obtain ⟨s, hs, -, hntasks, hclass, htype, hlen, hpayload⟩ :=
    shipProctabMsg_spec hcount hpos hsize .proctableAvail
  have hne : s.msg.hdr.lmonPayloadLength ≠ 0 := fun h => by
    rw [h] at hlen
    have : (0 : UInt32).toNat = 0 := rfl
    omega
  refine ⟨s, hs, ⟨hntasks, if_neg hne, ?_, hpayload⟩, ⟨hntasks, if_neg hne, ?_, hpayload⟩⟩
  · rw [← hntasks]
    exact getStrtabBegin_eq hne (Or.inl ⟨by rw [hclass]; rfl, by rw [htype]; rfl⟩)
  · rw [← hntasks]
    exact getStrtabBegin_eq (h := (forwardToBe s.msg).hdr) hne (Or.inr ⟨rfl, rfl⟩)

/-- Where the string table of a carried table is. -/
theorem Carries.drop_strtab {m : Msg} {tab : Proctable} (h : Carries m tab) :
    m.payload.drop (20 * (rows tab).length) = (strTab tab).image := by
  rw [h.payload_eq, List.drop_left' (length_flatMap_serialize _ _)]

/-- `parse_raw_RPDTAB_msg` gets the table back. -/
theorem Carries.parse {m : Msg} {tab : Proctable} (h : Carries m tab) (hok : ProctableOk tab)
    (hsize : proctabMsgSize tab < 2 ^ 31) : parseRawRPDTABmsg (some m) ∅ = some (0, tab) := by
  have hlen : tableLen (strTab tab).orderedEHName < 2 ^ 32 := by
    unfold proctabMsgSize at hsize
    omega
  have hrows := parseRows_serialize (strTab_inv tab) hlen (strTab tab).image (rows tab) ∅
    fun e he => mem_strTab he
  rw [pushAll_rows hok, ← h.payload_eq] at hrows
  simp only [parseRawRPDTABmsg, ExtTreeMap.size_empty, ne_eq, not_true_eq_false, if_false,
    h.begin_eq, h.strtab_eq, h.ntasks_eq, h.drop_strtab, List.drop_zero, hrows, Option.map_some]

/-- `LMON_fe_getProctable` copies as many rows as the caller has room for, and says if these are not
    all. -/
theorem Carries.getProctable {m : Msg} {tab : Proctable} (h : Carries m tab)
    (hsize : proctabMsgSize tab < 2 ^ 31) {sess : List SessionDesc} {handle : Nat} {d : SessionDesc}
    (hhandle : handle < maxLmonSession) (hd : sess[handle]? = some d) (hreg : d.registered = true)
    (hspawned : d.spawned = true) (hmsg : d.proctabMsg = some m) (array : Buf ProcdescExt)
    (maxlen : UInt32) :
    lmonFeGetProctable sess handle (some array) maxlen = some
      { rc := if maxlen.toNat < (rows tab).length then .etrunc else .ok
        size := some (UInt32.ofNat (rows tab).length)
        proctable := some (array.write 0 ((rows tab).take (min (rows tab).length maxlen.toNat))) } := by
  have hlen : tableLen (strTab tab).orderedEHName < 2 ^ 32 := by
    unfold proctabMsgSize at hsize
    omega
  have hrows := fetchRows_serialize (strTab_inv tab) hlen (strTab tab).image (rows tab)
    (min (rows tab).length maxlen.toNat) 0 array (fun e he => mem_strTab he) (Nat.min_le_left _ _)
  rw [← h.payload_eq] at hrows
  have hrange : ¬ ((handle : Int) < 0 ∨ (handle : Int) > maxLmonSession) := by omega
  simp only [lmonFeGetProctable, if_neg hrange, Int.toNat_natCast, hd, hreg, hspawned, hmsg,
    h.begin_eq, h.strtab_eq, h.ntasks_eq, Option.map_some, Option.getD_some, h.drop_strtab,
    List.drop_zero, hrows, Option.bind_eq_bind, Option.bind_some, reduceCtorEq, if_false]
  rfl

/-- **Process-table round trip.**  Whatever table the engine ships, on either side of
    `LMON_NTASKS_THRE`, both decoders get back the table that was shipped, from the message itself and
    from the one the front end forwards. -/
theorem proctable_roundTrip (tab : Proctable) (hok : ProctableOk tab) (pcount : Int32)
    (hcount : pcount.toInt = (rows tab).length) (hpos : 1 ≤ pcount.toInt)
    (hsize : proctabMsgSize tab < 2 ^ 31) :
    ∃ s, shipProctabMsg true tab pcount .proctableAvail = some s ∧
      ∀ m, m = s.msg ∨ m = forwardToBe s.msg →
        parseRawRPDTABmsg (some m) ∅ = some (0, tab) ∧
        ∀ (sess : List SessionDesc) (handle : Nat) (d : SessionDesc) (array : Buf ProcdescExt)
          (maxlen : UInt32), handle < maxLmonSession → sess[handle]? = some d →
          d.registered = true → d.spawned = true → d.proctabMsg = some m →
          (rows tab).length ≤ maxlen.toNat →
          lmonFeGetProctable sess handle (some array) maxlen = some
            { rc := .ok
              size := some pcount.toUInt32
              proctable := some (array.write 0 (rows tab)) } := by
  obtain ⟨s, hs, hship, hforward⟩ := shipProctabMsg_carries hcount (by omega) hsize
  refine ⟨s, hs, fun m hm => ?_⟩
  have hm : Carries m tab := by
    rcases hm with rfl | rfl
    · exact hship
    · exact hforward
  refine ⟨hm.parse hok hsize, fun sess handle d array maxlen hhandle hd hreg hspawned hmsg hmax => ?_⟩
  have hn : pcount.toUInt32 = UInt32.ofNat (rows tab).length := by
    refine UInt32.toNat_inj.mp ?_
    have hsz : (rows tab).length < 2 ^ 31 := by
      unfold proctabMsgSize at hsize
      omega
    have := pcount.toUInt32.toNat_lt
    rw [toInt_eq] at hcount
    rw [UInt32.toNat_ofNat_of_lt' (show _ < 2 ^ 32 by omega)]
    split at hcount <;> omega
  rw [hm.getProctable hsize hhandle hd hreg hspawned hmsg, if_neg (by omega), hn,
    Nat.min_eq_left hmax, List.take_length]

/-- Three tasks on two hosts; the second host has the name of the executable. -/
def twoHosts : Proctable :=
  ((∅ : Proctable).insert (.letter 1) [⟨.letter 0, .letter 1, 10, 0, 0⟩,
    ⟨.letter 0, .letter 1, 11, 1, 0⟩]).insert (.letter 0) [⟨.letter 0, .letter 0, 12, 2, -1⟩]

theorem proctable_roundTrip_twoHosts :
    ∃ s, shipProctabMsg true twoHosts 3 .proctableAvail = some s ∧
      ∀ m, m = s.msg ∨ m = forwardToBe s.msg →
        parseRawRPDTABmsg (some m) ∅ = some (0, twoHosts) ∧
        ∀ (sess : List SessionDesc) (handle : Nat) (d : SessionDesc) (array : Buf ProcdescExt)
          (maxlen : UInt32), handle < maxLmonSession → sess[handle]? = some d →
          d.registered = true → d.spawned = true → d.proctabMsg = some m →
          (rows twoHosts).length ≤ maxlen.toNat →
          lmonFeGetProctable sess handle (some array) maxlen = some
            { rc := .ok
              size := some (3 : Int32).toUInt32
              proctable := some (array.write 0 (rows twoHosts)) } :=
  proctable_roundTrip twoHosts (by decide) 3 (by decide) (by decide) (by decide)

end LaunchMON.Lmonp
