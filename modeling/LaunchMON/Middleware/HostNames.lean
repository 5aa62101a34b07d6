/-
  The message of host names, for both masters and without a bound on the number of daemons: the
  master-only block of `LMON_be_handshake` and of `LMON_mw_handshake`, from the gathered buffer to the
  `write_lmonp_long_msg` that ships it.

  1. **The buffer** (`sendbuf`).  `sendbufsize` is an `int`, and what `malloc` says to it is not looked
     at: `set_msg_header` and `get_lmonpayload_begin` do nothing with a null pointer, and
     `get_strtab_begin` reads through it.

  2. **What the reader finds** (`Ships`): an index for each daemon, the name behind it, each name once
     in the string table, and a buffer that ends with the payload.

  3. **When it is so** (`ships_iff`).  The names are packed right for any number of daemons, on either
     side of `LMON_NTASKS_THRE` (`hostnameMsg_spec`); it is the `int` that has to hold the size.  Beyond
     it, `malloc` is asked for a negative number, and from 2^32 on for less than is written.

  The size of the gather is an `int` as well, and there `malloc` is checked.  But a name of 107
  characters takes 112 bytes in the message and 108 in the gather, so there are numbers of daemons whose
  names are gathered and not shipped (`manyDaemons`).
-/
import LaunchMON.Middleware.Handshake

namespace LaunchMON.Middleware

open CBytes Lmonp Backend

/-! ## The table -/

theorem nodup_foldl_noteName : ∀ (names : List CString) (t : StrTab), Listed t →
    t.orderedEHName.Nodup → (names.foldl noteName t).orderedEHName.Nodup := by
  intro names
  induction names with
  | nil => exact fun t _ hnd => hnd
  | cons s names ih =>
    intro t hl hnd
    refine ih (noteName t s) (listed_noteName hl s) ?_
    unfold noteName
    split
    · exact hnd
    · next hs =>
      show (t.orderedEHName ++ [s]).Nodup
      have hnew : s ∉ t.orderedEHName := mt (hl s).mpr hs
      rw [(List.perm_append_singleton s t.orderedEHName).nodup_iff]
      exact List.nodup_cons.mpr ⟨hnew, hnd⟩

/-- Nothing but the names gets into the table. -/
theorem mem_foldl_noteName : ∀ (names : List CString) (t : StrTab) (s : CString),
    s ∈ (names.foldl noteName t).orderedEHName → s ∈ t.orderedEHName ∨ s ∈ names := by
  intro names
  induction names with
  | nil => exact fun t s hs => Or.inl hs
  | cons s' names ih =>
    intro t s hs
    rcases ih (noteName t s') s hs with hs | hs
    · unfold noteName at hs
      split at hs
      · exact Or.inl hs
      · rcases List.mem_append.mp (show s ∈ t.orderedEHName ++ [s'] from hs) with hs | hs
        · exact Or.inl hs
        · exact Or.inr (List.mem_cons.mpr (Or.inl (List.mem_singleton.mp hs)))
    · exact Or.inr (List.mem_cons_of_mem s' hs)

/-- **Each distinct name is stored once.** -/
theorem nameTab_once (names : List CString) : (nameTab names).orderedEHName.Nodup ∧
    ∀ s, s ∈ (nameTab names).orderedEHName ↔ s ∈ names := by
  obtain ⟨-, hl, hmem⟩ := nameTab_spec names
  have hempty : Listed StrTab.empty := fun s => by simp [StrTab.empty]
  refine ⟨nodup_foldl_noteName names StrTab.empty hempty List.nodup_nil, fun s => ?_⟩
  constructor
  · intro hs
    exact (mem_foldl_noteName names StrTab.empty s hs).resolve_left List.not_mem_nil
  · intro hs
    exact (hl s).mp (hmem s hs)

/-- Names without a repetition all get into the table. -/
theorem tableLen_nameTab {names : List CString} (hnd : names.Nodup) :
    tableLen (nameTab names).orderedEHName = tableLen names := by
  obtain ⟨honce, hmem⟩ := nameTab_once names
  have hperm : (nameTab names).orderedEHName.Perm names :=
    (List.perm_ext_iff_of_nodup honce hnd).mpr hmem
  exact (hperm.flatMap_right CString.image).length_eq

/-! ## The buffer -/

/-- `malloc`: the sizes that it gives.  There is no object of more than PTRDIFF_MAX bytes. -/
structure Malloc where
  gives : ℕ → Bool
  ptrdiff_max : ∀ size, 2 ^ 63 ≤ size → gives size = false

/-- The masters that send host names. -/
inductive Master where
  | be : Master
  | mw : Master
  deriving DecidableEq

def Master.msgclass : Master → MsgClass
  | .be => .fetobe
  | .mw => .fetomw

def Master.type : Master → ℕ
  | .be => FeToBeMsg.befeHostname.ctorIdx
  | .mw => FeToMwMsg.mwfeHostname.ctorIdx

/-- `sendbufsize`, an `int`. -/
def sendbufsize (width : UInt32) (hngatherbuf : List UInt8) : UInt32 :=
  UInt32.ofNat sizeofLmonp + width * 4 + (hostTab (gatheredNames width.toNat hngatherbuf)).offset

/-- What a master writes, and the size that it says it has; `none` where it does not come to write:
    `get_strtab_begin` reads through the null pointer of a `malloc` that has failed, or the message has
    no place for indices or strings. -/
def sendbuf (malloc : Malloc) (r : Master) (width : UInt32) (hngatherbuf : List UInt8) :
    Option (Msg × UInt32) :=
  if malloc.gives (sizeT (sendbufsize width hngatherbuf)) = false then none
  else hostnameMsg r.msgclass r.type width hngatherbuf

/-- As long as `malloc` gives the buffer, it is the message of the handshakes. -/
theorem sendbuf_eq {malloc : Malloc} {width : UInt32} {hngatherbuf : List UInt8}
    (h : malloc.gives (sizeT (sendbufsize width hngatherbuf)) = true) (r : Master) :
    sendbuf malloc r width hngatherbuf = hostnameMsg r.msgclass r.type width hngatherbuf :=
  if_neg (by rw [h]; decide)

/-- What `hostnameMsg` makes, however long the names are. -/
theorem hostnameMsg_some {mc : MsgClass} {type : ℕ} {width size : UInt32} {hngatherbuf : List UInt8}
    {m : Msg} (h : hostnameMsg mc type width hngatherbuf = some (m, size)) :
    m.hdr = hostnameHeader mc type width (hostTab (gatheredNames width.toNat hngatherbuf)).offset ∧
      size = sendbufsize width hngatherbuf ∧ ∃ index : CString → UInt32,
        m.payload = (gatheredNames width.toNat hngatherbuf).flatMap (fun s => le32 (index s)) ++
          (nameTab (gatheredNames width.toNat hngatherbuf)).image := by
  unfold hostnameMsg at h
  dsimp only at h
  split at h
  · cases h
  · injection h with h
    obtain ⟨rfl, rfl⟩ := Prod.mk.inj h
    obtain ⟨hpack, hstr⟩ := packNames_eq (hostTab (gatheredNames width.toNat hngatherbuf))
      (gatheredNames width.toNat hngatherbuf)
    refine ⟨rfl, rfl, fun s => (hostTab (gatheredNames width.toNat hngatherbuf)).hostName.getD s 0, ?_⟩
    show _ ++ _ = _
    rw [hpack, hstr]

/-! ## The gathered names -/

/-- What the gather has left: there is a daemon, and the number of them is an `int`. -/
structure Gathered where
  slots : List HostSlot
  ne_nil : slots ≠ []
  width_lt : slots.length < 2 ^ 31

namespace Gathered

def width (g : Gathered) : UInt32 := UInt32.ofNat g.slots.length

def hngatherbuf (g : Gathered) : List UInt8 := (g.slots.map HostSlot.bytes).flatten

def names (g : Gathered) : List CString := g.slots.map HostSlot.name

@[simp] theorem length_names (g : Gathered) : g.names.length = g.slots.length := List.length_map _

theorem toNat_width (g : Gathered) : g.width.toNat = g.slots.length := by
  have hlt := g.width_lt
  exact UInt32.toNat_ofNat_of_lt' (show _ < 2 ^ 32 by omega)

/-- The gathered buffer has the names of the daemons, in their order. -/
theorem gatheredNames_eq (g : Gathered) : gatheredNames g.width.toNat g.hngatherbuf = g.names := by
  rw [toNat_width]
  exact gatheredNames_flatten g.slots

/-- The size of the buffer is the size of the message, as far as it goes into an `int`. -/
theorem sendbufsize_eq (g : Gathered) :
    sendbufsize g.width g.hngatherbuf = UInt32.ofNat (hostnameMsgSize g.names) := by
  have hoff : (hostTab g.names).offset = UInt32.ofNat (tableLen (nameTab g.names).orderedEHName) := by
    rw [hostTab_eq]
    exact (nameTab_spec g.names).1.offset_eq
  rw [sendbufsize, gatheredNames_eq, hoff, hostnameMsgSize, length_names, UInt32.ofNat_add,
    UInt32.ofNat_add, UInt32.ofNat_mul, UInt32.mul_comm, width]
  rfl

end Gathered

/-! ## What the reader finds -/

/-- A message of host names, with the number of bytes of it that are written. -/
structure Encodes (m : Msg) (size : UInt32) (names : List CString) : Prop where
  name_eq : ∀ (i : ℕ) (hi : i < names.length), hostnameAt m i = some names[i]
  once : ∃ (strtab : ℕ) (table : List CString), getStrtabBegin m.hdr = some strtab ∧
    m.payload.drop strtab = table.flatMap CString.image ∧ table.Nodup ∧ ∀ s, s ∈ table ↔ s ∈ names
  length_eq : m.payload.length = m.hdr.lmonPayloadLength.toNat
  written : size.toNat = sizeofLmonp + m.payload.length

/-- A master ships the gathered names. -/
def Ships (malloc : Malloc) (r : Master) (g : Gathered) : Prop :=
  ∃ m size, sendbuf malloc r g.width g.hngatherbuf = some (m, size) ∧ Encodes m size g.names

/-- The string table stands behind the indices. -/
theorem getStrtabBegin_names {g : Gathered} {m : Msg} {offset : UInt32}
    (hhdr : m.hdr = hostnameHeader .fetobe FeToBeMsg.befeHostname.ctorIdx g.width offset)
    (hm : Hostnames m g.names) : getStrtabBegin m.hdr = some (4 * g.slots.length) := by
  obtain ⟨-, -, hnt, -⟩ := hostnameHeader_spec g.width_lt offset
  have hne : m.hdr.lmonPayloadLength ≠ 0 := by
    intro hz
    have hlen := hm.length_eq
    rw [hz] at hlen
    exact hm.ne_nil (List.length_eq_zero_iff.mp hlen)
  rw [getStrtabBegin_befe hm.class_eq hm.type_eq, getStrtabBegin_toMw, getLmonpayloadBegin, if_neg hne,
    Option.map_some, Nat.zero_add, hhdr]
  show some (ntasks (hostnameHeader _ _ (UInt32.ofNat g.slots.length) offset) * 4) = _
  rw [hnt, Nat.mul_comm]

/-- The message of a back-end master, when an `int` holds its size. -/
theorem encodes_be {g : Gathered} (hfits : hostnameMsgSize g.names < 2 ^ 31) :
    ∃ m size, hostnameMsg .fetobe FeToBeMsg.befeHostname.ctorIdx g.width g.hngatherbuf =
        some (m, size) ∧ Hostnames m g.names ∧ Encodes m size g.names := by
  have hspec : ∃ m, hostnameMsg .fetobe FeToBeMsg.befeHostname.ctorIdx g.width g.hngatherbuf =
      some (m, msgsize m.hdr) ∧ sizeofLmonp + m.payload.length = hostnameMsgSize g.names ∧
        Hostnames m g.names := hostnameMsg_spec g.ne_nil hfits
  obtain ⟨m, hmsg, hlen, hm⟩ := hspec
  obtain ⟨hhdr, hsize, index, hpayload⟩ := hostnameMsg_some hmsg
  rw [g.gatheredNames_eq] at hpayload
  refine ⟨m, _, hmsg, hm, hm.name_eq, ?_, hm.length_eq, ?_⟩
  · refine ⟨_, (nameTab g.names).orderedEHName, getStrtabBegin_names hhdr hm, ?_, nameTab_once g.names⟩
    rw [hpayload, List.drop_left']
    · rfl
    · rw [length_flatMap_le32, Gathered.length_names]
  · rw [hsize, g.sendbufsize_eq, UInt32.toNat_ofNat_of_lt' (show _ < 2 ^ 32 by omega)]
    exact hlen.symm

/-- A message that encodes the names does so with the header for the middleware, too. -/
theorem Encodes.toMw {m : Msg} {size : UInt32} {names : List CString} (hm : Hostnames m names)
    (h : Encodes m size names) : Encodes ⟨toMw m.hdr, m.payload⟩ size names := by
  obtain ⟨strtab, table, hbegin, htable⟩ := h.once
  rw [getStrtabBegin_befe hm.class_eq hm.type_eq] at hbegin
  refine ⟨fun i hi => ?_, ⟨strtab, table, hbegin, htable⟩, h.length_eq, h.written⟩
  rw [hostnameAt_toMw hm]
  exact h.name_eq i hi

/-! ## When it is shipped -/

/-- An `int` that holds the size is what `malloc` is asked for, and a negative one is more than it has. -/
theorem sizeT_ofNat {n : ℕ} (h : n < 2 ^ 31) : sizeT (UInt32.ofNat n) = n := by
  have hnat : (UInt32.ofNat n).toNat = n := UInt32.toNat_ofNat_of_lt' (show _ < 2 ^ 32 by omega)
  rw [sizeT, hnat, if_pos h]

theorem sizeT_negative {n : ℕ} (h : 2 ^ 31 ≤ n) (h' : n < 2 ^ 32) : 2 ^ 63 ≤ sizeT (UInt32.ofNat n) := by
  have hnat : (UInt32.ofNat n).toNat = n := UInt32.toNat_ofNat_of_lt' h'
  rw [sizeT, hnat, if_neg (by omega)]
  omega

/-- A size that `malloc` gives and an `int` holds is enough. -/
theorem ships_of_fits {malloc : Malloc} {g : Gathered} (hfits : hostnameMsgSize g.names < 2 ^ 31)
    (hgives : malloc.gives (hostnameMsgSize g.names) = true) (r : Master) : Ships malloc r g := by
  obtain ⟨m, size, hmsg, hm, henc⟩ := encodes_be hfits
  have hsize : malloc.gives (sizeT (sendbufsize g.width g.hngatherbuf)) = true := by
    rw [g.sendbufsize_eq, sizeT_ofNat hfits, hgives]
  have hbuf := sendbuf_eq hsize r
  cases r with
  | be => exact ⟨m, size, hbuf.trans hmsg, henc⟩
  | mw =>
    refine ⟨⟨toMw m.hdr, m.payload⟩, size, ?_, henc.toMw hm⟩
    rw [hbuf]
    show hostnameMsg .fetomw FeToMwMsg.mwfeHostname.ctorIdx _ _ = _
    rw [hostnameMsg_fetomw, hmsg]
    rfl

/-- Nothing else is: a negative size is not given, and one that has wrapped is not what is written. -/
theorem fits_of_ships {malloc : Malloc} {r : Master} {g : Gathered} (h : Ships malloc r g) :
    hostnameMsgSize g.names < 2 ^ 31 ∧ malloc.gives (hostnameMsgSize g.names) = true := by
  obtain ⟨m, size, hbuf, henc⟩ := h
  unfold sendbuf at hbuf
  split at hbuf
  · cases hbuf
  · next hgives =>
    rw [g.sendbufsize_eq] at hgives
    obtain ⟨-, hsize, index, hpayload⟩ := hostnameMsg_some hbuf
    rw [g.gatheredNames_eq] at hpayload
    have hlen : sizeofLmonp + m.payload.length = hostnameMsgSize g.names := by
      rw [hpayload, List.length_append, length_flatMap_le32, hostnameMsgSize, Nat.add_assoc]
      rfl
    have hwrap : hostnameMsgSize g.names < 2 ^ 32 := by
      have hwritten := henc.written
      rw [hlen, hsize, g.sendbufsize_eq] at hwritten
      rw [← hwritten]
      exact UInt32.toNat_lt _
    have hfits : hostnameMsgSize g.names < 2 ^ 31 := by
      rcases Nat.lt_or_ge (hostnameMsgSize g.names) (2 ^ 31) with hlt | hge
      · exact hlt
      · exact absurd (malloc.ptrdiff_max _ (sizeT_negative hge hwrap)) hgives
    rw [sizeT_ofNat hfits] at hgives
    exact ⟨hfits, Bool.eq_true_of_not_eq_false hgives⟩

/-- **The names are shipped if and only if an `int` holds the size of the message** and there is memory
    for it.  The number of daemons is on either side of `LMON_NTASKS_THRE`, and a name may be repeated. -/
theorem ships_iff : ∀ (malloc : Malloc) (r : Master) (g : Gathered), Ships malloc r g ↔
    hostnameMsgSize g.names < 2 ^ 31 ∧ malloc.gives (hostnameMsgSize g.names) = true := by
  intro malloc r g
  constructor
  · intro h
    exact fits_of_ships h
  · intro h
    exact ships_of_fits h.1 h.2 r

/-! ## Too many daemons -/

/-- Names of 107 characters: the first digits of a number. -/
def digits (k : ℕ) : List UInt8 := (List.range 107).map fun j => if k.testBit j then 97 else 98

theorem noNul_digits (k : ℕ) : (0 : UInt8) ∉ digits k := by
  intro h
  obtain ⟨j, -, hj⟩ := List.mem_map.mp h
  split at hj
  · exact absurd hj (by decide)
  · exact absurd hj (by decide)

def hostOf (k : ℕ) : CString := ⟨digits k, noNul_digits k⟩

@[simp] theorem strlen_hostOf (k : ℕ) : (hostOf k).strlen = 107 := by
  show (digits k).length = 107
  rw [digits, List.length_map, List.length_range]

theorem hostOf_injOn {k k' : ℕ} (hk : k < 2 ^ 107) (hk' : k' < 2 ^ 107) (h : hostOf k = hostOf k') :
    k = k' := by
  have hdigits : digits k = digits k' := congrArg CString.bytes h
  refine Nat.eq_of_testBit_eq fun j => ?_
  rcases Nat.lt_or_ge j 107 with hj | hj
  · have hat := List.map_inj_left.mp hdigits j (List.mem_range.mpr hj)
    cases hb : k.testBit j <;> cases hb' : k'.testBit j <;> simp_all
  · have hpow : 2 ^ 107 ≤ 2 ^ j := Nat.pow_le_pow_right (by decide) hj
    rw [Nat.testBit_lt_two_pow (hk.trans_le hpow), Nat.testBit_lt_two_pow (hk'.trans_le hpow)]

theorem size_hostOf (k : ℕ) : (hostOf k).strlen + 1 + ([] : List UInt8).length = lmonDaemonHnMax := by
  rw [strlen_hostOf]
  rfl

/-- That many daemons, on as many nodes. -/
def slotsOf (n : ℕ) : List HostSlot := (List.range n).map fun k => ⟨hostOf k, [], size_hostOf k⟩

@[simp] theorem length_slotsOf (n : ℕ) : (slotsOf n).length = n := by
  rw [slotsOf, List.length_map, List.length_range]

theorem names_slotsOf (n : ℕ) : (slotsOf n).map HostSlot.name = (List.range n).map hostOf := by
  rw [slotsOf, List.map_map]
  rfl

theorem tableLen_hostOf (ks : List ℕ) : tableLen (ks.map hostOf) = 108 * ks.length := by
  induction ks with
  | nil => rfl
  | cons k ks ih =>
    have hsplit := tableLen_append [hostOf k] (ks.map hostOf)
    rw [tableLen_singleton, strlen_hostOf, ih] at hsplit
    rw [List.map_cons, List.length_cons, Nat.mul_succ, Nat.add_comm]
    exact hsplit

/-- The size of the message with their names. -/
theorem hostnameMsgSize_slotsOf {n : ℕ} (hn : n < 2 ^ 107) :
    hostnameMsgSize ((slotsOf n).map HostSlot.name) = 28 + 112 * n := by
  have hnd : ((List.range n).map hostOf).Nodup := by
    refine List.pairwise_map.mpr (List.nodup_range.imp_of_mem fun hk hk' hne h => hne ?_)
    exact hostOf_injOn ((List.mem_range.mp hk).trans hn) ((List.mem_range.mp hk').trans hn) h
  rw [hostnameMsgSize, names_slotsOf, tableLen_nameTab hnd, tableLen_hostOf, List.length_map,
    List.length_range]
  show 28 + 4 * n + 108 * n = _
  omega

theorem slotsOf_ne_nil {n : ℕ} (hn : 0 < n) : slotsOf n ≠ [] := by
  refine List.ne_nil_of_length_pos ?_
  rwa [length_slotsOf]

theorem slotsOf_lt {n : ℕ} (hn : n < 2 ^ 31) : (slotsOf n).length < 2 ^ 31 := by
  rwa [length_slotsOf]

def gatheredOf (n : ℕ) (hpos : 0 < n) (hlt : n < 2 ^ 31) : Gathered :=
  ⟨slotsOf n, slotsOf_ne_nil hpos, slotsOf_lt hlt⟩

theorem length_gatheredOf (n : ℕ) (hpos : 0 < n) (hlt : n < 2 ^ 31) :
    (gatheredOf n hpos hlt).slots.length = n := length_slotsOf n

theorem names_gatheredOf (n : ℕ) (hpos : 0 < n) (hlt : n < 2 ^ 31) :
    (gatheredOf n hpos hlt).names = (List.range n).map hostOf := names_slotsOf n

/-- They are too many from 19173962 on. -/
theorem not_ships_gatheredOf {malloc : Malloc} {r : Master} {n : ℕ} {hpos : 0 < n} {hlt : n < 2 ^ 31}
    (hn : 19173962 ≤ n) : ¬ Ships malloc r (gatheredOf n hpos hlt) := by
  intro h
  have hfits := (fits_of_ships h).1
  have hsize : hostnameMsgSize (gatheredOf n hpos hlt).names = 28 + 112 * n :=
    hostnameMsgSize_slotsOf (by omega)
  omega

/-- A `malloc` with all the memory there can be. -/
def allMemory : Malloc where
  gives size := decide (size < 2 ^ 63)
  ptrdiff_max _ h := decide_eq_false (Nat.not_lt.mpr h)

theorem pos_many : 0 < 19500000 := by decide

theorem many_lt : 19500000 < 2 ^ 31 := by decide

/-- Daemons whose names fit into the buffer of the gather. -/
def manyDaemons : Gathered := gatheredOf 19500000 pos_many many_lt

/-- Each of them has a name, and what is gathered of them is less than 2^31 bytes, for which there is
    memory. -/
theorem ships_counterexample : (∀ s ∈ manyDaemons.names, s ≠ CString.empty) ∧
    allMemory.gives (sizeT (UInt32.ofNat lmonDaemonHnMax * manyDaemons.width)) = true ∧
      lmonDaemonHnMax * manyDaemons.slots.length < 2 ^ 31 ∧
        ¬ Ships allMemory .be manyDaemons ∧ ¬ Ships allMemory .mw manyDaemons := by
  have hlength : manyDaemons.slots.length = 19500000 := length_gatheredOf _ pos_many many_lt
  have hnames : manyDaemons.names = (List.range 19500000).map hostOf :=
    names_gatheredOf _ pos_many many_lt
  have hwidth : manyDaemons.width = UInt32.ofNat 19500000 := congrArg UInt32.ofNat hlength
  have hmany : 19173962 ≤ 19500000 := by decide
  refine ⟨fun s hs => ?_, ?_, ?_, not_ships_gatheredOf hmany, not_ships_gatheredOf hmany⟩
  · rw [hnames] at hs
    obtain ⟨k, -, rfl⟩ := List.mem_map.mp hs
    intro h
    have hlen := congrArg CString.strlen h
    rw [strlen_hostOf] at hlen
    exact absurd hlen (by decide)
  · have hint : lmonDaemonHnMax * 19500000 < 2 ^ 31 := by decide
    rw [hwidth, ← UInt32.ofNat_mul, sizeT_ofNat hint]
    exact decide_eq_true (show lmonDaemonHnMax * 19500000 < 2 ^ 63 from hint.trans (by decide))
  · rw [hlength]
    decide

end LaunchMON.Middleware
