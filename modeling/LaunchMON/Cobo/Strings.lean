/-
  `cobo_allgather_str` of `tools/cobo/src/cobo.c`: every rank gives a string, every rank gets all of
  them.

  1. **The memory** — five places are written: the variables `mylen` and `maxlen`, the padded string
     `mystr`, the string buffer, and the temporary buffer that `cobo_gather_tree` allocates on all
     ranks but 0.  A `Block` is allocated memory with the number of bytes asked for; what lies behind
     its end is part of the model, so that a write there shows.

  2. **The composition** — a maximum, then a gather and a broadcast whose counts are that maximum.
     `allreduce_all` says that all ranks compute the same number, and with it `allgather_all` applies:
     block `i` of the string buffer is the padded string of rank `i` (`read_padded`).

  3. **The temporary buffer** — the runs of `Collectives` say nothing of it, as nothing of it is left.
     `coboGatherTreeBig` is `cobo_gather_tree` with this buffer in its result (`coboGatherTree_eq`); its
     runs are the runs of `cobo_gather_tree` (`run_of_map`), and whatever the children send, it is
     written up to its size and no further (`gatherBig_yields`).
-/
import Mathlib.Data.Finset.Max
import LaunchMON.Cobo.Broadcast

namespace LaunchMON.Cobo

open FifoNet Descent Relation Function CBytes

/-! ## The functions as the source computes them -/

/-- Memory that `cobo_malloc` has returned: how much was asked for, and all that lies behind the
    pointer. -/
structure Block where
  size : Nat
  mem : Buf UInt8

/-- An `int` as a `size_t`. -/
def sizeT (x : Int32) : Nat := x.toInt64.toUInt64.toNat

/-- What `cobo_gather_tree` has in `bigbuf` behind its loop; `bigbuf` is what is there before. -/
def gatherBig (t : Tree) (sendbuf : Buf UInt8) (sendcount : Nat) (bigbuf : Buf UInt8) : Rank :=
  gatherChildren sendcount t.childrenDown sendcount (bigbuf.write 0 (sendbuf.read 0 sendcount)) .ret

/-- `cobo_gather_tree` on rank `me`, which gives its `recvbuf` and its `bigbuf`. -/
def coboGatherTreeBig (me : Nat) (t : Tree) (sendbuf : Buf UInt8) (sendcount : Nat)
    (recvbuf malloced : Buf UInt8) : Prog Nat UInt8 (Buf UInt8 × Buf UInt8) :=
  (gatherBig t sendbuf sendcount (if me ≠ 0 then malloced else recvbuf)).bind fun bigbuf =>
    if me ≠ 0 then
      .send t.parent (bigbuf.read 0 (cInt ((t.numChildIncl + 1) * sendcount)))
        (.ret (recvbuf, bigbuf))
    else .ret (bigbuf, bigbuf)

/-- `cobo_allgather` on rank `me` of `nprocs`, which gives its `recvbuf` and the `bigbuf` of its
    `cobo_gather_tree`. -/
def coboAllgatherBig (nprocs me : Nat) (t : Tree) (sendbuf : Buf UInt8) (sendcount : Nat)
    (recvbuf malloced : Buf UInt8) : Prog Nat UInt8 (Buf UInt8 × Buf UInt8) :=
  (coboGatherTreeBig me t sendbuf sendcount recvbuf malloced).bind fun g =>
    (coboBcastTree me t g.1 (cInt (sendcount * nprocs))).bind fun recvbuf => .ret (recvbuf, g.2)

/-- What the memory holds that `cobo_allgather_str` is going to use. -/
structure StrHeap where
  mylen : Buf UInt8
  maxlen : Buf UInt8
  mystr : Buf UInt8
  bigbuf : Buf UInt8
  stringbuf : Buf UInt8

/-- What `cobo_allgather_str` leaves.  A pointer into the string buffer is its distance from the
    start of the buffer. -/
structure AllgatherStr where
  maxlen : Buf UInt8
  mystr : Block
  /-- The temporary buffer of `cobo_gather_tree`; rank 0 has none. -/
  bigbuf : Option Block
  stringbuf : Block
  strings : List Int

/-- `memset` and `strcpy` of the padded string. -/
def padded (maxlen : Int32) (sendstr : CString) (mystr : Buf UInt8) : Buf UInt8 :=
  (mystr.write 0 (List.replicate (sizeT maxlen) 0)).write 0 (sendstr.bytes ++ [0])

/-- `cobo_allgather_str` on rank `me` of `nprocs`. -/
def coboAllgatherStr (nprocs me : Nat) (t : Tree) (sendstr : CString) (h : StrHeap) :
    Prog Nat UInt8 AllgatherStr :=
  let mylen := h.mylen.write 0 (intBytes (.ofNat (sendstr.bytes.length + 1)))
  (coboAllreduceMaxIntTree me t mylen (h.maxlen.write 0 (intBytes 0))).bind fun maxlenVar =>
    let maxlen := readInt (maxlenVar.read 0 4)
    let sendcount := maxlen.toNatClampNeg
    let mystr := padded maxlen sendstr h.mystr
    (coboAllgatherBig nprocs me t mystr sendcount h.stringbuf h.bigbuf).bind fun g => .ret
      { maxlen := maxlenVar
        mystr := { size := sizeT maxlen, mem := mystr }
        bigbuf := if me ≠ 0 then some { size := cInt ((t.numChildIncl + 1) * sendcount), mem := g.2 }
          else none
        stringbuf := { size := sizeT (.ofNat nprocs * maxlen), mem := g.1 }
        strings := (List.range nprocs).map fun i => (Int32.ofNat i * maxlen).toInt }

/-- All ranks at the start of `cobo_allgather_str`. -/
def allgatherStrNet (n : Nat) (T : Nat → Tree) (str : Nat → CString) (heap : Nat → StrHeap)
    (idle : AllgatherStr) : Net Nat UInt8 AllgatherStr where
  prog r := if r < n then coboAllgatherStr n r (T r) (str r) (heap r) else .ret idle
  chan _ := []

/-- All ranks have returned from `cobo_allgather_str`, and the sockets are empty. -/
def allgatheredStr (out : Nat → AllgatherStr) : Net Nat UInt8 AllgatherStr where
  prog r := .ret (out r)
  chan _ := []

/-- Nothing has been written behind the end of a variable or of allocated memory. -/
structure AllgatherStr.Within (out : AllgatherStr) (h : StrHeap) : Prop where
  maxlen : ∀ i, 4 ≤ i → out.maxlen i = h.maxlen i
  mystr : ∀ i, out.mystr.size ≤ i → out.mystr.mem i = h.mystr i
  bigbuf : ∀ b, out.bigbuf = some b → ∀ i, b.size ≤ i → b.mem i = h.bigbuf i
  stringbuf : ∀ i, out.stringbuf.size ≤ i → out.stringbuf.mem i = h.stringbuf i

/-! ## The temporary buffer -/

theorem gatherChildren_bind {γ : Type} (s : Nat) (f : Buf UInt8 → Prog Nat UInt8 γ)
    (k : Buf UInt8 → Rank) : ∀ cs o b,
    (gatherChildren s cs o b k).bind f = (gatherChildren s cs o b .ret).bind fun b' => (k b').bind f := by
  intro cs
  induction cs with
  | nil => intro o b; rfl
  | cons c cs ih =>
    intro o b
    exact congrArg (Prog.recv c.1 _) (funext fun bs => ih _ _)

theorem bind_ret (P : Rank) : P.bind .ret = P := by
  induction P with
  | ret a => rfl
  | send q bs k ih => exact congrArg (Prog.send q bs) ih
  | recv q n k ih => exact congrArg (Prog.recv q n) (funext ih)

/-- `cobo_gather_tree`, with its temporary buffer thrown away. -/
theorem coboGatherTree_eq (me : Nat) (t : Tree) (sendbuf : Buf UInt8) (s : Nat)
    (recvbuf malloced : Buf UInt8) : coboGatherTree me t sendbuf s recvbuf malloced =
      (coboGatherTreeBig me t sendbuf s recvbuf malloced).bind fun g => .ret g.1 := by
  have hloop := gatherChildren_bind s Prog.ret (fun bigbuf => if me ≠ 0 then
      .send t.parent (bigbuf.read 0 (cInt ((t.numChildIncl + 1) * s))) (.ret recvbuf) else .ret bigbuf)
    t.childrenDown s (Buf.write (if me ≠ 0 then malloced else recvbuf) 0 (sendbuf.read 0 s))
  rw [bind_ret] at hloop
  rw [coboGatherTreeBig, Prog.bind_assoc]
  refine hloop.trans ?_
  show (gatherBig ..).bind _ = (gatherBig ..).bind _
  congr 1
  funext b
  split
  · rfl
  · rfl

/-- `cobo_allgather`, with the temporary buffer thrown away. -/
theorem coboAllgather_eq (n me : Nat) (t : Tree) (sendbuf : Buf UInt8) (s : Nat)
    (recvbuf malloced : Buf UInt8) : coboAllgather n me t sendbuf s recvbuf malloced =
      (coboAllgatherBig n me t sendbuf s recvbuf malloced).bind fun g => .ret g.1 := by
  rw [coboAllgather, coboAllgatherBig, coboGatherTree_eq, Prog.bind_assoc, Prog.bind_assoc]
  congr 1
  funext g
  rw [Prog.bind_assoc]
  exact (bind_ret _).symm

theorem sum_childSizes : ∀ low high, low ≤ high →
    ((childSizes low high).map Prod.snd).sum = high - low := by
  intro low high
  induction low, high using split_ind with
  | leaf low high h =>
    intro hle
    rw [childSizes_leaf h, List.map_nil, List.sum_nil]
    omega
  | node low high h ihl _ =>
    intro _
    have hlm := low_lt_midpoint h
    have hmh := midpoint_le_high h
    rw [childSizes_node h, List.map_append, List.sum_append, ihl (by omega), List.map_cons, List.map_nil,
      List.sum_singleton]
    show midpoint low high - 1 - low + (high - midpoint low high + 1) = _
    omega

/-- The loop writes what it reads behind one another, as much as the children send together. -/
theorem gatherChildren_yields {s m : Nat} (hm : m < 2 ^ 31) (b0 : Buf UInt8) : ∀ cs o b,
    o + s * (cs.map Prod.snd).sum ≤ m → (∀ i, m ≤ i → b i = b0 i) →
    Yields (fun big : Buf UInt8 => ∀ i, m ≤ i → big i = b0 i) (gatherChildren s cs o b .ret) := by
  intro cs
  induction cs with
  | nil => exact fun o b _ hb => .ret hb
  | cons c cs ih =>
    intro o b hfit hb
    rw [List.map_cons, List.sum_cons, Nat.mul_add] at hfit
    have hcount : cInt (s * c.2) = s * c.2 := cInt_eq (by omega)
    have hoffset : cInt (o + s * c.2) = o + s * c.2 := cInt_eq (by omega)
    refine .recv fun bs hlen => ih _ _ (by omega) fun i hi => ?_
    rw [hcount] at hlen
    rw [Buf.write_outside (by omega)]
    exact hb i hi

/-- **The temporary buffer** is not written behind its end, whatever the children send. -/
theorem gatherBig_yields {n r s : Nat} (hr : r < n) (hint : n * s < 2 ^ 31)
    (sendbuf bigbuf : Buf UInt8) :
    Yields (fun big : Buf UInt8 =>
        ∀ i, cInt (((treeOf n r).numChildIncl + 1) * s) ≤ i → big i = bigbuf i)
      (gatherBig (treeOf n r) sendbuf s bigbuf) := by
  have hlast := ownLast_bounds 0 (n - 1) r (Nat.zero_le _) (by omega)
  have hsize : ((treeOf n r).numChildIncl + 1) * s = s + s * (ownLast 0 (n - 1) r - r) := by
    show (ownLast 0 (n - 1) r - r + 1) * s = _
    rw [Nat.add_mul, Nat.one_mul, Nat.add_comm, Nat.mul_comm s]
  have hle : ((treeOf n r).numChildIncl + 1) * s ≤ n * s := Nat.mul_le_mul_right s (numChildIncl_lt hr)
  have hdown : (treeOf n r).childrenDown = childSizes r (ownLast 0 (n - 1) r) := childrenDown_mk _ _ _
  rw [cInt_eq (by omega), gatherBig, hdown]
  refine gatherChildren_yields (by omega) bigbuf _ _ _ ?_ fun i hi => ?_
  · rw [sum_childSizes _ _ hlast.1, hsize]
  · exact Buf.write_outside (by rw [Buf.length_read]; omega)

theorem coboAllgatherBig_yields {n r s : Nat} (hr : r < n) (hint : n * s < 2 ^ 31)
    (sendbuf recvbuf malloced : Buf UInt8) :
    Yields (fun g : Buf UInt8 × Buf UInt8 => r ≠ 0 →
        ∀ i, cInt (((treeOf n r).numChildIncl + 1) * s) ≤ i → g.2 i = malloced i)
      (coboAllgatherBig n r (treeOf n r) sendbuf s recvbuf malloced) := by
  have hgather : Yields (fun g : Buf UInt8 × Buf UInt8 => r ≠ 0 →
      ∀ i, cInt (((treeOf n r).numChildIncl + 1) * s) ≤ i → g.2 i = malloced i)
      (coboGatherTreeBig r (treeOf n r) sendbuf s recvbuf malloced) := by
    refine (gatherBig_yields hr hint sendbuf _).bind fun big hout => ?_
    by_cases h0 : r ≠ 0
    · rw [if_pos h0] at hout
      rw [if_pos h0]
      exact .send (.ret fun _ => hout)
    · rw [if_neg h0]
      exact .ret fun hne => absurd hne h0
  exact hgather.bind fun g hg => (Yields.trivially _).bind fun _ _ => .ret hg

/-- Also as a part of `cobo_allgather_str`, if the count that it is called with fits. -/
theorem coboAllgatherStr_yields {n r : Nat} (hr : r < n) (sendstr : CString) (h : StrHeap) :
    Yields (fun a : AllgatherStr => n * (readInt (a.maxlen.read 0 4)).toNatClampNeg < 2 ^ 31 →
        ∀ b, a.bigbuf = some b → ∀ i, b.size ≤ i → b.mem i = h.bigbuf i)
      (coboAllgatherStr n r (treeOf n r) sendstr h) := by
  refine (Yields.trivially _).bind fun maxlenVar _ => ?_
  by_cases hint : n * (readInt (maxlenVar.read 0 4)).toNatClampNeg < 2 ^ 31
  · refine (coboAllgatherBig_yields hr hint _ _ _).bind fun g hg => .ret fun _ b hb i hi => ?_
    dsimp only at hb
    split at hb
    · obtain rfl := Option.some.inj hb
      exact hg ‹_› i hi
    · cases hb
  · exact (Yields.trivially _).bind fun g _ => .ret fun hfits => absurd hfits hint

/-! ## The composition -/

theorem readInt_write (m : Buf UInt8) (x : Int32) : readInt ((m.write 0 (intBytes x)).read 0 4) = x := by
  have hread := Buf.read_write m 0 (intBytes x)
  rw [length_intBytes] at hread
  rw [hread, readInt_intBytes]

theorem sizeT_ofNat {k : Nat} (hk : k < 2 ^ 31) : sizeT (.ofNat k) = k := by
  have hint : (Int32.ofNat k).toInt64.toInt = k := by
    rw [Int32.toInt_toInt64, Int32.toInt_ofNat_of_lt hk]
  have hbits : (Int32.ofNat k).toInt64.toInt =
      (Int32.ofNat k).toInt64.toUInt64.toNat ∨ (Int32.ofNat k).toInt64.toInt < 0 := by
    have hcond := BitVec.toInt_eq_toNat_cond (Int32.ofNat k).toInt64.toBitVec
    split at hcond
    · exact Or.inl hcond
    · refine Or.inr (lt_of_eq_of_lt hcond ?_)
      have hlt := (Int32.ofNat k).toInt64.toBitVec.isLt
      omega
  unfold sizeT
  omega

/-- The string is in front of the padded string. -/
theorem read_padded {m : Nat} {str : CString} (hlen : str.bytes.length + 1 ≤ m) (x : Int32)
    (mem : Buf UInt8) :
    ((padded x str mem).read 0 m).take (str.bytes.length + 1) = str.bytes ++ [0] := by
  have hread := Buf.take_drop_read (padded x str mem) 0 0 (str.bytes.length + 1) m (by omega)
  have hstr := Buf.read_write (mem.write 0 (List.replicate (sizeT x) 0)) 0 (str.bytes ++ [0])
  rw [List.length_append, List.length_singleton] at hstr
  rw [List.drop_zero] at hread
  exact hread.trans hstr

/-- `memset` and `strcpy` stay in the `maxlen` bytes. -/
theorem padded_outside {m : Nat} (hm : m < 2 ^ 31) {str : CString} (hlen : str.bytes.length + 1 ≤ m)
    (mem : Buf UInt8) : ∀ i, m ≤ i → padded (.ofNat m) str mem i = mem i := by
  intro i hi
  have hsize := sizeT_ofNat hm
  rw [padded, Buf.write_outside (by rw [List.length_append, List.length_singleton]; omega),
    Buf.write_outside (by rw [List.length_replicate]; omega)]

/-- All but the temporary buffer. -/
def AllgatherStr.shown (a : AllgatherStr) : AllgatherStr := { a with bigbuf := none }

/-- What `cobo_allgather_str` shows for a maximum and a string buffer. -/
def shownFor (nprocs : Nat) (sendstr : CString) (h : StrHeap) (maxlenVar stringbuf : Buf UInt8) :
    AllgatherStr where
  maxlen := maxlenVar
  mystr :=
    { size := sizeT (readInt (maxlenVar.read 0 4))
      mem := padded (readInt (maxlenVar.read 0 4)) sendstr h.mystr }
  bigbuf := none
  stringbuf := { size := sizeT (.ofNat nprocs * readInt (maxlenVar.read 0 4)), mem := stringbuf }
  strings := (List.range nprocs).map fun i => (Int32.ofNat i * readInt (maxlenVar.read 0 4)).toInt

/-- The temporary buffer thrown away, three collectives are left. -/
theorem coboAllgatherStr_shown (n me : Nat) (t : Tree) (sendstr : CString) (h : StrHeap) :
    ((coboAllgatherStr n me t sendstr h).bind fun a => .ret a.shown) =
      (coboAllreduceMaxIntTree me t
        (h.mylen.write 0 (intBytes (.ofNat (sendstr.bytes.length + 1))))
        (h.maxlen.write 0 (intBytes 0))).bind fun maxlenVar =>
          (coboAllgather n me t (padded (readInt (maxlenVar.read 0 4)) sendstr h.mystr)
            (readInt (maxlenVar.read 0 4)).toNatClampNeg h.stringbuf h.bigbuf).bind fun stringbuf =>
              .ret (shownFor n sendstr h maxlenVar stringbuf) := by
  rw [coboAllgatherStr, Prog.bind_assoc]
  congr 1
  funext maxlenVar
  rw [coboAllgather_eq, Prog.bind_assoc, Prog.bind_assoc]
  rfl

section

variable {n : Nat} {T : Nat → Tree} (cap : Nat × Nat → ℕ∞) (str : Nat → CString)
  (heap : Nat → StrHeap) (idle : AllgatherStr)

/-- The string buffer of rank `r` in the end, if the longest string takes `m` bytes. -/
def stringbufOf (n m r : Nat) : Buf UInt8 :=
  (heap r).stringbuf.write 0 (blocks m (fun r => padded (.ofNat m) (str r) (heap r).mystr) 0 n)

/-- What rank `r` shows in the end, if the longest string takes `m` bytes. -/
def shownEnd (n m r : Nat) : AllgatherStr :=
  if r < n then shownFor n (str r) (heap r)
    (((heap r).maxlen.write 0 (intBytes 0)).write 0 (intBytes (.ofNat m))) (stringbufOf str heap n m r)
  else idle.shown

/-- The run of three collectives. -/
theorem allgatherStr_run (h1 : 1 ≤ n) (hT : ∀ r, r < n → coboComputeChildren n r = some (T r))
    (hcap : ∀ c, 1 ≤ cap c) {m : Nat} (hm : n * m < 2 ^ 31)
    (hlong : ∃ r, r < n ∧ m = (str r).bytes.length + 1)
    (hle : ∀ r, r < n → (str r).bytes.length + 1 ≤ m) :
    ReflTransGen (ByteStep cap)
      ((allgatherStrNet n T str heap idle).bind fun _ a => .ret a.shown)
      (allgatheredStr (shownEnd str heap idle n m)) := by
  have hm31 : m < 2 ^ 31 := lt_of_le_of_lt (Nat.le_mul_of_pos_left m h1) hm
  let net := (allgatherStrNet n T str heap idle).bind fun _ a => .ret a.shown
  let mylen : Nat → Buf UInt8 := fun r =>
    (heap r).mylen.write 0 (intBytes (.ofNat ((str r).bytes.length + 1)))
  let maxlen : Nat → Buf UInt8 := fun r => (heap r).maxlen.write 0 (intBytes 0)
  let top : Nat → Buf UInt8 := fun r => (maxlen r).write 0 (intBytes (.ofNat m))
  let mystr : Nat → Buf UInt8 := fun r => padded (.ofNat m) (str r) (heap r).mystr
  -- the maximum
  have hmax : IsMaxOf n (sent mylen) (.ofNat m) := by
    have hsent : ∀ r, sent mylen r = .ofNat ((str r).bytes.length + 1) := fun r => readInt_write _ _
    obtain ⟨r0, hr0, hr0m⟩ := hlong
    refine ⟨⟨r0, hr0, by rw [hsent, hr0m]⟩, fun r hr => ?_⟩
    have hr := hle r hr
    rw [hsent]
    exact (Int32.ofNat_le_iff_le (by omega) hm31).mpr hr
  let rest : Nat → Buf UInt8 → Prog Nat UInt8 AllgatherStr := fun r maxlenVar =>
    (coboAllgather n r (T r) (padded (readInt (maxlenVar.read 0 4)) (str r) (heap r).mystr)
      (readInt (maxlenVar.read 0 4)).toNatClampNeg (heap r).stringbuf (heap r).bigbuf).bind
        fun stringbuf => .ret (shownFor n (str r) (heap r) maxlenVar stringbuf)
  have hnet : ∀ r, r < n →
      net.prog r = (coboAllreduceMaxIntTree r (T r) (mylen r) (maxlen r)).bind (rest r) := by
    intro r hr
    show (if r < n then _ else _ : Prog Nat UInt8 AllgatherStr).bind _ = _
    rw [if_pos hr]
    exact coboAllgatherStr_shown n r (T r) (str r) (heap r)
  have hfirst := bind_all cap hnet fun st0 hst0 hchan =>
    allreduce_all cap mylen maxlen h1 hT hcap hst0 (fun a b _ _ _ _ => congrFun hchan (a, b)) hmax
  -- the blocks
  let mid : Net Nat UInt8 AllgatherStr :=
    { prog := fun r => if r < n then rest r (top r) else net.prog r, chan := net.chan }
  have hmid : ∀ r, r < n → mid.prog r =
      (coboAllgather n r (T r) (mystr r) m (heap r).stringbuf (heap r).bigbuf).bind
        fun stringbuf => .ret (shownFor n (str r) (heap r) (top r) stringbuf) := by
    intro r hr
    have hread : readInt ((top r).read 0 4) = .ofNat m := readInt_write _ _
    refine (if_pos hr).trans ?_
    show (coboAllgather n r (T r) (padded (readInt ((top r).read 0 4)) (str r) (heap r).mystr)
      (readInt ((top r).read 0 4)).toNatClampNeg _ _).bind _ = _
    rw [hread, Int32.toNatClampNeg_ofNat_of_lt hm31]
  have hsecond := bind_all cap hmid fun st0 hst0 hchan =>
    allgather_all cap mystr (fun r => (heap r).stringbuf) (fun r => (heap r).bigbuf) m h1 hm hT hcap
      hst0 (fun a b _ _ _ _ => congrFun hchan (a, b))
  have hend : ({ prog := fun r => if r < n then
                    .ret (shownFor n (str r) (heap r) (top r) (stringbufOf str heap n m r)) else mid.prog r
                 chan := mid.chan } : Net Nat UInt8 AllgatherStr) =
      allgatheredStr (shownEnd str heap idle n m) := by
    refine Net.ext (funext fun r => ?_) rfl
    by_cases hr : r < n
    · refine (if_pos hr).trans (congrArg Prog.ret ?_)
      exact (if_pos hr).symm
    · refine (if_neg hr).trans ((if_neg hr).trans ?_)
      show (if r < n then _ else _ : Prog Nat UInt8 AllgatherStr).bind _ = _
      rw [if_neg hr]
      exact congrArg Prog.ret (if_neg hr).symm
  exact hend ▸ hfirst.trans hsecond

/-- In the end the ranks have returned `out`, and what `out` shows is known. -/
theorem allgatherStr_endsIn (h1 : 1 ≤ n) (hT : ∀ r, r < n → coboComputeChildren n r = some (T r))
    (hcap : ∀ c, 1 ≤ cap c) {m : Nat} (hm : n * m < 2 ^ 31)
    (hlong : ∃ r, r < n ∧ m = (str r).bytes.length + 1)
    (hle : ∀ r, r < n → (str r).bytes.length + 1 ≤ m) :
    ∃ out, EndsIn (Step cap) (allgatherStrNet n T str heap idle) (allgatheredStr out) ∧
      ∀ r, r < n → (out r).shown = shownFor n (str r) (heap r)
          (((heap r).maxlen.write 0 (intBytes 0)).write 0 (intBytes (.ofNat m)))
          (stringbufOf str heap n m r) ∧
        ∀ b, (out r).bigbuf = some b → ∀ i, b.size ≤ i → b.mem i = (heap r).bigbuf i := by
  obtain ⟨u, hu, hshown⟩ := run_of_map cap
    (allgatherStr_run cap str heap idle h1 hT hcap hm hlong hle)
  have hret : ∀ r, ∃ a : AllgatherStr, u.prog r = .ret a ∧ a.shown = shownEnd str heap idle n m r := by
    intro r
    have hr : Prog.ret (shownEnd str heap idle n m r) = (u.prog r).bind fun a => .ret a.shown :=
      congrFun (congrArg Net.prog hshown) r
    cases hprog : u.prog r with
    | ret a =>
      rw [hprog] at hr
      exact ⟨a, rfl, (Prog.ret.inj hr).symm⟩
    | send => rw [hprog] at hr; cases hr
    | recv => rw [hprog] at hr; cases hr
  choose out hout hshow using hret
  have hu' : u = allgatheredStr out := Net.ext (funext hout) (congrArg Net.chan hshown).symm
  refine ⟨out, endsIn_of_run cap (hu' ▸ hu) fun r => ⟨out r, rfl⟩, fun r hr => ⟨?_, ?_⟩⟩
  · exact (hshow r).trans (if_pos hr)
  · have hstart : Yields (fun a : AllgatherStr => n * (readInt (a.maxlen.read 0 4)).toNatClampNeg < 2 ^ 31 →
        ∀ b, a.bigbuf = some b → ∀ i, b.size ≤ i → b.mem i = (heap r).bigbuf i)
        ((allgatherStrNet n T str heap idle).prog r) := by
      have htree : T r = treeOf n r := treeOf_of_some (hT r hr) hr
      show Yields _ (if r < n then _ else _)
      rw [if_pos hr, htree]
      exact coboAllgatherStr_yields hr (str r) (heap r)
    have hfinal := Yields.run cap hu hstart
    rw [hout r] at hfinal
    refine hfinal.of_ret ?_
    show n * (readInt ((out r).shown.maxlen.read 0 4)).toNatClampNeg < 2 ^ 31
    rw [hshow r, shownEnd, if_pos hr]
    show n * (readInt (Buf.read (Buf.write _ 0 (intBytes _)) 0 4)).toNatClampNeg < 2 ^ 31
    rw [readInt_write, Int32.toNatClampNeg_ofNat_of_lt (lt_of_le_of_lt (Nat.le_mul_of_pos_left m h1) hm)]
    exact hm

end

/-- **Strings are gathered in rank order**, for every interleaving of the ranks, every splitting of
    their reads and writes and all sockets that hold at least a byte: every run ends with all ranks
    returned, each with `n` pointers into its string buffer, the `i`-th to a copy of the string of
    rank `i` with its NUL; and nobody has written behind the end of what it has allocated. -/
theorem cobo_allgather_str (n : Nat) (h1 : 1 ≤ n) (T : Nat → Tree)
    (hT : ∀ r, r < n → coboComputeChildren n r = some (T r)) (cap : Nat × Nat → ℕ∞)
    (hcap : ∀ c, 1 ≤ cap c) (str : Nat → CString)
    (hint : ∀ r, r < n → n * ((str r).bytes.length + 1) < 2 ^ 31) (heap : Nat → StrHeap)
    (idle : AllgatherStr) :
    ∃ out, EndsIn (Step cap) (allgatherStrNet n T str heap idle) (allgatheredStr out) ∧
      ∀ r, r < n → (out r).strings.length = n ∧
        (∀ i, i < n → ∃ p : Nat, (out r).strings[i]? = some (p : Int) ∧
          p + (str i).bytes.length + 1 ≤ (out r).stringbuf.size ∧
          (out r).stringbuf.mem.read p ((str i).bytes.length + 1) = (str i).bytes ++ [0]) ∧
        (out r).Within (heap r) := by
  -- the longest string
  obtain ⟨m, ⟨r0, hr0, hr0m⟩, hle⟩ : ∃ m, (∃ r, r < n ∧ m = (str r).bytes.length + 1) ∧
      ∀ r, r < n → (str r).bytes.length + 1 ≤ m := by
    obtain ⟨r0, hr0, hle⟩ := Finset.exists_max_image (Finset.range n)
      (fun r => (str r).bytes.length + 1) ⟨0, Finset.mem_range.mpr h1⟩
    exact ⟨_, ⟨r0, Finset.mem_range.mp hr0, rfl⟩, fun r hr => hle r (Finset.mem_range.mpr hr)⟩
  have hm : n * m < 2 ^ 31 := hr0m ▸ hint r0 hr0
  have hm31 : m < 2 ^ 31 := lt_of_le_of_lt (Nat.le_mul_of_pos_left m h1) hm
  obtain ⟨out, hends, hout⟩ :=
    allgatherStr_endsIn cap str heap idle h1 hT hcap hm ⟨r0, hr0, hr0m⟩ hle
  refine ⟨out, hends, fun r hr => ?_⟩
  obtain ⟨hshown, hbig⟩ := hout r hr
  have hx := readInt_write ((heap r).maxlen.write 0 (intBytes 0)) (.ofNat m)
  have hstrings : (out r).strings = (List.range n).map fun i => ((i * m : Nat) : Int) := by
    show (out r).shown.strings = _
    rw [hshown, shownFor, hx]
    refine List.map_congr_left fun i hi => ?_
    have hlt : i * m < 2 ^ 31 :=
      lt_of_le_of_lt (Nat.mul_le_mul_right m (List.mem_range.mp hi).le) hm
    rw [← Int32.ofNat_mul, Int32.toInt_ofNat_of_lt hlt]
  have hsize : (out r).stringbuf.size = n * m := by
    show (out r).shown.stringbuf.size = _
    rw [hshown, shownFor, hx]
    show sizeT (.ofNat n * .ofNat m) = _
    rw [← Int32.ofNat_mul, sizeT_ofNat hm]
  have hmem : (out r).stringbuf.mem = stringbufOf str heap n m r := by
    show (out r).shown.stringbuf.mem = _
    rw [hshown, shownFor]
  have hlen : (blocks m (fun r => padded (.ofNat m) (str r) (heap r).mystr) 0 n).length = n * m := by
    rw [length_blocks, Nat.mul_comm]
  refine ⟨by rw [hstrings, List.length_map, List.length_range], fun i hi => ?_, ?_⟩
  · have hlast : i * m + m ≤ n * m := by
      rw [← Nat.succ_mul]
      exact Nat.mul_le_mul_right m hi
    have hfit := hle i hi
    refine ⟨i * m, ?_, by omega, ?_⟩
    · rw [hstrings, List.getElem?_map, List.getElem?_range hi, Option.map_some]
    · -- the string of rank `i` is in front of its block
      have hpart := Buf.read_write_sub (heap r).stringbuf 0 (i * m) ((str i).bytes.length + 1)
        (blocks m (fun r => padded (.ofNat m) (str r) (heap r).mystr) 0 n) (by omega)
      have hblock := take_drop_blocks m (fun r => padded (.ofNat m) (str r) (heap r).mystr) hi
      rw [Nat.zero_add] at hpart
      have htake := congrArg (List.take ((str i).bytes.length + 1)) hblock
      rw [List.take_take, Nat.min_eq_left hfit] at htake
      rw [hmem, stringbufOf, hpart, Nat.mul_comm i m, htake]
      exact read_padded hfit _ _
  · constructor
    · intro i hi
      show (out r).shown.maxlen i = _
      rw [hshown]
      show Buf.write _ 0 _ i = _
      rw [Buf.write_outside (Or.inr (by rwa [length_intBytes])),
        Buf.write_outside (Or.inr (by rwa [length_intBytes]))]
    · intro i hi
      have hmystr : (out r).mystr =
          { size := sizeT (.ofNat m), mem := padded (.ofNat m) (str r) (heap r).mystr } := by
        show (out r).shown.mystr = _
        rw [hshown, shownFor, hx]
      rw [hmystr] at hi ⊢
      exact padded_outside hm31 (hle r hr) _ i ((sizeT_ofNat hm31).symm.trans_le hi)
    · exact hbig
    · intro i hi
      rw [hmem]
      exact Buf.write_outside (Or.inr (by omega))

/-- Strings of different lengths. -/
def threeStrings : Nat → CString
  | 0 => .letter 0
  | 1 => .empty
  | _ => .letter 1

theorem cobo_allgather_str_three :
    ∃ out, EndsIn (Step fun _ => 1) (allgatherStrNet 3 (treeOf 3) threeStrings
        (fun _ => ⟨fun _ => 1, fun _ => 2, fun _ => 3, fun _ => 4, fun _ => 5⟩)
        ⟨fun _ => 0, ⟨0, fun _ => 0⟩, none, ⟨0, fun _ => 0⟩, []⟩) (allgatheredStr out) ∧
      ∀ r, r < 3 → (out r).strings.length = 3 ∧
        (∀ i, i < 3 → ∃ p : Nat, (out r).strings[i]? = some (p : Int) ∧
          p + (threeStrings i).bytes.length + 1 ≤ (out r).stringbuf.size ∧
          (out r).stringbuf.mem.read p ((threeStrings i).bytes.length + 1) =
            (threeStrings i).bytes ++ [0]) ∧
        (out r).Within ⟨fun _ => 1, fun _ => 2, fun _ => 3, fun _ => 4, fun _ => 5⟩ :=
  cobo_allgather_str 3 (by decide) (treeOf 3) (fun _ hr => coboComputeChildren_eq (m := 2) rfl hr)
    (fun _ => 1) (fun _ => le_refl _) threeStrings (by decide) _ _

end LaunchMON.Cobo
