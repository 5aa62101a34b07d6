/-
  The other COBO collectives over the rank tree: `cobo_bcast_tree` and `cobo_allreduce_max_int_tree`
  of `tools/cobo/src/cobo.c`, and what is built from them, `cobo_barrier` and `cobo_allgather`.

  They follow the splitting of the tree as gathering and scattering do.  A broadcasting rank passes
  the bytes on, first to the upper half (the midpoint is the first child) and then into the lower
  half (`bcast_run`); a reducing rank takes the maxima of its children, from the last to the first, so
  lower half first (`reduce_run`).  Reduction and broadcast, one after the other, are an allreduce,
  and an allreduce of a constant is a barrier.

  All runs are stated for networks in which other things wait in other channels, and in which the
  ranks go on afterwards (`bind_all`).
-/
import LaunchMON.Cobo.Collectives
import LaunchMON.Lib.Bytes

namespace LaunchMON.Cobo

open FifoNet Descent Relation Function CBytes

/-! ## The functions as the source computes them -/

/-- The loop of `cobo_bcast_tree` over the children. -/
def bcastChildren (bs : List UInt8) : List Nat → Rank → Rank
  | [], k => k
  | child :: rest, k => .send child bs (bcastChildren bs rest k)

/-- `cobo_bcast_tree` on rank `me`. -/
def coboBcastTree (me : Nat) (t : Tree) (buf : Buf UInt8) (size : Nat) : Rank :=
  let body := fun buf : Buf UInt8 => bcastChildren (buf.read 0 size) t.child (.ret buf)
  if me ≠ 0 then .recv t.parent size fun bs => body (buf.write 0 bs) else body buf

/-- The `int` in four bytes of memory. -/
def readInt (bs : List UInt8) : Int32 := ((readLe32 bs).getD 0).toInt32

/-- The four bytes of an `int`. -/
def intBytes (x : Int32) : List UInt8 := le32 x.toUInt32

/-- The loop of `cobo_allreduce_max_int_tree` over the children. -/
def reduceChildren : List Nat → Int32 → (Int32 → Rank) → Rank
  | [], maxVal, k => k maxVal
  | child :: rest, maxVal, k => .recv child 4 fun bs =>
    reduceChildren rest (if readInt bs > maxVal then readInt bs else maxVal) k

/-- `cobo_allreduce_max_int_tree` on rank `me`, up to the broadcast. -/
def reduceTree (me : Nat) (t : Tree) (sendbuf recvbuf : Buf UInt8) : Rank :=
  reduceChildren t.child.reverse (readInt (sendbuf.read 0 4)) fun maxVal =>
    if me ≠ 0 then .send t.parent (intBytes maxVal) (.ret recvbuf)
    else .ret (recvbuf.write 0 (intBytes maxVal))

/-- `cobo_allreduce_max_int_tree` on rank `me`. -/
def coboAllreduceMaxIntTree (me : Nat) (t : Tree) (sendbuf recvbuf : Buf UInt8) : Rank :=
  (reduceTree me t sendbuf recvbuf).bind fun recvbuf => coboBcastTree me t recvbuf 4

/-- `cobo_barrier` on rank `me`.  `dummy` is what the variable of this name holds. -/
def coboBarrier (me : Nat) (t : Tree) (dummy : Buf UInt8) : Rank :=
  coboAllreduceMaxIntTree me t (fun i => (intBytes 1).getD i 0) dummy

/-- `cobo_allgather` on rank `me` of `nprocs`. -/
def coboAllgather (nprocs me : Nat) (t : Tree) (sendbuf : Buf UInt8) (sendcount : Nat)
    (recvbuf malloced : Buf UInt8) : Rank :=
  (coboGatherTree me t sendbuf sendcount recvbuf malloced).bind fun recvbuf =>
    coboBcastTree me t recvbuf (cInt (sendcount * nprocs))

theorem readInt_intBytes (x : Int32) : readInt (intBytes x) = x := by
  have hread : readLe32 (intBytes x) = some x.toUInt32 := readLe32_append x.toUInt32 []
  unfold readInt
  rw [hread]
  rfl

theorem length_intBytes (x : Int32) : (intBytes x).length = 4 := rfl

/-! ## Broadcasting -/

section

variable (buf : Nat → Buf UInt8) (cap : Nat × Nat → ℕ∞)

/-- **Broadcasting over an interval.**  If `low` is at its loop over the children and the ranks
    behind it are at the start of `cobo_bcast_tree`, some schedule takes `low` through the loop and
    lets each of the others return with the bytes in its buffer. -/
theorem bcast_run (hcap : ∀ c, 1 ≤ cap c) (bs : List UInt8) : ∀ low high, low ≤ high →
    ∀ (st : Net Nat UInt8 (Buf UInt8)) (k : Rank),
    st.prog low = bcastChildren bs ((kids low high).map Prod.fst) k →
    (∀ r, low < r → r ≤ high →
      st.prog r = coboBcastTree r (nodeOf low high r) (buf r) bs.length) →
    Quiet low high st →
    ∃ st' : Net Nat UInt8 (Buf UInt8), ReflTransGen (ByteStep cap) st st' ∧
      st'.prog low = k ∧
      (∀ r, low < r → r ≤ high → st'.prog r = .ret ((buf r).write 0 bs)) ∧
      (∀ r, r < low ∨ high < r → st'.prog r = st.prog r) ∧ st'.chan = st.chan := by
  intro low high
  induction low, high using split_ind with
  | leaf low high h =>
    intro hle st k hlow _ _
    obtain rfl : low = high := by omega
    refine ⟨st, ReflTransGen.refl, ?_, fun r h1 h2 => by omega, fun _ _ => rfl, rfl⟩
    rw [hlow, kids_leaf h, List.map_nil, bcastChildren]
  | node low high h ihl ihu =>
    intro hle st k hlow hrest hquiet
    have hlm := low_lt_midpoint h
    have hmh := midpoint_le_high h
    -- the message to the midpoint
    rw [kids_node h, List.map_cons, bcastChildren] at hlow
    have hmid : st.prog (midpoint low high) = .recv low bs.length fun xs =>
        bcastChildren (Buf.read ((buf (midpoint low high)).write 0 xs) 0 bs.length)
          ((kids (midpoint low high) high).map Prod.fst)
          (.ret ((buf (midpoint low high)).write 0 xs)) := by
      rw [hrest _ hlm hmh, nodeOf_midpoint h, coboBcastTree, if_pos (by omega)]
    obtain ⟨st1, run1, low1, mid1, out1, chan1⟩ := exchange cap
      (show low ≠ midpoint low high by omega) (hcap _) hlow hmid
      (hquiet _ _ (le_refl _) hle hlm.le hmh)
    rw [Buf.read_write] at mid1
    -- the upper half
    obtain ⟨st2, run2, mid2, rest2, out2, chan2⟩ := ihu hmh st1 _ mid1
      (fun r h1 h2 => by
        rw [out1 r (by omega) (by omega), hrest r (by omega) h2, nodeOf_upper h h1 h2])
      (by unfold Quiet; rw [chan1]; exact hquiet.sub hlm.le (le_refl _))
    -- the lower half
    obtain ⟨st3, run3, low3, rest3, out3, chan3⟩ := ihl (by omega) st2 k
      ((out2 low (by omega)).trans low1)
      (fun r h1 h2 => by
        rw [out2 r (by omega), out1 r (by omega) (by omega), hrest r h1 (by omega),
          nodeOf_lower h h1 (by omega)])
      (by unfold Quiet; rw [chan2, chan1]; exact hquiet.sub (le_refl _) (by omega))
    refine ⟨st3, (run1.trans run2).trans run3, low3, fun r h1 h2 => ?_, fun r hr => ?_, ?_⟩
    · rcases Nat.lt_trichotomy r (midpoint low high) with hm | hm | hm
      · exact rest3 r h1 (by omega)
      · rw [hm, out3 _ (by omega), mid2]
      · rw [out3 r (by omega), rest2 r hm h2]
    · rw [out3 r (by omega), out2 r (by omega), out1 r (by omega) (by omega)]
    · rw [chan3, chan2, chan1]

/-! ## Reducing -/

/-- `x` is the largest of `v` and the numbers of the ranks in `(low, high]`. -/
structure Tops (val : Nat → Int32) (v : Int32) (low high : Nat) (x : Int32) : Prop where
  attained : x = v ∨ ∃ r, low < r ∧ r ≤ high ∧ x = val r
  above : v ≤ x
  bounds : ∀ r, low < r → r ≤ high → val r ≤ x

theorem reduceChildren_append (ys : List Nat) (k : Int32 → Rank) :
    ∀ xs v, reduceChildren (xs ++ ys) v k = reduceChildren xs v fun v' => reduceChildren ys v' k := by
  intro xs
  induction xs with
  | nil => intro v; rfl
  | cons c xs ih =>
    intro v
    simp only [List.cons_append, reduceChildren, ih]

/-- The maximum of two halves. -/
theorem Tops.join {val : Nat → Int32} {v v1 v2 : Int32} {low high : Nat} (h : low < high)
    (h1 : Tops val v low (midpoint low high - 1) v1)
    (h2 : Tops val (val (midpoint low high)) (midpoint low high) high v2) :
    Tops val v low high (if v2 > v1 then v2 else v1) := by
  have hlm := low_lt_midpoint h
  have hmh := midpoint_le_high h
  have hle : v1 ≤ (if v2 > v1 then v2 else v1) ∧ v2 ≤ (if v2 > v1 then v2 else v1) := by
    split
    · exact ⟨Int32.le_of_lt ‹_›, Int32.le_refl _⟩
    · exact ⟨Int32.le_refl _, Int32.not_lt.mp ‹_›⟩
  constructor
  · split
    · rcases h2.attained with rfl | ⟨r, hr1, hr2, rfl⟩
      · exact Or.inr ⟨_, hlm, hmh, rfl⟩
      · exact Or.inr ⟨r, by omega, hr2, rfl⟩
    · rcases h1.attained with rfl | ⟨r, hr1, hr2, rfl⟩
      · exact Or.inl rfl
      · exact Or.inr ⟨r, hr1, by omega, rfl⟩
  · exact Int32.le_trans h1.above hle.1
  · intro r hr1 hr2
    rcases Nat.lt_trichotomy r (midpoint low high) with hm | rfl | hm
    · exact Int32.le_trans (h1.bounds r hr1 (by omega)) hle.1
    · exact Int32.le_trans h2.above hle.2
    · exact Int32.le_trans (h2.bounds r hm hr2) hle.2

variable (sendbuf recvbuf : Nat → Buf UInt8)

/-- The number that rank `r` contributes. -/
def sent (r : Nat) : Int32 := readInt ((sendbuf r).read 0 4)

/-- **Reducing an interval.**  If `low` is at its loop over the children and the ranks behind it are at
    the start of the reduction, some schedule takes `low` through the loop, to the maximum, and the
    others to their end. -/
theorem reduce_run (hcap : ∀ c, 1 ≤ cap c) : ∀ low high, low ≤ high →
    ∀ (st : Net Nat UInt8 (Buf UInt8)) (v : Int32) (k : Int32 → Rank),
    st.prog low = reduceChildren ((kids low high).map Prod.fst).reverse v k →
    (∀ r, low < r → r ≤ high →
      st.prog r = reduceTree r (nodeOf low high r) (sendbuf r) (recvbuf r)) →
    Quiet low high st →
    ∃ (st' : Net Nat UInt8 (Buf UInt8)) (x : Int32), ReflTransGen (ByteStep cap) st st' ∧
      Tops (sent sendbuf) v low high x ∧ st'.prog low = k x ∧
      (∀ r, low < r → r ≤ high → st'.prog r = .ret (recvbuf r)) ∧
      (∀ r, r < low ∨ high < r → st'.prog r = st.prog r) ∧ st'.chan = st.chan := by
  intro low high
  induction low, high using split_ind with
  | leaf low high h =>
    intro hle st v k hlow _ _
    obtain rfl : low = high := by omega
    refine ⟨st, v, ReflTransGen.refl, ⟨Or.inl rfl, Int32.le_refl _, fun r h1 h2 => by omega⟩, ?_,
      fun r h1 h2 => by omega, fun _ _ => rfl, rfl⟩
    rw [hlow, kids_leaf h, List.map_nil, List.reverse_nil, reduceChildren]
  | node low high h ihl ihu =>
    intro hle st v k hlow hrest hquiet
    have hlm := low_lt_midpoint h
    have hmh := midpoint_le_high h
    -- the lower half
    rw [kids_node h, List.map_cons, List.reverse_cons, reduceChildren_append] at hlow
    obtain ⟨st1, v1, run1, top1, low1, rest1, out1, chan1⟩ := ihl (by omega) st v _ hlow
      (fun r h1 h2 => by rw [hrest r h1 (by omega), nodeOf_lower h h1 (by omega)])
      (hquiet.sub (le_refl _) (by omega))
    -- the upper half
    have hmid : st1.prog (midpoint low high) =
        reduceChildren ((kids (midpoint low high) high).map Prod.fst).reverse
          (sent sendbuf (midpoint low high)) fun x =>
            .send low (intBytes x) (.ret (recvbuf (midpoint low high))) := by
      rw [out1 _ (by omega), hrest _ hlm hmh, nodeOf_midpoint h, reduceTree]
      simp only [if_pos (show midpoint low high ≠ 0 by omega)]
      rfl
    obtain ⟨st2, v2, run2, top2, mid2, rest2, out2, chan2⟩ := ihu hmh st1 _ _ hmid
      (fun r h1 h2 => by rw [out1 r (by omega), hrest r (by omega) h2, nodeOf_upper h h1 h2])
      (by unfold Quiet; rw [chan1]; exact hquiet.sub hlm.le (le_refl _))
    -- the message of the midpoint
    have low2 := (out2 low (by omega)).trans low1
    rw [reduceChildren, ← length_intBytes v2] at low2
    obtain ⟨st3, run3, mid3, low3, out3, chan3⟩ := exchange cap
      (show midpoint low high ≠ low by omega) (hcap _) mid2 low2
      (by rw [chan2, chan1]; exact hquiet _ _ hlm.le hmh (le_refl _) hle)
    rw [readInt_intBytes, reduceChildren] at low3
    refine ⟨st3, _, (run1.trans run2).trans run3, top1.join h top2, low3, fun r h1 h2 => ?_,
      fun r hr => ?_, ?_⟩
    · rcases Nat.lt_trichotomy r (midpoint low high) with hm | hm | hm
      · rw [out3 r (by omega) (by omega), out2 r (by omega), rest1 r h1 (by omega)]
      · rw [hm, mid3]
      · rw [out3 r (by omega) (by omega), rest2 r hm h2]
    · rw [out3 r (by omega) (by omega), out2 r (by omega), out1 r (by omega)]
    · rw [chan3, chan2, chan1]

/-! ## Whole collectives -/

variable {n : Nat} {T : Nat → Tree}

/-- **A collective and what comes after it**: if the ranks can run `P` on their own, from whatever
    else there is, they can run it as the first part of longer programs. -/
theorem bind_all {γ : Type} {st : Net Nat UInt8 γ} {P : Nat → Rank}
    {f : Nat → Buf UInt8 → Prog Nat UInt8 γ} {out : Nat → Buf UInt8}
    (hst : ∀ r, r < n → st.prog r = (P r).bind (f r))
    (hrun : ∀ st0 : Net Nat UInt8 (Buf UInt8), (∀ r, r < n → st0.prog r = P r) →
      st0.chan = st.chan → ReflTransGen (ByteStep cap) st0 (leftWith n st0 out)) :
    ReflTransGen (ByteStep cap) st
      { prog := fun r => if r < n then f r (out r) else st.prog r, chan := st.chan } := by
  let st0 : Net Nat UInt8 (Buf UInt8) :=
    { prog := fun r => if r < n then P r else .ret fun _ => 0, chan := st.chan }
  let g : Nat → Buf UInt8 → Prog Nat UInt8 γ := fun r b => if r < n then f r b else st.prog r
  have hgo := bind_run cap g (hrun st0 (fun r hr => if_pos hr) rfl)
  have hfrom : st0.bind g = st := by
    refine Net.ext (funext fun r => ?_) rfl
    by_cases hr : r < n
    · simp [st0, g, Net.bind, hr, hst r hr]
    · simp [st0, g, Net.bind, hr, Prog.bind]
  have hto : (leftWith n st0 out).bind g =
      { prog := fun r => if r < n then f r (out r) else st.prog r, chan := st.chan } := by
    refine Net.ext (funext fun r => ?_) rfl
    by_cases hr : r < n
    · simp [g, Net.bind, leftWith, hr, Prog.bind]
    · simp [st0, g, Net.bind, leftWith, hr, Prog.bind]
  rwa [hfrom, hto] at hgo

/-- The buffers after a broadcast. -/
def bcasted (size r : Nat) : Buf UInt8 :=
  if r = 0 then buf 0 else (buf r).write 0 ((buf 0).read 0 size)

/-- A broadcast to all ranks. -/
theorem bcast_all (h1 : 1 ≤ n) (hT : ∀ r, r < n → coboComputeChildren n r = some (T r))
    (hcap : ∀ c, 1 ≤ cap c) (size : Nat) {st : Net Nat UInt8 (Buf UInt8)}
    (hst : ∀ r, r < n → st.prog r = coboBcastTree r (T r) (buf r) size)
    (hquiet : Quiet 0 (n - 1) st) :
    ReflTransGen (ByteStep cap) st (leftWith n st (bcasted buf size)) := by
  have htree : ∀ r, r < n → T r = nodeOf 0 (n - 1) r := fun r hr => treeOf_of_some (hT r hr) hr
  have hlen : ((buf 0).read 0 size).length = size := Buf.length_read _ _ _
  have hroot : st.prog 0 = bcastChildren ((buf 0).read 0 size) ((kids 0 (n - 1)).map Prod.fst)
      (.ret (buf 0)) := by
    rw [hst 0 h1, coboBcastTree, htree 0 h1, nodeOf, ownLast_self]
    rfl
  obtain ⟨st', run, root, rest, out, chan⟩ := bcast_run buf cap hcap ((buf 0).read 0 size) 0 (n - 1)
    (Nat.zero_le _) st _ hroot
    (fun r _ hr => by rw [hst r (by omega), htree r (by omega), hlen]) hquiet
  have hout : ∀ r, n ≤ r → st'.prog r = st.prog r := fun r hr => out r (by omega)
  refine leftWith_eq (fun r hr => ?_) hout chan ▸ run
  rcases Nat.eq_zero_or_pos r with rfl | hpos
  · exact root
  · rw [rest r hpos (by omega)]
    exact congrArg Prog.ret (if_neg (by omega)).symm

/-- A collective and then a broadcast of what it has left in the buffers. -/
theorem then_bcast (h1 : 1 ≤ n) (hT : ∀ r, r < n → coboComputeChildren n r = some (T r))
    (hcap : ∀ c, 1 ≤ cap c) (size : Nat) {st : Net Nat UInt8 (Buf UInt8)} {P : Nat → Rank}
    {mid : Nat → Buf UInt8}
    (hst : ∀ r, r < n → st.prog r = (P r).bind fun b => coboBcastTree r (T r) b size)
    (hquiet : Quiet 0 (n - 1) st)
    (hrun : ∀ st0 : Net Nat UInt8 (Buf UInt8), (∀ r, r < n → st0.prog r = P r) →
      st0.chan = st.chan → ReflTransGen (ByteStep cap) st0 (leftWith n st0 mid)) :
    ReflTransGen (ByteStep cap) st (leftWith n st (bcasted mid size)) := by
  let st1 : Net Nat UInt8 (Buf UInt8) :=
    { prog := fun r => if r < n then coboBcastTree r (T r) (mid r) size else st.prog r
      chan := st.chan }
  have hsecond : ReflTransGen (ByteStep cap) st1 (leftWith n st1 (bcasted mid size)) :=
    bcast_all mid cap h1 hT hcap size (fun r hr => if_pos hr) hquiet
  have hlast : leftWith n st1 (bcasted mid size) = leftWith n st (bcasted mid size) := by
    refine leftWith_eq (fun r hr => if_pos hr) (fun r hr => ?_) rfl
    exact (if_neg (Nat.not_lt.mpr hr)).trans (if_neg (Nat.not_lt.mpr hr))
  exact (bind_all cap hst hrun).trans (hlast ▸ hsecond)

/-- `x` is the maximum of what the `n` ranks contribute. -/
def IsMaxOf (n : Nat) (val : Nat → Int32) (x : Int32) : Prop :=
  (∃ r, r < n ∧ x = val r) ∧ ∀ r, r < n → val r ≤ x

theorem IsMaxOf.unique {val : Nat → Int32} {x y : Int32} (hx : IsMaxOf n val x)
    (hy : IsMaxOf n val y) : x = y := by
  obtain ⟨⟨r, hr, rfl⟩, hle⟩ := hx
  obtain ⟨⟨r', hr', rfl⟩, hle'⟩ := hy
  exact Int32.le_antisymm (hle' r hr) (hle r' hr')

theorem exists_isMaxOf (val : Nat → Int32) (h1 : 1 ≤ n) : ∃ x, IsMaxOf n val x := by
  induction n, h1 using Nat.le_induction with
  | base =>
    refine ⟨val 0, ⟨0, Nat.one_pos, rfl⟩, fun r hr => ?_⟩
    rw [Nat.lt_one_iff.mp hr]
    exact Int32.le_refl _
  | succ m _ ih =>
    obtain ⟨x, ⟨r, hr, rfl⟩, hle⟩ := ih
    rcases Int32.le_total (val r) (val m) with hcmp | hcmp
    · refine ⟨val m, ⟨m, Nat.lt_succ_self m, rfl⟩, fun i hi => ?_⟩
      rcases Nat.lt_succ_iff_lt_or_eq.mp hi with hlt | rfl
      · exact Int32.le_trans (hle i hlt) hcmp
      · exact Int32.le_refl _
    · refine ⟨val r, ⟨r, Nat.lt_succ_of_lt hr, rfl⟩, fun i hi => ?_⟩
      rcases Nat.lt_succ_iff_lt_or_eq.mp hi with hlt | rfl
      · exact hle i hlt
      · exact hcmp

/-- The receive buffers after a reduction. -/
def reduced (x : Int32) (r : Nat) : Buf UInt8 :=
  if r = 0 then (recvbuf 0).write 0 (intBytes x) else recvbuf r

/-- A reduction to rank 0. -/
theorem reduce_all (h1 : 1 ≤ n) (hT : ∀ r, r < n → coboComputeChildren n r = some (T r))
    (hcap : ∀ c, 1 ≤ cap c) {st : Net Nat UInt8 (Buf UInt8)}
    (hst : ∀ r, r < n → st.prog r = reduceTree r (T r) (sendbuf r) (recvbuf r))
    (hquiet : Quiet 0 (n - 1) st) {x : Int32} (hx : IsMaxOf n (sent sendbuf) x) :
    ReflTransGen (ByteStep cap) st (leftWith n st (reduced recvbuf x)) := by
  have htree : ∀ r, r < n → T r = nodeOf 0 (n - 1) r := fun r hr => treeOf_of_some (hT r hr) hr
  have hroot : st.prog 0 = reduceChildren ((kids 0 (n - 1)).map Prod.fst).reverse (sent sendbuf 0)
      fun x => .ret ((recvbuf 0).write 0 (intBytes x)) := by
    rw [hst 0 h1, reduceTree, htree 0 h1, nodeOf, ownLast_self]
    rfl
  obtain ⟨st', y, run, top, root, rest, out, chan⟩ := reduce_run cap sendbuf recvbuf hcap 0 (n - 1)
    (Nat.zero_le _) st _ _ hroot (fun r _ hr => by rw [hst r (by omega), htree r (by omega)]) hquiet
  have hy : IsMaxOf n (sent sendbuf) y := by
    refine ⟨?_, fun r hr => ?_⟩
    · rcases top.attained with h | ⟨r, -, hr, h⟩
      · exact ⟨0, h1, h⟩
      · exact ⟨r, by omega, h⟩
    · rcases Nat.eq_zero_or_pos r with rfl | hpos
      · exact top.above
      · exact top.bounds r hpos (by omega)
  have hout : ∀ r, n ≤ r → st'.prog r = st.prog r := fun r hr => out r (by omega)
  refine leftWith_eq (fun r hr => ?_) hout chan ▸ run
  rcases Nat.eq_zero_or_pos r with rfl | hpos
  · rw [root, hy.unique hx]
    rfl
  · rw [rest r hpos (by omega)]
    exact congrArg Prog.ret (if_neg (by omega)).symm

/-- An allreduce: a reduction, and a broadcast of what rank 0 has got. -/
theorem allreduce_all (h1 : 1 ≤ n) (hT : ∀ r, r < n → coboComputeChildren n r = some (T r))
    (hcap : ∀ c, 1 ≤ cap c) {st : Net Nat UInt8 (Buf UInt8)}
    (hst : ∀ r, r < n → st.prog r = coboAllreduceMaxIntTree r (T r) (sendbuf r) (recvbuf r))
    (hquiet : Quiet 0 (n - 1) st) {x : Int32} (hx : IsMaxOf n (sent sendbuf) x) :
    ReflTransGen (ByteStep cap) st (leftWith n st fun r => (recvbuf r).write 0 (intBytes x)) := by
  have hrun := then_bcast cap h1 hT hcap 4 hst hquiet fun st0 hst0 hchan =>
    reduce_all cap sendbuf recvbuf h1 hT hcap hst0 (by unfold Quiet; rw [hchan]; exact hquiet) hx
  have hall : bcasted (reduced recvbuf x) 4 = fun r => (recvbuf r).write 0 (intBytes x) := by
    funext r
    have hroot : reduced recvbuf x 0 = (recvbuf 0).write 0 (intBytes x) := if_pos rfl
    have hread := Buf.read_write (recvbuf 0) 0 (intBytes x)
    rw [length_intBytes] at hread
    unfold bcasted
    rw [hroot, hread]
    rcases Nat.eq_zero_or_pos r with rfl | hpos
    · rfl
    · rw [if_neg (by omega)]
      unfold reduced
      rw [if_neg (by omega)]
  rwa [hall] at hrun

/-- A gather, and a broadcast of what rank 0 has got. -/
theorem allgather_all (malloced : Nat → Buf UInt8) (s : Nat) (h1 : 1 ≤ n) (hint : n * s < 2 ^ 31)
    (hT : ∀ r, r < n → coboComputeChildren n r = some (T r)) (hcap : ∀ c, 1 ≤ cap c)
    {st : Net Nat UInt8 (Buf UInt8)} (hst : ∀ r, r < n → st.prog r =
      coboAllgather n r (T r) (sendbuf r) s (recvbuf r) (malloced r)) (hquiet : Quiet 0 (n - 1) st) :
    ReflTransGen (ByteStep cap) st
      (leftWith n st fun r => (recvbuf r).write 0 (blocks s sendbuf 0 n)) := by
  have hsize : cInt (s * n) = (blocks s sendbuf 0 n).length := by
    rw [length_blocks, cInt_eq (by rwa [Nat.mul_comm])]
  have hrun := then_bcast cap h1 hT hcap (cInt (s * n)) hst hquiet fun st0 hst0 hchan =>
    gather_all s sendbuf recvbuf malloced cap h1 hint hT hcap hst0
      (by unfold Quiet; rw [hchan]; exact hquiet)
  have hall : bcasted (gathered s sendbuf recvbuf n) (cInt (s * n)) =
      fun r => (recvbuf r).write 0 (blocks s sendbuf 0 n) := by
    funext r
    have hroot : gathered s sendbuf recvbuf n 0 = (recvbuf 0).write 0 (blocks s sendbuf 0 n) :=
      if_pos rfl
    unfold bcasted
    rw [hroot, hsize, Buf.read_write]
    rcases Nat.eq_zero_or_pos r with rfl | hpos
    · rfl
    · rw [if_neg (by omega)]
      unfold gathered
      rw [if_neg (by omega)]
  rwa [hall] at hrun

end

end LaunchMON.Cobo
