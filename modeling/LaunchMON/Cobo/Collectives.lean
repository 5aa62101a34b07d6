/-
  The COBO collectives over the rank tree: `cobo_gather_tree` and `cobo_scatter_tree` of
  `tools/cobo/src/cobo.c`.

  Every rank runs its collective as a sequential program that reads from and writes to the sockets of
  its tree neighbours.  A gathering rank packs its own block and what its children send, from the
  last child to the first, behind one another into a buffer, and sends the buffer to its parent.  A
  scattering rank receives the blocks of its subtree in one buffer and sends each child its part.

  The buffer of a subtree is in rank order because the last child of a rank roots the lowest ranks
  below it: walked backwards, the children of `low` in `[low, high]` are those of its lower half and
  then the midpoint (`childSizes_node`).  `gather_run` and `scatter_run` therefore follow the
  splitting of the tree: first the lower half, then the upper half, then one message between
  `low` and the midpoint.  They give ONE schedule in which everybody returns; `FifoNet.endsIn_of_run`
  turns it into a statement about all of them.
-/
import LaunchMON.Cobo.Tree
import LaunchMON.Lib.Buf
import LaunchMON.Lib.FifoNet

namespace LaunchMON.Cobo

open FifoNet Descent Relation Function

/-! ## The functions as the source computes them -/

/-- A byte count or an offset computed as an `int`, as a count of bytes: if it comes out negative,
    `cobo_read_fd` and `cobo_write_fd` transfer nothing. -/
def cInt (z : Nat) : Nat := if z % 2 ^ 32 < 2 ^ 31 then z % 2 ^ 32 else 0

theorem cInt_eq {z : Nat} (h : z < 2 ^ 31) : cInt z = z := by
  unfold cInt
  split <;> omega

/-- A program of one rank; its result is the contents of its `recvbuf`. -/
abbrev Rank := Prog Nat UInt8 (Buf UInt8)

/-- The children from the last to the first, each with its `cobo_child_incl`. -/
def Tree.childrenDown (t : Tree) : List (Nat × Nat) := (t.child.zip t.childIncl).reverse

/-- The loop of `cobo_gather_tree` over the children. -/
def gatherChildren (sendcount : Nat) :
    List (Nat × Nat) → Nat → Buf UInt8 → (Buf UInt8 → Rank) → Rank
  | [], _, bigbuf, k => k bigbuf
  | (child, incl) :: rest, offset, bigbuf, k =>
    .recv child (cInt (sendcount * incl)) fun bs =>
      gatherChildren sendcount rest (cInt (offset + sendcount * incl)) (bigbuf.write offset bs) k

/-- `cobo_gather_tree` on rank `me`.  `malloced` is what the temporary buffer holds at first. -/
def coboGatherTree (me : Nat) (t : Tree) (sendbuf : Buf UInt8) (sendcount : Nat)
    (recvbuf malloced : Buf UInt8) : Rank :=
  let bigcount := cInt ((t.numChildIncl + 1) * sendcount)
  let bigbuf := if me ≠ 0 then malloced else recvbuf
  let bigbuf := bigbuf.write 0 (sendbuf.read 0 sendcount)
  gatherChildren sendcount t.childrenDown sendcount bigbuf fun bigbuf =>
    if me ≠ 0 then .send t.parent (bigbuf.read 0 bigcount) (.ret recvbuf) else .ret bigbuf

/-- The loop of `cobo_scatter_tree` over the children. -/
def scatterChildren (sendcount : Nat) (bigbuf : Buf UInt8) : List (Nat × Nat) → Nat → Rank → Rank
  | [], _, k => k
  | (child, incl) :: rest, offset, k =>
    .send child (bigbuf.read offset (cInt (sendcount * incl)))
      (scatterChildren sendcount bigbuf rest (cInt (offset + sendcount * incl)) k)

/-- `cobo_scatter_tree` on rank `me`. -/
def coboScatterTree (me : Nat) (t : Tree) (sendbuf : Buf UInt8) (sendcount : Nat)
    (recvbuf malloced : Buf UInt8) : Rank :=
  let bigcount := cInt ((t.numChildIncl + 1) * sendcount)
  let body := fun bigbuf : Buf UInt8 =>
    scatterChildren sendcount bigbuf t.childrenDown sendcount
      (.ret (recvbuf.write 0 (bigbuf.read 0 sendcount)))
  if me ≠ 0 then .recv t.parent bigcount fun bs => body (malloced.write 0 bs) else body sendbuf

/-! ## The loops along the splitting -/

/-- The children of `low` in `[low, high]` in the order the loops visit them, with the number of
    ranks below and including each. -/
def childSizes (low high : Nat) : List (Nat × Nat) :=
  (kids low high).reverse.map fun k => (k.1, k.2 - k.1 + 1)

theorem childSizes_leaf {low high : Nat} (h : ¬ low < high) : childSizes low high = [] := by
  rw [childSizes, kids_leaf h]; rfl

/-- Backwards, the midpoint comes last. -/
theorem childSizes_node {low high : Nat} (h : low < high) :
    childSizes low high = childSizes low (midpoint low high - 1) ++
      [(midpoint low high, high - midpoint low high + 1)] := by
  simp only [childSizes, kids_node h, List.reverse_cons, List.map_append, List.map_cons,
    List.map_nil]

theorem childrenDown_mk (p m : Nat) (ks : List (Nat × Nat)) :
    Tree.childrenDown { parent := p
                        child := ks.map Prod.fst
                        childIncl := ks.map fun k => k.2 - k.1 + 1
                        numChildIncl := m } = ks.reverse.map fun k => (k.1, k.2 - k.1 + 1) := by
  rw [Tree.childrenDown, List.zip_map', ← List.map_reverse]

/-- The offset behind a list of children. -/
def offsetAfter (sendcount : Nat) (cs : List (Nat × Nat)) (offset : Nat) : Nat :=
  cs.foldl (fun o c => cInt (o + sendcount * c.2)) offset

theorem gatherChildren_append (s : Nat) (ys : List (Nat × Nat)) (k : Buf UInt8 → Rank) :
    ∀ xs o b, gatherChildren s (xs ++ ys) o b k =
      gatherChildren s xs o b fun b' => gatherChildren s ys (offsetAfter s xs o) b' k := by
  intro xs
  induction xs with
  | nil => intro o b; rfl
  | cons c xs ih =>
    intro o b
    simp only [List.cons_append, gatherChildren, ih, offsetAfter, List.foldl_cons]

theorem scatterChildren_append (s : Nat) (b : Buf UInt8) (ys : List (Nat × Nat)) (k : Rank) :
    ∀ xs o, scatterChildren s b (xs ++ ys) o k =
      scatterChildren s b xs o (scatterChildren s b ys (offsetAfter s xs o) k) := by
  intro xs
  induction xs with
  | nil => intro o; rfl
  | cons c xs ih =>
    intro o
    simp only [List.cons_append, scatterChildren, ih, offsetAfter, List.foldl_cons]

/-- The children of `low` account for all ranks behind it. -/
theorem offsetAfter_childSizes (s : Nat) : ∀ low high o, low ≤ high →
    o + s * (high - low) < 2 ^ 31 →
    offsetAfter s (childSizes low high) o = o + s * (high - low) := by
  intro low high
  induction low, high using split_ind with
  | leaf low high h =>
    intro o hle _
    rw [childSizes_leaf h, show high - low = 0 by omega]; rfl
  | node low high h ihl _ =>
    intro o _ hb
    have hlm := low_lt_midpoint h
    have hmh := midpoint_le_high h
    have hsplit : s * (high - low) = s * (midpoint low high - 1 - low) +
        s * (high - midpoint low high + 1) := by
      rw [← Nat.mul_add]; congr 1; omega
    rw [childSizes_node h, offsetAfter, List.foldl_append]
    have ih := ihl o (by omega) (by omega)
    rw [offsetAfter] at ih
    rw [ih, List.foldl_cons, List.foldl_nil]
    show cInt (o + s * (midpoint low high - 1 - low) + s * (high - midpoint low high + 1)) = _
    rw [cInt_eq (by omega)]
    omega

/-- Nothing is on its way between the ranks of `[low, high]`. -/
def Quiet {α : Type*} (low high : Nat) (st : Net Nat UInt8 α) : Prop :=
  ∀ a b, low ≤ a → a ≤ high → low ≤ b → b ≤ high → st.chan (a, b) = []

theorem Quiet.sub {α : Type*} {low high low' high' : Nat} {st : Net Nat UInt8 α}
    (h : Quiet low high st) (hlow : low ≤ low') (hhigh : high' ≤ high) : Quiet low' high' st :=
  fun a b h1 h2 h3 h4 => h a b (by omega) (by omega) (by omega) (by omega)

/-! ## Gathering -/

section

variable (s : Nat) (sendbuf recvbuf malloced : Nat → Buf UInt8) (cap : Nat × Nat → ℕ∞)

/-- The block that rank `r` contributes. -/
def block (r : Nat) : List UInt8 := (sendbuf r).read 0 s

/-- The blocks of the ranks `lo, …, lo + k - 1`. -/
def blocks (lo k : Nat) : List UInt8 := (List.range' lo k).flatMap (block s sendbuf)

theorem length_blocks (lo k : Nat) : (blocks s sendbuf lo k).length = s * k := by
  induction k generalizing lo with
  | zero => rfl
  | succ k ih =>
    rw [blocks, List.range'_succ, List.flatMap_cons, List.length_append]
    have ih := ih (lo + 1)
    rw [blocks] at ih
    rw [ih, block, Buf.length_read, Nat.mul_succ, Nat.add_comm]

theorem blocks_add (lo a b : Nat) :
    blocks s sendbuf lo (a + b) = blocks s sendbuf lo a ++ blocks s sendbuf (lo + a) b := by
  rw [blocks, blocks, blocks, ← List.flatMap_append, List.range'_append_1]

theorem blocks_one (lo : Nat) : blocks s sendbuf lo 1 = block s sendbuf lo := by
  simp [blocks]

/-- The buffer of a subtree of two halves. -/
theorem mul_split (s : Nat) {low high : Nat} (h : low < high) :
    s * (high - low) = s * (midpoint low high - 1 - low) + s * (high - midpoint low high + 1) := by
  have := low_lt_midpoint h
  have := midpoint_le_high h
  rw [← Nat.mul_add]
  congr 1
  omega

/-- The program of the midpoint in a gather: pack the upper half, send it to `low`. -/
theorem coboGatherTree_midpoint {low high : Nat} (h : low < high)
    (hint : s * (high - low) < 2 ^ 31) :
    coboGatherTree (midpoint low high) (nodeOf low high (midpoint low high))
        (sendbuf (midpoint low high)) s (recvbuf (midpoint low high)) (malloced (midpoint low high)) =
      gatherChildren s (childSizes (midpoint low high) high) s
        ((malloced (midpoint low high)).write 0 (block s sendbuf (midpoint low high))) fun b =>
        .send low (b.read 0 (s * (high - midpoint low high + 1)))
          (.ret (recvbuf (midpoint low high))) := by
  have hlm := low_lt_midpoint h
  have hsplit := mul_split s h
  have hne : midpoint low high ≠ 0 := by omega
  rw [coboGatherTree, nodeOf_midpoint h, childrenDown_mk]
  simp only [if_pos hne, Nat.mul_comm _ s, cInt_eq (show
    s * (high - midpoint low high + 1) < 2 ^ 31 by omega)]
  rfl

/-- **Gathering an interval.**  If `low` is at its loop over the children and the ranks behind it are
    at the start of `cobo_gather_tree`, some schedule takes `low` through the loop, with the blocks
    behind it in its buffer in rank order, and the others to their end. -/
theorem gather_run (hcap : ∀ c, 1 ≤ cap c) : ∀ low high, low ≤ high →
    ∀ (st : Net Nat UInt8 (Buf UInt8)) (o : Nat) (b : Buf UInt8) (k : Buf UInt8 → Rank),
    o + s * (high - low) < 2 ^ 31 →
    st.prog low = gatherChildren s (childSizes low high) o b k →
    (∀ r, low < r → r ≤ high → st.prog r =
      coboGatherTree r (nodeOf low high r) (sendbuf r) s (recvbuf r) (malloced r)) →
    Quiet low high st →
    ∃ st' : Net Nat UInt8 (Buf UInt8), ReflTransGen (ByteStep cap) st st' ∧
      st'.prog low = k (b.write o (blocks s sendbuf (low + 1) (high - low))) ∧
      (∀ r, low < r → r ≤ high → st'.prog r = .ret (recvbuf r)) ∧
      (∀ r, r < low ∨ high < r → st'.prog r = st.prog r) ∧ st'.chan = st.chan := by
  intro low high
  induction low, high using split_ind with
  | leaf low high h =>
    intro hle st o b k _ hlow _ _
    obtain rfl : low = high := by omega
    refine ⟨st, ReflTransGen.refl, ?_, fun r h1 h2 => by omega, fun _ _ => rfl, rfl⟩
    rw [hlow, childSizes_leaf h, gatherChildren, Nat.sub_self]
    simp [blocks]
  | node low high h ihl ihu =>
    intro hle st o b k ho hlow hrest hchan
    have hlm := low_lt_midpoint h
    have hmh := midpoint_le_high h
    have hsplit := mul_split s h
    have hmul : s * (high - midpoint low high + 1) = s + s * (high - midpoint low high) := by
      rw [Nat.mul_succ, Nat.add_comm]
    -- the lower half
    rw [childSizes_node h, gatherChildren_append, offsetAfter_childSizes s low _ o (by omega)
      (by omega)] at hlow
    obtain ⟨st1, run1, low1, rest1, out1, chan1⟩ := ihl (by omega) st o b _ (by omega)
      hlow (fun r h1 h2 => by rw [hrest r h1 (by omega), nodeOf_lower h h1 (by omega)])
      (hchan.sub (le_refl _) (by omega))
    -- the upper half
    obtain ⟨st2, run2, mid2, rest2, out2, chan2⟩ := ihu hmh st1 s _ _ (by omega)
      ((out1 _ (by omega)).trans ((hrest _ hlm hmh).trans
        (coboGatherTree_midpoint s sendbuf recvbuf malloced h (by omega))))
      (fun r h1 h2 => by rw [out1 r (by omega), hrest r (by omega) h2, nodeOf_upper h h1 h2])
      (by unfold Quiet; rw [chan1]; exact hchan.sub hlm.le (le_refl _))
    -- the message of the midpoint
    have hmsg : blocks s sendbuf (midpoint low high) (high - midpoint low high + 1) =
        block s sendbuf (midpoint low high) ++
          blocks s sendbuf (midpoint low high + 1) (high - midpoint low high) := by
      rw [Nat.add_comm, blocks_add, blocks_one]
    have hlen : (block s sendbuf (midpoint low high)).length = s := by rw [block, Buf.length_read]
    have hpack := Buf.write_write (malloced (midpoint low high)) 0
      (block s sendbuf (midpoint low high))
      (blocks s sendbuf (midpoint low high + 1) (high - midpoint low high))
    rw [hlen, Nat.zero_add, ← hmsg] at hpack
    have hread := Buf.read_write (malloced (midpoint low high)) 0
      (blocks s sendbuf (midpoint low high) (high - midpoint low high + 1))
    rw [length_blocks] at hread
    rw [hpack, hread] at mid2
    have low2 := (out2 low (by omega)).trans low1
    rw [gatherChildren, cInt_eq (by omega), ← length_blocks s sendbuf (midpoint low high)] at low2
    obtain ⟨st3, run3, mid3, low3, out3, chan3⟩ := exchange cap
      (show midpoint low high ≠ low by omega) (hcap _) mid2 low2
      (by rw [chan2, chan1]; exact hchan _ _ hlm.le hmh (le_refl _) hle)
    refine ⟨st3, (run1.trans run2).trans run3, ?_, fun r h1 h2 => ?_, fun r hr => ?_, ?_⟩
    · have hall : blocks s sendbuf (low + 1) (high - low) =
          blocks s sendbuf (low + 1) (midpoint low high - 1 - low) ++
            blocks s sendbuf (midpoint low high) (high - midpoint low high + 1) := by
        have := blocks_add s sendbuf (low + 1) (midpoint low high - 1 - low)
          (high - midpoint low high + 1)
        rwa [show midpoint low high - 1 - low + (high - midpoint low high + 1) = high - low by omega,
          show low + 1 + (midpoint low high - 1 - low) = midpoint low high by omega] at this
      rw [low3, gatherChildren, hall, ← Buf.write_write, length_blocks]
    · rcases Nat.lt_trichotomy r (midpoint low high) with hm | hm | hm
      · rw [out3 r (by omega) (by omega), out2 r (by omega), rest1 r h1 (by omega)]
      · rw [hm, mid3]
      · rw [out3 r (by omega) (by omega), rest2 r hm h2]
    · rw [out3 r (by omega) (by omega), out2 r (by omega), out1 r (by omega)]
    · rw [chan3, chan2, chan1]

/-! ## Scattering -/

/-- The program of the midpoint in a scatter: receive the upper half from `low`, send it on. -/
theorem coboScatterTree_midpoint {low high : Nat} (h : low < high)
    (hint : s * (high - low) < 2 ^ 31) :
    coboScatterTree (midpoint low high) (nodeOf low high (midpoint low high))
        (sendbuf (midpoint low high)) s (recvbuf (midpoint low high)) (malloced (midpoint low high)) =
      .recv low (s * (high - midpoint low high + 1)) fun bs =>
        scatterChildren s ((malloced (midpoint low high)).write 0 bs)
          (childSizes (midpoint low high) high) s
          (.ret ((recvbuf (midpoint low high)).write 0
            (((malloced (midpoint low high)).write 0 bs).read 0 s))) := by
  have hlm := low_lt_midpoint h
  have hsplit := mul_split s h
  have hne : midpoint low high ≠ 0 := by omega
  rw [coboScatterTree, nodeOf_midpoint h, childrenDown_mk]
  simp only [if_pos hne, Nat.mul_comm _ s, cInt_eq (show
    s * (high - midpoint low high + 1) < 2 ^ 31 by omega)]
  rfl

/-- **Scattering over an interval.**  If `low` is at its loop over the children, with the blocks of
    the ranks behind it at offset `o` of its buffer, and these ranks are at the start of
    `cobo_scatter_tree`, some schedule takes `low` through the loop and lets each of the others return
    its block. -/
theorem scatter_run (hcap : ∀ c, 1 ≤ cap c) : ∀ low high, low ≤ high →
    ∀ (st : Net Nat UInt8 (Buf UInt8)) (o : Nat) (b : Buf UInt8) (k : Rank),
    o + s * (high - low) < 2 ^ 31 →
    st.prog low = scatterChildren s b (childSizes low high) o k →
    (∀ r, low < r → r ≤ high → st.prog r =
      coboScatterTree r (nodeOf low high r) (sendbuf r) s (recvbuf r) (malloced r)) →
    Quiet low high st →
    ∃ st' : Net Nat UInt8 (Buf UInt8), ReflTransGen (ByteStep cap) st st' ∧
      st'.prog low = k ∧
      (∀ r, low < r → r ≤ high → st'.prog r =
        .ret ((recvbuf r).write 0 (b.read (o + s * (r - low - 1)) s))) ∧
      (∀ r, r < low ∨ high < r → st'.prog r = st.prog r) ∧ st'.chan = st.chan := by
  intro low high
  induction low, high using split_ind with
  | leaf low high h =>
    intro hle st o b k _ hlow _ _
    obtain rfl : low = high := by omega
    refine ⟨st, ReflTransGen.refl, ?_, fun r h1 h2 => by omega, fun _ _ => rfl, rfl⟩
    rw [hlow, childSizes_leaf h, scatterChildren]
  | node low high h ihl ihu =>
    intro hle st o b k ho hlow hrest hchan
    have hlm := low_lt_midpoint h
    have hmh := midpoint_le_high h
    have hsplit := mul_split s h
    have hmul : s * (high - midpoint low high + 1) = s + s * (high - midpoint low high) := by
      rw [Nat.mul_succ, Nat.add_comm]
    -- the lower half
    rw [childSizes_node h, scatterChildren_append, offsetAfter_childSizes s low _ o (by omega)
      (by omega)] at hlow
    obtain ⟨st1, run1, low1, rest1, out1, chan1⟩ := ihl (by omega) st o b _ (by omega)
      hlow (fun r h1 h2 => by rw [hrest r h1 (by omega), nodeOf_lower h h1 (by omega)])
      (hchan.sub (le_refl _) (by omega))
    -- the message to the midpoint
    have mid1 := (out1 _ (by omega)).trans ((hrest _ hlm hmh).trans
      (coboScatterTree_midpoint s sendbuf recvbuf malloced h (by omega)))
    rw [scatterChildren, cInt_eq (by omega), scatterChildren] at low1
    obtain ⟨st2, run2, low2, mid2, out2, chan2⟩ := exchange cap
      (show low ≠ midpoint low high by omega) (hcap _) low1 (by rw [mid1, Buf.length_read])
      (by rw [chan1]; exact hchan _ _ (le_refl _) hle hlm.le hmh)
    -- the upper half
    obtain ⟨st3, run3, mid3, rest3, out3, chan3⟩ := ihu hmh st2 s _ _ (by omega) mid2
      (fun r h1 h2 => by
        rw [out2 r (by omega) (by omega), out1 r (by omega), hrest r (by omega) h2,
          nodeOf_upper h h1 h2])
      (by unfold Quiet; rw [chan2, chan1]; exact hchan.sub hlm.le (le_refl _))
    -- block `j` of the midpoint's buffer is block `mid - low - 1 + j` of the buffer of `low`
    have hpart : ∀ j, j ≤ high - midpoint low high →
        ((malloced (midpoint low high)).write 0 (b.read (o + s * (midpoint low high - 1 - low))
          (s * (high - midpoint low high + 1)))).read (0 + s * j) s =
        b.read (o + s * (midpoint low high + j - low - 1)) s := by
      intro j hj
      have hfit : s * j + s ≤ s * (high - midpoint low high + 1) := by
        rw [← Nat.mul_succ]; exact Nat.mul_le_mul_left s (by omega)
      rw [Buf.read_write_sub _ _ _ _ _ (by rwa [Buf.length_read]), Buf.take_drop_read _ _ _ _ _ hfit,
        Nat.add_assoc, ← Nat.mul_add]
      congr 3
      omega
    refine ⟨st3, (run1.trans run2).trans run3, ?_, fun r h1 h2 => ?_, fun r hr => ?_, ?_⟩
    · rw [out3 low (by omega), low2]
    · rcases Nat.lt_trichotomy r (midpoint low high) with hm | hm | hm
      · rw [out3 r (by omega), out2 r (by omega) (by omega), rest1 r h1 (by omega)]
      · have := hpart 0 (Nat.zero_le _)
        rw [Nat.mul_zero, ← hm] at this
        rw [hm, mid3, ← hm, this, Nat.add_zero]
      · have := hpart (r - midpoint low high) (by omega)
        rw [show midpoint low high + (r - midpoint low high) = r by omega] at this
        rw [rest3 r hm h2, ← this, show s + s * (r - midpoint low high - 1) =
          0 + s * (r - midpoint low high) by
            rw [Nat.zero_add, Nat.add_comm, ← Nat.mul_succ]; congr 1; omega]
    · rw [out3 r (by omega), out2 r (by omega) (by omega), out1 r (by omega)]
    · rw [chan3, chan2, chan1]

/-! ## Whole collectives -/

variable (n : Nat) (T : Nat → Tree)

/-- All ranks at the start of `cobo_gather_tree`. -/
def gatherNet : Net Nat UInt8 (Buf UInt8) where
  prog r := if r < n then coboGatherTree r (T r) (sendbuf r) s (recvbuf r) (malloced r)
    else .ret (recvbuf r)
  chan _ := []

/-- All ranks at the start of `cobo_scatter_tree`. -/
def scatterNet : Net Nat UInt8 (Buf UInt8) where
  prog r := if r < n then coboScatterTree r (T r) (sendbuf r) s (recvbuf r) (malloced r)
    else .ret (recvbuf r)
  chan _ := []

/-- All ranks have returned, rank `r` with `out r` in its receive buffer, and the sockets are
    empty. -/
def returned (out : Nat → Buf UInt8) : Net Nat UInt8 (Buf UInt8) where
  prog r := .ret (out r)
  chan _ := []

theorem returned_finished (out : Nat → Buf UInt8) : (returned out).Finished := fun r => ⟨out r, rfl⟩

/-- The receive buffers after a gather. -/
def gathered (r : Nat) : Buf UInt8 :=
  if r = 0 then (recvbuf 0).write 0 (blocks s sendbuf 0 n) else recvbuf r

/-- The receive buffers after a scatter. -/
def scattered (r : Nat) : Buf UInt8 :=
  if r < n then (recvbuf r).write 0 ((sendbuf 0).read (s * r) s) else recvbuf r

variable {n T}

theorem gatherNet_prog {r : Nat} (hr : r < n) : (gatherNet s sendbuf recvbuf malloced n T).prog r =
    coboGatherTree r (T r) (sendbuf r) s (recvbuf r) (malloced r) := if_pos hr

theorem scatterNet_prog {r : Nat} (hr : r < n) :
    (scatterNet s sendbuf recvbuf malloced n T).prog r =
      coboScatterTree r (T r) (sendbuf r) s (recvbuf r) (malloced r) := if_pos hr

/-- The size of all blocks: the root's own and the others. -/
theorem mul_root (s : Nat) {n : Nat} (h1 : 1 ≤ n) : n * s = s + s * (n - 1) := by
  rw [Nat.add_comm, ← Nat.mul_succ, Nat.mul_comm]
  congr 1
  omega

/-- The ranks have returned `out`; whatever else there is stays as it is. -/
def leftWith (n : Nat) (st : Net Nat UInt8 (Buf UInt8)) (out : Nat → Buf UInt8) :
    Net Nat UInt8 (Buf UInt8) where
  prog r := if r < n then .ret (out r) else st.prog r
  chan := st.chan

theorem leftWith_eq {st st' : Net Nat UInt8 (Buf UInt8)} {out : Nat → Buf UInt8}
    (hin : ∀ r, r < n → st'.prog r = .ret (out r)) (hout : ∀ r, n ≤ r → st'.prog r = st.prog r)
    (hchan : st'.chan = st.chan) : st' = leftWith n st out := by
  refine Net.ext (funext fun r => ?_) hchan
  rcases Nat.lt_or_ge r n with hr | hr
  · exact (hin r hr).trans (if_pos hr).symm
  · exact (hout r hr).trans (if_neg (Nat.not_lt.mpr hr)).symm

/-- A gather of all ranks. -/
theorem gather_all (h1 : 1 ≤ n) (hint : n * s < 2 ^ 31)
    (hT : ∀ r, r < n → coboComputeChildren n r = some (T r)) (hcap : ∀ c, 1 ≤ cap c)
    {st : Net Nat UInt8 (Buf UInt8)} (hst : ∀ r, r < n → st.prog r =
      coboGatherTree r (T r) (sendbuf r) s (recvbuf r) (malloced r)) (hquiet : Quiet 0 (n - 1) st) :
    ReflTransGen (ByteStep cap) st (leftWith n st (gathered s sendbuf recvbuf n)) := by
  have htree : ∀ r, r < n → T r = nodeOf 0 (n - 1) r := fun r hr => treeOf_of_some (hT r hr) hr
  have hmul := mul_root s h1
  have hroot : st.prog 0 =
      gatherChildren s (childSizes 0 (n - 1)) s ((recvbuf 0).write 0 (block s sendbuf 0))
        fun b => .ret b := by
    rw [hst 0 h1, coboGatherTree, htree 0 h1, nodeOf, childrenDown_mk, ownLast_self]
    rfl
  obtain ⟨st', run, root, rest, out, chan⟩ := gather_run s sendbuf recvbuf malloced cap hcap 0
    (n - 1) (Nat.zero_le _) _ s _ _ (by rw [Nat.sub_zero]; omega) hroot
    (fun r _ hr => by rw [hst r (by omega), htree r (by omega)]) hquiet
  have hout : ∀ r, n ≤ r → st'.prog r = st.prog r := fun r hr => out r (by omega)
  refine leftWith_eq (fun r hr => ?_) hout chan ▸ run
  rcases Nat.eq_zero_or_pos r with rfl | hpos
  · have hlen : (block s sendbuf 0).length = s := by rw [block, Buf.length_read]
    have hpack := Buf.write_write (recvbuf 0) 0 (block s sendbuf 0) (blocks s sendbuf 1 (n - 1))
    have hall := blocks_add s sendbuf 0 1 (n - 1)
    rw [blocks_one, Nat.add_sub_cancel' h1] at hall
    rw [hlen, Nat.zero_add, ← hall] at hpack
    rw [root, Nat.zero_add, Nat.sub_zero, hpack]
    rfl
  · rw [rest r hpos (by omega)]
    exact congrArg Prog.ret (if_neg (by omega)).symm

/-- A gather ends with all blocks on rank 0. -/
theorem gatherNet_endsIn (h1 : 1 ≤ n) (hint : n * s < 2 ^ 31)
    (hT : ∀ r, r < n → coboComputeChildren n r = some (T r)) (hcap : ∀ c, 1 ≤ cap c) :
    EndsIn (Step cap) (gatherNet s sendbuf recvbuf malloced n T)
      (returned (gathered s sendbuf recvbuf n)) := by
  have hrun := gather_all s sendbuf recvbuf malloced cap h1 hint hT hcap
    (fun r hr => gatherNet_prog s sendbuf recvbuf malloced hr) (fun _ _ _ _ _ _ => rfl)
  have heq : leftWith n (gatherNet s sendbuf recvbuf malloced n T)
      (gathered s sendbuf recvbuf n) = returned (gathered s sendbuf recvbuf n) := by
    refine Net.ext (funext fun r => ?_) rfl
    rcases Nat.lt_or_ge r n with hr | hr
    · exact if_pos hr
    · refine (if_neg (Nat.not_lt.mpr hr)).trans ((if_neg (Nat.not_lt.mpr hr)).trans ?_)
      exact congrArg Prog.ret (if_neg (by omega)).symm
  exact endsIn_of_run cap (heq ▸ hrun) (returned_finished _)

/-- A scatter of all ranks. -/
theorem scatter_all (h1 : 1 ≤ n) (hint : n * s < 2 ^ 31)
    (hT : ∀ r, r < n → coboComputeChildren n r = some (T r)) (hcap : ∀ c, 1 ≤ cap c)
    {st : Net Nat UInt8 (Buf UInt8)} (hst : ∀ r, r < n → st.prog r =
      coboScatterTree r (T r) (sendbuf r) s (recvbuf r) (malloced r)) (hquiet : Quiet 0 (n - 1) st) :
    ReflTransGen (ByteStep cap) st (leftWith n st (scattered s sendbuf recvbuf n)) := by
  have htree : ∀ r, r < n → T r = nodeOf 0 (n - 1) r := fun r hr => treeOf_of_some (hT r hr) hr
  have hmul := mul_root s h1
  have hroot : st.prog 0 =
      scatterChildren s (sendbuf 0) (childSizes 0 (n - 1)) s
        (.ret ((recvbuf 0).write 0 ((sendbuf 0).read 0 s))) := by
    rw [hst 0 h1, coboScatterTree, htree 0 h1, nodeOf, childrenDown_mk, ownLast_self]
    rfl
  obtain ⟨st', run, root, rest, out, chan⟩ := scatter_run s sendbuf recvbuf malloced cap hcap 0
    (n - 1) (Nat.zero_le _) _ s _ _ (by rw [Nat.sub_zero]; omega) hroot
    (fun r _ hr => by rw [hst r (by omega), htree r (by omega)]) hquiet
  have hout : ∀ r, n ≤ r → st'.prog r = st.prog r := fun r hr => out r (by omega)
  refine leftWith_eq (fun r hr => ?_) hout chan ▸ run
  refine Eq.trans ?_ (congrArg Prog.ret (if_pos hr).symm)
  rcases Nat.eq_zero_or_pos r with rfl | hpos
  · rw [root, Nat.mul_zero]
  · rw [rest r hpos (by omega), Nat.sub_zero, Nat.add_comm s, ← Nat.mul_succ,
      show (r - 1).succ = r by omega]

/-- A scatter ends with block `r` on rank `r`. -/
theorem scatterNet_endsIn (h1 : 1 ≤ n) (hint : n * s < 2 ^ 31)
    (hT : ∀ r, r < n → coboComputeChildren n r = some (T r)) (hcap : ∀ c, 1 ≤ cap c) :
    EndsIn (Step cap) (scatterNet s sendbuf recvbuf malloced n T)
      (returned (scattered s sendbuf recvbuf n)) := by
  have hrun := scatter_all s sendbuf recvbuf malloced cap h1 hint hT hcap
    (fun r hr => scatterNet_prog s sendbuf recvbuf malloced hr) (fun _ _ _ _ _ _ => rfl)
  have heq : leftWith n (scatterNet s sendbuf recvbuf malloced n T)
      (scattered s sendbuf recvbuf n) = returned (scattered s sendbuf recvbuf n) := by
    refine Net.ext (funext fun r => ?_) rfl
    rcases Nat.lt_or_ge r n with hr | hr
    · exact if_pos hr
    · refine (if_neg (Nat.not_lt.mpr hr)).trans ((if_neg (Nat.not_lt.mpr hr)).trans ?_)
      exact congrArg Prog.ret (if_neg (Nat.not_lt.mpr hr)).symm
  exact endsIn_of_run cap (heq ▸ hrun) (returned_finished _)

/-- Block `r` of all blocks. -/
theorem take_drop_blocks {r k : Nat} (hr : r < k) :
    ((blocks s sendbuf 0 k).drop (s * r)).take s = block s sendbuf r := by
  have hsplit := blocks_add s sendbuf 0 r (k - r)
  have hhead := blocks_add s sendbuf r 1 (k - r - 1)
  rw [Nat.add_sub_cancel' (by omega), Nat.zero_add] at hsplit
  rw [Nat.add_sub_cancel' (by omega), blocks_one] at hhead
  rw [hsplit, List.drop_left' (length_blocks s sendbuf 0 r), hhead,
    List.take_left' (by rw [block, Buf.length_read])]

end

/-- **Gather and scatter are in rank order and inverse to each other**, for every interleaving of the
    ranks, every splitting of their reads and writes and all sockets that hold at least a byte:
    every run of the collectives ends, with all ranks returned. -/
theorem cobo_gather_scatter (n s : Nat) (h1 : 1 ≤ n) (hint : n * s < 2 ^ 31) (T : Nat → Tree)
    (hT : ∀ r, r < n → coboComputeChildren n r = some (T r)) (cap : Nat × Nat → ℕ∞)
    (hcap : ∀ c, 1 ≤ cap c) (sendbuf recvbuf malloced : Nat → Buf UInt8) :
    (∃ out, EndsIn (Step cap) (gatherNet s sendbuf recvbuf malloced n T) (returned out) ∧
      (out 0).read 0 (n * s) = (List.range n).flatMap (fun r => (sendbuf r).read 0 s) ∧
      (∀ i, n * s ≤ i → out 0 i = recvbuf 0 i) ∧ (∀ r, r ≠ 0 → out r = recvbuf r) ∧
      ∀ sendbuf' recvbuf' malloced' : Nat → Buf UInt8, sendbuf' 0 = out 0 →
        ∃ back, EndsIn (Step cap) (scatterNet s sendbuf' recvbuf' malloced' n T) (returned back) ∧
          ∀ r, r < n → (back r).read 0 s = (sendbuf r).read 0 s) ∧
    (∃ out, EndsIn (Step cap) (scatterNet s sendbuf recvbuf malloced n T) (returned out) ∧
      ∀ r, r < n → (out r).read 0 s = (sendbuf 0).read (r * s) s ∧
        ∀ i, s ≤ i → out r i = recvbuf r i) := by
  have hlen : (blocks s sendbuf 0 n).length = n * s := by rw [length_blocks, Nat.mul_comm]
  have hback : ∀ (m : Buf UInt8) (bs : List UInt8), bs.length = s → (m.write 0 bs).read 0 s = bs :=
    fun m bs hbs => by rw [← hbs, Buf.read_write]
  refine ⟨⟨_, gatherNet_endsIn s sendbuf recvbuf malloced cap h1 hint hT hcap, ?_, ?_, ?_, ?_⟩,
    ⟨_, scatterNet_endsIn s sendbuf recvbuf malloced cap h1 hint hT hcap, ?_⟩⟩
  · rw [gathered, if_pos rfl, ← hlen, Buf.read_write, blocks, ← List.range_eq_range']
    rfl
  · intro i hi
    rw [gathered, if_pos rfl, Buf.write_outside (by omega)]
  · intro r hr
    exact if_neg hr
  · intro sendbuf' recvbuf' malloced' h0
    refine ⟨_, scatterNet_endsIn s sendbuf' recvbuf' malloced' cap h1 hint hT hcap, fun r hr => ?_⟩
    have hfit : s * r + s ≤ (blocks s sendbuf 0 n).length := by
      rw [hlen, ← Nat.mul_succ, Nat.mul_comm]; exact Nat.mul_le_mul_right s hr
    have hpart := Buf.read_write_sub (recvbuf 0) 0 (s * r) s _ hfit
    rw [Nat.zero_add, take_drop_blocks s sendbuf hr, block] at hpart
    rw [scattered, if_pos hr, hback _ _ (Buf.length_read _ _ _), h0, gathered, if_pos rfl, hpart]
  · intro r hr
    rw [scattered, if_pos hr, hback _ _ (Buf.length_read _ _ _), Nat.mul_comm]
    exact ⟨rfl, fun i hi => Buf.write_outside (by rw [Buf.length_read]; omega)⟩

theorem cobo_gather_scatter_three :
    (∃ out, EndsIn (Step fun _ => 1) (gatherNet 2 (fun r _ => r.toUInt8) (fun _ _ => 0)
        (fun _ _ => 0) 3 (treeOf 3)) (returned out) ∧
      (out 0).read 0 (3 * 2) =
        (List.range 3).flatMap (fun r => Buf.read (fun _ => r.toUInt8) 0 2) ∧
      (∀ i, 3 * 2 ≤ i → out 0 i = 0) ∧ (∀ r, r ≠ 0 → out r = fun _ => 0) ∧
      ∀ sendbuf' recvbuf' malloced' : Nat → Buf UInt8, sendbuf' 0 = out 0 →
        ∃ back, EndsIn (Step fun _ => 1) (scatterNet 2 sendbuf' recvbuf' malloced' 3 (treeOf 3))
            (returned back) ∧
          ∀ r, r < 3 → (back r).read 0 2 = Buf.read (fun _ => r.toUInt8) 0 2) ∧
    (∃ out, EndsIn (Step fun _ => 1) (scatterNet 2 (fun r _ => r.toUInt8) (fun _ _ => 0)
        (fun _ _ => 0) 3 (treeOf 3)) (returned out) ∧
      ∀ r, r < 3 → (out r).read 0 2 = Buf.read (fun _ => (0 : Nat).toUInt8) (r * 2) 2 ∧
        ∀ i, 2 ≤ i → out r i = 0) :=
  cobo_gather_scatter 3 2 (by decide) (by decide) (treeOf 3)
    (fun _ hr => coboComputeChildren_eq (m := 2) rfl hr) (fun _ => 1) (fun _ => le_refl _) _ _ _

end LaunchMON.Cobo
