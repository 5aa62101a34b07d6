/-
  The COBO rank tree: `cobo_compute_children` of `tools/cobo/src/cobo.c`.

  Every task runs `coboComputeChildren nprocs me` alone, right after it has been told its rank and
  the number of ranks.  The function narrows the interval `[low, high]`, initially
  `[0, nprocs - 1]`, around `me`: the midpoint (rounded up) becomes a child of `low` and roots the
  upper part, `low` keeps the lower part.  A task records a child in every round in which it is
  `low` itself, and its parent in the round in which it is the midpoint.

  The n computations fit together because each of them walks a branch of ONE binary splitting of
  `[0, nprocs - 1]`.  `ownLast low high r` is the right end of the interval in which `r` ends up as
  `low`, `ownParent low high r` is its parent in that splitting, and `kids low high` lists the
  children a root `low` of `[low, high]` takes; `loop_spec` reads the C loop back in these terms.
  All facts about the whole tree are then inductions over the splitting.
-/
import Mathlib.Data.Nat.Log
import Mathlib.Logic.Relation
import Mathlib.Tactic.Ring

namespace LaunchMON.Cobo

/-! ## The function as the source computes it -/

/-- The file-scope tree variables a task fills in.  `child` and `childIncl` hold the part of the
    C arrays that has been written, so `child.length` is `cobo_num_child`. -/
structure Tree where
  parent : Nat
  child : List Nat
  childIncl : List Nat
  numChildIncl : Nat
  deriving Repr, DecidableEq

/-- `cobo_malloc` of an `int`: is there memory for that many bytes?  A negative number is a large one for
    `malloc`. -/
def coboMalloc (n : UInt32) : Bool := n.toNat < 2 ^ 31

/-- `while (n < cobo_nprocs) { n <<= 1; max_children++; }`.  The fuel counts the bits an `int` has
    left for the shift: out of fuel, `n <<= 1` would leave the range of `int`. -/
def maxChildrenLoop (nprocs : Nat) : Nat → Nat → Nat → Option Nat
  | 0, _, _ => none
  | bits + 1, n, maxChildren =>
    if n < nprocs then maxChildrenLoop nprocs bits (n <<< 1) (maxChildren + 1)
    else some maxChildren

/-- The number of elements the three child arrays are allocated with; `none` if the loop that
    computes it overflows. -/
def maxChildren (nprocs : Nat) : Option Nat := maxChildrenLoop nprocs 31 1 0

/-- The midpoint of the C loop: the upper half starts here, rounded up. -/
def midpoint (low high : Nat) : Nat := (high - low) / 2 + (high - low) % 2 + low

theorem low_lt_midpoint {low high : Nat} (h : low < high) : low < midpoint low high := by
  unfold midpoint; omega

theorem midpoint_le_high {low high : Nat} (h : low < high) : midpoint low high ≤ high := by
  unfold midpoint; omega

/-- The search loop of `cobo_compute_children`. -/
def computeChildrenLoop (me low high : Nat) (t : Tree) : Tree :=
  if h : low < high then
    let mid := midpoint low high
    let t := if low = me then
        { t with
          child := t.child ++ [mid]
          childIncl := t.childIncl ++ [high - mid + 1]
          numChildIncl := t.numChildIncl + (high - mid + 1) }
      else t
    let t := if mid = me then { t with parent := low } else t
    if mid ≤ me then computeChildrenLoop me mid high t
    else computeChildrenLoop me low (mid - 1) t
  else t
termination_by high - low
decreasing_by
  · have := low_lt_midpoint h; have := midpoint_le_high h; omega
  · have := low_lt_midpoint h; have := midpoint_le_high h; omega

/-- `cobo_compute_children` for rank `me` of `nprocs`; `none` if the arrays are never allocated
    because their size cannot be computed. -/
def coboComputeChildren (nprocs me : Nat) : Option Tree :=
  (maxChildren nprocs).map fun _ => computeChildrenLoop me 0 (nprocs - 1) ⟨0, [], [], 0⟩

/-! ## The interval splitting behind the loop -/

/-- The children that the root `low` of `[low, high]` takes, in the order it takes them, each with
    the right end of the interval it roots. -/
def kids (low high : Nat) : List (Nat × Nat) :=
  if h : low < high then (midpoint low high, high) :: kids low (midpoint low high - 1) else []
termination_by high - low
decreasing_by have := low_lt_midpoint h; have := midpoint_le_high h; omega

/-- The right end of the interval in which `r` ends up as the left end. -/
def ownLast (low high r : Nat) : Nat :=
  if h : low < high then
    if low = r then high
    else if midpoint low high ≤ r then ownLast (midpoint low high) high r
    else ownLast low (midpoint low high - 1) r
  else high
termination_by high - low
decreasing_by
  · have := low_lt_midpoint h; have := midpoint_le_high h; omega
  · have := low_lt_midpoint h; have := midpoint_le_high h; omega

/-- The parent of `r` in the splitting of `[low, high]`, `p` if `r` is `low` itself. -/
def ownParent (p low high r : Nat) : Nat :=
  if h : low < high then
    if low = r then p
    else if midpoint low high ≤ r then ownParent low (midpoint low high) high r
    else ownParent p low (midpoint low high - 1) r
  else p
termination_by high - low
decreasing_by
  · have := low_lt_midpoint h; have := midpoint_le_high h; omega
  · have := low_lt_midpoint h; have := midpoint_le_high h; omega

/-- Induction over the splitting: an interval of one rank (or none) is a leaf, any other one splits
    at its midpoint. -/
theorem split_ind {P : Nat → Nat → Prop}
    (leaf : ∀ low high, ¬ low < high → P low high)
    (node : ∀ low high, low < high → P low (midpoint low high - 1) → P (midpoint low high) high →
      P low high)
    (low high : Nat) : P low high :=
  if h : low < high then
    node low high h (split_ind leaf node low (midpoint low high - 1))
      (split_ind leaf node (midpoint low high) high)
  else leaf low high h
termination_by high - low
decreasing_by
  · have := low_lt_midpoint h; have := midpoint_le_high h; omega
  · have := low_lt_midpoint h; have := midpoint_le_high h; omega

theorem kids_leaf {low high : Nat} (h : ¬ low < high) : kids low high = [] := by
  rw [kids, dif_neg h]

theorem kids_node {low high : Nat} (h : low < high) :
    kids low high = (midpoint low high, high) :: kids low (midpoint low high - 1) := by
  rw [kids, dif_pos h]

theorem ownLast_self (low high : Nat) : ownLast low high low = high := by
  rw [ownLast]; split <;> simp

theorem ownLast_upper {low high r : Nat} (h : low < high) (hr : midpoint low high ≤ r) :
    ownLast low high r = ownLast (midpoint low high) high r := by
  have := low_lt_midpoint h
  rw [ownLast, dif_pos h, if_neg (by omega), if_pos hr]

theorem ownLast_lower {low high r : Nat} (h : low < high) (hl : low < r)
    (hr : r < midpoint low high) :
    ownLast low high r = ownLast low (midpoint low high - 1) r := by
  rw [ownLast, dif_pos h, if_neg (by omega), if_neg (by omega)]

theorem ownParent_self (p low high : Nat) : ownParent p low high low = p := by
  rw [ownParent]; split <;> simp

theorem ownParent_upper {p low high r : Nat} (h : low < high) (hr : midpoint low high ≤ r) :
    ownParent p low high r = ownParent low (midpoint low high) high r := by
  have := low_lt_midpoint h
  rw [ownParent, dif_pos h, if_neg (by omega), if_pos hr]

theorem ownParent_lower {p low high r : Nat} (h : low < high) (hl : low < r)
    (hr : r < midpoint low high) :
    ownParent p low high r = ownParent p low (midpoint low high - 1) r := by
  rw [ownParent, dif_pos h, if_neg (by omega), if_neg (by omega)]

/-- Below the root the inherited parent does not matter. -/
theorem ownParent_congr (p q : Nat) : ∀ low high r, low < r → r ≤ high →
    ownParent p low high r = ownParent q low high r := by
  intro low high
  induction low, high using split_ind with
  | leaf low high h => intro r hl hr; omega
  | node low high h ihl ihu =>
    intro r hl hr
    rcases Nat.lt_or_ge r (midpoint low high) with hm | hm
    · rw [ownParent_lower h hl hm, ownParent_lower h hl hm]; exact ihl r hl (by omega)
    · rw [ownParent_upper h hm, ownParent_upper h hm]

/-- The own interval of a rank starts at the rank and stays inside the interval it came from. -/
theorem ownLast_bounds : ∀ low high r, low ≤ r → r ≤ high →
    r ≤ ownLast low high r ∧ ownLast low high r ≤ high := by
  intro low high
  induction low, high using split_ind with
  | leaf low high h =>
    intro r hl hr
    rw [ownLast, dif_neg h]; omega
  | node low high h ihl ihu =>
    intro r hl hr
    rcases Nat.eq_or_lt_of_le hl with rfl | hlt
    · rw [ownLast_self]; omega
    · rcases Nat.lt_or_ge r (midpoint low high) with hm | hm
      · rw [ownLast_lower h hlt hm]
        have := ihl r hl (by omega)
        have := midpoint_le_high h
        omega
      · rw [ownLast_upper h hm]; exact ihu r hm hr

/-- A parent is smaller than its child and stays inside the interval. -/
theorem ownParent_bounds (p : Nat) : ∀ low high r, low < r → r ≤ high →
    low ≤ ownParent p low high r ∧ ownParent p low high r < r := by
  intro low high
  induction low, high using split_ind generalizing p with
  | leaf low high h => intro r hl hr; omega
  | node low high h ihl ihu =>
    intro r hl hr
    have hlm := low_lt_midpoint h
    rcases Nat.lt_or_ge r (midpoint low high) with hm | hm
    · rw [ownParent_lower h hl hm]; exact ihl p r hl (by omega)
    · rw [ownParent_upper h hm]
      rcases Nat.eq_or_lt_of_le hm with heq | hlt
      · rw [← heq, ownParent_self]; omega
      · have := ihu low r hlt hr; omega

theorem kids_bounds : ∀ low high c e, (c, e) ∈ kids low high → low < c ∧ c ≤ e ∧ e ≤ high := by
  intro low high
  induction low, high using split_ind with
  | leaf low high h => intro c e hm; rw [kids_leaf h] at hm; exact absurd hm List.not_mem_nil
  | node low high h ihl _ =>
    intro c e hm
    have hlm := low_lt_midpoint h
    have hmh := midpoint_le_high h
    rw [kids_node h] at hm
    rcases List.mem_cons.mp hm with heq | hm
    · injection heq with hc he; omega
    · have := ihl c e hm; omega

/-- **The splitting is one tree**: `c` is a child of `q` exactly when `q` is the parent `c` computes
    for itself, and the interval that `q` leaves to `c` is the one `c` finds for itself. -/
theorem mem_kids_iff (p : Nat) : ∀ low high q c e, low ≤ q → q ≤ high → low < c → c ≤ high →
    ((c, e) ∈ kids q (ownLast low high q) ↔
      q = ownParent p low high c ∧ e = ownLast low high c) := by
  intro low high
  induction low, high using split_ind generalizing p with
  | leaf low high h => intro q c e hl hq hc hch; omega
  | node low high h ihl ihu =>
    intro q c e hl hq hc hch
    have hlm := low_lt_midpoint h
    have hmh := midpoint_le_high h
    rcases Nat.eq_or_lt_of_le hl with rfl | hlq
    · -- the root of the interval: its first child is the midpoint
      rw [ownLast_self, kids_node h, List.mem_cons, Prod.mk.injEq]
      rcases Nat.lt_trichotomy c (midpoint low high) with hcm | hcm | hcm
      · have := ihl p low c e (Nat.le_refl _) (by omega) hc (by omega)
        rw [ownLast_self] at this
        rw [ownParent_lower h hc hcm, ownLast_lower h hc hcm, ← this]
        exact ⟨fun hx => hx.resolve_left (by omega), Or.inr⟩
      · have hnot : (c, e) ∉ kids low (midpoint low high - 1) := fun hx => by
          have := kids_bounds _ _ _ _ hx; omega
        rw [ownParent_upper h (by omega), ownLast_upper h (by omega)]
        constructor
        · rintro (⟨-, he⟩ | hx)
          · rw [hcm, ownParent_self, ownLast_self]; exact ⟨rfl, he⟩
          · exact absurd hx hnot
        · rintro ⟨-, he⟩
          rw [hcm, ownLast_self] at he
          exact Or.inl ⟨hcm, he⟩
      · have hnot : (c, e) ∉ kids low (midpoint low high - 1) := fun hx => by
          have := kids_bounds _ _ _ _ hx; omega
        have := ownParent_bounds low _ _ c hcm hch
        rw [ownParent_upper h (by omega)]
        constructor
        · rintro (⟨h1, -⟩ | h1)
          · omega
          · exact absurd h1 hnot
        · rintro ⟨h1, -⟩; omega
    · rcases Nat.lt_or_ge q (midpoint low high) with hqm | hqm
      · -- a rank of the lower half has all its children there
        rw [ownLast_lower h hlq hqm]
        rcases Nat.lt_or_ge c (midpoint low high) with hcm | hcm
        · rw [ownParent_lower h hc hcm, ownLast_lower h hc hcm]
          exact ihl p q c e hl (by omega) hc (by omega)
        · have hb := ownLast_bounds low (midpoint low high - 1) q hl (by omega)
          rw [ownParent_upper h hcm]
          constructor
          · intro hx; have := kids_bounds _ _ _ _ hx; omega
          · rintro ⟨h1, -⟩
            rcases Nat.eq_or_lt_of_le hcm with heq | hlt
            · rw [← heq, ownParent_self] at h1; omega
            · have := ownParent_bounds low _ _ c hlt hch; omega
      · -- and so has a rank of the upper half
        rw [ownLast_upper h hqm]
        rcases Nat.lt_or_ge (midpoint low high) c with hcm | hcm
        · rw [ownParent_upper h (by omega), ownLast_upper h (by omega)]
          exact ihu low q c e hqm hq hcm hch
        · have hpar : ownParent p low high c < midpoint low high := by
            rcases Nat.eq_or_lt_of_le hcm with heq | hlt
            · rw [ownParent_upper h (by omega), heq, ownParent_self]; exact hlm
            · have := ownParent_bounds p _ _ c hc hch; omega
          constructor
          · intro hx; have := kids_bounds _ _ _ _ hx; omega
          · rintro ⟨h1, -⟩; omega

/-- Own intervals are nested: a rank inside the interval of `q` has its parent there as well. -/
theorem le_ownParent (p : Nat) : ∀ low high q x, low ≤ q → q ≤ high → q < x →
    x ≤ ownLast low high q → q ≤ ownParent p low high x := by
  intro low high
  induction low, high using split_ind generalizing p with
  | leaf low high h =>
    intro q x hl hq hqx hx
    rw [ownLast, dif_neg h] at hx; omega
  | node low high h ihl ihu =>
    intro q x hl hq hqx hx
    have hb := ownLast_bounds low high q hl hq
    rcases Nat.eq_or_lt_of_le hl with rfl | hlq
    · exact (ownParent_bounds p _ _ x hqx (by omega)).1
    · rcases Nat.lt_or_ge q (midpoint low high) with hqm | hqm
      · rw [ownLast_lower h hlq hqm] at hx
        have := ownLast_bounds low (midpoint low high - 1) q hl (by omega)
        rw [ownParent_lower h (by omega) (by omega)]
        exact ihl p q x hl (by omega) hqx hx
      · rw [ownLast_upper h hqm] at hx
        rw [ownParent_upper h (by omega)]
        exact ihu low q x hqm hq hqx hx

/-- A root takes at most one child for each time its interval can be halved. -/
theorem kids_length_le_log : ∀ low high, low ≤ high →
    (kids low high).length ≤ Nat.log 2 (high - low + 1) := by
  intro low high
  induction low, high using split_ind with
  | leaf low high h => intro hle; rw [kids_leaf h]; exact Nat.zero_le _
  | node low high h ihl _ =>
    intro hle
    have hlm := low_lt_midpoint h
    have hhalf : midpoint low high - 1 - low + 1 = (high - low + 1) / 2 := by
      unfold midpoint; omega
    have ih := ihl (by omega)
    rw [hhalf] at ih
    rw [kids_node h, List.length_cons, Nat.log_of_one_lt_of_le (by omega) (by omega)]
    exact Nat.succ_le_succ ih

/-! ## The loop reads the splitting back -/

/-- **Loop specification.**  Started on `[low, high]` around `me`, the loop appends the children of
    `me` in the splitting, counts the ranks below `me`, and leaves the parent `me` has there. -/
theorem loop_spec (me : Nat) : ∀ low high (t : Tree), low ≤ me → me ≤ high →
    computeChildrenLoop me low high t =
      { parent := ownParent t.parent low high me
        child := t.child ++ (kids me (ownLast low high me)).map Prod.fst
        childIncl := t.childIncl ++ (kids me (ownLast low high me)).map fun k => k.2 - k.1 + 1
        numChildIncl := t.numChildIncl + (ownLast low high me - me) } := by
  intro low high
  induction low, high using split_ind with
  | leaf low high h =>
    intro t hl hh
    obtain rfl : low = me := by omega
    rw [computeChildrenLoop, dif_neg h, ownLast_self, ownParent_self, kids_leaf h]
    simp [show high - low = 0 by omega]
  | node low high h ihl ihu =>
    intro t hl hh
    have hlm := low_lt_midpoint h
    have hmh := midpoint_le_high h
    rw [computeChildrenLoop, dif_pos h]
    rcases Nat.eq_or_lt_of_le hl with rfl | hlt
    · -- `me` is the root of this interval: it records the midpoint and keeps the lower part
      simp only [if_true, if_neg (show ¬ midpoint low high = low by omega),
        if_neg (show ¬ midpoint low high ≤ low by omega)]
      rw [ihl _ (Nat.le_refl _) (by omega), ownLast_self, ownLast_self, ownParent_self,
        ownParent_self, kids_node h]
      simp only [List.map_cons, List.append_assoc, List.singleton_append, Tree.mk.injEq, true_and]
      omega
    · simp only [if_neg (show ¬ low = me by omega)]
      rcases Nat.lt_trichotomy me (midpoint low high) with hm | hm | hm
      · rw [if_neg (show ¬ midpoint low high = me by omega),
          if_neg (show ¬ midpoint low high ≤ me by omega), ihl t hl (by omega),
          ownLast_lower h hlt hm, ownParent_lower h hlt hm]
      · -- `me` is the midpoint: this round sets its parent
        rw [if_pos hm.symm, if_pos (show midpoint low high ≤ me by omega), ihu _ (by omega) hh,
          ownLast_upper h (by omega), ownParent_upper h (by omega)]
      · rw [if_neg (show ¬ midpoint low high = me by omega),
          if_pos (show midpoint low high ≤ me by omega), ihu t (by omega) hh,
          ownLast_upper h (by omega), ownParent_upper h (by omega),
          ownParent_congr t.parent low _ _ me hm hh]

/-! ## The array size -/

/-- The doubling loop returns some `m` with `nprocs ≤ 2 ^ m`, as long as `nprocs` fits the bits that
    are left. -/
theorem maxChildrenLoop_spec (nprocs : Nat) : ∀ bits k, nprocs ≤ 2 ^ (k + bits) →
    ∃ m, maxChildrenLoop nprocs (bits + 1) (2 ^ k) k = some m ∧ nprocs ≤ 2 ^ m := by
  intro bits
  induction bits with
  | zero =>
    intro k hk
    exact ⟨k, by rw [maxChildrenLoop, if_neg (by simpa using hk)], hk⟩
  | succ bits ih =>
    intro k hk
    rw [maxChildrenLoop]
    split
    · have hshift : (2 ^ k) <<< 1 = 2 ^ (k + 1) := by
        rw [Nat.shiftLeft_eq, pow_one, pow_succ]
      rw [hshift]
      exact ih (k + 1) (by rwa [Nat.add_right_comm, Nat.add_assoc] at *)
    · exact ⟨k, rfl, by omega⟩

theorem maxChildren_spec {n : Nat} (h : n ≤ 2 ^ 30) : ∃ m, maxChildren n = some m ∧ n ≤ 2 ^ m :=
  maxChildrenLoop_spec n 30 0 (by simpa using h)

/-- Beyond the range of the shift the loop never gets to an answer. -/
theorem maxChildrenLoop_overflow (nprocs : Nat) : ∀ bits k, 2 ^ (k + bits) < nprocs →
    maxChildrenLoop nprocs (bits + 1) (2 ^ k) k = none := by
  intro bits
  induction bits with
  | zero =>
    intro k hk
    rw [maxChildrenLoop, if_pos (by simpa using hk)]; rfl
  | succ bits ih =>
    intro k hk
    have hshift : (2 ^ k) <<< 1 = 2 ^ (k + 1) := by
      rw [Nat.shiftLeft_eq, pow_one, pow_succ]
    have hlt : 2 ^ k < nprocs :=
      Nat.lt_of_le_of_lt (Nat.pow_le_pow_right (by omega) (by omega)) hk
    rw [maxChildrenLoop, if_pos hlt, hshift]
    exact ih (k + 1) (by rwa [Nat.add_right_comm, Nat.add_assoc])

/-- The arrays are allocated exactly for the process counts the doubling loop can reach. -/
theorem maxChildren_isSome_iff (n : Nat) : (maxChildren n).isSome ↔ n ≤ 2 ^ 30 := by
  constructor
  · intro h
    by_contra hlt
    have := maxChildrenLoop_overflow n 30 0 (by simpa using hlt)
    rw [maxChildren] at h
    rw [show (1 : Nat) = 2 ^ 0 from rfl, this] at h
    exact absurd h (by simp)
  · intro h
    obtain ⟨m, hm, -⟩ := maxChildren_spec h
    rw [hm]; rfl

/-! ## The whole tree -/

/-- The tree variables of rank `r` in the splitting of `[low, high]`. -/
def nodeOf (low high r : Nat) : Tree :=
  { parent := ownParent 0 low high r
    child := (kids r (ownLast low high r)).map Prod.fst
    childIncl := (kids r (ownLast low high r)).map fun k => k.2 - k.1 + 1
    numChildIncl := ownLast low high r - r }

/-- The tree variables of rank `r` of `n`, read off the splitting of `[0, n - 1]`. -/
def treeOf (n r : Nat) : Tree := nodeOf 0 (n - 1) r

/-- A rank of the lower half has its node there. -/
theorem nodeOf_lower {low high r : Nat} (h : low < high) (hl : low < r)
    (hr : r < midpoint low high) : nodeOf low high r = nodeOf low (midpoint low high - 1) r := by
  unfold nodeOf
  rw [ownLast_lower h hl hr, ownParent_lower h hl hr]

/-- A rank behind the midpoint has its node in the upper half. -/
theorem nodeOf_upper {low high r : Nat} (h : low < high) (hm : midpoint low high < r)
    (hr : r ≤ high) : nodeOf low high r = nodeOf (midpoint low high) high r := by
  unfold nodeOf
  rw [ownLast_upper h (by omega), ownParent_upper h (by omega), ownParent_congr low 0 _ _ r hm hr]

/-- The midpoint roots the upper half and hangs below the left end. -/
theorem nodeOf_midpoint {low high : Nat} (h : low < high) :
    nodeOf low high (midpoint low high) =
      { parent := low
        child := (kids (midpoint low high) high).map Prod.fst
        childIncl := (kids (midpoint low high) high).map fun k => k.2 - k.1 + 1
        numChildIncl := high - midpoint low high } := by
  unfold nodeOf
  rw [ownLast_upper h (Nat.le_refl _), ownLast_self, ownParent_upper h (Nat.le_refl _),
    ownParent_self]

/-- Wherever the arrays can be allocated, `cobo_compute_children` computes `treeOf`. -/
theorem coboComputeChildren_eq {n r m : Nat} (hm : maxChildren n = some m) (hr : r < n) :
    coboComputeChildren n r = some (treeOf n r) := by
  rw [coboComputeChildren, hm, Option.map_some, loop_spec r 0 (n - 1) _ (Nat.zero_le _) (by omega)]
  simp [treeOf, nodeOf]

theorem treeOf_of_some {n r : Nat} {t : Tree} (ht : coboComputeChildren n r = some t) (hr : r < n) :
    t = treeOf n r := by
  cases hm : maxChildren n with
  | none => rw [coboComputeChildren, hm] at ht; exact absurd ht (by simp)
  | some m => exact Option.some.inj (ht.symm.trans (coboComputeChildren_eq hm hr))

/-- `c` is a child of `q` according to `q`. -/
def ChildOf (n : Nat) (T : Nat → Tree) (q c : Nat) : Prop := q < n ∧ c ∈ (T q).child

/-- The tree variables of the `n` ranks, with arrays of `m` elements, form one tree rooted at
    rank 0 in which every subtree is an interval of ranks. -/
structure RankTree (n m : Nat) (T : Nat → Tree) : Prop where
  /-- A rank other than 0 computes a smaller rank as its parent. -/
  parent_lt : ∀ r, 1 ≤ r → r < n → (T r).parent < r
  /-- A rank other than 0 occurs in the child list of its parent and of no other rank; rank 0
      occurs in none. -/
  child_iff : ∀ q r, q < n → (r ∈ (T q).child ↔ 1 ≤ r ∧ r < n ∧ q = (T r).parent)
  /-- No rank is listed twice. -/
  child_nodup : ∀ q, q < n → (T q).child.Nodup
  /-- The ranks below `q` are the interval `[q + 1, q + cobo_num_child_incl]`. -/
  below_iff : ∀ q x, q < n →
    (Relation.TransGen (ChildOf n T) q x ↔ q + 1 ≤ x ∧ x ≤ q + (T q).numChildIncl)
  /-- `cobo_child_incl` counts each child with everything below it. -/
  childIncl_eq : ∀ q, q < n →
    (T q).childIncl = (T q).child.map fun c => 1 + (T c).numChildIncl
  /-- Everything is below rank 0. -/
  root_incl : (T 0).numChildIncl = n - 1
  /-- The child arrays are large enough. -/
  numChild_le : ∀ q, q < n → (T q).child.length ≤ m

theorem mem_treeOf_child {n q r : Nat} (hq : q < n) :
    r ∈ (treeOf n q).child ↔ 1 ≤ r ∧ r < n ∧ q = (treeOf n r).parent := by
  have hb := ownLast_bounds 0 (n - 1) q (Nat.zero_le _) (by omega)
  constructor
  · intro h
    obtain ⟨⟨c, e⟩, hmem, rfl⟩ := List.mem_map.mp h
    have hc := kids_bounds _ _ _ _ hmem
    have := (mem_kids_iff 0 0 (n - 1) q c e (Nat.zero_le _) (by omega) (by omega) (by omega)).mp hmem
    exact ⟨by omega, by omega, this.1⟩
  · rintro ⟨h1, hr, hp⟩
    exact List.mem_map.mpr ⟨(r, ownLast 0 (n - 1) r),
      (mem_kids_iff 0 0 (n - 1) q r _ (Nat.zero_le _) (by omega) h1 (by omega)).mpr ⟨hp, rfl⟩, rfl⟩

/-- The children of one root are strictly decreasing. -/
theorem kids_pairwise : ∀ low high, (kids low high).Pairwise fun a b => b.1 < a.1 := by
  intro low high
  induction low, high using split_ind with
  | leaf low high h => rw [kids_leaf h]; exact List.Pairwise.nil
  | node low high h ihl _ =>
    rw [kids_node h]
    refine List.Pairwise.cons ?_ ihl
    rintro ⟨c, e⟩ hc
    have := kids_bounds _ _ _ _ hc
    show c < midpoint low high
    omega

/-- A child is larger than its parent, and its own interval ends inside that of the parent. -/
theorem childOf_bounds {n q c : Nat} (h : ChildOf n (treeOf n) q c) :
    q < c ∧ c < n ∧ ownLast 0 (n - 1) c ≤ ownLast 0 (n - 1) q := by
  obtain ⟨hq, hc⟩ := h
  obtain ⟨⟨c, e⟩, hmem, rfl⟩ := List.mem_map.mp hc
  have hb := ownLast_bounds 0 (n - 1) q (Nat.zero_le _) (by omega)
  have hk := kids_bounds _ _ _ _ hmem
  have hlast := ((mem_kids_iff 0 0 (n - 1) q c e (Nat.zero_le _) (by omega) (by omega)
    (by omega)).mp hmem).2
  exact ⟨hk.1, by omega, hlast ▸ hk.2.2⟩

/-- A rank and the ranks below it are among the `n` ranks. -/
theorem numChildIncl_lt {n r : Nat} (hr : r < n) : (treeOf n r).numChildIncl + 1 ≤ n := by
  have hlast := ownLast_bounds 0 (n - 1) r (Nat.zero_le _) (by omega)
  show ownLast 0 (n - 1) r - r + 1 ≤ n
  omega

theorem treeOf_below_iff {n q x : Nat} (hq : q < n) :
    Relation.TransGen (ChildOf n (treeOf n)) q x ↔
      q + 1 ≤ x ∧ x ≤ q + (treeOf n q).numChildIncl := by
  have hb := ownLast_bounds 0 (n - 1) q (Nat.zero_le _) (by omega)
  have hincl : q + (treeOf n q).numChildIncl = ownLast 0 (n - 1) q := by
    show q + (ownLast 0 (n - 1) q - q) = _
    omega
  rw [hincl]
  constructor
  · intro h
    have hin : q < x ∧ x < n ∧ ownLast 0 (n - 1) x ≤ ownLast 0 (n - 1) q := by
      induction h with
      | single h => exact childOf_bounds h
      | tail _ h ih => have := childOf_bounds h; omega
    have := ownLast_bounds 0 (n - 1) x (Nat.zero_le _) (by omega)
    omega
  · -- climb from `x` to `q`: the parent of `x` is still inside the interval of `q`
    intro hx
    induction x using Nat.strong_induction_on with
    | h x ih =>
      have hp := le_ownParent 0 0 (n - 1) q x (Nat.zero_le _) (by omega) hx.1 hx.2
      have hpx := ownParent_bounds 0 0 (n - 1) x (by omega) (by omega)
      have hlast : ChildOf n (treeOf n) (ownParent 0 0 (n - 1) x) x :=
        ⟨by omega, (mem_treeOf_child (by omega)).mpr ⟨by omega, by omega, rfl⟩⟩
      rcases Nat.eq_or_lt_of_le hp with heq | hlt
      · rw [← heq] at hlast; exact Relation.TransGen.single hlast
      · exact Relation.TransGen.tail (ih _ hpx.2 ⟨hlt, by omega⟩) hlast

/-- The interval form of the tree is well formed for every number of ranks. -/
theorem treeOf_rankTree {n m : Nat} (h1 : 1 ≤ n) (hm : n ≤ 2 ^ m) : RankTree n m (treeOf n) where
  parent_lt r hr hrn := (ownParent_bounds 0 0 (n - 1) r hr (by omega)).2
  child_iff q r hq := mem_treeOf_child hq
  child_nodup q hq := List.pairwise_map.mpr ((kids_pairwise q _).imp fun h => Nat.ne_of_gt h)
  below_iff q x hq := treeOf_below_iff hq
  childIncl_eq q hq := by
    have hb := ownLast_bounds 0 (n - 1) q (Nat.zero_le _) (by omega)
    show List.map _ _ = List.map _ (List.map _ _)
    rw [List.map_map]
    refine List.map_congr_left ?_
    rintro ⟨c, e⟩ hmem
    have hk := kids_bounds _ _ _ _ hmem
    have hlast := ((mem_kids_iff 0 0 (n - 1) q c e (Nat.zero_le _) (by omega) (by omega)
      (by omega)).mp hmem).2
    show e - c + 1 = 1 + (ownLast 0 (n - 1) c - c)
    omega
  root_incl := by
    show ownLast 0 (n - 1) 0 - 0 = n - 1
    rw [ownLast_self, Nat.sub_zero]
  numChild_le q hq := by
    have hb := ownLast_bounds 0 (n - 1) q (Nat.zero_le _) (by omega)
    calc ((kids q (ownLast 0 (n - 1) q)).map Prod.fst).length
        = (kids q (ownLast 0 (n - 1) q)).length := List.length_map _
      _ ≤ Nat.log 2 (ownLast 0 (n - 1) q - q + 1) := kids_length_le_log _ _ hb.1
      _ ≤ Nat.log 2 (2 ^ m) := Nat.log_mono_right (by omega)
      _ = m := Nat.log_pow (by omega) m

/-- **`cobo_compute_children` builds one tree.**  For every number of ranks up to `2 ^ 30` the
    independent computations of the ranks fit together into a tree rooted at rank 0, inside the
    arrays they were allocated. -/
theorem coboComputeChildren_rankTree (n : Nat) (h1 : 1 ≤ n) (hn : n ≤ 2 ^ 30) :
    ∃ m T, maxChildren n = some m ∧ (∀ r, r < n → coboComputeChildren n r = some (T r)) ∧
      RankTree n m T := by
  obtain ⟨m, hm, hpow⟩ := maxChildren_spec hn
  exact ⟨m, treeOf n, hm, fun r hr => coboComputeChildren_eq hm hr, treeOf_rankTree h1 hpow⟩

theorem coboComputeChildren_rankTree_six :
    ∃ m T, maxChildren 6 = some m ∧ (∀ r, r < 6 → coboComputeChildren 6 r = some (T r)) ∧
      RankTree 6 m T :=
  coboComputeChildren_rankTree 6 (by decide) (by decide)

end LaunchMON.Cobo
