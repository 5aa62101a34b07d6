/-
  How the COBO tree comes up: `cobo_server_open` and `cobo_open_tree` of `tools/cobo/src/cobo.c`.

  The server packs the host names into one table, dials a daemon on the first host, and tells it that
  it is rank 0 of so many.  A daemon that has been told its rank computes its children, dials one on the
  host of each and passes everything on.  So nobody knows all ranks, and of several daemons on one host
  each gets one of the ranks of that host.

  A connection that is made has passed the handshake and the exchange of the ids (`Cobo.agreement`); the
  daemons are programs of `Lib.Dial`, with the host name as the address.  Once a rank has been dialled
  it does what the tree says (`clientPlan`), so the general theorem about plans applies.  What is left are
  facts about the table: it arrives unchanged, and each name is found where its offset says
  (`coboExpandHostname_hostTable`).
-/
import LaunchMON.Cobo.Tree
import LaunchMON.Lib.Bytes
import LaunchMON.Lib.Dial

namespace LaunchMON.Cobo

open CBytes Dial Descent Relation

/-! ## The host table -/

/-- The offsets that `cobo_server_open` writes in front of the names. -/
def hostOffsets (offset : UInt32) : List CString → List UInt32
  | [] => []
  | h :: hs => offset :: hostOffsets (offset + UInt32.ofNat (h.strlen + 1)) hs

/-- `cobo_hostlist`: the offsets, and the names behind them. -/
def hostTable (hostlist : List CString) : List UInt8 :=
  (hostOffsets (UInt32.ofNat hostlist.length * 4) hostlist).flatMap le32 ++
    hostlist.flatMap CString.image

/-- `cobo_hostlist_size`, as an `int`. -/
def hostlistSize (hostlist : List CString) : UInt32 :=
  UInt32.ofNat hostlist.length * 4 +
    hostlist.foldl (fun size h => size + UInt32.ofNat (h.strlen + 1)) 0

/-- `cobo_expand_hostname`; `none` if it reads outside the table. -/
def coboExpandHostname (hostlist : List UInt8) (rank : ℕ) : Option CString := do
  let offset ← readLe32 (hostlist.drop (4 * rank))
  readCString (hostlist.drop offset.toNat)

/-! ## The programs -/

variable {ι : Type}

/-- The variables that `cobo_open_tree` fills. -/
structure Opened (ι : Type) where
  coboMe : UInt32
  coboNprocs : UInt32
  coboHostlistSize : UInt32
  coboHostlist : List UInt8
  tree : Tree
  coboChildFd : List ι

/-- What a program leaves: the server its connection to the root, a client its tree. -/
inductive Outcome (ι : Type)
  | server (coboRootFd : Option ι)
  | client (o : Opened ι)

/-- A server or a client. -/
abbrev Boot (ι : Type) := Prog ι CString (Outcome ι)

/-- `cobo_send_hostlist`. -/
def coboSendHostlist (s : ι) (rank ranks : UInt32) (hostlist : List UInt8) (bytes : UInt32)
    (k : Boot ι) : Boot ι :=
  .send s (le32 rank) (.send s (le32 ranks) (.send s (le32 bytes)
    (.send s (hostlist.take bytes.toNat) k)))

/-- The loop over the children in `cobo_open_tree`. -/
def openChildren (me nprocs size : UInt32) (hostlist : List UInt8) (t : Tree) :
    List ι → List ℕ → Boot ι
  | childFd, [] => .ret (.client ⟨me, nprocs, size, hostlist, t, childFd⟩)
  | childFd, c :: cs =>
    match coboExpandHostname hostlist c with
    | none => .fail
    | some childHostname => .dial childHostname c fun fd =>
      coboSendHostlist fd (UInt32.ofNat c) nprocs hostlist size
        (openChildren me nprocs size hostlist t (childFd ++ [fd]) cs)

/-- `cobo_open_tree`, from the connection to the parent on. -/
def coboOpenTree : Boot ι :=
  .recv 4 fun me => .recv 4 fun nprocs => .recv 4 fun size =>
    let me := (readLe32 me).getD 0
    let nprocs := (readLe32 nprocs).getD 0
    let size := (readLe32 size).getD 0
    if coboMalloc size = false then .fail
    else .recv size.toNat fun hostlist =>
      match coboComputeChildren nprocs.toNat me.toNat with
      | none => .fail
      | some t => openChildren me nprocs size hostlist t [] t.child

/-- `cobo_server_open`.  A size that has run over its 32 bits is one that the names do not fit in. -/
def coboServerOpen (hostlist : List CString) : Boot ι :=
  match hostlist with
  | [] => .fail
  | h :: _ =>
    if coboMalloc (hostlistSize hostlist) = false ∨
        (hostlistSize hostlist).toNat < (hostTable hostlist).length then .fail
    else .dial h 0 fun fd =>
      coboSendHostlist fd 0 (UInt32.ofNat hostlist.length) (hostTable hostlist) (hostlistSize hostlist)
        (.ret (.server (some fd)))

/-- The server, and daemons that wait. -/
def bootNet (hostlist : List CString) : Net ι CString (Outcome ι) where
  prog
    | none => coboServerOpen hostlist
    | some _ => coboOpenTree
  caller _ := none
  inbox _ := []

/-! ## Names in the table -/

/-- The size of the table, as a number without bounds. -/
def tableSize (hostlist : List CString) : ℕ :=
  4 * hostlist.length + (hostlist.flatMap CString.image).length

/-- The offset behind the offsets. -/
theorem ofNat_mul_four (n : ℕ) : UInt32.ofNat n * 4 = UInt32.ofNat (4 * n) := by
  rw [UInt32.ofNat_mul, UInt32.mul_comm]
  rfl

theorem length_hostOffsets (offset : UInt32) (hs : List CString) :
    (hostOffsets offset hs).length = hs.length := by
  induction hs generalizing offset with
  | nil => rfl
  | cons h hs ih => exact congrArg Nat.succ (ih _)

/-- The bytes in front of the names. -/
theorem length_offsets (offset : UInt32) (hs : List CString) :
    ((hostOffsets offset hs).flatMap le32).length = 4 * hs.length := by
  rw [← length_hostOffsets offset hs]
  exact length_flatMap_le32 id _

theorem length_hostTable (hostlist : List CString) : (hostTable hostlist).length = tableSize hostlist := by
  rw [hostTable, List.length_append, length_offsets, tableSize]

/-- The offset of a name is what is in front of it. -/
theorem hostOffsets_get : ∀ (hs : List CString) (offset : UInt32) (i : ℕ) (hi : i < hs.length),
    (hostOffsets offset hs).get ⟨i, by rw [length_hostOffsets]; exact hi⟩ =
      offset + UInt32.ofNat ((hs.take i).flatMap CString.image).length
  | _ :: _, offset, 0, _ => (UInt32.add_zero offset).symm
  | h :: hs, offset, i + 1, hi => by
    have ih := hostOffsets_get hs (offset + UInt32.ofNat (h.strlen + 1)) i
      (Nat.lt_of_succ_lt_succ hi)
    show (hostOffsets (offset + UInt32.ofNat (h.strlen + 1)) hs).get _ = _
    rw [ih, List.take_succ_cons, List.flatMap_cons, List.length_append, CString.length_image,
      UInt32.add_assoc, ← UInt32.ofNat_add]

theorem hostlistSize_toNat {hostlist : List CString} (hfit : tableSize hostlist < 2 ^ 32) :
    (hostlistSize hostlist).toNat = tableSize hostlist := by
  have hfold : ∀ (hs : List CString) (size : UInt32),
      hs.foldl (fun size h => size + UInt32.ofNat (h.strlen + 1)) size =
        size + UInt32.ofNat (hs.flatMap CString.image).length := by
    intro hs
    induction hs with
    | nil => exact fun size => (UInt32.add_zero size).symm
    | cons h hs ih =>
      intro size
      rw [List.foldl_cons, ih, List.flatMap_cons, List.length_append, CString.length_image,
        UInt32.add_assoc, ← UInt32.ofNat_add]
  rw [hostlistSize, hfold, UInt32.zero_add, ofNat_mul_four, ← UInt32.ofNat_add]
  exact UInt32.toNat_ofNat_of_lt' hfit

/-- **Each name is found in the table**, and without reading outside. -/
theorem coboExpandHostname_hostTable {hostlist : List CString} (hfit : tableSize hostlist < 2 ^ 32)
    (r : ℕ) (hr : r < hostlist.length) :
    coboExpandHostname (hostTable hostlist) r = some hostlist[r] := by
  have hlen : (hostOffsets (UInt32.ofNat hostlist.length * 4) hostlist).length = hostlist.length :=
    length_hostOffsets _ _
  have hword := readLe32_drop_flatMap id (hostOffsets (UInt32.ofNat hostlist.length * 4) hostlist)
    (hostlist.flatMap CString.image) r (by rw [hlen]; exact hr)
  have hsplit : hostlist.flatMap CString.image = (hostlist.take r).flatMap CString.image ++
      (hostlist[r].image ++ (hostlist.drop (r + 1)).flatMap CString.image) := by
    rw [← List.flatMap_cons, ← List.drop_eq_getElem_cons hr, ← List.flatMap_append, List.take_append_drop]
  have hoff : (hostOffsets (UInt32.ofNat hostlist.length * 4) hostlist).get
      ⟨r, by rw [hlen]; exact hr⟩ =
      UInt32.ofNat (4 * hostlist.length + ((hostlist.take r).flatMap CString.image).length) := by
    rw [hostOffsets_get _ _ r hr, ofNat_mul_four, ← UInt32.ofNat_add]
  have hbound : 4 * hostlist.length + ((hostlist.take r).flatMap CString.image).length < 2 ^ 32 := by
    rw [tableSize, hsplit, List.length_append] at hfit
    omega
  have htable : hostTable hostlist = ((hostOffsets (UInt32.ofNat hostlist.length * 4)
      hostlist).flatMap le32 ++ (hostlist.take r).flatMap CString.image) ++
        (hostlist[r].image ++ (hostlist.drop (r + 1)).flatMap CString.image) := by
    rw [hostTable, hsplit, List.append_assoc]
  have hfront : ((hostOffsets (UInt32.ofNat hostlist.length * 4) hostlist).flatMap le32 ++
      (hostlist.take r).flatMap CString.image).length =
        4 * hostlist.length + ((hostlist.take r).flatMap CString.image).length := by
    rw [List.length_append, length_offsets]
  have hread : readLe32 ((hostTable hostlist).drop (4 * r)) = some (UInt32.ofNat (4 * hostlist.length +
      ((hostlist.take r).flatMap CString.image).length)) := by
    rw [← hoff]
    exact hword
  rw [coboExpandHostname, hread, Option.bind_eq_bind, Option.bind_some,
    UInt32.toNat_ofNat_of_lt' hbound, htable, List.drop_left' hfront, readCString_append]

/-! ## The plan behind the programs -/

variable {hostlist : List CString}

/-- What a daemon is sent. -/
def rankMsg (hostlist : List CString) (r : ℕ) : List UInt8 :=
  le32 (UInt32.ofNat r) ++ (le32 (UInt32.ofNat hostlist.length) ++
    (le32 (hostlistSize hostlist) ++ hostTable hostlist))

/-- What rank `r` has when its tree is open. -/
def opened (hostlist : List CString) (r : ℕ) (childFd : List ι) : Opened ι where
  coboMe := UInt32.ofNat r
  coboNprocs := UInt32.ofNat hostlist.length
  coboHostlistSize := hostlistSize hostlist
  coboHostlist := hostTable hostlist
  tree := treeOf hostlist.length r
  coboChildFd := childFd

/-- The host of a rank. -/
def hostOf (hostlist : List CString) (r : ℕ) : CString := hostlist.getD r .empty

theorem hostOf_eq {r : ℕ} (hr : r < hostlist.length) : hostOf hostlist r = hostlist[r] := by
  rw [hostOf, List.getD_eq_getElem?_getD, List.getElem?_eq_getElem hr, Option.getD_some]

theorem send_append (fd : ι) (xs ys : List UInt8) (k : Boot ι) :
    Prog.send fd (xs ++ ys) k = .send fd xs (.send fd ys k) := by
  induction xs with
  | nil => rfl
  | cons x xs ih => exact congrArg (Prog.put fd x) ih

theorem coboSendHostlist_eq (hfit : tableSize hostlist < 2 ^ 32) (fd : ι) (r : ℕ) (k : Boot ι) :
    coboSendHostlist fd (UInt32.ofNat r) (UInt32.ofNat hostlist.length) (hostTable hostlist)
      (hostlistSize hostlist) k = .send fd (rankMsg hostlist r) k := by
  rw [rankMsg, send_append, send_append, send_append, coboSendHostlist, hostlistSize_toNat hfit,
    ← length_hostTable, List.take_length]

/-- The loop over the children dials them. -/
theorem openChildren_eq (hfit : tableSize hostlist < 2 ^ 32) (r : ℕ) : ∀ (cs : List ℕ) (childFd : List ι),
    (∀ c ∈ cs, c < hostlist.length) →
    openChildren (UInt32.ofNat r) (UInt32.ofNat hostlist.length) (hostlistSize hostlist)
      (hostTable hostlist) (treeOf hostlist.length r) childFd cs =
      dialAll (hostOf hostlist) (rankMsg hostlist) (fun fds => .client (opened hostlist r fds)) childFd
        cs := by
  intro cs
  induction cs with
  | nil => exact fun childFd _ => rfl
  | cons c cs ih =>
    intro childFd hcs
    have hc := hcs c List.mem_cons_self
    rw [openChildren, coboExpandHostname_hostTable hfit c hc, dialAll, hostOf_eq hc]
    refine congrArg (Prog.dial _ c) (funext fun fd => ?_)
    rw [coboSendHostlist_eq hfit, ih _ fun c' hc' => hcs c' (List.mem_cons_of_mem _ hc')]

theorem coboServerOpen_eq (hne : hostlist ≠ []) (hfit : tableSize hostlist < 2 ^ 31) :
    (coboServerOpen hostlist : Boot ι) = dialAll (hostOf hostlist) (rankMsg hostlist)
      (fun fds => .server fds.head?) [] [0] := by
  have hsize := hostlistSize_toNat (show tableSize hostlist < 2 ^ 32 by omega)
  have hgood : ¬(coboMalloc (hostlistSize hostlist) = false ∨
      (hostlistSize hostlist).toNat < (hostTable hostlist).length) := by
    rw [coboMalloc, hsize, length_hostTable, decide_eq_true hfit]
    simp
  cases hostlist with
  | nil => exact absurd rfl hne
  | cons h hs =>
    rw [coboServerOpen, if_neg hgood]
    refine congrArg (Prog.dial h 0) (funext fun fd => ?_)
    exact coboSendHostlist_eq (by omega) fd 0 _

/-- A daemon that has read its message opens its part of the tree. -/
theorem coboOpenTree_feed (hfit : tableSize hostlist < 2 ^ 31) {r : ℕ} (hr : r < hostlist.length) :
    (coboOpenTree : Boot ι).feed (rankMsg hostlist r) = some (dialAll (hostOf hostlist)
      (rankMsg hostlist) (fun fds => .client (opened hostlist r fds)) []
        (treeOf hostlist.length r).child) := by
  have hn : hostlist.length < 2 ^ 29 := by
    rw [tableSize] at hfit
    omega
  have hsize := hostlistSize_toNat (show tableSize hostlist < 2 ^ 32 by omega)
  have hlen : (hostTable hostlist).length = (hostlistSize hostlist).toNat := by
    rw [hsize, length_hostTable]
  have hmalloc : ¬coboMalloc (hostlistSize hostlist) = false := by
    rw [coboMalloc, hsize, decide_eq_true hfit]
    rintro ⟨⟩
  obtain ⟨m, hm, -⟩ := maxChildren_spec (show hostlist.length ≤ 2 ^ 30 by omega)
  have htree : coboComputeChildren (UInt32.ofNat hostlist.length).toNat (UInt32.ofNat r).toNat =
      some (treeOf hostlist.length r) := by
    rw [UInt32.toNat_ofNat_of_lt' (show _ < 2 ^ 32 by omega),
      UInt32.toNat_ofNat_of_lt' (show _ < 2 ^ 32 by omega), coboComputeChildren_eq hm hr]
  have hkids : ∀ c ∈ (treeOf hostlist.length r).child, c < hostlist.length := fun c hc =>
    (childOf_bounds ⟨hr, hc⟩).2.1
  have hrest : ∀ k : List UInt8 → Boot ι, (Prog.recv (hostlistSize hostlist).toNat k).feed
      (hostTable hostlist) = some (k (hostTable hostlist)) := fun k => by
    have h := Prog.feed_recv (hostTable hostlist) [] k
    rwa [List.append_nil, Prog.feed_nil, hlen] at h
  unfold coboOpenTree
  rw [rankMsg]
  refine (Prog.feed_recv (le32 (UInt32.ofNat r)) _ _).trans ?_
  refine (Prog.feed_recv (le32 (UInt32.ofNat hostlist.length)) _ _).trans ?_
  refine (Prog.feed_recv (le32 (hostlistSize hostlist)) _ _).trans ?_
  simp only [readLe32_le32, Option.getD_some]
  rw [if_neg hmalloc, hrest, htree]
  exact congrArg some (openChildren_eq (by omega) r _ [] hkids)

/-- The ranks, dialled along the tree. -/
def bootPlan (ι : Type) (hne : hostlist ≠ []) (hfit : tableSize hostlist < 2 ^ 31) :
    Plan ι CString (Outcome ι) hostlist.length where
  addrOf := hostOf hostlist
  msg := rankMsg hostlist
  kids r := (treeOf hostlist.length r).child
  starter fds := .server fds.head?
  result r fds := .client (opened hostlist r fds)
  reader := coboOpenTree
  waits := ⟨_, rfl⟩
  reads r hr := coboOpenTree_feed hfit hr
  pos := List.length_pos_iff.mpr hne
  kids_lt q hq c hc := ⟨(childOf_bounds ⟨hq, hc⟩).1, (childOf_bounds ⟨hq, hc⟩).2.1⟩
  kids_nodup q hq := List.pairwise_map.mpr ((kids_pairwise q _).imp fun h => Nat.ne_of_gt h)
  kid c hpos hc := by
    have hlt := (ownParent_bounds 0 0 (hostlist.length - 1) c hpos (by omega)).2
    exact ⟨(treeOf hostlist.length c).parent, hlt.trans hc,
      (mem_treeOf_child (hlt.trans hc)).mpr ⟨hpos, hc, rfl⟩⟩
  kids_unique q hq q' hq' c hc hc' :=
    ((mem_treeOf_child hq).mp hc).2.2.trans ((mem_treeOf_child hq').mp hc').2.2.symm

theorem bootNet_eq (hne : hostlist ≠ []) (hfit : tableSize hostlist < 2 ^ 31) :
    (bootNet hostlist : Net ι CString (Outcome ι)) = (bootPlan ι hne hfit).init := by
  refine Net.ext (funext fun p => ?_) rfl rfl
  cases p with
  | none => exact coboServerOpen_eq hne hfit
  | some j => rfl

/-! ## The tree comes up -/

/-- The tree is open: `rank` numbers the daemons. -/
structure TreeOpen (host : ι → CString) (hostlist : List CString) (s : Net ι CString (Outcome ι))
    (rank : ι ≃ Fin hostlist.length) : Prop where
  /-- A daemon runs on the host of its rank. -/
  host_eq : ∀ j, host j = hostlist[rank j]
  /-- The server is connected to rank 0. -/
  server_eq : ∃ fd, s.prog none = .ret (.server (some fd)) ∧ (rank fd : ℕ) = 0
  /-- A daemon has its rank, the number of ranks and the table of the server, and it is connected to
      its children in the order of the tree. -/
  client_eq : ∀ j, ∃ o : Opened ι, s.prog (some j) = .ret (.client o) ∧
    o.coboMe.toNat = rank j ∧ o.coboNprocs.toNat = hostlist.length ∧
    o.coboHostlistSize.toNat = o.coboHostlist.length ∧ o.coboHostlist = hostTable hostlist ∧
    coboComputeChildren hostlist.length (rank j) = some o.tree ∧
    o.coboChildFd.map (fun i => (rank i : ℕ)) = o.tree.child
  /-- No daemon has another connection than that to its parent, and rank 0 the one to the server. -/
  parent_eq : ∀ j, ∃ p, s.caller j = some (p, (rank j : ℕ)) ∧
    match p with
    | none => (rank j : ℕ) = 0
    | some i => ChildOf hostlist.length (treeOf hostlist.length) (rank i) (rank j)
  /-- Nothing is left on a connection. -/
  inbox_eq : ∀ j, s.inbox j = []
  /-- The table yields the host of each rank. -/
  expand_eq : ∀ r : Fin hostlist.length, coboExpandHostname (hostTable hostlist) r = some hostlist[r]

variable [DecidableEq ι]

/-- **COBO bootstrap.**  For every list of hosts whose table is smaller than 2^31 bytes, and as many
    daemons on each host as it occurs: every run is finite, and where it ends the tree is open. -/
theorem cobo_bootstrap [Fintype ι] (host : ι → CString) (hostlist : List CString) (hne : hostlist ≠ [])
    (hfit : tableSize hostlist < 2 ^ 31)
    (hstaff : ∀ h, Fintype.card {j // host j = h} =
      Fintype.card {r : Fin hostlist.length // hostlist[r] = h})
    (cap : ℕ∞) (hcap : 1 ≤ cap) :
    (∃ N, ∀ k s, RunN (Step host cap) k (bootNet hostlist) s → k ≤ N) ∧
    ∀ s, ReflTransGen (Step host cap) (bootNet hostlist) s → Stuck (Step host cap) s →
      ∃ rank, TreeOpen host hostlist s rank := by
  have hlen : 0 < hostlist.length := List.length_pos_iff.mpr hne
  have hn : hostlist.length < 2 ^ 29 := by
    rw [tableSize] at hfit
    omega
  -- the plan's address of a rank is the host list's entry
  have hstaff' : Plan.Staffed (bootPlan ι hne hfit) host := by
    intro h
    rw [hstaff h]
    refine Fintype.card_congr (Equiv.subtypeEquivRight fun r => ?_)
    rw [show (bootPlan ι hne hfit).addrOf r = hostlist[r] from hostOf_eq r.2]
  -- one of the daemons runs on the first host
  have hnonempty : Nonempty ι := by
    have hpos : 0 < Fintype.card {r : Fin hostlist.length // hostlist[r] = hostlist[0]} :=
      Fintype.card_pos_iff.mpr ⟨⟨⟨0, hlen⟩, rfl⟩⟩
    rw [← hstaff] at hpos
    obtain ⟨j⟩ := Fintype.card_pos_iff.mp hpos
    exact ⟨j⟩
  rw [bootNet_eq hne hfit]
  constructor
  · refine ⟨_, fun k s hrun => Plan.bounded (L := 12 + (hostTable hostlist).length) (fun r _ => ?_) hrun⟩
    show (rankMsg hostlist r).length ≤ _
    rw [rankMsg, List.length_append, List.length_append, List.length_append]
    simp only [length_le32]
    omega
  · intro s hrun hstuck
    obtain ⟨rank, hdone⟩ := (Plan.inv_init.run hrun).done_of_stuck hcap hstaff' hstuck
    refine ⟨rank, ⟨fun j => ?_, ?_, fun j => ?_, fun j => ?_, hdone.inbox_eq, fun r => ?_⟩⟩
    · exact (hdone.addr_eq j).trans (hostOf_eq (rank j).2)
    · exact hdone.starter_eq
    · obtain ⟨fds, hprog, hfds⟩ := hdone.prog_eq j
      have hr := (rank j).2
      obtain ⟨m, hm, -⟩ := maxChildren_spec (show hostlist.length ≤ 2 ^ 30 by omega)
      refine ⟨_, hprog, UInt32.toNat_ofNat_of_lt' (show _ < 2 ^ 32 by omega),
        UInt32.toNat_ofNat_of_lt' (show _ < 2 ^ 32 by omega), ?_, rfl, coboComputeChildren_eq hm hr, hfds⟩
      show (hostlistSize hostlist).toNat = (hostTable hostlist).length
      rw [hostlistSize_toNat (by omega), length_hostTable]
    · obtain ⟨p, hcaller, hp⟩ := hdone.caller_eq j
      refine ⟨p, hcaller, ?_⟩
      cases p with
      | none => exact hp
      | some i => exact ⟨(rank i).2, hp⟩
    · exact coboExpandHostname_hostTable (by omega) r r.2

/-- Three hosts, of which two are the same. -/
def threeHosts : List CString := [.letter 0, .letter 1, .letter 0]

theorem cobo_bootstrap_three :
    (∃ N, ∀ k s, RunN (Step (fun j : Fin 3 => threeHosts[(Equiv.swap 1 2 j : Fin 3)]) 1)
      k (bootNet threeHosts) s → k ≤ N) ∧
    ∀ s, ReflTransGen (Step (fun j : Fin 3 => threeHosts[(Equiv.swap 1 2 j : Fin 3)]) 1)
        (bootNet threeHosts) s →
      Stuck (Step (fun j : Fin 3 => threeHosts[(Equiv.swap 1 2 j : Fin 3)]) 1) s →
      ∃ rank, TreeOpen (fun j : Fin 3 => threeHosts[(Equiv.swap 1 2 j : Fin 3)]) threeHosts s rank :=
  cobo_bootstrap _ threeHosts (by decide) (by decide)
    (fun _ => Fintype.card_congr ((Equiv.swap 1 2 : Fin 3 ≃ Fin 3).subtypeEquiv fun _ => Iff.rfl)) 1
    le_rfl

/-- The server has no memory for a table of 2^31 bytes and more: it gives up before it dials anybody. -/
theorem bootstrap_refused (host : ι → CString) (hostlist : List CString)
    (hbig : 2 ^ 31 ≤ tableSize hostlist) (hword : tableSize hostlist < 2 ^ 32) (cap : ℕ∞) :
    ¬∃ s, ReflTransGen (Step host cap) (bootNet hostlist) s ∧ ∃ rank, TreeOpen host hostlist s rank := by
  rintro ⟨s, hrun, rank, hopen⟩
  have hmalloc : coboMalloc (hostlistSize hostlist) = false := by
    rw [coboMalloc, hostlistSize_toNat hword, decide_eq_false (Nat.not_lt.mpr hbig)]
  have hfail : (coboServerOpen hostlist : Boot ι) = .fail := by
    cases hostlist with
    | nil => rfl
    | cons h hs => exact if_pos (Or.inl hmalloc)
  have hstuck : Stuck (Step host cap) (bootNet hostlist) := by
    intro t hstep
    cases hstep with
    | @dial p a c k j hprog _ _ =>
      cases p with
      | none => cases hfail.symm.trans hprog
      | some j => cases hprog
    | @put p fd b k hprog _ =>
      cases p with
      | none => cases hfail.symm.trans hprog
      | some j => cases hprog
    | get _ hj _ => exact hj rfl
  obtain ⟨fd, hserver, -⟩ := hopen.server_eq
  rcases ReflTransGen.cases_head hrun with rfl | ⟨t, hstep, -⟩
  · cases hfail.symm.trans hserver
  · exact hstuck t hstep

/-- A host whose name has 2^31 bytes. -/
def longHost : CString :=
  ⟨List.replicate (2 ^ 31) 97, fun h => absurd (List.eq_of_mem_replicate h) (by decide)⟩

theorem bootstrap_counterexample : ¬∃ s, ReflTransGen (Step (fun _ : Unit => longHost) ⊤)
    (bootNet [longHost]) s ∧ ∃ rank, TreeOpen (fun _ => longHost) [longHost] s rank := by
  have hlen : longHost.strlen = 2 ^ 31 := List.length_replicate
  have hsize : tableSize [longHost] = 4 + (2 ^ 31 + 1) := by
    rw [tableSize, List.flatMap_singleton, CString.length_image, hlen]
    rfl
  exact bootstrap_refused _ _ (by omega) (by omega) ⊤

end LaunchMON.Cobo
