/-
  Programs of COBO collectives: can one collective take bytes of another?

  The messages of the collectives carry neither tags nor numbers, and the ranks run far ahead of each
  other: while one still sends to its children for the first collective, another may be in the third.
  `program` is what a rank does when it makes a list of calls; the arguments of a call may depend on
  the results of the calls before.  To talk about when a rank is where, it notes at an observer, rank
  `n`, that it makes a call and that the call has returned; the observer reads nothing.

  1. **No interference** (`program_run`): there is ONE schedule in which everybody finishes, one call
     after the other, and in which each call finds the sockets as empty as if it were alone; so its
     results are those it has alone.  `FifoNet.endsIn_of_run` makes this all schedules.

  2. **Barriers** (`barrier_waits`): what a rank still has to write does not depend on the bytes
     (`FifoNet.Leaves`), and what one end of a socket has not written the other has not read
     (`FifoNet.Evens`).  So a rank that is still before a barrier blocks its parent in the reduction,
     this one its own, up to rank 0, and then the broadcast blocks everybody.
-/
import LaunchMON.Cobo.Broadcast
import LaunchMON.Lib.Traffic

namespace LaunchMON.Cobo

open FifoNet Descent Relation Function

/-! ## Programs -/

/-- A collective, with the sizes that all ranks have to agree on. -/
inductive Collective
  | bcast (sendcount : Nat)
  | gather (sendcount : Nat)
  | scatter (sendcount : Nat)
  | allgather (sendcount : Nat)
  | allreduceMaxInt
  | barrier
  deriving DecidableEq

/-- The buffers of one rank; `recvbuf` is also the `buf` of `cobo_bcast`. -/
structure Args where
  sendbuf : Buf UInt8
  recvbuf : Buf UInt8
  malloced : Buf UInt8

/-- What rank `me` of `n` does in a collective with root 0, if it gets its temporary buffer. -/
def Collective.body (n me : Nat) (t : Tree) : Collective → Args → Rank
  | .bcast sendcount, a => coboBcastTree me t a.recvbuf sendcount
  | .gather sendcount, a => coboGatherTree me t a.sendbuf sendcount a.recvbuf a.malloced
  | .scatter sendcount, a => coboScatterTree me t a.sendbuf sendcount a.recvbuf a.malloced
  | .allgather sendcount, a => coboAllgather n me t a.sendbuf sendcount a.recvbuf a.malloced
  | .allreduceMaxInt, a => coboAllreduceMaxIntTree me t a.sendbuf a.recvbuf
  | .barrier, a => coboBarrier me t a.recvbuf

/-- Does `cobo_malloc` give the temporary buffer?  Rank 0 needs none. -/
def Collective.allocates (me : Nat) (t : Tree) : Collective → Bool
  | .gather sendcount | .scatter sendcount | .allgather sendcount =>
    me = 0 ∨ coboMalloc (UInt32.ofNat ((t.numChildIncl + 1) * sendcount)) = true
  | .bcast _ | .allreduceMaxInt | .barrier => true

/-- A process that `cobo_malloc` has ended with `exit(1)`.  It never does anything again: it waits for a
    byte from itself. -/
def exited (me : Nat) (a : Args) : Rank := .recv me 1 fun _ => .ret a.recvbuf

/-- What rank `me` of `n` does in a collective with root 0.  The buffer is the first thing it needs. -/
def Collective.run (n me : Nat) (t : Tree) (c : Collective) (a : Args) : Rank :=
  if c.allocates me t then c.body n me t a else exited me a

/-- The buffers have sizes that are `int`s. -/
def Collective.Fits (n : Nat) : Collective → Prop
  | .gather sendcount | .scatter sendcount | .allgather sendcount => n * sendcount < 2 ^ 31
  | .bcast _ | .allreduceMaxInt | .barrier => True

/-- Where the sizes fit, `malloc` is asked for what the collective needs, and its body runs. -/
theorem Collective.run_eq {n me : Nat} (hme : me < n) {c : Collective} (hfits : c.Fits n) (a : Args) :
    c.run n me (treeOf n me) a = c.body n me (treeOf n me) a := by
  have hmalloc : ∀ s, n * s < 2 ^ 31 →
      coboMalloc (UInt32.ofNat (((treeOf n me).numChildIncl + 1) * s)) = true := by
    intro s hs
    have hle := Nat.mul_le_mul_right s (numChildIncl_lt hme)
    rw [coboMalloc, UInt32.toNat_ofNat_of_lt' (show _ < 2 ^ 32 by omega)]
    exact decide_eq_true (by omega)
  refine if_pos ?_
  cases c with
  | gather s => exact decide_eq_true (Or.inr (hmalloc s hfits))
  | scatter s => exact decide_eq_true (Or.inr (hmalloc s hfits))
  | allgather s => exact decide_eq_true (Or.inr (hmalloc s hfits))
  | bcast _ => rfl
  | allreduceMaxInt => rfl
  | barrier => rfl

/-- A call; what rank `r` passes to it may depend on what its earlier calls have returned. -/
structure Call where
  what : Collective
  args : Nat → List (Buf UInt8) → Args

/-- The calls of rank `me`, with the results so far. -/
def program (n me : Nat) (t : Tree) : List Call → List (Buf UInt8) → Prog Nat UInt8 (List (Buf UInt8))
  | [], done => .ret done
  | call :: calls, done =>
    .send n [0] ((call.what.run n me t (call.args me done)).bind fun out =>
      .send n [1] (program n me t calls (done ++ [out])))

/-- All ranks at the start of their programs. -/
def programNet (n : Nat) (T : Nat → Tree) (calls : List Call) : Net Nat UInt8 (List (Buf UInt8)) where
  prog r := if r < n then program n r (T r) calls [] else .ret []
  chan _ := []

/-- All ranks at the start of one collective, and nothing else. -/
def aloneNet (n : Nat) (T : Nat → Tree) (c : Collective) (args : Nat → Args) :
    Net Nat UInt8 (Buf UInt8) where
  prog r := if r < n then c.run n r (T r) (args r) else .ret (args r).recvbuf
  chan _ := []

/-- The ranks have returned from all calls, with the results `outs`. -/
def finishedNet (n k : Nat) (outs : Nat → List (Buf UInt8)) : Net Nat UInt8 (List (Buf UInt8)) where
  prog r := .ret (if r < n then outs r else [])
  chan c := if c.2 = n ∧ c.1 < n then (List.replicate k [0, 1]).flatten else []

/-! ## No interference -/

section

variable {n : Nat} {T : Nat → Tree} {cap : Nat × Nat → ℕ∞}

/-- A collective whose buffers are there, wherever it is run. -/
theorem Collective.body_all (h1 : 1 ≤ n) (hT : ∀ r, r < n → coboComputeChildren n r = some (T r))
    (hcap : ∀ c, 1 ≤ cap c) (c : Collective) (hfits : c.Fits n) (args : Nat → Args) :
    ∃ out : Nat → Buf UInt8, (c = .allreduceMaxInt → ∃ x,
        IsMaxOf n (sent fun r => (args r).sendbuf) x ∧ ∀ r, readInt ((out r).read 0 4) = x) ∧
      ∀ st : Net Nat UInt8 (Buf UInt8), (∀ r, r < n → st.prog r = c.body n r (T r) (args r)) →
        Quiet 0 (n - 1) st → ReflTransGen (ByteStep cap) st (leftWith n st out) := by
  have hback : ∀ (m : Buf UInt8) (x : Int32),
      readInt (Buf.read (m.write 0 (intBytes x)) 0 4) = x := by
    intro m x
    have hread := Buf.read_write m 0 (intBytes x)
    rw [length_intBytes] at hread
    rw [hread, readInt_intBytes]
  cases c with
  | bcast s =>
    exact ⟨_, (by rintro ⟨⟩), fun st hst hquiet =>
      bcast_all (fun r => (args r).recvbuf) cap h1 hT hcap s hst hquiet⟩
  | gather s =>
    exact ⟨_, (by rintro ⟨⟩), fun st hst hquiet =>
      gather_all s (fun r => (args r).sendbuf) (fun r => (args r).recvbuf)
        (fun r => (args r).malloced) cap h1 hfits hT hcap hst hquiet⟩
  | scatter s =>
    exact ⟨_, (by rintro ⟨⟩), fun st hst hquiet =>
      scatter_all s (fun r => (args r).sendbuf) (fun r => (args r).recvbuf)
        (fun r => (args r).malloced) cap h1 hfits hT hcap hst hquiet⟩
  | allgather s =>
    exact ⟨_, (by rintro ⟨⟩), fun st hst hquiet =>
      allgather_all cap (fun r => (args r).sendbuf) (fun r => (args r).recvbuf)
        (fun r => (args r).malloced) s h1 hfits hT hcap hst hquiet⟩
  | allreduceMaxInt =>
    obtain ⟨x, hx⟩ := exists_isMaxOf (sent fun r => (args r).sendbuf) h1
    exact ⟨_, fun _ => ⟨x, hx, fun r => hback _ x⟩, fun st hst hquiet =>
      allreduce_all cap (fun r => (args r).sendbuf) (fun r => (args r).recvbuf) h1 hT hcap hst
        hquiet hx⟩
  -- a barrier is a reduction of ones
  | barrier =>
    obtain ⟨x, hx⟩ := exists_isMaxOf (sent fun _ i => (intBytes 1).getD i 0) h1
    exact ⟨_, (by rintro ⟨⟩), fun st hst hquiet =>
      allreduce_all cap (fun _ i => (intBytes 1).getD i 0) (fun r => (args r).recvbuf) h1 hT hcap
        hst hquiet hx⟩

/-- A collective, wherever it is run. -/
theorem Collective.run_all (h1 : 1 ≤ n) (hT : ∀ r, r < n → coboComputeChildren n r = some (T r))
    (hcap : ∀ c, 1 ≤ cap c) (c : Collective) (hfits : c.Fits n) (args : Nat → Args) :
    ∃ out : Nat → Buf UInt8, (c = .allreduceMaxInt → ∃ x,
        IsMaxOf n (sent fun r => (args r).sendbuf) x ∧ ∀ r, readInt ((out r).read 0 4) = x) ∧
      ∀ st : Net Nat UInt8 (Buf UInt8), (∀ r, r < n → st.prog r = c.run n r (T r) (args r)) →
        Quiet 0 (n - 1) st → ReflTransGen (ByteStep cap) st (leftWith n st out) := by
  obtain ⟨out, hmax, hbody⟩ := c.body_all h1 hT hcap hfits args
  refine ⟨out, hmax, fun st hst => hbody st fun r hr => ?_⟩
  rw [hst r hr, treeOf_of_some (hT r hr) hr, run_eq hr hfits]

/-- The ranks have made a note at the observer. -/
def noted {γ : Type} (n : Nat) (st : Net Nat UInt8 γ) (bs : List UInt8) (P : Nat → Prog Nat UInt8 γ) :
    Net Nat UInt8 γ where
  prog r := if r < n then P r else st.prog r
  chan c := if c.2 = n ∧ c.1 < n then st.chan c ++ bs else st.chan c

theorem noted_quiet {γ : Type} {st : Net Nat UInt8 γ} {bs : List UInt8}
    {P : Nat → Prog Nat UInt8 γ} (h1 : 1 ≤ n) (h : Quiet 0 (n - 1) st) :
    Quiet 0 (n - 1) (noted n st bs P) := by
  intro a b ha han hb hbn
  refine (if_neg ?_).trans (h a b ha han hb hbn)
  show ¬(b = n ∧ a < n)
  omega

/-- All ranks make a note. -/
theorem note_all {γ : Type} (hlog : ∀ r, cap (r, n) = ⊤) (bs : List UInt8) {st : Net Nat UInt8 γ}
    {P : Nat → Prog Nat UInt8 γ} (hst : ∀ r, r < n → st.prog r = .send n bs (P r)) :
    ReflTransGen (ByteStep cap) st (noted n st bs P) := by
  -- the first `m` ranks have made theirs
  have hgo : ∀ m, m ≤ n → ReflTransGen (ByteStep cap) st
      { prog := fun r => if r < m then P r else st.prog r
        chan := fun c => if c.2 = n ∧ c.1 < m then st.chan c ++ bs else st.chan c } := by
    intro m
    induction m with
    | zero =>
      intro _
      refine (congrArg _ (Net.ext (funext fun r => ?_) (funext fun c => ?_))).mp ReflTransGen.refl
      · simp
      · simp
    | succ m ih =>
      intro hm
      refine (ih (by omega)).trans ?_
      have hput := put_run cap (s :=
        { prog := fun r => if r < m then P r else st.prog r
          chan := fun c => if c.2 = n ∧ c.1 < m then st.chan c ++ bs else st.chan c })
        ((if_neg (lt_irrefl m)).trans (hst m hm)) (by rw [hlog]; exact le_top)
      refine (congrArg _ (Net.ext (funext fun r => ?_) (funext fun c => ?_))).mp hput
      · by_cases hr : r = m
        · subst hr
          simp
        · have hiff : r < m + 1 ↔ r < m := by omega
          simp only [setChan_prog, setProg_prog, update_of_ne hr, hiff]
      · obtain ⟨a, b⟩ := c
        by_cases hc : ((a, b) : Nat × Nat) = (m, n)
        · cases hc
          simp
        · have hiff : (b = n ∧ a < m + 1) ↔ (b = n ∧ a < m) := by
            constructor
            · rintro ⟨rfl, ha⟩
              exact ⟨rfl, Nat.lt_of_le_of_ne (Nat.le_of_lt_succ ha) fun h => hc (by rw [h])⟩
            · rintro ⟨rfl, ha⟩
              exact ⟨rfl, Nat.lt_succ_of_lt ha⟩
          simp only [setChan_chan, setProg_chan, update_of_ne hc, hiff]
  exact hgo n (le_refl n)

/-- A collective that runs alone. -/
theorem aloneNet_endsIn {c : Collective} {args : Nat → Args} {out : Nat → Buf UInt8}
    (h : ∀ st : Net Nat UInt8 (Buf UInt8), (∀ r, r < n → st.prog r = c.run n r (T r) (args r)) →
      Quiet 0 (n - 1) st → ReflTransGen (ByteStep cap) st (leftWith n st out)) :
    EndsIn (Step cap) (aloneNet n T c args)
      (returned fun r => if r < n then out r else (args r).recvbuf) := by
  have hrun := h (aloneNet n T c args) (fun r hr => if_pos hr) (fun _ _ _ _ _ _ => rfl)
  have heq : leftWith n (aloneNet n T c args) out =
      returned fun r => if r < n then out r else (args r).recvbuf := by
    refine Net.ext (funext fun r => ?_) rfl
    by_cases hr : r < n
    · simp [leftWith, returned, hr]
    · simp [leftWith, returned, aloneNet, hr]
  exact endsIn_of_run cap (heq ▸ hrun) (returned_finished _)

/-- The results `outs` of the calls, made with the results `done`, are those that each has alone; an
    allreduce has the maximum. -/
def Alike (n : Nat) (T : Nat → Tree) (cap : Nat × Nat → ℕ∞) (calls : List Call)
    (done outs : Nat → List (Buf UInt8)) : Prop :=
  ∀ (k : Nat) (call : Call), calls[k]? = some call → ∃ out : Nat → Buf UInt8,
    EndsIn (Step cap) (aloneNet n T call.what fun r => call.args r (done r ++ (outs r).take k))
      (returned out) ∧
    (∀ r, r < n → (outs r)[k]? = some (out r)) ∧
    (call.what = .allreduceMaxInt → ∃ x,
      IsMaxOf n (sent fun r => (call.args r (done r ++ (outs r).take k)).sendbuf) x ∧
      ∀ r, r < n → readInt ((out r).read 0 4) = x)

/-- All ranks have got to the end of their `k` calls. -/
def atEnd (n k : Nat) (st : Net Nat UInt8 (List (Buf UInt8))) (outs : Nat → List (Buf UInt8)) :
    Net Nat UInt8 (List (Buf UInt8)) where
  prog r := if r < n then .ret (outs r) else st.prog r
  chan c := if c.2 = n ∧ c.1 < n then st.chan c ++ (List.replicate k [0, 1]).flatten else st.chan c

/-- **One call after the other**: everybody finishes one before anybody starts the next. -/
theorem program_run (h1 : 1 ≤ n) (hT : ∀ r, r < n → coboComputeChildren n r = some (T r))
    (hcap : ∀ c, 1 ≤ cap c) (hlog : ∀ r, cap (r, n) = ⊤) : ∀ calls : List Call,
    (∀ call ∈ calls, call.what.Fits n) →
    ∀ (done : Nat → List (Buf UInt8)) (st : Net Nat UInt8 (List (Buf UInt8))),
    (∀ r, r < n → st.prog r = program n r (T r) calls (done r)) → Quiet 0 (n - 1) st →
    ∃ outs : Nat → List (Buf UInt8), Alike n T cap calls done outs ∧
      ReflTransGen (ByteStep cap) st (atEnd n calls.length st fun r => done r ++ outs r) := by
  intro calls
  induction calls with
  | nil =>
    intro _ done st hst _
    refine ⟨fun _ => [], fun k call hk => by simp at hk, ?_⟩
    refine (congrArg _ (Net.ext (funext fun r => ?_) (funext fun c => ?_))).mp ReflTransGen.refl
    · by_cases hr : r < n
      · simp [atEnd, hr, hst r hr, program]
      · simp [atEnd, hr]
    · simp [atEnd]
  | cons call calls ih =>
    intro hfits done st hst hquiet
    obtain ⟨out, hmax, hrun⟩ := call.what.run_all h1 hT hcap (hfits call (List.mem_cons_self ..))
      fun r => call.args r (done r)
    -- enter, run the collective, leave
    let after : Nat → Buf UInt8 → Prog Nat UInt8 (List (Buf UInt8)) := fun r b =>
      .send n [1] (program n r (T r) calls (done r ++ [b]))
    let st1 := noted n st [0] fun r =>
      (call.what.run n r (T r) (call.args r (done r))).bind (after r)
    let st2 : Net Nat UInt8 (List (Buf UInt8)) :=
      { prog := fun r => if r < n then after r (out r) else st1.prog r, chan := st1.chan }
    let st3 := noted n st2 [1] fun r => program n r (T r) calls (done r ++ [out r])
    have henter : ReflTransGen (ByteStep cap) st st1 := note_all hlog [0] hst
    have hquiet1 : Quiet 0 (n - 1) st1 := noted_quiet h1 hquiet
    have hcall : ReflTransGen (ByteStep cap) st1 st2 :=
      bind_all cap (fun r hr => if_pos hr) fun st0 hst0 hchan =>
        hrun st0 hst0 (by unfold Quiet; rw [hchan]; exact hquiet1)
    have hleave : ReflTransGen (ByteStep cap) st2 st3 :=
      note_all hlog [1] fun r hr => if_pos hr
    -- the rest of the calls
    obtain ⟨outs, halike, hrest⟩ := ih (fun c hc => hfits c (List.mem_cons_of_mem _ hc))
      (fun r => done r ++ [out r]) st3 (fun r hr => if_pos hr) (noted_quiet h1 hquiet1)
    refine ⟨fun r => out r :: outs r, ?_, ?_⟩
    · intro k c hk
      cases k with
      | zero =>
        cases hk
        refine ⟨_, by simpa using aloneNet_endsIn hrun, fun r hr => by simp [hr], fun h => ?_⟩
        obtain ⟨x, hx, hall⟩ := hmax h
        exact ⟨x, by simpa using hx, fun r hr => by simpa [hr] using hall r⟩
      | succ k =>
        obtain ⟨out', hends, hout', hmax'⟩ := halike k c hk
        refine ⟨out', by simpa using hends, hout', fun h => ?_⟩
        obtain ⟨x, hx, hall⟩ := hmax' h
        exact ⟨x, by simpa using hx, hall⟩
    · have heq : atEnd n calls.length st3 (fun r => (done r ++ [out r]) ++ outs r) =
          atEnd n (call :: calls).length st fun r => done r ++ out r :: outs r := by
        refine Net.ext (funext fun r => ?_) (funext fun c => ?_)
        · by_cases hr : r < n
          · simp [atEnd, hr]
          · simp [atEnd, st3, st2, st1, noted, hr]
        · by_cases hc : c.2 = n ∧ c.1 < n
          · simp [atEnd, st3, st2, st1, noted, hc, List.replicate_succ]
          · simp [atEnd, st3, st2, st1, noted, hc]
      exact heq ▸ ((henter.trans hcall).trans hleave).trans hrest

end

/-! ## Traffic -/

section

variable {φ : (Nat → ℕ) → (Nat → ℕ) → Prop} {w rd : Nat → ℕ} {cs : List Nat}

theorem leaves_bcastChildren {bs : List UInt8} {k : Rank} (hk : Leaves φ k w rd)
    (hφ : ∀ w', w' ≤ w + loads (fun _ => bs.length) cs → φ w' rd) :
    Leaves φ (bcastChildren bs cs k) (w + loads (fun _ => bs.length) cs) rd := by
  induction cs with
  | nil => simpa [bcastChildren] using hk
  | cons c cs ih =>
    rw [loads_cons, add_comm (Pi.single c _), ← add_assoc] at hφ ⊢
    refine .send (ih fun w' hw => hφ w' (le_add_right hw)) fun i hi => hφ _ ?_
    gcongr

theorem leaves_reduceChildren {k : Int32 → Rank} (hk : ∀ v, Leaves φ (k v) w rd)
    (hφ : ∀ rd', rd' ≤ rd + loads (fun _ => 4) cs → φ w rd') (v : Int32) :
    Leaves φ (reduceChildren cs v k) w (rd + loads (fun _ => 4) cs) := by
  induction cs generalizing v with
  | nil => simpa [reduceChildren] using hk v
  | cons c cs ih =>
    rw [loads_cons, add_comm (Pi.single c _), ← add_assoc] at hφ ⊢
    refine .recv (fun bs _ => ih (fun rd' hrd => hφ rd' (le_add_right hrd)) _) fun i hi => hφ _ ?_
    gcongr

theorem leaves_gatherChildren {s : Nat} {g : Nat → Nat} {k : Buf UInt8 → Rank}
    (hk : ∀ b, Leaves (fun _ _ => True) (k b) w rd) (o : Nat) (b : Buf UInt8) :
    Leaves (fun _ _ => True) (gatherChildren s (cs.map fun c => (c, g c)) o b k) w
      (rd + loads (fun c => cInt (s * g c)) cs) := by
  induction cs generalizing o b with
  | nil => simpa [gatherChildren] using hk b
  | cons c cs ih =>
    rw [loads_cons, add_comm (Pi.single c _), ← add_assoc]
    exact .recv (fun bs _ => ih _ _) fun i _ => trivial

theorem leaves_scatterChildren {s : Nat} {g : Nat → Nat} {b : Buf UInt8} {k : Rank}
    (hk : Leaves (fun _ _ => True) k w rd) (o : Nat) :
    Leaves (fun _ _ => True) (scatterChildren s b (cs.map fun c => (c, g c)) o k)
      (w + loads (fun c => cInt (s * g c)) cs) rd := by
  induction cs generalizing o with
  | nil => simpa [scatterChildren] using hk
  | cons c cs ih =>
    rw [loads_cons, add_comm (Pi.single c _), ← add_assoc]
    have hsend : Leaves (fun _ _ => True) (.send c (b.read o (cInt (s * g c)))
        (scatterChildren s b (cs.map fun c => (c, g c)) (cInt (o + s * g c)) k)) _ _ :=
      .send (ih (cInt (o + s * g c))) fun i _ => trivial
    rwa [Buf.length_read] at hsend

/-- What a rank exchanges with its parent; nothing if it has none. -/
def toParent (n r k : Nat) : Nat → ℕ := if r = 0 then 0 else Pi.single (treeOf n r).parent k

/-- Rank `r` of a broadcast: `φ` is to hold while it waits for its parent, and while it sends. -/
theorem leaves_bcastTree {n r size : Nat} (buf : Buf UInt8)
    (hwait : r ≠ 0 → ∀ i ≤ size, φ (loads (fun _ => size) (treeOf n r).child)
      (Pi.single (treeOf n r).parent i))
    (hsend : ∀ w', w' ≤ loads (fun _ => size) (treeOf n r).child → φ w' 0) :
    Leaves φ (coboBcastTree r (treeOf n r) buf size) (loads (fun _ => size) (treeOf n r).child)
      (toParent n r size) := by
  have hbody : ∀ buf : Buf UInt8, Leaves φ
      (bcastChildren (buf.read 0 size) (treeOf n r).child (.ret buf))
      (loads (fun _ => size) (treeOf n r).child) 0 := by
    intro buf
    have hlen : (buf.read 0 size).length = size := Buf.length_read _ _ _
    have hgo : Leaves φ (bcastChildren (buf.read 0 size) (treeOf n r).child (.ret buf))
        (0 + loads (fun _ => (buf.read 0 size).length) (treeOf n r).child) 0 :=
      leaves_bcastChildren (.ret (hsend 0 zero_le)) (by rw [zero_add, hlen]; exact hsend)
    rwa [zero_add, hlen] at hgo
  unfold coboBcastTree toParent
  by_cases hr : r = 0
  · simpa [hr] using hbody buf
  · rw [if_pos hr, if_neg hr]
    have hrecv : Leaves φ (.recv (treeOf n r).parent size fun bs =>
        bcastChildren ((buf.write 0 bs).read 0 size) (treeOf n r).child (.ret (buf.write 0 bs)))
        _ (0 + Pi.single (treeOf n r).parent size) :=
      .recv (fun bs _ => hbody _) (by simpa using hwait hr)
    rwa [zero_add] at hrecv

/-- Rank `r` of a reduction: `φ` is to hold while it waits for its children, and while it sends. -/
theorem leaves_reduceTree {n r : Nat} (sendbuf recvbuf : Buf UInt8)
    (hwait : ∀ rd', rd' ≤ loads (fun _ => 4) (treeOf n r).child → φ (toParent n r 4) rd')
    (hsend : ∀ i ≤ 4, φ (Pi.single (treeOf n r).parent i) 0) :
    Leaves φ (reduceTree r (treeOf n r) sendbuf recvbuf) (toParent n r 4)
      (loads (fun _ => 4) (treeOf n r).child) := by
  have hzero : φ 0 0 := by simpa using hsend 0 (Nat.zero_le _)
  have hlast : ∀ v, Leaves φ (if r ≠ 0 then .send (treeOf n r).parent (intBytes v) (.ret recvbuf)
      else .ret (recvbuf.write 0 (intBytes v)) : Rank) (toParent n r 4) 0 := by
    intro v
    unfold toParent
    by_cases hr : r = 0
    · simpa [hr] using Leaves.ret hzero
    · rw [if_pos hr, if_neg hr]
      have hput : Leaves φ (.send (treeOf n r).parent (intBytes v) (.ret recvbuf) : Rank)
          (0 + Pi.single (treeOf n r).parent (intBytes v).length) 0 :=
        .send (.ret hzero) (by simpa [length_intBytes] using hsend)
      rwa [zero_add, length_intBytes] at hput
  have hgo := leaves_reduceChildren hlast
    (by rw [zero_add, loads_reverse]; exact hwait) (readInt (sendbuf.read 0 4))
  rwa [zero_add, loads_reverse] at hgo

/-- The ranks below rank `r`. -/
def below (n r : Nat) : Nat := (treeOf n r).numChildIncl

/-- The bytes that rank `r` writes to its parent. -/
def Collective.up (n r : Nat) : Collective → Nat
  | .gather s | .allgather s => cInt ((below n r + 1) * s)
  | .allreduceMaxInt | .barrier => 4
  | .bcast _ | .scatter _ => 0

/-- The bytes that rank `r` reads from its parent. -/
def Collective.down (n r : Nat) : Collective → Nat
  | .bcast s => s
  | .scatter s => cInt ((below n r + 1) * s)
  | .allgather s => cInt (s * n)
  | .allreduceMaxInt | .barrier => 4
  | .gather _ => 0

/-- What rank `r` writes in a collective, and what it reads. -/
def Collective.writes (n r : Nat) (c : Collective) : Nat → ℕ :=
  toParent n r (c.up n r) + loads (fun x => c.down n x) (treeOf n r).child

def Collective.reads (n r : Nat) (c : Collective) : Nat → ℕ :=
  toParent n r (c.down n r) + loads (fun x => c.up n x) (treeOf n r).child

@[simp] theorem toParent_zero (n r : Nat) : toParent n r 0 = 0 := by
  simp [toParent]

theorem loads_zero (cs : List Nat) : loads (fun _ => 0) cs = 0 := by
  induction cs with
  | nil => rfl
  | cons c cs ih => rw [loads_cons, ih, Pi.single_zero, add_zero]

theorem childrenDown_treeOf {n r : Nat} (hr : r < n) :
    (treeOf n r).childrenDown = (treeOf n r).child.reverse.map fun c => (c, 1 + below n c) := by
  have hincl := (treeOf_rankTree (m := n) (Nat.one_le_of_lt hr) Nat.lt_two_pow_self.le).childIncl_eq r hr
  have hzip : ((treeOf n r).child.map id).zip
      ((treeOf n r).child.map fun c => 1 + (treeOf n c).numChildIncl) =
      (treeOf n r).child.map fun c => (id c, 1 + (treeOf n c).numChildIncl) := List.zip_map'
  rw [Tree.childrenDown, hincl, List.map_reverse]
  rw [List.map_id] at hzip
  exact congrArg List.reverse hzip

theorem leaves_gatherTree {n r : Nat} (hr : r < n) (sendbuf : Buf UInt8) (s : Nat)
    (recvbuf malloced : Buf UInt8) :
    Leaves (fun _ _ => True) (coboGatherTree r (treeOf n r) sendbuf s recvbuf malloced)
      (Collective.writes n r (.gather s)) (Collective.reads n r (.gather s)) := by
  have hup : (fun c => cInt (s * (1 + below n c))) = fun c => Collective.up n c (.gather s) :=
    funext fun c => congrArg cInt (by rw [Nat.mul_comm, Nat.add_comm])
  have hk : ∀ b : Buf UInt8, Leaves (fun _ _ => True)
      (if r ≠ 0 then .send (treeOf n r).parent (b.read 0 (cInt ((below n r + 1) * s))) (.ret recvbuf)
        else .ret b : Rank) (toParent n r (Collective.up n r (.gather s))) 0 := by
    intro b
    unfold toParent
    by_cases h0 : r = 0
    · simpa [h0] using Leaves.ret trivial
    · rw [if_pos h0, if_neg h0]
      have hput : Leaves (fun _ _ => True) (.send (treeOf n r).parent
          (b.read 0 (cInt ((below n r + 1) * s))) (.ret recvbuf) : Rank)
          (0 + Pi.single (treeOf n r).parent (b.read 0 (cInt ((below n r + 1) * s))).length) 0 :=
        .send (.ret trivial) fun _ _ => trivial
      rwa [zero_add, Buf.length_read] at hput
  have hgo := @leaves_gatherChildren _ _ (treeOf n r).child.reverse s (fun c => 1 + below n c) _ hk s
    ((if r ≠ 0 then malloced else recvbuf).write 0 (sendbuf.read 0 s))
  rw [loads_reverse, hup, zero_add, ← childrenDown_treeOf hr] at hgo
  have hdown : loads (fun x => Collective.down n x (.gather s)) (treeOf n r).child = 0 :=
    loads_zero _
  unfold Collective.writes Collective.reads
  rw [hdown, add_zero, show Collective.down n r (.gather s) = 0 from rfl, toParent_zero, zero_add]
  exact hgo

theorem leaves_scatterTree {n r : Nat} (hr : r < n) (sendbuf : Buf UInt8) (s : Nat)
    (recvbuf malloced : Buf UInt8) :
    Leaves (fun _ _ => True) (coboScatterTree r (treeOf n r) sendbuf s recvbuf malloced)
      (Collective.writes n r (.scatter s)) (Collective.reads n r (.scatter s)) := by
  have hdown : (fun c => cInt (s * (1 + below n c))) = fun c => Collective.down n c (.scatter s) :=
    funext fun c => congrArg cInt (by rw [Nat.mul_comm, Nat.add_comm])
  have hup : loads (fun x => Collective.up n x (.scatter s)) (treeOf n r).child = 0 :=
    loads_zero _
  have hbody : ∀ b : Buf UInt8, Leaves (fun _ _ => True)
      (scatterChildren s b (treeOf n r).childrenDown s (.ret (recvbuf.write 0 (b.read 0 s))))
      (loads (fun x => Collective.down n x (.scatter s)) (treeOf n r).child) 0 := by
    intro b
    have hgo := @leaves_scatterChildren 0 0 (treeOf n r).child.reverse s (fun c => 1 + below n c) b
      (.ret (recvbuf.write 0 (b.read 0 s))) (.ret trivial) s
    rwa [loads_reverse, hdown, zero_add, ← childrenDown_treeOf hr] at hgo
  unfold Collective.writes Collective.reads
  rw [hup, add_zero, show Collective.up n r (.scatter s) = 0 from rfl, toParent_zero, zero_add]
  unfold coboScatterTree toParent
  by_cases h0 : r = 0
  · simpa [h0] using hbody sendbuf
  · rw [if_neg h0]
    dsimp only
    rw [if_pos h0]
    have hrecv : Leaves (fun _ _ => True) (.recv (treeOf n r).parent
        (cInt (((treeOf n r).numChildIncl + 1) * s)) fun bs =>
          scatterChildren s (malloced.write 0 bs) (treeOf n r).childrenDown s
            (.ret (recvbuf.write 0 ((malloced.write 0 bs).read 0 s)))) _
        (0 + Pi.single (treeOf n r).parent (cInt (((treeOf n r).numChildIncl + 1) * s))) :=
      .recv (fun bs _ => hbody _) fun _ _ => trivial
    rwa [zero_add] at hrecv

/-- **Every collective has its traffic**, whatever the buffers hold. -/
theorem Collective.leaves {n r : Nat} (hr : r < n) {c : Collective} (hfits : c.Fits n) (a : Args) :
    Leaves (fun _ _ => True) (c.run n r (treeOf n r) a) (c.writes n r) (c.reads n r) := by
  rw [run_eq hr hfits]
  have hbcast : ∀ (size : Nat) (b : Buf UInt8), Leaves (fun _ _ => True)
      (coboBcastTree r (treeOf n r) b size) (loads (fun _ => size) (treeOf n r).child)
      (toParent n r size) :=
    fun size b => leaves_bcastTree b (fun _ _ _ => trivial) fun _ _ => trivial
  have hreduce : ∀ sendbuf recvbuf : Buf UInt8, Leaves (fun _ _ => True)
      (coboAllreduceMaxIntTree r (treeOf n r) sendbuf recvbuf)
      (toParent n r 4 + loads (fun _ => 4) (treeOf n r).child)
      (toParent n r 4 + loads (fun _ => 4) (treeOf n r).child) := by
    intro sendbuf recvbuf
    have hgo := (leaves_reduceTree (n := n) (r := r) (φ := fun _ _ => True) sendbuf recvbuf
      (fun _ _ => trivial) fun _ _ => trivial).bind (hbcast 4) fun _ _ _ => trivial
    rwa [add_comm (loads _ _) (toParent n r 4)] at hgo
  cases c with
  | bcast s =>
    have hup : loads (fun x => Collective.up n x (.bcast s)) (treeOf n r).child = 0 := loads_zero _
    unfold writes reads
    rw [hup, add_zero, show Collective.up n r (.bcast s) = 0 from rfl, toParent_zero, zero_add]
    exact hbcast s a.recvbuf
  | gather s => exact leaves_gatherTree hr _ _ _ _
  | scatter s => exact leaves_scatterTree hr _ _ _ _
  | allgather s =>
    have hgo := (leaves_gatherTree hr a.sendbuf s a.recvbuf a.malloced).bind
      (hbcast (cInt (s * n))) fun _ _ _ => trivial
    have hdown : loads (fun x => Collective.down n x (.gather s)) (treeOf n r).child = 0 :=
      loads_zero _
    unfold writes reads at hgo ⊢
    rw [hdown, add_zero, show Collective.down n r (.gather s) = 0 from rfl, toParent_zero, zero_add,
      add_comm (loads _ _) (toParent n r (cInt (s * n)))] at hgo
    exact hgo
  | allreduceMaxInt => exact hreduce a.sendbuf a.recvbuf
  | barrier => exact hreduce _ a.recvbuf

end

/-! ## Barriers -/

section

variable {n r : Nat}

theorem child_facts (hr : r < n) {c : Nat} (hc : c ∈ (treeOf n r).child) :
    r < c ∧ c < n ∧ (treeOf n c).parent = r := by
  have htree := treeOf_rankTree (m := n) (Nat.one_le_of_lt hr) Nat.lt_two_pow_self.le
  obtain ⟨h1, hn, hparent⟩ := (htree.child_iff r c hr).mp hc
  have hlt := htree.parent_lt c h1 hn
  exact ⟨by omega, hn, hparent.symm⟩

theorem parent_facts (hr : r < n) (h0 : r ≠ 0) :
    (treeOf n r).parent < r ∧ r ∈ (treeOf n (treeOf n r).parent).child := by
  have htree := treeOf_rankTree (m := n) (Nat.one_le_of_lt hr) Nat.lt_two_pow_self.le
  have hlt := htree.parent_lt r (by omega) hr
  exact ⟨hlt, (htree.child_iff _ r (by omega)).mpr ⟨by omega, hr, rfl⟩⟩

theorem loads_child (hr : r < n) (f : Nat → ℕ) (x : Nat) :
    loads f (treeOf n r).child x = if x ∈ (treeOf n r).child then f x else 0 :=
  loads_apply f ((treeOf_rankTree (m := n) (Nat.one_le_of_lt hr)
    Nat.lt_two_pow_self.le).child_nodup r hr) x

theorem toParent_apply (h0 : r ≠ 0) (k : Nat) : toParent n r k (treeOf n r).parent = k := by
  rw [toParent, if_neg h0, Pi.single_eq_same]

theorem toParent_of_ne {x : Nat} (h : r ≠ 0 → x ≠ (treeOf n r).parent) (k : Nat) :
    toParent n r k x = 0 := by
  unfold toParent
  split
  · rfl
  · exact Pi.single_eq_of_ne (h ‹_›) _

/-- A socket has one traffic, seen from both of its ends. -/
theorem writes_eq_reads {p q : Nat} (hp : p < n) (hq : q < n) (c : Collective) :
    c.writes n p q = c.reads n q p := by
  have htree := treeOf_rankTree (m := n) (Nat.one_le_of_lt hp) Nat.lt_two_pow_self.le
  have hside : ∀ {a b : Nat}, a < n → b < n → ∀ k : Nat → Nat, toParent n a (k a) b =
      if a ∈ (treeOf n b).child then k a else 0 := by
    intro a b ha hb k
    by_cases hmem : a ∈ (treeOf n b).child
    · obtain ⟨hlt, -, hparent⟩ := child_facts hb hmem
      rw [if_pos hmem, ← hparent, toParent_apply (by omega)]
    · rw [if_neg hmem]
      refine toParent_of_ne (fun h0 heq => hmem ?_) _
      rw [heq]
      exact (parent_facts ha h0).2
  unfold Collective.writes Collective.reads
  rw [Pi.add_apply, Pi.add_apply, loads_child hp, loads_child hq, hside hp hq fun x => c.up n x,
    hside hq hp fun x => c.down n x, add_comm]

/-- How far rank `r` is in a barrier, from what it leaves: as long as a child has not been read its
    parent and its children have not been written to, and as long as its parent has not been read its
    children have not been written to. -/
structure Gate (n r : Nat) (w rd : Nat → ℕ) : Prop where
  reducing : (∃ c ∈ (treeOf n r).child, 4 ≤ rd c) → (r ≠ 0 → 4 ≤ w (treeOf n r).parent) ∧
    ∀ c ∈ (treeOf n r).child, 4 ≤ w c
  waiting : r ≠ 0 → 4 ≤ rd (treeOf n r).parent → ∀ c ∈ (treeOf n r).child, 4 ≤ w c
  silent : w n = 0

theorem loads_outside (hr : r < n) (f : Nat → ℕ) {x : Nat} (hx : n ≤ x) :
    loads f (treeOf n r).child x = 0 := by
  rw [loads_child hr, if_neg fun hmem => Nat.not_lt.mpr hx (child_facts hr hmem).2.1]

theorem toParent_outside (hr : r < n) (k : Nat) {x : Nat} (hx : n ≤ x) : toParent n r k x = 0 := by
  refine toParent_of_ne (fun h0 heq => ?_) k
  have := (parent_facts hr h0).1
  omega

theorem toParent_child (hr : r < n) {c : Nat} (hc : c ∈ (treeOf n r).child) (k : Nat) :
    toParent n r k c = 0 := by
  refine toParent_of_ne (fun h0 heq => ?_) k
  have := (parent_facts hr h0).1
  have := (child_facts hr hc).1
  omega

/-- Every rank goes through the gate. -/
theorem leaves_barrier (hr : r < n) (dummy : Buf UInt8) :
    Leaves (Gate n r) (coboBarrier r (treeOf n r) dummy) (Collective.writes n r .barrier)
      (Collective.reads n r .barrier) := by
  have hchild : ∀ c ∈ (treeOf n r).child, loads (fun _ => 4) (treeOf n r).child c = 4 := by
    intro c hc
    rw [loads_child hr, if_pos hc]
  -- the reduction, and then the broadcast
  have hreduce : ∀ sendbuf recvbuf : Buf UInt8, Leaves (fun w rd =>
      ((∃ c ∈ (treeOf n r).child, 4 ≤ rd c) → r ≠ 0 → 4 ≤ w (treeOf n r).parent) ∧ w n = 0)
      (reduceTree r (treeOf n r) sendbuf recvbuf) (toParent n r 4)
      (loads (fun _ => 4) (treeOf n r).child) := by
    intro sendbuf recvbuf
    refine leaves_reduceTree sendbuf recvbuf (fun rd' _ => ⟨fun _ h0 => ?_, ?_⟩) fun i _ =>
      ⟨fun ⟨c, _, hc⟩ => absurd hc (by simp), ?_⟩
    · rw [toParent_apply h0]
    · exact toParent_outside hr 4 (le_refl n)
    · refine Pi.single_eq_of_ne (fun heq => ?_) _
      rcases Nat.eq_zero_or_pos r with rfl | hpos
      · have hroot : (treeOf n 0).parent = 0 := ownParent_self 0 0 (n - 1)
        omega
      · have := (parent_facts hr (by omega)).1
        omega
  have hbcast : ∀ b : Buf UInt8, Leaves (fun w rd => (∀ c ∈ (treeOf n r).child, rd c = 0) ∧
      (r ≠ 0 → 4 ≤ rd (treeOf n r).parent → ∀ c ∈ (treeOf n r).child, 4 ≤ w c) ∧ w n = 0)
      (coboBcastTree r (treeOf n r) b 4) (loads (fun _ => 4) (treeOf n r).child)
      (toParent n r 4) := by
    intro b
    refine leaves_bcastTree b (fun h0 i _ => ⟨fun c hc => ?_, fun _ _ c hc => ?_, ?_⟩)
      fun w' hw' => ⟨fun c _ => rfl, fun _ h4 => absurd h4 (by simp), ?_⟩
    · have hpar := toParent_child hr hc i
      rwa [toParent, if_neg h0] at hpar
    · rw [hchild c hc]
    · exact loads_outside hr _ (le_refl n)
    · have hle : w' n ≤ loads (fun _ => 4) (treeOf n r).child n := hw' n
      rw [loads_outside hr _ (le_refl n)] at hle
      exact Nat.le_zero.mp hle
  have hgo : Leaves (Gate n r) (coboBarrier r (treeOf n r) dummy)
      (toParent n r 4 + loads (fun _ => 4) (treeOf n r).child)
      (loads (fun _ => 4) (treeOf n r).child + toParent n r 4) := by
    refine ((hreduce _ dummy).bind (ψ := Gate n r) (fun b => (hbcast b).mono ?_) ?_)
    · rintro w' rd' - - ⟨hnone, hwait, hsilent⟩
      refine ⟨fun ⟨c, hc, h4⟩ => ?_, hwait, hsilent⟩
      rw [hnone c hc] at h4
      omega
    · rintro w' rd' ⟨hup, hsilent⟩
      have hbelow : ∀ c ∈ (treeOf n r).child,
          4 ≤ (w' + loads (fun _ => 4) (treeOf n r).child) c := by
        intro c hc
        rw [Pi.add_apply, hchild c hc]
        omega
      refine ⟨fun ⟨c, hc, h4⟩ => ⟨fun h0 => ?_, hbelow⟩, fun _ _ => hbelow, ?_⟩
      · rw [Pi.add_apply, toParent_child hr hc, add_zero] at h4
        exact le_trans (hup ⟨c, hc, h4⟩ h0) (Nat.le_add_right _ _)
      · rw [Pi.add_apply, hsilent, loads_outside hr _ (le_refl n)]
  rwa [add_comm (loads _ _) (toParent n r 4)] at hgo

/-- What rank `r` writes and reads in all its calls; a call has two notes. -/
def allWrites (n r : Nat) : List Call → Nat → ℕ
  | [] => 0
  | call :: calls => (call.what.writes n r + (allWrites n r calls + Pi.single n 1)) + Pi.single n 1

def allReads (n r : Nat) : List Call → Nat → ℕ
  | [] => 0
  | call :: calls => call.what.reads n r + allReads n r calls

/-- A rank with the calls `post` behind the barrier: what it has not done before it, it has not done
    in it. -/
structure Behind (n r : Nat) (post : List Call) (w rd : Nat → ℕ) : Prop where
  blocked : (2 * post.length + 2 ≤ w n ∨
      ∃ c ∈ (treeOf n r).child, allReads n r post c + 4 ≤ rd c) →
    (r ≠ 0 → allWrites n r post (treeOf n r).parent + 4 ≤ w (treeOf n r).parent) ∧
    (∀ c ∈ (treeOf n r).child, allWrites n r post c + 4 ≤ w c) ∧ 2 * post.length + 1 ≤ w n
  held : r ≠ 0 → allReads n r post (treeOf n r).parent + 4 ≤ rd (treeOf n r).parent →
    (∀ c ∈ (treeOf n r).child, allWrites n r post c + 4 ≤ w c) ∧ 2 * post.length + 1 ≤ w n

theorem writes_outside (hr : r < n) (c : Collective) {x : Nat} (hx : n ≤ x) :
    c.writes n r x = 0 := by
  rw [Collective.writes, Pi.add_apply, toParent_outside hr _ hx, loads_outside hr _ hx]

theorem reads_outside (hr : r < n) (c : Collective) {x : Nat} (hx : n ≤ x) :
    c.reads n r x = 0 := by
  rw [Collective.reads, Pi.add_apply, toParent_outside hr _ hx, loads_outside hr _ hx]

theorem allWrites_observer (hr : r < n) (calls : List Call) :
    allWrites n r calls n = 2 * calls.length := by
  induction calls with
  | nil => rfl
  | cons call calls ih =>
    simp only [allWrites, Pi.add_apply, Pi.single_eq_same, writes_outside hr _ (le_refl n), ih,
      List.length_cons]
    omega

/-- So it is of a rank that has been through the barrier: nothing of it is left. -/
theorem Behind.of_le {post : List Call} {w rd : Nat → ℕ} (hw : w n ≤ 2 * post.length + 1)
    (hrd : rd ≤ allReads n r post) : Behind n r post w rd := by
  have hno : ∀ x, ¬allReads n r post x + 4 ≤ rd x := fun x hx => by
    have hle : rd x ≤ allReads n r post x := hrd x
    omega
  refine ⟨?_, fun _ h4 => absurd h4 (hno _)⟩
  rintro (h | ⟨c, -, h4⟩)
  · omega
  · exact absurd h4 (hno c)

/-- And of a rank that has not written for the barrier yet: all of that is left. -/
theorem Behind.of_ge (hr : r < n) {post : List Call} {w rd : Nat → ℕ}
    (hw : Collective.writes n r .barrier + (allWrites n r post + Pi.single n 1) ≤ w) :
    Behind n r post w rd := by
  have hat : ∀ x, Collective.writes n r .barrier x + (allWrites n r post x +
      (Pi.single n 1 : Nat → ℕ) x) ≤ w x := fun x => hw x
  have hparent : r ≠ 0 → allWrites n r post (treeOf n r).parent + 4 ≤ w (treeOf n r).parent := by
    intro h0
    have hx := hat (treeOf n r).parent
    have h4 : 4 ≤ Collective.writes n r .barrier (treeOf n r).parent := by
      have hto := toParent_apply (n := n) h0 4
      show 4 ≤ toParent n r 4 _ + _
      omega
    omega
  have hchild : ∀ c ∈ (treeOf n r).child, allWrites n r post c + 4 ≤ w c := by
    intro c hc
    have hx := hat c
    have h4 : 4 ≤ Collective.writes n r .barrier c := by
      have hload := loads_child hr (fun x => Collective.down n x .barrier) c
      rw [if_pos hc] at hload
      show 4 ≤ _ + loads (fun x => Collective.down n x .barrier) (treeOf n r).child c
      rw [hload]
      exact Nat.le_add_left 4 _
    omega
  have hobserver : 2 * post.length + 1 ≤ w n := by
    have hx := hat n
    rw [allWrites_observer hr, Pi.single_eq_same] at hx
    omega
  exact ⟨fun _ => ⟨hparent, hchild, hobserver⟩, fun _ _ => ⟨hchild, hobserver⟩⟩

/-- The traffic of a list of calls. -/
theorem program_leaves (hr : r < n) (calls : List Call) (hfits : ∀ call ∈ calls, call.what.Fits n)
    (done : List (Buf UInt8)) :
    Leaves (fun _ _ => True) (program n r (treeOf n r) calls done) (allWrites n r calls)
      (allReads n r calls) := by
  induction calls generalizing done with
  | nil => exact .ret trivial
  | cons call calls ih =>
    obtain ⟨hcall, hcalls⟩ := List.forall_mem_cons.mp hfits
    refine Leaves.send_one 0 (Leaves.bind (Collective.leaves hr hcall _) (fun out => ?_)
      fun _ _ _ => trivial) fun _ _ => trivial
    exact Leaves.send_one 1 (ih hcalls _) fun _ _ => trivial

/-- A barrier and the calls behind it. -/
theorem barrier_leaves (hr : r < n) (call : Call) (hcall : call.what = .barrier) (post : List Call)
    (hfits : ∀ call ∈ post, call.what.Fits n) (done : List (Buf UInt8)) :
    Leaves (Behind n r post) (program n r (treeOf n r) (call :: post) done)
      (allWrites n r (call :: post)) (allReads n r (call :: post)) := by
  have hpost : ∀ done, Leaves (Behind n r post) (program n r (treeOf n r) post done)
      (allWrites n r post) (allReads n r post) := by
    intro done
    refine (program_leaves hr post hfits done).mono fun w' rd' hw hrd _ => .of_le ?_ hrd
    have hle : w' n ≤ allWrites n r post n := hw n
    rw [allWrites_observer hr] at hle
    omega
  have hleave : ∀ out, Leaves (Behind n r post)
      (.send n [1] (program n r (treeOf n r) post (done ++ [out])))
      (allWrites n r post + Pi.single n 1) (allReads n r post) := by
    intro out
    refine Leaves.send_one 1 (hpost _) fun i hi => .of_le ?_ (le_refl _)
    rw [Pi.add_apply, allWrites_observer hr, Pi.single_eq_same]
    exact Nat.add_le_add_left hi _
  have hbody : Leaves (Gate n r) (call.what.run n r (treeOf n r) (call.args r done))
      (call.what.writes n r) (call.what.reads n r) := by
    rw [hcall, @Collective.run_eq n r hr .barrier trivial]
    exact leaves_barrier hr _
  refine Leaves.send_one 0 (Leaves.bind hbody hleave ?_) fun i _ => .of_ge hr ?_
  · rintro w' rd' ⟨hreducing, hwaiting, hsilent⟩
    have hplus : ∀ x, 4 ≤ w' x →
        allWrites n r post x + 4 ≤ (w' + (allWrites n r post + Pi.single n 1 : Nat → ℕ)) x := by
      intro x hx
      simp only [Pi.add_apply]
      omega
    have hobserver : (w' + (allWrites n r post + Pi.single n 1 : Nat → ℕ)) n =
        2 * post.length + 1 := by
      simp only [Pi.add_apply, hsilent, allWrites_observer hr, Pi.single_eq_same, Nat.zero_add]
    have hminus : ∀ x, allReads n r post x + 4 ≤ (rd' + allReads n r post) x → 4 ≤ rd' x := by
      intro x hx
      rw [Pi.add_apply] at hx
      omega
    constructor
    · rintro (h | ⟨c, hc, h4⟩)
      · omega
      · obtain ⟨hparent, hchild⟩ := hreducing ⟨c, hc, hminus c h4⟩
        exact ⟨fun h0 => hplus _ (hparent h0), fun c hc => hplus c (hchild c hc), hobserver.ge⟩
    · intro h0 h4
      exact ⟨fun c hc => hplus c (hwaiting h0 (hminus _ h4) c hc), hobserver.ge⟩
  · rw [hcall]
    exact le_self_add

/-- All calls, seen from a barrier among them. -/
theorem calls_leaves (hr : r < n) (call : Call) (hcall : call.what = .barrier) (pre post : List Call)
    (hfits : ∀ c ∈ pre ++ call :: post, c.what.Fits n) (done : List (Buf UInt8)) :
    Leaves (Behind n r post) (program n r (treeOf n r) (pre ++ call :: post) done)
      (allWrites n r (pre ++ call :: post)) (allReads n r (pre ++ call :: post)) ∧
    Collective.writes n r .barrier + (allWrites n r post + Pi.single n 1) ≤
      allWrites n r (pre ++ call :: post) := by
  induction pre generalizing done with
  | nil =>
    refine ⟨barrier_leaves hr call hcall post (List.forall_mem_cons.mp hfits).2 done, ?_⟩
    show _ ≤ call.what.writes n r + (allWrites n r post + Pi.single n 1) + Pi.single n 1
    rw [hcall]
    exact le_self_add
  | cons c pre ih =>
    obtain ⟨hc, hrest⟩ := List.forall_mem_cons.mp hfits
    have hbase := (ih hrest []).2
    refine ⟨Leaves.send_one 0 (Leaves.bind (Collective.leaves hr hc _) (ψ := Behind n r post)
      (fun out => Leaves.send_one 1 (ih hrest _).1 fun i _ => .of_ge hr ?_) fun w' rd' _ =>
        .of_ge hr ?_) fun i _ => .of_ge hr ?_, ?_⟩
    · exact le_add_right hbase
    · exact le_add_left (le_add_right hbase)
    · exact le_add_right (le_add_left (le_add_right hbase))
    · exact le_add_right (le_add_left (le_add_right hbase))

/-- Sockets and notes at the start. -/
theorem allWrites_eq {p q : Nat} (hp : p < n) (calls : List Call) : allWrites n p calls q =
    if q = n then 2 * calls.length else if q < n then allReads n q calls p else 0 := by
  split
  · next heq =>
    subst heq
    exact allWrites_observer hp calls
  · next hne =>
    induction calls with
    | nil => simp [allWrites, allReads]
    | cons call calls ih =>
      have hstep : allWrites n p (call :: calls) q =
          call.what.writes n p q + allWrites n p calls q := by
        simp only [allWrites, Pi.add_apply, Pi.single_eq_of_ne hne, Nat.add_zero]
      rw [hstep, ih]
      by_cases hq : q < n
      · rw [if_pos hq, if_pos hq, writes_eq_reads hp hq]
        rfl
      · rw [if_neg hq, if_neg hq, writes_outside hp _ (Nat.not_lt.mp hq)]

theorem allReads_outside (hr : r < n) (calls : List Call) {x : Nat} (hx : n ≤ x) :
    allReads n r calls x = 0 := by
  induction calls with
  | nil => rfl
  | cons call calls ih => rw [allReads, Pi.add_apply, reads_outside hr _ hx, ih]

/-- What holds of a rank, or of the observer, on the two sides of the barrier. -/
def side (n : Nat) (post : List Call) (r : Nat) (w rd : Nat → ℕ) : Prop :=
  if r < n then Behind n r post w rd else rd = 0

theorem programNet_evens {T : Nat → Tree} (hT : ∀ r, r < n → T r = treeOf n r) (call : Call)
    (hcall : call.what = .barrier) (pre post : List Call)
    (hfits : ∀ c ∈ pre ++ call :: post, c.what.Fits n) :
    Evens (side n post) (fun c => if c.2 = n ∧ c.1 < n then 2 * (pre ++ call :: post).length else 0)
      (programNet n T (pre ++ call :: post))
      (fun r => if r < n then allWrites n r (pre ++ call :: post) else 0)
      (fun r => if r < n then allReads n r (pre ++ call :: post) else 0) := by
  constructor
  · intro r
    by_cases hr : r < n
    · have hprog : (programNet n T (pre ++ call :: post)).prog r =
          program n r (treeOf n r) (pre ++ call :: post) [] := by
        rw [← hT r hr]
        exact if_pos hr
      have hside : side n post r = Behind n r post := by
        funext w rd
        exact if_pos hr
      rw [hprog, hside, if_pos hr, if_pos hr]
      exact (calls_leaves hr call hcall pre post hfits []).1
    · have hprog : (programNet n T (pre ++ call :: post)).prog r = .ret [] := if_neg hr
      rw [hprog, if_neg hr, if_neg hr]
      exact .ret (by simp [side, hr])
  · intro p q
    show _ = 0 + _
    by_cases hp : p < n
    · rw [if_pos hp, allWrites_eq hp]
      rcases Nat.lt_trichotomy q n with hq | rfl | hq
      · simp [hq, hq.ne]
      · simp [hp]
      · simp [hq.ne', Nat.not_lt.mpr hq.le]
    · by_cases hq : q < n
      · simp [hp, hq, allReads_outside hq _ (Nat.not_lt.mp hp)]
      · simp [hp, hq]

/-- **A barrier waits**: as long as rank `q` has not noted that it makes the call, no rank notes that
    its own has returned. -/
theorem barrier_waits {T : Nat → Tree} {cap : Nat × Nat → ℕ∞}
    (hT : ∀ r, r < n → T r = treeOf n r) (call : Call) (hcall : call.what = .barrier)
    (pre post : List Call) (hfits : ∀ c ∈ pre ++ call :: post, c.what.Fits n)
    {t : Net Nat UInt8 (List (Buf UInt8))}
    (hrun : ReflTransGen (Step cap) (programNet n T (pre ++ call :: post)) t) {p q : Nat}
    (hp : p < n) (hq : q < n) (hleft : 2 * pre.length + 2 ≤ (t.chan (p, n)).length) :
    2 * pre.length + 1 ≤ (t.chan (q, n)).length := by
  by_contra hnot
  obtain ⟨w, rd, hevens⟩ := (programNet_evens hT call hcall pre post hfits).run hrun
  have hside : ∀ r, r < n → Behind n r post (w r) (rd r) := by
    intro r hr
    have hholds := (hevens.leaves r).holds
    rwa [side, if_pos hr] at hholds
  -- the notes, and the sockets
  have hnotes : ∀ r, r < n → 2 * (pre ++ call :: post).length = (t.chan (r, n)).length + w r n := by
    intro r hr
    have heven := hevens.even r n
    have hzero := (hevens.leaves n).holds
    rw [side, if_neg (lt_irrefl n)] at hzero
    rw [hzero] at heven
    simpa [hr] using heven
  have hsocket : ∀ r x, x < n → rd x r = (t.chan (r, x)).length + w r x := by
    intro r x hx
    have heven := hevens.even r x
    simpa [hx.ne] using heven
  have hmatch : ∀ r x, r < n → x < n → allWrites n r post x = allReads n x post r := by
    intro r x hr hx
    rw [allWrites_eq hr, if_neg hx.ne, if_pos hx]
  simp only [List.length_append, List.length_cons] at hnotes
  -- from `q` up to rank 0 everybody waits for a child
  have hup : ∀ r, r < n → (2 * post.length + 2 ≤ w r n ∨
      ∃ c ∈ (treeOf n r).child, allReads n r post c + 4 ≤ rd r c) →
      (∀ c ∈ (treeOf n 0).child, allWrites n 0 post c + 4 ≤ w 0 c) ∧ 2 * post.length + 1 ≤ w 0 n := by
    intro r
    induction r using Nat.strong_induction_on with
    | _ r ih =>
      intro hr hblocked
      obtain ⟨hparent, hrest⟩ := (hside r hr).blocked hblocked
      by_cases h0 : r = 0
      · exact h0 ▸ hrest
      · obtain ⟨hlt, hmem⟩ := parent_facts hr h0
        refine ih _ hlt (by omega) (Or.inr ⟨r, hmem, ?_⟩)
        have hwrite := hparent h0
        rw [hmatch r _ hr (by omega)] at hwrite
        have hsock := hsocket r (treeOf n r).parent (by omega)
        omega
  have hroot := hup q hq (Or.inl (by have := hnotes q hq; omega))
  -- from rank 0 down everybody waits for its parent
  have hdown : ∀ r, r < n →
      (∀ c ∈ (treeOf n r).child, allWrites n r post c + 4 ≤ w r c) ∧ 2 * post.length + 1 ≤ w r n := by
    intro r
    induction r using Nat.strong_induction_on with
    | _ r ih =>
      intro hr
      by_cases h0 : r = 0
      · exact h0 ▸ hroot
      · obtain ⟨hlt, hmem⟩ := parent_facts hr h0
        refine (hside r hr).held h0 ?_
        have hwrite := (ih _ hlt (by omega)).1 r hmem
        rw [hmatch _ r (by omega) hr] at hwrite
        have hsock := hsocket (treeOf n r).parent r hr
        omega
  have hend := (hdown p hp).2
  have := hnotes p hp
  omega

end

/-- **Programs of collectives do not interfere**, for every interleaving of the ranks, every splitting
    of their reads and writes and all sockets that hold at least a byte: every run ends, with the
    results that each call has alone, the maximum for an allreduce; and in every state of every run, a
    rank that has left barrier `k` has seen all ranks enter it. -/
theorem cobo_programs (n : Nat) (h1 : 1 ≤ n) (T : Nat → Tree)
    (hT : ∀ r, r < n → coboComputeChildren n r = some (T r)) (cap : Nat × Nat → ℕ∞)
    (hcap : ∀ c, 1 ≤ cap c) (hlog : ∀ r, cap (r, n) = ⊤) (calls : List Call)
    (hfits : ∀ call ∈ calls, call.what.Fits n) :
    (∃ outs : Nat → List (Buf UInt8),
      EndsIn (Step cap) (programNet n T calls) (finishedNet n calls.length outs) ∧
      Alike n T cap calls (fun _ => []) outs) ∧
    ∀ t, ReflTransGen (Step cap) (programNet n T calls) t → ∀ (k : Nat) (call : Call),
      calls[k]? = some call → call.what = .barrier → ∀ p q, p < n → q < n →
        2 * k + 2 ≤ (t.chan (p, n)).length → 2 * k + 1 ≤ (t.chan (q, n)).length := by
  constructor
  · obtain ⟨outs, halike, hrun⟩ := program_run h1 hT hcap hlog calls hfits (fun _ => [])
      (programNet n T calls) (fun r hr => if_pos hr) fun _ _ _ _ _ _ => rfl
    have heq : atEnd n calls.length (programNet n T calls) (fun r => [] ++ outs r) =
        finishedNet n calls.length outs := by
      refine Net.ext (funext fun r => ?_) (funext fun c => ?_)
      · by_cases hr : r < n
        · simp [atEnd, finishedNet, hr]
        · simp [atEnd, finishedNet, programNet, hr]
      · by_cases hc : c.2 = n ∧ c.1 < n
        · simp [atEnd, finishedNet, programNet, hc]
        · simp [atEnd, finishedNet, programNet, hc]
    exact ⟨outs, endsIn_of_run cap (heq ▸ hrun) (fun r => ⟨_, rfl⟩), halike⟩
  · intro t hrun k call hk hcall p q hp hq hleft
    obtain ⟨hlt, hget⟩ := List.getElem?_eq_some_iff.mp hk
    have hsplit : calls = calls.take k ++ call :: calls.drop (k + 1) := by
      rw [← hget, List.getElem_cons_drop, List.take_append_drop]
    have hlen : (calls.take k).length = k := by
      rw [List.length_take]
      omega
    rw [hsplit] at hrun hfits
    have hwait := barrier_waits (fun r hr => treeOf_of_some (hT r hr) hr) call hcall _ _ hfits hrun hp hq
      (by rwa [hlen])
    rwa [hlen] at hwait

/-- Three ranks that gather, wait for each other and then take the maximum of what they have got. -/
def threeCalls : List Call :=
  [⟨.allgather 4, fun r _ => ⟨fun _ => r.toUInt8, fun _ => 0, fun _ => 0⟩⟩,
    ⟨.barrier, fun _ _ => ⟨fun _ => 0, fun _ => 0, fun _ => 0⟩⟩,
    ⟨.allreduceMaxInt, fun r done => ⟨fun i => (done.headD fun _ => 0) (4 * r + i), fun _ => 0,
      fun _ => 0⟩⟩]

theorem cobo_programs_three :
    (∃ outs : Nat → List (Buf UInt8),
      EndsIn (Step fun c => if c.2 = 3 then ⊤ else 1) (programNet 3 (treeOf 3) threeCalls)
        (finishedNet 3 3 outs) ∧
      Alike 3 (treeOf 3) (fun c => if c.2 = 3 then ⊤ else 1) threeCalls (fun _ => []) outs) ∧
    ∀ t, ReflTransGen (Step fun c => if c.2 = 3 then ⊤ else 1)
        (programNet 3 (treeOf 3) threeCalls) t → ∀ (k : Nat) (call : Call),
      threeCalls[k]? = some call → call.what = .barrier → ∀ p q, p < 3 → q < 3 →
        2 * k + 2 ≤ (t.chan (p, 3)).length → 2 * k + 1 ≤ (t.chan (q, 3)).length :=
  cobo_programs 3 (by decide) (treeOf 3) (fun _ hr => coboComputeChildren_eq (m := 2) rfl hr)
    (fun c => if c.2 = 3 then ⊤ else 1) (fun c => by split <;> simp) (fun _ => if_pos rfl) threeCalls
    (by simp [threeCalls, Collective.Fits])

/-- A gather of 2^30 bytes from each rank. -/
def bigGather : Call := ⟨.gather (2 ^ 30), fun _ _ => ⟨fun _ => 0, fun _ => 0, fun _ => 0⟩⟩

/-- Rank 1 needs a buffer for two blocks, 2^31 bytes, and has no memory for it. -/
theorem cobo_programs_counterexample : ¬∃ t, ReflTransGen (Step fun _ => ⊤)
    (programNet 3 (treeOf 3) [bigGather]) t ∧ ∀ r, r < 3 → ∃ outs, t.prog r = .ret outs := by
  rintro ⟨t, hrun, hret⟩
  obtain ⟨outs, hout⟩ := hret 1 (by decide)
  have hbelow : (treeOf 3 1).numChildIncl = 1 := by simp [treeOf, nodeOf, ownLast, midpoint]
  have hmalloc : ¬((1 : ℕ) = 0 ∨
      coboMalloc (UInt32.ofNat (((treeOf 3 1).numChildIncl + 1) * 2 ^ 30)) = true) := by
    rw [hbelow, coboMalloc, UInt32.toNat_ofNat_of_lt' (show _ < 2 ^ 32 by omega)]
    simp
  have hbig : Collective.allocates 1 (treeOf 3 1) (.gather (2 ^ 30)) = false := by
    unfold Collective.allocates
    exact decide_eq_false hmalloc
  have hstart : Hangs 1 ((programNet 3 (treeOf 3) [bigGather]).prog 1) := by
    show Hangs 1 (.send 3 [0] (Prog.bind (Collective.run 3 1 (treeOf 3 1) (.gather (2 ^ 30)) _) _))
    rw [Collective.run, hbig]
    exact .send (by decide) (.recv _ _)
  have hhangs := hstart.run _ rfl hrun
  rw [hout] at hhangs
  cases hhangs

end LaunchMON.Cobo
