/-
  A loop around a system call that moves at most as many bytes as it is asked for.

  The kernel decides at each call how many bytes it moves, or that it is interrupted, that it is not
  ready, or that it fails.  The loop goes on behind the bytes that have been moved.  What moving means
  is a parameter, a `Mover`: bytes go from a stream into memory (`intake`), or from memory into a stream
  (`output`).  In both, one move right behind another is one longer move, and that is all the loop needs.

  1. **Soundness** (`loop_sound`): by whatever calls, the loop ends with all bytes moved, or with an
     error and some front of them moved.  The error has a reason, a call that fails or a call that moves
     nothing although it is asked for something.

  2. **Termination** (`loop_returns`): a kernel that does not put the loop off for ever lets it end.

  The second of the reasons depends on `zeroFails`, because a call that moves nothing is the end of the
  stream to a reader and nothing at all to a writer.  So a loop for which it is the end has to have
  something to move, and fails otherwise (`run_nothing`).
-/
import LaunchMON.Lib.Buf
import Mathlib.Data.Int.Notation

namespace Transfer

/-! ## The kernel -/

/-- What a call does: it moves bytes, or it ends with EINTR, with EAGAIN, or with another error. -/
inductive Answer
  | moved (n : ℕ)
  | eintr
  | eagain
  | error
  deriving DecidableEq, Repr

/-- The answers of the kernel, by the number of the call and the number of bytes it is asked for. -/
structure Kernel where
  answer : ℕ → ℕ → Answer
  moved_le : ∀ i request n, answer i request = .moved n → n ≤ request

/-- An answer after which the loop tries again where it is. -/
def Answer.Retry (request : ℕ) (a : Answer) : Prop :=
  a = .eintr ∨ a = .eagain ∨ a = .moved 0 ∧ 0 < request

/-- The kernel does not put the loop off for ever. -/
def Kernel.Lively (k : Kernel) : Prop := ∀ i, ∃ j ≥ i, ∀ request, ¬(k.answer j request).Retry request

/-! ## Moving -/

/-- `move off n` moves `n` bytes that are at offset `off` of the memory. -/
structure Mover (σ : Type*) where
  move : ℕ → ℕ → σ → σ
  move_zero : ∀ off s, move off 0 s = s
  move_add : ∀ off m n s, move (off + m) n (move off m s) = move off (m + n) s

/-- The bytes of a stream from position `p` on. -/
def streamed {β : Type*} (stream : ℕ → β) (p n : ℕ) : List β := (List.range n).map fun i => stream (p + i)

@[simp] theorem length_streamed {β : Type*} (stream : ℕ → β) (p n : ℕ) :
    (streamed stream p n).length = n := by
  rw [streamed, List.length_map, List.length_range]

theorem streamed_add {β : Type*} (stream : ℕ → β) (p m n : ℕ) :
    streamed stream p m ++ streamed stream (p + m) n = streamed stream p (m + n) := by
  simp only [streamed, List.range_add, List.map_append, List.map_map, Function.comp_def, Nat.add_assoc]

/-- From a stream, which is at some position, into memory. -/
def intake {β : Type*} (stream : ℕ → β) : Mover (Buf β × ℕ) where
  move off n s := (s.1.write off (streamed stream s.2 n), s.2 + n)
  move_zero off s := Prod.ext (Buf.write_nil _ _) (Nat.add_zero _)
  move_add off m n s := by
    have h := s.1.write_write off (streamed stream s.2 m) (streamed stream (s.2 + m) n)
    rw [length_streamed, streamed_add] at h
    exact Prod.ext h (Nat.add_assoc _ _ _)

/-- From memory into a stream, behind what is in it. -/
def output {β : Type*} (buf : Buf β) : Mover (List β) where
  move off n s := s ++ buf.read off n
  move_zero off s := List.append_nil s
  move_add off m n s := by
    show (s ++ buf.read off m) ++ buf.read (off + m) n = s ++ buf.read off (m + n)
    rw [List.append_assoc, ← Buf.read_add]

/-! ## The loop -/

/-- Where the loop is: the pointer into the memory, the sum of what the calls have returned, what has
    been moved, and the calls with what they were asked for. -/
structure State (σ : Type*) where
  ptr : ℕ
  global : ℕ
  mem : σ
  log : List (ℕ × Answer)

/-- What the loop leaves. -/
structure Ret (σ : Type*) where
  rc : ℤ
  mem : σ
  log : List (ℕ × Answer)

variable {σ : Type*}

def State.done (s : State σ) (rc : ℤ) : Ret σ := ⟨rc, s.mem, s.log⟩

/-- A turn of the loop, with the answer to its call. -/
def turn (zeroFails : Bool) (m : Mover σ) (count : ℕ) (a : Answer) (s : State σ) : State σ ⊕ Ret σ :=
  let s := { s with log := s.log ++ [(count - s.global, a)] }
  match a with
  | .eintr | .eagain => .inl s
  | .error => .inr (s.done (-1))
  | .moved n =>
    if zeroFails = true ∧ n = 0 then .inr (s.done (-1))
    else
      let s := { s with global := s.global + n, mem := m.move s.ptr n s.mem }
      if s.global = count then .inr (s.done count)
      else if count < s.global then .inr (s.done (-1))
      else .inl { s with ptr := s.ptr + n }

/-- The loop from call `i` on, for at most `fuel` calls. -/
def loop (zeroFails : Bool) (m : Mover σ) (k : Kernel) (count : ℕ) :
    ℕ → ℕ → State σ → Option (Ret σ)
  | 0, _, _ => none
  | fuel + 1, i, s =>
    match turn zeroFails m count (k.answer i (count - s.global)) s with
    | .inl s => loop zeroFails m k count fuel (i + 1) s
    | .inr r => some r

/-- The loop from its first call on. -/
def run (zeroFails : Bool) (m : Mover σ) (k : Kernel) (count fuel : ℕ) (mem : σ) : Option (Ret σ) :=
  loop zeroFails m k count fuel 0 ⟨0, 0, mem, []⟩

/-- A call has failed, or the stream has ended too early. -/
def Failed (zeroFails : Bool) (log : List (ℕ × Answer)) : Prop :=
  ∃ c ∈ log, c.2 = .error ∨ zeroFails = true ∧ c.2 = .moved 0 ∧ 0 < c.1

/-- All bytes have been moved, or a front of them and there is a reason for it. -/
def Ret.Exact (zeroFails : Bool) (m : Mover σ) (count : ℕ) (mem : σ) (r : Ret σ) : Prop :=
  r.rc = count ∧ r.mem = m.move 0 count mem ∨
    r.rc = -1 ∧ Failed zeroFails r.log ∧ ∃ g ≤ count, r.mem = m.move 0 g mem

/-- The front of the bytes up to the pointer has been moved, and there are more of them; or there is
    nothing to move, to a loop for which that is no failure. -/
structure State.Midway (zeroFails : Bool) (m : Mover σ) (count : ℕ) (mem : σ) (s : State σ) : Prop where
  ptr_eq : s.ptr = s.global
  more : s.global < count ∨ zeroFails = false ∧ count = 0 ∧ s.global = 0
  mem_eq : s.mem = m.move 0 s.global mem

variable {zeroFails : Bool} {m : Mover σ} {k : Kernel} {count : ℕ}

theorem failed_last {log : List (ℕ × Answer)} {c : ℕ × Answer}
    (h : c.2 = .error ∨ zeroFails = true ∧ c.2 = .moved 0 ∧ 0 < c.1) :
    Failed zeroFails (log ++ [c]) :=
  ⟨c, List.mem_append_right _ (List.mem_singleton_self c), h⟩

/-- **One turn**: it ends as it should, or it is midway again, and then it has come forward unless the
    answer was to try again. -/
theorem turn_spec {mem : σ} {s : State σ} {a : Answer} (h : s.Midway zeroFails m count mem)
    (ha : ∀ n, a = .moved n → n ≤ count - s.global) :
    (∃ r, turn zeroFails m count a s = .inr r ∧ r.Exact zeroFails m count mem) ∨
      ∃ s', turn zeroFails m count a s = .inl s' ∧ s'.Midway zeroFails m count mem ∧
        (s.global < s'.global ∨ s'.global = s.global ∧ a.Retry (count - s.global)) := by
  obtain ⟨hptr, hmore, hmem⟩ := h
  have hle : s.global ≤ count := by omega
  unfold turn
  cases a with
  | eintr => exact Or.inr ⟨_, rfl, ⟨hptr, hmore, hmem⟩, Or.inr ⟨rfl, Or.inl rfl⟩⟩
  | eagain => exact Or.inr ⟨_, rfl, ⟨hptr, hmore, hmem⟩, Or.inr ⟨rfl, Or.inr (Or.inl rfl)⟩⟩
  | error =>
    exact Or.inl ⟨_, rfl, Or.inr ⟨rfl, failed_last (Or.inl rfl), s.global, hle, hmem⟩⟩
  | moved n =>
    have hn := ha n rfl
    have hmove : m.move s.ptr n s.mem = m.move 0 (s.global + n) mem := by
      have hadd := m.move_add 0 s.global n mem
      rw [hptr, hmem]
      rwa [Nat.zero_add] at hadd
    dsimp only
    by_cases hzero : zeroFails = true ∧ n = 0
    · have hpos : 0 < count - s.global := Nat.sub_pos_of_lt
        (hmore.resolve_right fun h => Bool.false_ne_true (h.1.symm.trans hzero.1))
      rw [if_pos hzero]
      exact Or.inl ⟨_, rfl, Or.inr ⟨rfl, failed_last (Or.inr ⟨hzero.1, by rw [hzero.2], hpos⟩),
        s.global, hle, hmem⟩⟩
    · rw [if_neg hzero]
      by_cases heq : s.global + n = count
      · rw [if_pos heq]
        refine Or.inl ⟨_, rfl, Or.inl ⟨rfl, ?_⟩⟩
        rw [← heq]
        exact hmove
      · -- a kernel that moves no more than it is asked for does not come to the second error
        rw [if_neg heq, if_neg (by omega)]
        refine Or.inr ⟨_, rfl, ⟨congrArg (· + n) hptr, Or.inl (by dsimp only; omega), hmove⟩, ?_⟩
        by_cases hn0 : n = 0
        · subst hn0
          exact Or.inr ⟨rfl, Or.inr (Or.inr ⟨rfl, by omega⟩)⟩
        · exact Or.inl (by dsimp only; omega)

/-- **Soundness.** -/
theorem loop_sound {mem : σ} : ∀ (fuel i : ℕ) (s : State σ) (r : Ret σ), s.Midway zeroFails m count mem →
    loop zeroFails m k count fuel i s = some r → r.Exact zeroFails m count mem := by
  intro fuel
  induction fuel with
  | zero =>
    intro i s r _ h
    cases h
  | succ fuel ih =>
    intro i s r hs h
    rw [loop] at h
    rcases turn_spec hs (k.moved_le i _) with ⟨r', hturn, hr⟩ | ⟨s', hturn, hs', -⟩
    · rw [hturn] at h
      obtain rfl := Option.some.inj h
      exact hr
    · rw [hturn] at h
      exact ih _ _ _ hs' h

/-- **Termination.**  The outer induction is on the bytes that are left, the inner one on the number of
    calls until the kernel is ready. -/
theorem loop_returns (hk : k.Lively) {mem : σ} : ∀ (left i : ℕ) (s : State σ),
    s.Midway zeroFails m count mem → count - s.global = left →
    ∃ fuel r, loop zeroFails m k count fuel i s = some r := by
  intro left
  induction left using Nat.strongRecOn with
  | ind left ih =>
    have hforward : ∀ (i : ℕ) (s s' : State σ), s'.Midway zeroFails m count mem →
        count - s.global = left → s.global < s'.global →
        ∃ fuel r, loop zeroFails m k count fuel i s' = some r := by
      intro i s s' hs' hleft hmore
      have := hs'.more
      exact ih (count - s'.global) (by omega) i s' hs' rfl
    have hinner : ∀ (d i : ℕ) (s : State σ), s.Midway zeroFails m count mem →
        count - s.global = left → (∀ request, ¬(k.answer (i + d) request).Retry request) →
        ∃ fuel r, loop zeroFails m k count fuel i s = some r := by
      intro d
      induction d with
      | zero =>
        intro i s hs hleft hlive
        rcases turn_spec hs (k.moved_le i _) with ⟨r, hturn, -⟩ | ⟨s', hturn, hs', hmore | ⟨-, hretry⟩⟩
        · exact ⟨1, r, by rw [loop, hturn]⟩
        · obtain ⟨fuel, r, hr⟩ := hforward (i + 1) s s' hs' hleft hmore
          exact ⟨fuel + 1, r, by rw [loop, hturn]; exact hr⟩
        · exact absurd hretry (hlive _)
      | succ d ihd =>
        intro i s hs hleft hlive
        rcases turn_spec hs (k.moved_le i _) with ⟨r, hturn, -⟩ | ⟨s', hturn, hs', hmore⟩
        · exact ⟨1, r, by rw [loop, hturn]⟩
        · have hrest : ∃ fuel r, loop zeroFails m k count fuel (i + 1) s' = some r := by
            rcases hmore with hmore | ⟨heq, -⟩
            · exact hforward (i + 1) s s' hs' hleft hmore
            · exact ihd (i + 1) s' hs' (by rw [heq, hleft]) (by rwa [Nat.add_assoc, Nat.add_comm 1 d])
          obtain ⟨fuel, r, hr⟩ := hrest
          exact ⟨fuel + 1, r, by rw [loop, hturn]; exact hr⟩
    intro i s hs hleft
    obtain ⟨j, hj, hlive⟩ := hk i
    obtain ⟨d, rfl⟩ := Nat.exists_eq_add_of_le hj
    exact hinner d i s hs hleft hlive

/-- **The run**, where there is something to move or moving nothing is no failure. -/
theorem run_exact (hcount : 0 < count ∨ zeroFails = false) (mem : σ) :
    (∀ fuel r, run zeroFails m k count fuel mem = some r → r.Exact zeroFails m count mem) ∧
      (k.Lively → ∃ fuel r, run zeroFails m k count fuel mem = some r) := by
  have hmore : 0 < count ∨ zeroFails = false ∧ count = 0 ∧ 0 = 0 := by
    rcases Nat.eq_zero_or_pos count with h0 | hpos
    · exact Or.inr ⟨hcount.resolve_left (by omega), h0, rfl⟩
    · exact Or.inl hpos
  have hstart : (⟨0, 0, mem, []⟩ : State σ).Midway zeroFails m count mem :=
    ⟨rfl, hmore, (m.move_zero 0 mem).symm⟩
  exact ⟨fun fuel r h => loop_sound fuel 0 _ r hstart h, fun hk => loop_returns hk _ 0 _ hstart rfl⟩

/-- **A run with nothing to move** that fails at zero fails. -/
theorem run_nothing {fuel : ℕ} {mem : σ} {r : Ret σ} (h : run true m k 0 fuel mem = some r) :
    r.rc = -1 := by
  have hloop : ∀ (fuel i : ℕ) (s : State σ), s.global = 0 →
      loop true m k 0 fuel i s = some r → r.rc = -1 := by
    intro fuel
    induction fuel with
    | zero =>
      intro i s _ h
      cases h
    | succ fuel ih =>
      intro i s hs h
      rw [loop] at h
      cases ha : k.answer i (0 - s.global) with
      | eintr =>
        rw [ha] at h
        exact ih (i + 1) { s with log := s.log ++ [(0 - s.global, .eintr)] } hs h
      | eagain =>
        rw [ha] at h
        exact ih (i + 1) { s with log := s.log ++ [(0 - s.global, .eagain)] } hs h
      | error =>
        rw [ha] at h
        obtain rfl := Option.some.inj h
        rfl
      | moved n =>
        have hn := k.moved_le _ _ _ ha
        obtain rfl : n = 0 := by omega
        rw [ha] at h
        obtain rfl := Option.some.inj h
        rfl
  exact hloop fuel 0 _ rfl h

end Transfer
