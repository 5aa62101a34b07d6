/-
  The bytes below the messages: `lmon_write_raw` and `lmon_read_raw` of `lmon_lmonp_msg.cxx`.

  Both are the loop of `Transfer` around a system call.  The writer moves bytes from its buffer behind
  what is on the wire, the reader from the stream of its peer into its buffer.  `read` returns zero at
  the end of the stream, so the reader fails at zero and the writer does not.

  A reader that is asked for nothing gets zero as well, and takes it for a lost connection
  (`lmonReadRaw_zero`).  So `read_lmonp_payloads` cannot read a payload that is empty, which is what
  `onStream` has, too; any other count is moved exactly (`raw_exact_iff`).
-/
import LaunchMON.Lib.Transfer
import LaunchMON.Lmonp.Stream

namespace LaunchMON.Lmonp

open Transfer

/-! ## The calls -/

/-- `lmon_write_raw`; `null` says that `buf` is the null pointer.  An object has less than 2^63 bytes, so
    the two kinds of sizes are one. -/
def lmonWriteRaw (k : Kernel) (null : Bool) (buf : Buf UInt8) (count fuel : ℕ) (wire : List UInt8) :
    Option (Ret (List UInt8)) :=
  if null then some ⟨-1, wire, []⟩ else run false (output buf) k count fuel wire

/-- `lmon_read_raw`, from position `mem.2` of the stream. -/
def lmonReadRaw (k : Kernel) (null : Bool) (stream : ℕ → UInt8) (count fuel : ℕ)
    (mem : Buf UInt8 × ℕ) : Option (Ret (Buf UInt8 × ℕ)) :=
  if null then some ⟨-1, mem, []⟩ else run true (intake stream) k count fuel mem

/-! ## Exact transfer -/

/-- `lmon_write_raw` of `count` bytes does what it should, whatever the kernel does.  It returns as soon
    as the kernel lets it, either `count` with the bytes of the buffer on the wire, or -1 for a reason
    and with a front of them. -/
structure WritesExactly (count : ℕ) : Prop where
  sound : ∀ k buf fuel wire r, lmonWriteRaw k false buf count fuel wire = some r →
    r.Exact false (output buf) count wire
  returns : ∀ k buf wire, k.Lively → ∃ fuel r, lmonWriteRaw k false buf count fuel wire = some r

/-- `lmon_read_raw` of `count` bytes does what it should, and leaves alone what is behind them. -/
structure ReadsExactly (count : ℕ) : Prop where
  sound : ∀ k stream fuel mem r, lmonReadRaw k false stream count fuel mem = some r →
    r.Exact true (intake stream) count mem
  inside : ∀ k stream fuel mem r, lmonReadRaw k false stream count fuel mem = some r →
    ∀ i ≥ count, r.mem.1 i = mem.1 i
  returns : ∀ k stream mem, k.Lively → ∃ fuel r, lmonReadRaw k false stream count fuel mem = some r

/-- Bytes that have been taken in are in the buffer. -/
theorem intake_outside {stream : ℕ → UInt8} {n i : ℕ} (h : n ≤ i) (mem : Buf UInt8 × ℕ) :
    ((intake stream).move 0 n mem).1 i = mem.1 i := by
  have hlen : (streamed stream mem.2 n).length ≤ i := by rwa [length_streamed]
  exact @Buf.write_outside _ mem.1 0 _ i (Or.inr (by omega))

theorem writesExactly (count : ℕ) : WritesExactly count where
  sound _ _ fuel wire r := (run_exact (Or.inr rfl) wire).1 fuel r
  returns _ _ wire hk := (run_exact (Or.inr rfl) wire).2 hk

theorem readsExactly {count : ℕ} (hpos : 0 < count) : ReadsExactly count where
  sound _ _ fuel mem r := (run_exact (Or.inl hpos) mem).1 fuel r
  inside _ _ fuel mem r h i hi := by
    rcases (run_exact (Or.inl hpos) mem).1 fuel r h with ⟨-, hmem⟩ | ⟨-, -, g, hg, hmem⟩
    · rw [hmem]
      exact intake_outside hi mem
    · rw [hmem]
      exact intake_outside (hg.trans hi) mem
  returns _ _ mem hk := (run_exact (Or.inl hpos) mem).2 hk

/-- A kernel that has come to the end of the stream. -/
def atEnd : Kernel where
  answer _ _ := .moved 0
  moved_le _ request n h := by
    cases h
    exact Nat.zero_le _

/-- **Whatever the kernel answers, nothing cannot be read.** -/
theorem lmonReadRaw_zero (k : Kernel) (stream : ℕ → UInt8) (fuel : ℕ) (mem : Buf UInt8 × ℕ)
    (r : Ret (Buf UInt8 × ℕ)) (h : lmonReadRaw k false stream 0 fuel mem = some r) : r.rc = -1 :=
  run_nothing h

/-- **When the two calls move exactly what they should**: when there is something to move. -/
theorem raw_exact_iff (count : ℕ) : WritesExactly count ∧ ReadsExactly count ↔ 0 < count := by
  constructor
  · rintro ⟨-, hread⟩
    rcases Nat.eq_zero_or_pos count with rfl | hpos
    · -- at the end of the stream there is no reason for the -1
      rcases hread.sound atEnd (fun _ => 0) 1 (fun _ => 0, 0) _ rfl with ⟨hrc, -⟩ | ⟨-, hfailed, -⟩
      · rw [lmonReadRaw_zero atEnd (fun _ => 0) 1 (fun _ => 0, 0) _ rfl] at hrc
        cases hrc
      · obtain ⟨c, hc, hwhy⟩ := hfailed
        obtain rfl := List.mem_singleton.mp hc
        rcases hwhy with herr | ⟨-, -, hlt⟩
        · cases herr
        · exact absurd hlt (Nat.lt_irrefl 0)
    · exact hpos
  · exact fun hpos => ⟨writesExactly count, readsExactly hpos⟩

/-- An empty payload: the kernel has nothing to object, and the reader returns -1. -/
theorem raw_exact_counterexample : ∃ r, lmonReadRaw atEnd false (fun _ => 7) 0 1 (fun _ => 0, 0) = some r ∧
    r.rc = -1 ∧ ¬Failed true r.log ∧ ¬r.Exact true (intake fun _ => 7) 0 (fun _ => 0, 0) := by
  have hlog : ¬Failed true [(0, Answer.moved 0)] := by
    rintro ⟨c, hc, hwhy⟩
    obtain rfl := List.mem_singleton.mp hc
    rcases hwhy with herr | ⟨-, -, hlt⟩
    · cases herr
    · exact absurd hlt (Nat.lt_irrefl 0)
  refine ⟨_, rfl, rfl, hlog, ?_⟩
  rintro (⟨hrc, -⟩ | ⟨-, hfailed, -⟩)
  · cases hrc
  · exact hlog hfailed

end LaunchMON.Lmonp
