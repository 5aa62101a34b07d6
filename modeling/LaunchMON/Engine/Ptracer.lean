/-
  Memory of the target through ptrace: `tracer_read`, `tracer_read_string` and `tracer_write` of
  `sdbg_linux_ptracer_impl.hxx`, a word at a time.

  Each of the three walks over the range with two pointers, one into the target and one into the buffer
  of the caller.  What is left behind the last whole word is a part of a word, which a reader copies
  with `memcpy` and a writer merges into the word that is there.

  1. **The pointers** (`tracerRead_eq`, `tracerReadString_eq`, `tracerWrite_eq`).  Away from the end of
     the address space the walks come to their ends, and what they do is what `peekBytes`, `peekString`
     and `pokeLoop` say, which know nothing of pointers.  So the rest of the engine may use those.

  2. **Frame** (`tracer_frame`).  A write changes the bytes of its range and no others, a read returns
     the bytes that are there and writes no others of the buffer.

  3. **Strings** (`tracerReadString_iff`).  The walk stops at the first word with a zero byte.  A string
     that is as long as the buffer fills it, so that nothing terminates it, and the word with the
     terminator is read as a whole, so that all of it has to be mapped.
-/
import LaunchMON.Engine.Target
import LaunchMON.Lib.Buf

namespace LaunchMON.Engine.Ptracer

/-! ## The code -/

/-- The word in a buffer of the caller. -/
def wordAt (buf : Buf UInt8) (p : ℕ) : Word := fun i => buf (p + i)

/-- PTRACE_POKEDATA. -/
def poke (m : Mem) (a : VA) (r : Word) : Option Mem :=
  if Mapped m a then some (overwrite m a (List.ofFn r)) else none

/-- Where a reader is: its pointers, the buffer, and `end_of_string`. -/
structure Reader where
  addrTrav : VA
  bufTrav : ℕ
  buf : Buf UInt8
  endOfString : Bool

/-- The loop of a reader over the whole words, for at most `fuel` of them.  The reader stops behind a
    word if `stop` says so.  An exception is `none`. -/
def readWords (stop : Word → Bool) (m : Mem) (travEnd : VA) : ℕ → Reader → Option Reader
  | 0, _ => none
  | fuel + 1, s =>
    if off s.addrTrav 8 ≤ travEnd then do
      let r ← peek m s.addrTrav
      let buf := s.buf.write s.bufTrav (List.ofFn r)
      if stop r then some ⟨s.addrTrav, s.bufTrav + 8, buf, true⟩
      else readWords stop m travEnd fuel ⟨off s.addrTrav 8, s.bufTrav + 8, buf, false⟩
    else some s

/-- A reader: the whole words, and what is left behind them.  A word has no more than eight bytes to
    copy. -/
def readUpTo (stop : Word → Bool) (m : Mem) (addr : VA) (buf : Buf UInt8) (size fuel : ℕ) :
    Option (Buf UInt8) := do
  let travEnd := off addr size
  let s ← readWords stop m travEnd fuel ⟨addr, 0, buf, false⟩
  if s.addrTrav ≠ travEnd ∧ s.endOfString = false then do
    let r ← peek m s.addrTrav
    let n := (travEnd - s.addrTrav).toNat
    if 8 < n then none else some (s.buf.write s.bufTrav ((List.ofFn r).take n))
  else some s.buf

/-- `tracer_read`. -/
def tracerRead : Mem → VA → Buf UInt8 → ℕ → ℕ → Option (Buf UInt8) := readUpTo fun _ => false

/-- A byte of the word is zero. -/
def hasZero (r : Word) : Bool := ∃ i, r i = 0

theorem hasZero_iff {r : Word} : hasZero r = true ↔ ∃ i, r i = 0 := decide_eq_true_iff

/-- `tracer_read_string`. -/
def tracerReadString : Mem → VA → Buf UInt8 → ℕ → ℕ → Option (Buf UInt8) := readUpTo hasZero

/-- The loop of `tracer_write` over the whole words, for at most `fuel` of them: the memory, and the
    pointers unless there has been an exception. -/
def writeWords (travEnd : VA) (buf : Buf UInt8) : ℕ → VA → ℕ → Mem → Mem × Option (VA × ℕ)
  | 0, _, _, m => (m, none)
  | fuel + 1, addrTrav, bufTrav, m =>
    if off addrTrav 8 ≤ travEnd then
      match poke m addrTrav (wordAt buf bufTrav) with
      | none => (m, none)
      | some m => writeWords travEnd buf fuel (off addrTrav 8) (bufTrav + 8) m
    else (m, some (addrTrav, bufTrav))

/-- What is left behind the whole words: the word that is there, with its first bytes replaced. -/
def writeRest (travEnd : VA) (buf : Buf UInt8) (addrTrav : VA) (bufTrav : ℕ) (m : Mem) : Mem × Bool :=
  if addrTrav ≠ travEnd then
    match peek m addrTrav with
    | none => (m, false)
    | some r =>
      let n := (travEnd - addrTrav).toNat
      if 8 < n then (m, false)
      else
        match poke m addrTrav fun i => if i < n then wordAt buf bufTrav i else r i with
        | none => (m, false)
        | some m => (m, true)
  else (m, true)

/-- `tracer_write`: the memory, and whether there has been no exception. -/
def tracerWrite (m : Mem) (addr : VA) (buf : Buf UInt8) (size fuel : ℕ) : Mem × Bool :=
  match writeWords (off addr size) buf fuel addr 0 m with
  | (m, none) => (m, false)
  | (m, some (addrTrav, bufTrav)) => writeRest (off addr size) buf addrTrav bufTrav m

/-! ## Addresses -/

theorem off_toNat {a : VA} {i : ℕ} (h : a.toNat + i < 2 ^ 64) : (off a i).toNat = a.toNat + i := by
  unfold off
  rw [BitVec.toNat_add, BitVec.toNat_ofNat, Nat.mod_eq_of_lt (show i < 2 ^ 64 by omega),
    Nat.mod_eq_of_lt h]

/-- A pointer in the loop: `n` bytes are left up to the end, and the word behind them is still in the
    address space. -/
structure Left (a travEnd : VA) (n : ℕ) : Prop where
  end_eq : travEnd = off a n
  fits : a.toNat + n + 8 < 2 ^ 64

namespace Left

variable {a travEnd : VA} {n : ℕ}

theorem word_le (h : Left a travEnd n) : off a 8 ≤ travEnd ↔ 8 ≤ n := by
  have hfits := h.fits
  rw [h.end_eq, BitVec.le_def, off_toNat (by omega), off_toNat (by omega)]
  omega

theorem sub_eq (h : Left a travEnd n) : (travEnd - a).toNat = n := by
  have hfits := h.fits
  rw [h.end_eq, off_sub a (by omega)]

theorem ne_end (h : Left a travEnd n) : a ≠ travEnd ↔ n ≠ 0 := by
  have hsub := h.sub_eq
  constructor
  · rintro hne rfl
    rw [h.end_eq, off_zero] at hne
    exact hne rfl
  · rintro hn rfl
    rw [BitVec.sub_self] at hsub
    exact hn hsub.symm

theorem next (h : Left a travEnd (n + 8)) : Left (off a 8) travEnd n := by
  have hfits := h.fits
  refine ⟨?_, ?_⟩
  · rw [h.end_eq, off_off, Nat.add_comm]
  · rw [off_toNat (by omega)]
    omega

/-- Behind the whole words. -/
theorem rest {addr : VA} {size : ℕ} (hfits : addr.toNat + size + 8 < 2 ^ 64) :
    Left (off addr (8 * (size / 8))) (off addr size) (size % 8) := by
  have hsize : 8 * (size / 8) + size % 8 = size := Nat.div_add_mod size 8
  refine ⟨?_, ?_⟩
  · rw [off_off, hsize]
  · rw [off_toNat (by omega)]
    omega

end Left

/-! ## Readers -/

/-- The bytes from `a` on. -/
def bytes (m : Mem) (a : VA) (n : ℕ) : List UInt8 := (List.range n).map fun i => (m (off a i)).getD 0

@[simp] theorem length_bytes (m : Mem) (a : VA) (n : ℕ) : (bytes m a n).length = n := by
  rw [bytes, List.length_map, List.length_range]

theorem bytes_add (m : Mem) (a : VA) (j n : ℕ) : bytes m a (j + n) = bytes m a j ++ bytes m (off a j) n := by
  simp only [bytes, List.range_add, List.map_append, List.map_map, Function.comp_def, off_off]

/-- A word that has been read, as a list. -/
theorem ofFn_peek {m : Mem} {a : VA} {r : Word} (h : peek m a = some r) : List.ofFn r = bytes m a 8 := by
  obtain ⟨-, hr⟩ := peek_eq_some h
  refine List.ext_getElem (by simp) fun i hi _ => ?_
  rw [List.length_ofFn] at hi
  simp only [List.getElem_ofFn, bytes, List.getElem_map, List.getElem_range]
  rw [hr ⟨i, hi⟩]
  rfl

theorem not_mapped_of_peek {m : Mem} {a : VA} (h : peek m a = none) : ¬Mapped m a := by
  intro hm
  rw [peek, if_pos hm] at h
  cases h

theorem mapped_zero {m : Mem} {a : VA} : Mapped m (off a (8 * 0)) ↔ Mapped m a := by
  rw [Nat.mul_zero, off_zero]

theorem words_whole {n : ℕ} (h : n % 8 = 0) : words n = n / 8 := by
  unfold words
  omega

theorem words_part {n : ℕ} (h : n % 8 ≠ 0) : words n = n / 8 + 1 := by
  unfold words
  omega

/-- The first bytes of a word, behind others. -/
theorem peek_take (m : Mem) (a : VA) {n : ℕ} (hn : n ≤ 8) (pre : List UInt8) :
    ((peek m a).bind fun r => some (pre ++ (List.ofFn r).take n)) =
      if Mapped m a then some (pre ++ bytes m a n) else none := by
  cases hr : peek m a with
  | none => rw [if_neg (not_mapped_of_peek hr), Option.bind_none]
  | some r =>
    have htake : (bytes m a 8).take n = bytes m a n := by
      rw [bytes, bytes, ← List.map_take, List.take_range, Nat.min_eq_left hn]
    rw [if_pos (peek_eq_some hr).1, Option.bind_some, ofFn_peek hr, htake]

/-- What the loop of a reader fetches from `k` words, and whether it has stopped. -/
def peekUntil (stop : Word → Bool) (m : Mem) : ℕ → VA → Option (List UInt8 × Bool)
  | 0, _ => some ([], false)
  | k + 1, a => do
    let r ← peek m a
    if stop r then some (List.ofFn r, true)
    else (peekUntil stop m k (off a 8)).map fun p => (List.ofFn r ++ p.1, p.2)

/-- What a reader fetches from `size` bytes. -/
def fetch (stop : Word → Bool) (m : Mem) (a : VA) (size : ℕ) : Option (List UInt8) := do
  let p ← peekUntil stop m (size / 8) a
  if size % 8 ≠ 0 ∧ p.2 = false then do
    let r ← peek m (off a (8 * (size / 8)))
    some (p.1 ++ (List.ofFn r).take (size % 8))
  else some p.1

variable {stop : Word → Bool} {m : Mem}

/-- **The loop of a reader** puts what it fetches into the buffer, and is behind it if it has not
    stopped. -/
theorem readWords_eq {travEnd : VA} {rest : ℕ} (hrest : rest < 8) : ∀ (k fuel : ℕ) (s : Reader),
    k < fuel → Left s.addrTrav travEnd (rest + 8 * k) → s.endOfString = false →
    (peekUntil stop m k s.addrTrav = none → readWords stop m travEnd fuel s = none) ∧
    ∀ bs stopped, peekUntil stop m k s.addrTrav = some (bs, stopped) →
      ∃ s', readWords stop m travEnd fuel s = some s' ∧ s'.buf = s.buf.write s.bufTrav bs ∧
        s'.endOfString = stopped ∧ (stopped = false → s'.addrTrav = off s.addrTrav (8 * k) ∧
          s'.bufTrav = s.bufTrav + 8 * k ∧ bs.length = 8 * k) := by
  intro k
  induction k with
  | zero =>
    intro fuel s hfuel hleft hend
    obtain ⟨fuel, rfl⟩ := Nat.exists_eq_add_of_lt hfuel
    refine ⟨fun h => (by cases h), fun bs stopped h => ?_⟩
    cases h
    rw [Nat.mul_zero, Nat.add_zero] at hleft
    refine ⟨s, ?_, (Buf.write_nil _ _).symm, hend, fun _ => ⟨(off_zero _).symm, rfl, rfl⟩⟩
    rw [readWords, if_neg (mt hleft.word_le.mp (by omega))]
  | succ k ih =>
    intro fuel s hfuel hleft hend
    obtain ⟨fuel, rfl⟩ : ∃ j, fuel = j + 1 := ⟨fuel - 1, by omega⟩
    rw [readWords, if_pos (hleft.word_le.mpr (by omega)), peekUntil]
    cases hr : peek m s.addrTrav with
    | none => exact ⟨fun _ => rfl, fun bs stopped h => (by cases h)⟩
    | some r =>
      simp only [Option.bind_eq_bind, Option.bind_some]
      -- the word that holds the terminator is copied too, and ends the loop
      by_cases hstop : stop r = true
      · rw [if_pos hstop, if_pos hstop]
        refine ⟨fun h => (by cases h), fun bs stopped h => ?_⟩
        cases h
        exact ⟨_, rfl, rfl, rfl, fun h => (by cases h)⟩
      · rw [if_neg hstop, if_neg hstop]
        obtain ⟨hnone, hsome⟩ := ih fuel
          ⟨off s.addrTrav 8, s.bufTrav + 8, s.buf.write s.bufTrav (List.ofFn r), false⟩
          (by omega) hleft.next rfl
        dsimp only at hnone hsome
        cases hp : peekUntil stop m k (off s.addrTrav 8) with
        | none => exact ⟨fun _ => hnone hp, fun bs stopped h => (by cases h)⟩
        | some p =>
          refine ⟨fun h => (by cases h), fun bs stopped h => ?_⟩
          cases h
          obtain ⟨s', hs', hbuf, hstopped, hat⟩ := hsome p.1 p.2 hp
          have hlen : (List.ofFn r).length = 8 := List.length_ofFn
          refine ⟨s', hs', ?_, hstopped, fun h => ?_⟩
          · have hwrite := s.buf.write_write s.bufTrav (List.ofFn r) p.1
            rw [hlen] at hwrite
            rw [hbuf, hwrite]
          · obtain ⟨haddr, hptr, hbs⟩ := hat h
            rw [off_off] at haddr
            refine ⟨by rw [haddr]; congr 1; omega, by rw [hptr]; omega, ?_⟩
            rw [List.length_append, hlen, hbs]
            omega

/-- **A reader** puts what it fetches into the buffer, from its beginning on. -/
theorem readUpTo_eq {addr : VA} {size fuel : ℕ} (hfits : addr.toNat + size + 8 < 2 ^ 64)
    (hfuel : size / 8 < fuel) (buf : Buf UInt8) :
    readUpTo stop m addr buf size fuel = (fetch stop m addr size).map (buf.write 0) := by
  have hsize : size % 8 + 8 * (size / 8) = size := Nat.mod_add_div size 8
  have hleft : Left addr (off addr size) (size % 8 + 8 * (size / 8)) := by
    rw [hsize]
    exact ⟨rfl, hfits⟩
  obtain ⟨hnone, hsome⟩ := @readWords_eq stop m (off addr size) (size % 8) (Nat.mod_lt _ (by decide))
    (size / 8) fuel ⟨addr, 0, buf, false⟩ hfuel hleft rfl
  unfold readUpTo fetch
  dsimp only at hnone hsome ⊢
  cases hp : peekUntil stop m (size / 8) addr with
  | none =>
    rw [hnone hp]
    rfl
  | some p =>
    obtain ⟨bs, stopped⟩ := p
    obtain ⟨s, hs, hbuf, hstopped, hat⟩ := hsome bs stopped hp
    rw [hs]
    simp only [Option.bind_eq_bind, Option.bind_some]
    cases stopped with
    | true =>
      rw [if_neg (fun h => Bool.false_ne_true (h.2.symm.trans hstopped)), if_neg (fun h => (by cases h.2)),
        hbuf, Option.map_some]
    | false =>
      obtain ⟨haddr, hptr, hlen⟩ := hat rfl
      have hrest : Left s.addrTrav (off addr size) (size % 8) := haddr ▸ Left.rest hfits
      by_cases hmod : size % 8 = 0
      · rw [if_neg (fun h => hrest.ne_end.mp h.1 hmod), if_neg (fun h => h.1 hmod), hbuf, Option.map_some]
      · rw [if_pos ⟨hrest.ne_end.mpr hmod, hstopped⟩, if_pos ⟨hmod, rfl⟩, hrest.sub_eq, haddr]
        cases hr : peek m (off addr (8 * (size / 8))) with
        | none => rfl
        | some r =>
          simp only [Option.bind_some, Option.map_some]
          rw [if_neg (by omega), hbuf, hptr, ← hlen, Buf.write_write]

/-! ## What readers fetch -/

/-- The words that a range touches are mapped. -/
def Touched (m : Mem) (a : VA) (size : ℕ) : Prop := ∀ k < words size, Mapped m (off a (8 * k))

instance (m : Mem) (a : VA) (size : ℕ) : Decidable (Touched m a size) :=
  inferInstanceAs (Decidable (∀ k < words size, _))

/-- A reader that does not stop fetches all words, if they are mapped. -/
theorem peekUntil_never : ∀ (k : ℕ) (a : VA), peekUntil (fun _ => false) m k a =
    if ∀ i < k, Mapped m (off a (8 * i)) then some (bytes m a (8 * k), false) else none := by
  intro k
  induction k with
  | zero => exact fun a => (if_pos fun i hi => absurd hi (Nat.not_lt_zero i)).symm
  | succ k ih =>
    intro a
    have hshift : ∀ i, off (off a 8) (8 * i) = off a (8 * (i + 1)) := by
      intro i
      rw [off_off]
      congr 1
      omega
    rw [peekUntil]
    cases hr : peek m a with
    | none => exact (if_neg fun h => not_mapped_of_peek hr (mapped_zero.mp (h 0 (Nat.succ_pos k)))).symm
    | some r =>
      simp only [Option.bind_eq_bind, Option.bind_some, Bool.false_eq_true, if_false]
      rw [ih]
      by_cases hrest : ∀ i < k, Mapped m (off (off a 8) (8 * i))
      · rw [if_pos hrest, if_pos, Option.map_some, ofFn_peek hr, ← bytes_add]
        · congr 3
          omega
        · intro i hi
          cases i with
          | zero => exact mapped_zero.mpr (peek_eq_some hr).1
          | succ i =>
            rw [← hshift]
            exact hrest i (Nat.lt_of_succ_lt_succ hi)
      · rw [if_neg hrest, if_neg, Option.map_none]
        intro h
        refine hrest fun i hi => ?_
        rw [hshift]
        exact h (i + 1) (Nat.succ_lt_succ hi)

/-- **`tracer_read` fetches** the bytes that are there, if the words that it touches are mapped. -/
theorem fetch_never (m : Mem) (a : VA) (size : ℕ) : fetch (fun _ => false) m a size = peekBytes m a size := by
  have hsize : 8 * (size / 8) + size % 8 = size := Nat.div_add_mod size 8
  have hlt : size % 8 < 8 := Nat.mod_lt _ (by decide)
  unfold fetch peekBytes
  rw [peekUntil_never]
  by_cases hmod : size % 8 = 0
  · rw [words_whole hmod]
    split
    · simp only [Option.bind_eq_bind, Option.bind_some]
      rw [if_neg (fun h => h.1 hmod), show 8 * (size / 8) = size by omega]
      rfl
    · rfl
  · rw [words_part hmod]
    by_cases hall : ∀ i < size / 8, Mapped m (off a (8 * i))
    · rw [if_pos hall]
      simp only [Option.bind_eq_bind, Option.bind_some]
      rw [if_pos ⟨hmod, trivial⟩, peek_take m _ hlt.le, ← bytes_add, hsize]
      by_cases hlast : Mapped m (off a (8 * (size / 8)))
      · rw [if_pos hlast, if_pos]
        · rfl
        · intro i hi
          rcases Nat.lt_succ_iff_lt_or_eq.mp hi with hi | rfl
          · exact hall i hi
          · exact hlast
      · rw [if_neg hlast, if_neg fun h => hlast (h (size / 8) (Nat.lt_succ_self _))]
    · rw [if_neg hall, if_neg fun h => hall fun i hi => h i (Nat.lt_succ_of_lt hi)]
      rfl

/-- **`tracer_read_string` fetches** what `peekString` does, if the size is one of whole words. -/
theorem fetch_hasZero (m : Mem) (a : VA) {size : ℕ} (h : size % 8 = 0) :
    fetch hasZero m a size = peekString m a (words size) := by
  have hstring : ∀ (k : ℕ) (a : VA), (peekUntil hasZero m k a).map Prod.fst = peekString m a k := by
    intro k
    induction k with
    | zero => exact fun a => rfl
    | succ k ih =>
      intro a
      rw [peekUntil, peekString]
      cases peek m a with
      | none => rfl
      | some r =>
        simp only [Option.bind_eq_bind, Option.bind_some]
        by_cases hz : ∃ i, r i = 0
        · rw [if_pos (hasZero_iff.mpr hz), if_pos hz]
          rfl
        · rw [if_neg (mt hasZero_iff.mp hz), if_neg hz, ← ih, Option.map_map,
            Option.map_map]
          rfl
  rw [words_whole h, ← hstring, fetch]
  cases peekUntil hasZero m (size / 8) a with
  | none => rfl
  | some p =>
    simp only [Option.bind_eq_bind, Option.bind_some]
    rw [if_neg (fun hne => hne.1 h)]
    rfl

/-- The readers as the rest of the engine has them. -/
theorem tracerRead_eq {addr : VA} {size fuel : ℕ} (hfits : addr.toNat + size + 8 < 2 ^ 64)
    (hfuel : size / 8 < fuel) (buf : Buf UInt8) :
    tracerRead m addr buf size fuel = (peekBytes m addr size).map (buf.write 0) := by
  rw [tracerRead, readUpTo_eq hfits hfuel, fetch_never]

theorem tracerReadString_eq {addr : VA} {size fuel : ℕ} (hfits : addr.toNat + size + 8 < 2 ^ 64)
    (hfuel : size / 8 < fuel) (hwords : size % 8 = 0) (buf : Buf UInt8) :
    tracerReadString m addr buf size fuel = (peekString m addr (words size)).map (buf.write 0) := by
  rw [tracerReadString, readUpTo_eq hfits hfuel, fetch_hasZero m addr hwords]

/-! ## The writer -/

/-- **The loop of the writer** and that of `pokeLoop` do the same until the whole words are written. -/
theorem writeWords_eq {travEnd : VA} {buf : Buf UInt8} {rest : ℕ} (hrest : rest < 8) :
    ∀ (k fuel : ℕ) (a : VA) (p : ℕ) (m : Mem), k < fuel → Left a travEnd (rest + 8 * k) →
    (∀ m', writeWords travEnd buf fuel a p m = (m', none) →
      pokeLoop m a (words (rest + 8 * k)) (buf.read p (rest + 8 * k)) = (m', false)) ∧
    ∀ m' a' p', writeWords travEnd buf fuel a p m = (m', some (a', p')) →
      a' = off a (8 * k) ∧ p' = p + 8 * k ∧
        pokeLoop m a (words (rest + 8 * k)) (buf.read p (rest + 8 * k)) =
          pokeLoop m' a' (words rest) (buf.read p' rest) := by
  intro k
  induction k with
  | zero =>
    intro fuel a p m hfuel hleft
    obtain ⟨fuel, rfl⟩ := Nat.exists_eq_add_of_lt hfuel
    rw [Nat.mul_zero, Nat.add_zero] at hleft ⊢
    rw [writeWords, if_neg (mt hleft.word_le.mp (by omega))]
    refine ⟨fun m' h => (by cases h), fun m' a' p' h => ?_⟩
    cases h
    exact ⟨(off_zero a).symm, rfl, rfl⟩
  | succ k ih =>
    intro fuel a p m hfuel hleft
    obtain ⟨fuel, rfl⟩ : ∃ j, fuel = j + 1 := ⟨fuel - 1, by omega⟩
    -- one word more in front: both sides poke it and go on behind it
    have hn : rest + 8 * (k + 1) = 8 + (rest + 8 * k) := by omega
    have hwords : words (8 + (rest + 8 * k)) = words (rest + 8 * k) + 1 := by
      unfold words
      omega
    have hread : List.ofFn (wordAt buf p) = buf.read p 8 := by
      refine List.ext_getElem (by simp) fun i hi _ => ?_
      simp only [List.getElem_ofFn, wordAt, Buf.read, List.getElem_map, List.getElem_range]
    have htake : (buf.read p (8 + (rest + 8 * k))).take 8 = List.ofFn (wordAt buf p) := by
      rw [Buf.read_add, hread]
      exact List.take_left' (Buf.length_read _ _ _)
    have hdrop : (buf.read p (8 + (rest + 8 * k))).drop 8 = buf.read (p + 8) (rest + 8 * k) := by
      rw [Buf.read_add]
      exact List.drop_left' (Buf.length_read _ _ _)
    rw [hn] at hleft ⊢
    rw [hwords, pokeLoop, htake, hdrop, writeWords, if_pos (hleft.word_le.mpr (Nat.le_add_right _ _)), poke]
    by_cases hm : Mapped m a
    · rw [if_pos hm, if_pos hm]
      rw [Nat.add_comm 8] at hleft
      obtain ⟨hnone, hsome⟩ := ih fuel (off a 8) (p + 8) (overwrite m a (List.ofFn (wordAt buf p)))
        (by omega) hleft.next
      refine ⟨hnone, fun m' a' p' hw => ?_⟩
      obtain ⟨ha, hp, hpoke⟩ := hsome m' a' p' hw
      refine ⟨?_, ?_, hpoke⟩
      · rw [ha, off_off]
        congr 1
        omega
      · rw [hp]
        omega
    · rw [if_neg hm, if_neg hm]
      refine ⟨fun m' h => ?_, fun m' a' p' h => (by cases h)⟩
      cases h
      rfl

/-- A word in which only the first bytes are new. -/
theorem overwrite_merged {a : VA} {r bs : Word} {n : ℕ} (h : peek m a = some r) (hn : n ≤ 8) :
    overwrite m a (List.ofFn fun i => if (i : ℕ) < n then bs i else r i) =
      overwrite m a ((List.ofFn bs).take n) := by
  obtain ⟨-, hr⟩ := peek_eq_some h
  funext x
  unfold overwrite
  by_cases hx : (x - a).toNat < 8
  · have hxa : m x = some (r ⟨(x - a).toNat, hx⟩) := by
      rw [← hr ⟨(x - a).toNat, hx⟩]
      exact congrArg m (off_sub_toNat a x).symm
    rw [List.getElem?_eq_getElem (by rw [List.length_ofFn]; exact hx), List.getElem_ofFn, List.getElem?_take]
    dsimp only
    split
    · rw [List.getElem?_eq_getElem (by rw [List.length_ofFn]; exact hx), List.getElem_ofFn]
    · rw [hxa]
      rfl
  · rw [List.getElem?_eq_none (by rw [List.length_ofFn]; omega),
      List.getElem?_eq_none (by rw [List.length_take, List.length_ofFn]; omega)]

/-- **`tracer_write`** does what `pokeLoop` does. -/
theorem tracerWrite_eq {addr : VA} {size fuel : ℕ} (hfits : addr.toNat + size + 8 < 2 ^ 64)
    (hfuel : size / 8 < fuel) (buf : Buf UInt8) :
    tracerWrite m addr buf size fuel = pokeLoop m addr (words size) (buf.read 0 size) := by
  have hsize : size % 8 + 8 * (size / 8) = size := Nat.mod_add_div size 8
  have hlt : size % 8 < 8 := Nat.mod_lt _ (by decide)
  obtain ⟨hnone, hsome⟩ := @writeWords_eq (off addr size) buf (size % 8) hlt (size / 8) fuel addr 0 m
    hfuel (by rw [hsize]; exact ⟨rfl, hfits⟩)
  rw [hsize] at hnone hsome
  unfold tracerWrite
  rcases hw : writeWords (off addr size) buf fuel addr 0 m with ⟨m', _ | ⟨a', p'⟩⟩
  · exact (hnone m' hw).symm
  · obtain ⟨ha, -, hpoke⟩ := hsome m' a' p' hw
    have hrest : Left a' (off addr size) (size % 8) := ha ▸ Left.rest hfits
    rw [hpoke]
    dsimp only
    unfold writeRest
    by_cases hmod : size % 8 = 0
    · rw [if_neg fun h => hrest.ne_end.mp h hmod, hmod]
      rfl
    · have hwords : words (size % 8) = 1 := by
        unfold words
        omega
      have hread : (List.ofFn (wordAt buf p')).take (size % 8) = (buf.read p' (size % 8)).take 8 := by
        have hlen : (buf.read p' (size % 8)).length ≤ 8 := by
          rw [Buf.length_read]
          exact hlt.le
        rw [List.take_of_length_le hlen]
        refine List.ext_getElem ?_ fun i hi _ => ?_
        · rw [List.length_take, List.length_ofFn, Buf.length_read, Nat.min_eq_left hlt.le]
        · simp only [List.getElem_take, List.getElem_ofFn, wordAt, Buf.read, List.getElem_map,
            List.getElem_range]
      rw [if_pos (hrest.ne_end.mpr hmod), hrest.sub_eq, hwords, pokeLoop]
      cases hr : peek m' a' with
      | none => rw [if_neg (not_mapped_of_peek hr)]
      | some r =>
        have hm := (peek_eq_some hr).1
        dsimp only
        rw [if_neg (by omega), poke, if_pos hm, if_pos hm, overwrite_merged hr (by omega), hread]
        rfl

/-! ## Frame -/

/-- The bytes of a write are in memory afterwards, if its words are mapped. -/
theorem pokeLoop_inside : ∀ (k : ℕ) (m : Mem) (a : VA) (bs : List UInt8), bs.length ≤ 8 * k →
    bs.length ≤ 2 ^ 64 → (∀ i < k, Mapped m (off a (8 * i))) →
    ∀ i (hi : i < bs.length), (pokeLoop m a k bs).1 (off a i) = some bs[i] := by
  intro k
  induction k with
  | zero =>
    intro m a bs hlen _ _ i hi
    omega
  | succ k ih =>
    intro m a bs hlen h64 hmap i hi
    rw [pokeLoop, if_pos (mapped_zero.mp (hmap 0 (Nat.succ_pos k)))]
    by_cases hi8 : i < 8
    · have hout : ∀ j < (bs.drop 8).length, off a i ≠ off (off a 8) j := by
        intro j hj heq
        rw [List.length_drop] at hj
        rw [off_off] at heq
        have hsub := off_sub a (show i < 2 ^ 64 by omega)
        rw [heq, off_sub a (by omega)] at hsub
        omega
      have htake : i < (bs.take 8).length := by
        rw [List.length_take]
        omega
      rw [pokeLoop_outside hout, overwrite_inside m a (bs.take 8) htake (by rw [List.length_take]; omega),
        List.getElem_take]
    · have hmap' : ∀ j < k, Mapped (overwrite m a (bs.take 8)) (off (off a 8) (8 * j)) := by
        intro j hj
        rw [off_off, show 8 + 8 * j = 8 * (j + 1) by omega]
        exact mapped_overwrite (hmap (j + 1) (Nat.succ_lt_succ hj))
      have hin := ih (overwrite m a (bs.take 8)) (off a 8) (bs.drop 8) (by rw [List.length_drop]; omega)
        (by rw [List.length_drop]; omega) hmap' (i - 8) (by rw [List.length_drop]; omega)
      rw [off_off, show 8 + (i - 8) = i by omega, List.getElem_drop] at hin
      rw [hin]
      congr 2
      omega

/-- A write maps nothing. -/
theorem pokeLoop_unmapped {x : VA} : ∀ (k : ℕ) (m : Mem) (a : VA) (bs : List UInt8), m x = none →
    (pokeLoop m a k bs).1 x = none := by
  intro k
  induction k with
  | zero => exact fun m a bs h => h
  | succ k ih =>
    intro m a bs h
    rw [pokeLoop]
    split
    · next hm =>
      refine ih _ _ _ ?_
      rw [overwrite_outside, h]
      rintro i hi rfl
      rw [List.length_take] at hi
      have hsome := hm ⟨i, by omega⟩
      rw [h] at hsome
      cases hsome
    · exact h

/-- The memory of a process: nothing is mapped in the upper half of the address space, which belongs to
    the kernel. -/
structure UserMem where
  mem : Mem
  user : ∀ a, mem a ≠ none → a.toNat < 2 ^ 63

/-- An address of a process. -/
abbrev UserVA := { a : VA // a.toNat < 2 ^ 63 }

/-- An `int` that is not negative. -/
abbrev IntSize := Fin (2 ^ 31)

theorem fits (a : UserVA) (size : IntSize) : a.1.toNat + size.1 + 8 < 2 ^ 64 := by
  have ha := a.2
  have hsize := size.2
  omega

/-- What a memory has become is the memory of a process, too. -/
def UserMem.written (u : UserMem) (a : VA) (k : ℕ) (bs : List UInt8) : UserMem where
  mem := (pokeLoop u.mem a k bs).1
  user x hx := u.user x fun h => hx (pokeLoop_unmapped k u.mem a bs h)

/-- A read returns the bytes that are there, and writes as many bytes of the buffer. -/
theorem tracerRead_touched {m : Mem} {a : UserVA} {size : IntSize} (h : Touched m a.1 size.1)
    {fuel : ℕ} (hfuel : size.1 / 8 < fuel) (buf : Buf UInt8) :
    tracerRead m a.1 buf size.1 fuel = some (buf.write 0 (bytes m a.1 size.1)) := by
  have hpeek : peekBytes m a.1 size.1 = some (bytes m a.1 size.1) := if_pos h
  rw [tracerRead_eq (fits a size) hfuel, hpeek, Option.map_some]

/-- The bytes of a range whose words are mapped. -/
theorem bytes_touched {m : Mem} {a : VA} {size : ℕ} (h : Touched m a size) {i : ℕ} (hi : i < size) :
    m (off a i) = (bytes m a size)[i]? := by
  have hword : i / 8 < words size := by
    unfold words
    omega
  have hsome := h (i / 8) hword ⟨i % 8, Nat.mod_lt _ (by decide)⟩
  rw [off_off] at hsome
  dsimp only at hsome
  rw [Nat.div_add_mod] at hsome
  obtain ⟨v, hv⟩ := Option.isSome_iff_exists.mp hsome
  rw [List.getElem?_eq_getElem (by rw [length_bytes]; exact hi)]
  simp only [bytes, List.getElem_map, List.getElem_range, hv, Option.getD_some]

/-- A write of a buffer changes the bytes of its range and no others. -/
structure Wrote (u u' : UserMem) (addr : UserVA) (size : IntSize) (buf : Buf UInt8) : Prop where
  returns : ∀ fuel > size.1 / 8, tracerWrite u.mem addr.1 buf size.1 fuel = (u'.mem, true)
  inside : ∀ i < size.1, u'.mem (off addr.1 i) = some (buf i)
  outside : ∀ x, (∀ i < size.1, x ≠ off addr.1 i) → u'.mem x = u.mem x

/-- A read of any range returns the bytes of the target, and writes as many bytes of the buffer. -/
def Reads (u : UserMem) : Prop :=
  ∀ (addr : UserVA) (size : IntSize) (buf : Buf UInt8), Touched u.mem addr.1 size.1 →
    ∃ bs : List UInt8, bs.length = size.1 ∧ (∀ i < size.1, u.mem (off addr.1 i) = bs[i]?) ∧
      ∀ fuel > size.1 / 8, tracerRead u.mem addr.1 buf size.1 fuel = some (buf.write 0 bs)

theorem reads (u : UserMem) : Reads u := fun _ size buf h =>
  ⟨_, length_bytes _ _ size.1, fun _ hi => bytes_touched h hi, fun _ hfuel => tracerRead_touched h hfuel buf⟩

/-- **The frame law.**  Where the words are mapped, a write changes exactly its range to the contents of
    the buffer; reads return what is there; and what was written is read back. -/
theorem tracer_frame (u : UserMem) (addr : UserVA) (size : IntSize) (buf : Buf UInt8)
    (h : Touched u.mem addr.1 size.1) :
    ∃ u' : UserMem, Wrote u u' addr size buf ∧ Reads u' ∧ ∀ (dst : Buf UInt8), ∀ fuel > size.1 / 8,
      tracerRead u'.mem addr.1 dst size.1 fuel = some (dst.write 0 (buf.read 0 size.1)) := by
  have hlen : (buf.read 0 size.1).length = size.1 := Buf.length_read _ _ _
  have hget : ∀ (i : ℕ) (hi : i < (buf.read 0 size.1).length), (buf.read 0 size.1)[i] = buf i := by
    intro i hi
    simp only [Buf.read, List.getElem_map, List.getElem_range, Nat.zero_add]
  have hsize := size.2
  have hbytes : ∀ i < size.1,
      (u.written addr.1 (words size.1) (buf.read 0 size.1)).mem (off addr.1 i) = some (buf i) := by
    intro i hi
    have hin := pokeLoop_inside (words size.1) u.mem addr.1 (buf.read 0 size.1)
      (by rw [hlen]; unfold words; omega) (by omega) h i (by rw [hlen]; exact hi)
    rw [hget] at hin
    exact hin
  refine ⟨u.written addr.1 (words size.1) (buf.read 0 size.1), ⟨fun fuel hfuel => ?_, hbytes, fun x hx => ?_⟩,
    reads _, fun dst fuel hfuel => ?_⟩
  · rw [tracerWrite_eq (fits addr size) hfuel]
    exact Prod.ext rfl (pokeLoop_ok (words size.1) u.mem addr.1 (buf.read 0 size.1) h)
  · refine pokeLoop_outside fun i hi => hx i ?_
    rwa [hlen] at hi
  · have hmapped : Touched (u.written addr.1 (words size.1) (buf.read 0 size.1)).mem addr.1 size.1 :=
      fun k hk => pokeLoop_mapped (words size.1) u.mem addr.1 (buf.read 0 size.1) (h k hk)
    rw [tracerRead_touched hmapped hfuel]
    congr 2
    refine List.ext_getElem (by rw [length_bytes, hlen]) fun i hi _ => ?_
    rw [length_bytes] at hi
    rw [hget]
    simp only [bytes, List.getElem_map, List.getElem_range, hbytes i hi, Option.getD_some]

/-- Thirty-two bytes are mapped. -/
def samplePage : UserMem where
  mem a := if 0x1000 ≤ a.toNat ∧ a.toNat < 0x1020 then some 7 else none
  user a h := by
    by_contra hle
    exact h (if_neg (by omega))

/-- Ten bytes at an odd address. -/
theorem tracer_frame_odd : ∃ u' : UserMem, Wrote samplePage u' ⟨0x1003, by decide⟩ 10 (fun i => UInt8.ofNat i) ∧
    Reads u' ∧ ∀ (dst : Buf UInt8), ∀ fuel > 10 / 8,
      tracerRead u'.mem 0x1003 dst 10 fuel = some (dst.write 0 (Buf.read (fun i => UInt8.ofNat i) 0 10)) :=
  tracer_frame samplePage ⟨0x1003, by decide⟩ 10 (fun i => UInt8.ofNat i) (by decide)

/-! ## Strings -/

/-- A string of `len` characters with its terminator. -/
structure StringAt (m : Mem) (a : VA) (len : ℕ) : Prop where
  chars : ∀ i < len, ∃ v, m (off a i) = some v ∧ v ≠ 0
  nul : m (off a len) = some 0

theorem StringAt.next {m : Mem} {a : VA} {len : ℕ} (h : StringAt m a (8 + len)) :
    StringAt m (off a 8) len where
  chars i hi := by
    rw [off_off]
    exact h.chars (8 + i) (by omega)
  nul := by
    rw [off_off]
    exact h.nul

/-- A word in front of the terminator is mapped and has no zero byte. -/
theorem StringAt.word {m : Mem} {a : VA} {len : ℕ} (h : StringAt m a (8 + len)) :
    ∃ r, peek m a = some r ∧ hasZero r = false := by
  have hm : Mapped m a := by
    intro i
    obtain ⟨v, hv, -⟩ := h.chars i (by omega)
    rw [hv]
    rfl
  refine ⟨_, if_pos hm, Bool.eq_false_iff.mpr (mt hasZero_iff.mp ?_)⟩
  rintro ⟨i, hi⟩
  obtain ⟨v, hv, hne⟩ := h.chars i (by omega)
  rw [hv] at hi
  exact hne hi

/-- The word with the terminator has a zero byte. -/
theorem StringAt.last {m : Mem} {a : VA} {len : ℕ} (h : StringAt m a len) (hlen : len < 8) {r : Word}
    (hr : peek m a = some r) : hasZero r = true := by
  obtain ⟨-, hbytes⟩ := peek_eq_some hr
  have hnul := (hbytes ⟨len, hlen⟩).symm.trans h.nul
  exact hasZero_iff.mpr ⟨⟨len, hlen⟩, Option.some.inj hnul⟩

/-- **The loop over a string**: it fetches words until it has the one with the terminator. -/
theorem peekUntil_string : ∀ (k : ℕ) (a : VA) (len : ℕ), StringAt m a len →
    peekUntil hasZero m k a = if 8 * k ≤ len then some (bytes m a (8 * k), false)
      else if Mapped m (off a (8 * (len / 8))) then some (bytes m a (8 * (len / 8) + 8), true)
      else none := by
  intro k
  induction k with
  | zero => exact fun a len _ => (if_pos (Nat.zero_le _)).symm
  | succ k ih =>
    intro a len h
    rw [peekUntil]
    by_cases hlen : len < 8
    · rw [if_neg (by omega), Nat.div_eq_of_lt hlen, Nat.mul_zero, off_zero]
      cases hr : peek m a with
      | none => exact (if_neg (not_mapped_of_peek hr)).symm
      | some r =>
        simp only [Option.bind_eq_bind, Option.bind_some]
        rw [if_pos (h.last hlen hr), if_pos (peek_eq_some hr).1, ofFn_peek hr]
    · obtain ⟨len, rfl⟩ := Nat.exists_eq_add_of_le (Nat.le_of_not_lt hlen)
      obtain ⟨r, hr, hz⟩ := h.word
      rw [hr]
      simp only [Option.bind_eq_bind, Option.bind_some]
      rw [if_neg (by rw [hz]; decide), ih _ _ h.next, ofFn_peek hr]
      have hdiv : (8 + len) / 8 = len / 8 + 1 := by omega
      by_cases hk : 8 * k ≤ len
      · rw [if_pos hk, if_pos (by omega), Option.map_some, ← bytes_add]
        congr 3
        omega
      · rw [if_neg hk, if_neg (show ¬8 * (k + 1) ≤ 8 + len by omega), hdiv, off_off,
          show 8 + 8 * (len / 8) = 8 * (len / 8 + 1) by omega]
        split
        · rw [Option.map_some, ← bytes_add]
          congr 3
          omega
        · rfl

/-- A string that is shorter than the buffer is fetched with its terminator, if the word with the
    terminator is mapped. -/
theorem fetch_short {a : VA} {len size : ℕ} (h : StringAt m a len) (hlt : len < size) :
    fetch hasZero m a size = if Mapped m (off a (8 * (len / 8))) then
      some (bytes m a (min size (8 * (len / 8) + 8))) else none := by
  rw [fetch, peekUntil_string _ _ _ h]
  by_cases hk : 8 * (size / 8) ≤ len
  · have hq : len / 8 = size / 8 := by omega
    rw [if_pos hk, hq]
    simp only [Option.bind_eq_bind, Option.bind_some]
    rw [if_pos ⟨by omega, trivial⟩, peek_take m _ (by omega), ← bytes_add]
    congr 3
    omega
  · rw [if_neg hk]
    split
    · simp only [Option.bind_eq_bind, Option.bind_some]
      rw [if_neg (fun hne => (by cases hne.2)), Nat.min_eq_right (by omega)]
    · rfl

/-- A string that is as long as the buffer fills it, if anything is fetched. -/
theorem fetch_long {a : VA} {len size : ℕ} (h : StringAt m a len) (hle : size ≤ len) :
    fetch hasZero m a size = none ∨ fetch hasZero m a size = some (bytes m a size) := by
  rw [fetch, peekUntil_string _ _ _ h, if_pos (by omega)]
  simp only [Option.bind_eq_bind, Option.bind_some]
  by_cases hmod : size % 8 = 0
  · rw [if_neg (fun hne => hne.1 hmod), show 8 * (size / 8) = size by omega]
    exact Or.inr rfl
  · rw [if_pos ⟨hmod, trivial⟩, peek_take m _ (by omega), ← bytes_add, Nat.div_add_mod]
    split
    · exact Or.inr rfl
    · exact Or.inl rfl

/-- What a caller of `tracer_read_string` relies on: it succeeds, writes nothing behind its buffer, and
    leaves a C string in it, as much of the one in the target as fits. -/
def ReadsString (m : Mem) (addr : UserVA) (size : IntSize) (len : ℕ) : Prop :=
  ∀ (buf : Buf UInt8), ∀ fuel > size.1 / 8, ∃ buf',
    tracerReadString m addr.1 buf size.1 fuel = some buf' ∧ (∀ i ≥ size.1, buf' i = buf i) ∧
      (∀ i < min len (size.1 - 1), m (off addr.1 i) = some (buf' i)) ∧ buf' (min len (size.1 - 1)) = 0

theorem write_bytes {m : Mem} {a : VA} {n i : ℕ} (hi : i < n) (buf : Buf UInt8) :
    buf.write 0 (bytes m a n) i = (m (off a i)).getD 0 := by
  have h := @Buf.write_inside _ buf 0 (bytes m a n) i (by rw [length_bytes]; exact hi)
  rw [Nat.zero_add] at h
  rw [h]
  simp only [bytes, List.getElem_map, List.getElem_range]

/-- **Which strings are read**: those that are shorter than the buffer and whose last word is mapped. -/
theorem tracerReadString_iff {m : Mem} {addr : UserVA} {size : IntSize} {len : ℕ}
    (h : StringAt m addr.1 len) (hsize : 1 ≤ size.1) :
    ReadsString m addr size len ↔ len < size.1 ∧ Mapped m (off addr.1 (8 * (len / 8))) := by
  have hrun : ∀ (buf : Buf UInt8), ∀ fuel > size.1 / 8, tracerReadString m addr.1 buf size.1 fuel =
      (fetch hasZero m addr.1 size.1).map (buf.write 0) :=
    fun buf fuel hfuel => readUpTo_eq (fits addr size) hfuel buf
  constructor
  · intro hreads
    obtain ⟨buf', hbuf', -, -, hnul⟩ := hreads (fun _ => 0) (size.1 / 8 + 1) (Nat.lt_succ_self _)
    rw [hrun _ _ (Nat.lt_succ_self _)] at hbuf'
    by_cases hlt : len < size.1
    · refine ⟨hlt, ?_⟩
      by_contra hno
      rw [fetch_short h hlt, if_neg hno] at hbuf'
      cases hbuf'
    · -- the last character of the buffer is one of the string
      have hle := Nat.le_of_not_lt hlt
      rcases fetch_long h hle with hnone | hsome
      · rw [hnone] at hbuf'
        cases hbuf'
      · rw [hsome, Option.map_some] at hbuf'
        obtain rfl := Option.some.inj hbuf'
        obtain ⟨v, hv, hne⟩ := h.chars (size.1 - 1) (by omega)
        rw [Nat.min_eq_right (by omega), write_bytes (by omega), hv] at hnul
        exact absurd hnul hne
  · rintro ⟨hlt, hm⟩ buf fuel hfuel
    have hmin : min len (size.1 - 1) = len := Nat.min_eq_left (by omega)
    have hin : ∀ i ≤ len, i < min size.1 (8 * (len / 8) + 8) := by
      intro i hi
      omega
    refine ⟨_, by rw [hrun buf fuel hfuel, fetch_short h hlt, if_pos hm, Option.map_some], ?_, ?_, ?_⟩
    · intro i hi
      refine Buf.write_outside (Or.inr ?_)
      rw [length_bytes]
      omega
    · intro i hi
      rw [hmin] at hi
      obtain ⟨v, hv, -⟩ := h.chars i hi
      rw [write_bytes (hin i hi.le), hv]
      rfl
    · rw [hmin, write_bytes (hin len le_rfl), h.nul]
      rfl

/-- The string `ABCDEFGH`, with its terminator at the end of what is mapped. -/
def sampleString : Mem := fun a =>
  if a.toNat < 0x1000 then none
  else if a.toNat < 0x1008 then some (UInt8.ofNat (65 + (a.toNat - 0x1000)))
  else if a.toNat < 0x1010 then some 0 else none

theorem sampleString_stringAt (k : ℕ) (hk : k ≤ 8) : StringAt sampleString (off 0x1000 k) (8 - k) := by
  have hall : ∀ k ≤ 8, (∀ i < 8 - k, (sampleString (off (off 0x1000 k) i)).any (· ≠ 0)) ∧
      sampleString (off (off 0x1000 k) (8 - k)) = some 0 := by decide +kernel
  obtain ⟨hchars, hnul⟩ := hall k hk
  refine ⟨fun i hi => ?_, hnul⟩
  obtain ⟨v, hv, hne⟩ := (Option.any_eq_true _ _).mp (hchars i hi)
  exact ⟨v, hv, of_decide_eq_true hne⟩

/-- The eight characters and a buffer of nine. -/
theorem tracerReadString_nine : ReadsString sampleString ⟨0x1000, by decide⟩ 9 8 :=
  (@tracerReadString_iff sampleString ⟨0x1000, by decide⟩ 9 8 (sampleString_stringAt 0 (by decide))
    (by decide)).mpr ⟨by decide, by decide +kernel⟩

/-- The eight characters and a buffer of eight: the last byte of the buffer is a character. -/
theorem tracerReadString_counterexample : StringAt sampleString 0x1000 8 ∧
    ¬ReadsString sampleString ⟨0x1000, by decide⟩ 8 8 := by
  refine ⟨sampleString_stringAt 0 (by decide), fun hreads => ?_⟩
  obtain ⟨buf', hbuf', -, -, hnul⟩ := hreads (fun _ => 0) 2 (by decide)
  have hlast : (tracerReadString sampleString 0x1000 (fun _ => 0) 8 2).map (fun buf => buf 7) =
      some 72 := by
    rw [tracerReadString_eq (by decide) (by decide) rfl]
    decide +kernel
  have hrun : tracerReadString sampleString 0x1000 (fun _ => 0) 8 2 = some buf' := hbuf'
  rw [hrun, Option.map_some] at hlast
  have h7 : buf' 7 = 0 := hnul
  rw [h7] at hlast
  exact absurd hlast (by decide)

end LaunchMON.Engine.Ptracer
