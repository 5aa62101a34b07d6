/-
  Fetching memory on Blue Gene/Q: `fetch_mem_all`.

  1. **The program.**  For each rank it asks for as many units of 4096 bytes as there are in `numbytes`,
     and then for the remainder.  The length of the remainder is computed and not used: the last request
     is for a whole unit, too.  At the end the time is divided by the number of requests.

  2. **Tilings.**  A list of pieces tiles a range if they are consecutive and together as long as the
     range.  Pieces that are all of one length do so exactly if their lengths add up to that of the range
     (`tiles_units`), and no tiling by such pieces covers a range whose length is no multiple of theirs
     (`Tiles.dvd`).

  3. **The conversation** has no failures, because no acknowledgement is checked, so its requests are
     known beforehand (`fetchTalk_ok`).  The code follows it where all payloads fit: where one is longer
     than the buffer it reads behind the end of it, and where one is empty it gives up.

  4. **The result.**  The fetch covers the range exactly under `Fetchable` (`fetch_covers_iff`).
-/
import LaunchMON.Backend.BgqThreads

namespace LaunchMON.Backend.Bgq

open CBytes Effect

/-! ## The program -/

/-- `*fetchunit`. -/
def fetchunit : UInt32 := 4096

section Loops

variable {σ : Type}

/-- The loop over the units, from the address `trav` on; it leaves behind the next address. -/
def fetchLoop (fetch : UInt64 → EStateM Stop σ Unit) : ℕ → UInt64 → EStateM Stop σ UInt64
  | 0, trav => pure trav
  | n + 1, trav => do
    fetch trav
    fetchLoop fetch n (trav + fetchunit.toUInt64)

/-- What is done for a rank. -/
def fetchRank (fetch : Int32 → Int32 → UInt64 → EStateM Stop σ Unit) (membase : UInt64)
    (numbytes : UInt32) (cn i : Int32) : EStateM Stop σ Unit := do
  let nIter := numbytes / fetchunit
  let trav ← fetchLoop (fetch cn i) nIter.toNat membase
  -- here the source computes `len`, and then asks for `*fetchunit` bytes
  whenever (decide (nIter * fetchunit < numbytes)) (fetch cn i trav)

end Loops

section Code

variable {t : Toolctl} (srv : Cdti t) (tool : Tool)

/-- The two reads of an acknowledgement.  The length of the second is not compared with the size of
    `memAckBuffer`. -/
def readMemory (t : Toolctl) (cn : Int32) : Prog (List UInt8) := do
  let ackMsg ← readRaw cn t.queryAckSize
  let length := t.announced ackMsg
  whenever (decide (t.maxMemorySize < length)) (throw .overrun)
  let memAckBuffer ← readRaw cn length
  pure (ackMsg ++ memAckBuffer)

/-- One iteration, with the request of `create_FetchMemoryMessage`. -/
def fetchUnit (cn i : Int32) (trav : UInt64) : Prog Unit := do
  let _ ← exchange srv tool cn i (.getMemory trav fetchunit.toInt32) (readMemory t cn)
  modify fun s => { s with totalIter := s.totalIter + 1 }

/-- The loops of `fetch_mem_all`. -/
def fetchLoops (membase : UInt64) (numbytes : UInt32) (cn2Ranks : CN2Ranks) : Prog Unit :=
  forRanks cn2Ranks (fetchRank (fetchUnit srv tool) membase numbytes)

/-- `fetch_mem_all`, with the microseconds that the clock has counted; it returns `*fetchunit` and
    `*usecperunit`. -/
def fetchMemAll (usec : UInt32) (membase : UInt64) (numbytes : UInt32) (cn2Ranks : CN2Ranks) :
    Prog (UInt32 × UInt32) := do
  modify fun s => { s with totalIter := 0 }
  fetchLoops srv tool membase numbytes cn2Ranks
  let s ← get
  whenever (decide (s.totalIter = 0)) (throw .zeroDivide)
  pure (fetchunit, usec / s.totalIter)

end Code

/-! ## Tilings -/

/-- The pieces, each an address and a length, are consecutive from `base` on and cover `n` bytes. -/
def Tiles (base : UInt64) (n : ℕ) : List (UInt64 × Int32) → Prop
  | [] => n = 0
  | (addr, len) :: ps => addr = base ∧ 0 < len.toInt ∧ len.toInt.toNat ≤ n ∧
      Tiles (base + UInt64.ofNat len.toInt.toNat) (n - len.toInt.toNat) ps

/-- `m` units from the address `base` on. -/
def units : ℕ → UInt64 → List (UInt64 × Int32)
  | 0, _ => []
  | m + 1, base => (base, fetchunit.toInt32) :: units m (base + fetchunit.toUInt64)

theorem length_units : ∀ (m : ℕ) (base : UInt64), (units m base).length = m
  | 0, _ => rfl
  | m + 1, base => congrArg (· + 1) (length_units m (base + fetchunit.toUInt64))

theorem tiles_units : ∀ (m n : ℕ) (base : UInt64), n = 4096 * m → Tiles base n (units m base)
  | 0, _, _ => fun h => h
  | m + 1, n, base => by
    intro h
    refine ⟨rfl, by decide, ?_, tiles_units m (n - 4096) (base + fetchunit.toUInt64) (by omega)⟩
    show 4096 ≤ n
    omega

/-- A range that is tiled by units is a multiple of one. -/
theorem Tiles.dvd : ∀ {ps : List (UInt64 × Int32)} {base : UInt64} {n : ℕ}, Tiles base n ps →
    (∀ q ∈ ps, q.2 = fetchunit.toInt32) → 4096 ∣ n := by
  intro ps
  induction ps with
  | nil =>
    intro base n h _
    rw [show n = 0 from h]
    exact Nat.dvd_zero _
  | cons q ps ih =>
    rintro base n ⟨-, -, hle, hrest⟩ hall
    obtain ⟨hq, hps⟩ := List.forall_mem_cons.mp hall
    rw [hq] at hle hrest
    have hdvd : 4096 ∣ n - 4096 := ih hrest hps
    have hn : 4096 ≤ n := hle
    omega

/-! ## The conversation -/

section Talk

variable {t : Toolctl} (srv : Cdti t) (tool : Tool) (seq0 : UInt32)

/-- The exchange of one iteration. -/
def sayUnit (cn i : Int32) (trav : UInt64) : EStateM Stop (List Exchange) Unit := do
  let _ ← converse srv tool seq0 (.getMemory trav fetchunit.toInt32) cn i
  pure ()

/-- The conversation that `fetch_mem_all` should have, if its last request were right. -/
def fetchTalk (membase : UInt64) (numbytes : UInt32) (cn2Ranks : CN2Ranks) :
    EStateM Stop (List Exchange) Unit :=
  forRanks cn2Ranks (fetchRank (sayUnit srv tool seq0) membase numbytes)

/-- What is asked for a piece of the memory of a rank. -/
def askFor (p : Int32 × Int32) (q : UInt64 × Int32) : Int32 × UInt32 × Body :=
  (p.1, p.2.toUInt32, .getMemory q.1 q.2)

/-- Every request is for a unit. -/
def AllUnits (talk : List Exchange) : Prop :=
  ∀ e ∈ talk, ∃ addr, e.request.body = .getMemory addr fetchunit.toInt32

instance sayUnit_keeps (cn i : Int32) (trav : UInt64) :
    Within (Keeps AllUnits) (sayUnit srv tool seq0 cn i trav) where
  out talk h := by
    unfold sayUnit
    rw [final_bind_pure, final_converse]
    refine List.forall_mem_append.mpr ⟨h, List.forall_mem_singleton.mpr ⟨trav, rfl⟩⟩

instance within_fetchLoop {σ : Type} {R : σ → σ → Prop} [IsPreorder σ R]
    (fetch : UInt64 → EStateM Stop σ Unit) [hfetch : ∀ trav, Within R (fetch trav)] :
    ∀ (n : ℕ) (trav : UInt64), Within R (fetchLoop fetch n trav)
  | 0, trav => inferInstanceAs (Within R (pure trav))
  | n + 1, trav =>
    have : Within R (fetchLoop fetch n (trav + fetchunit.toUInt64)) := within_fetchLoop fetch n _
    inferInstanceAs (Within R (fetch trav >>= fun _ => fetchLoop fetch n (trav + fetchunit.toUInt64)))

theorem fetchTalk_units (membase : UInt64) (numbytes : UInt32) (cn2Ranks : CN2Ranks) :
    AllUnits (final (fetchTalk srv tool seq0 membase numbytes cn2Ranks) []) := by
  have hwithin : Within (Keeps AllUnits) (fetchTalk srv tool seq0 membase numbytes cn2Ranks) := by
    unfold fetchTalk forRanks fetchRank
    infer_instance
  exact hwithin.out [] fun e he => absurd he List.not_mem_nil

theorem sayUnit_ok (p : Int32 × Int32) (trav : UInt64) (talk : List Exchange) :
    ∃ e, sayUnit srv tool seq0 p.1 p.2 trav talk = .ok () (talk ++ [e]) ∧
      e.about = askFor p (trav, fetchunit.toInt32) :=
  ⟨_, rfl, rfl⟩

theorem fetchLoop_ok (p : Int32 × Int32) : ∀ (n : ℕ) (trav : UInt64) (talk : List Exchange),
    ∃ trav' new, fetchLoop (sayUnit srv tool seq0 p.1 p.2) n trav talk = .ok trav' (talk ++ new) ∧
      new.map Exchange.about = (units n trav).map (askFor p) := by
  intro n
  induction n with
  | zero =>
    intro trav talk
    exact ⟨trav, [], by rw [List.append_nil]; rfl, rfl⟩
  | succ n ih =>
    intro trav talk
    obtain ⟨e, hsay, he⟩ := sayUnit_ok srv tool seq0 p trav talk
    obtain ⟨trav', new, hloop, hmap⟩ := ih (trav + fetchunit.toUInt64) (talk ++ [e])
    refine ⟨trav', e :: new, ?_, ?_⟩
    · show (sayUnit srv tool seq0 p.1 p.2 trav >>= fun _ => _) talk = _
      rw [ok_bind hsay, hloop, List.append_assoc]
      rfl
    · rw [List.map_cons, he, hmap]
      rfl

/-- There is a remainder exactly if `numbytes` is no multiple of a unit. -/
theorem remainder_iff (numbytes : UInt32) :
    numbytes / fetchunit * fetchunit < numbytes ↔ ¬4096 ∣ numbytes.toNat := by
  have hlt := numbytes.toNat_lt
  rw [UInt32.lt_iff_toNat_lt, UInt32.toNat_mul, UInt32.toNat_div, show fetchunit.toNat = 4096 from rfl]
  omega

/-- **The requests for a range that is a multiple of a unit** are the units, rank after rank. -/
theorem fetchTalk_ok (membase : UInt64) {numbytes : UInt32} (hdvd : 4096 ∣ numbytes.toNat)
    (cn2Ranks : CN2Ranks) :
    ∃ talk, fetchTalk srv tool seq0 membase numbytes cn2Ranks [] = .ok () talk ∧
      talk.map Exchange.about =
        cn2Ranks.ranks.flatMap fun p => (units (numbytes.toNat / 4096) membase).map (askFor p) := by
  have hrank : ∀ (p : Int32 × Int32) (talk : List Exchange), ∃ new,
      fetchRank (sayUnit srv tool seq0) membase numbytes p.1 p.2 talk = .ok () (talk ++ new) ∧
        new.map Exchange.about = (units (numbytes.toNat / 4096) membase).map (askFor p) := by
    intro p talk
    have hunits : (numbytes / fetchunit).toNat = numbytes.toNat / 4096 := by
      rw [UInt32.toNat_div]
      rfl
    obtain ⟨trav, new, hloop, hmap⟩ :=
      fetchLoop_ok srv tool seq0 p (numbytes / fetchunit).toNat membase talk
    refine ⟨new, ?_, by rw [hmap, hunits]⟩
    -- a whole number of units leaves no remainder to ask for
    have hnone : decide (numbytes / fetchunit * fetchunit < numbytes) = false := by
      rw [decide_eq_false_iff_not, remainder_iff]
      exact not_not_intro hdvd
    unfold fetchRank
    rw [hnone]
    exact ok_bind hloop
  -- the ranks one after the other, each with all its units
  have hranks : ∀ (ps : List (Int32 × Int32)) (talk : List Exchange), ∃ new,
      each ps (fun p => fetchRank (sayUnit srv tool seq0) membase numbytes p.1 p.2) talk =
        .ok () (talk ++ new) ∧
      new.map Exchange.about =
        ps.flatMap fun p => (units (numbytes.toNat / 4096) membase).map (askFor p) := by
    intro ps
    induction ps with
    | nil =>
      intro talk
      exact ⟨[], by rw [List.append_nil]; rfl, rfl⟩
    | cons p ps ih =>
      intro talk
      obtain ⟨mine, hmine, hmap⟩ := hrank p talk
      obtain ⟨rest, hrest, hmap'⟩ := ih (talk ++ mine)
      refine ⟨mine ++ rest, ?_, ?_⟩
      · rw [← List.append_assoc, ← hrest]
        exact ok_bind hmine
      · rw [List.map_append, hmap, hmap', List.flatMap_cons]
  obtain ⟨talk, htalk, hmap⟩ := hranks cn2Ranks.ranks []
  refine ⟨talk, ?_, hmap⟩
  unfold fetchTalk
  rw [forRanks_eq, htalk]
  rfl

end Talk

/-! ## The code follows -/

/-- The payload is one that can be read, and fits into `memAckBuffer`. -/
def FitsBuffer (t : Toolctl) (_ : Body) (ack : List UInt8) : Prop :=
  0 < t.announced ack ∧ t.announced ack ≤ t.maxMemorySize

/-- The state of the code is that of the conversation, and `totalIter` counts its exchanges. -/
structure Counted (seq0 : UInt32) (s : St) (talk : List Exchange) : Prop extends Ready seq0 s talk where
  total : s.totalIter = UInt32.ofNat talk.length

section Follows

variable {t : Toolctl} (srv : Cdti t) (tool : Tool) (seq0 : UInt32)

theorem reads_memory (cn : Int32) (addr : UInt64) (len : Int32) :
    Reads t cn (.getMemory addr len) (FitsBuffer t (.getMemory addr len)) (readMemory t cn) :=
  reads_announced cn t.maxMemorySize .overrun fun _ h => h

instance readRaw_keeps (n : UInt32) (cn : Int32) (count : ℕ) :
    Within (Keeps fun s => s.totalIter = n) (readRaw cn count) where
  out s h := by
    unfold final readRaw
    split
    · rename_i hrun
      split at hrun
      · cases hrun
      · split at hrun
        · cases hrun
        · cases hrun
          exact h
    · rename_i hrun
      split at hrun
      · cases hrun
        exact h
      · split at hrun
        · cases hrun
          exact h
        · cases hrun

set_option synthInstance.maxSize 512 in
/-- An exchange leaves the counter alone. -/
instance exchange_keeps (n : UInt32) (cn i : Int32) (body : Body) :
    Within (Keeps fun s => s.totalIter = n) (exchange srv tool cn i body (readMemory t cn)) := by
  have hmodify : ∀ f : St → St, (∀ s, (f s).totalIter = s.totalIter) →
      Within (Keeps fun s => s.totalIter = n) (modify f : Prog Unit) :=
    fun f hf => within_modify fun s h => (hf s).trans h
  have hwrite : ∀ r, Within (Keeps fun s => s.totalIter = n) (writeRaw srv cn r) :=
    fun r => hmodify _ fun _ => rfl
  have hseen : ∀ r got, Within (Keeps fun s => s.totalIter = n)
      (modify fun s => { s with seen := s.seen ++ [⟨cn, r, got⟩] } : Prog Unit) :=
    fun r got => hmodify _ fun _ => rfl
  have hnext : Within (Keeps fun s => s.totalIter = n)
      (modify fun s => { s with sequenceId := s.sequenceId + 1 } : Prog Unit) := hmodify _ fun _ => rfl
  unfold exchange readMemory
  dsimp only
  infer_instance

theorem fetchUnit_follows (cn i : Int32) (trav : UInt64) :
    Follows (Counted seq0) InStep (AllWhole (FitsBuffer t)) Behind (fetchUnit srv tool cn i trav)
      (sayUnit srv tool seq0 cn i trav) := by
  have hask := exchange_follows srv tool seq0 cn i (reads_memory cn trav fetchunit.toInt32)
  have hend : ∀ talk, final (sayUnit srv tool seq0 cn i trav) talk =
      final (converse srv tool seq0 (.getMemory trav fetchunit.toInt32) cn i) talk :=
    fun talk => final_bind_pure _ _ _
  constructor
  case bad =>
    intro talk hbad
    rw [hend]
    exact hask.bad talk hbad
  case good =>
    intro s talk hs hgood
    rw [hend] at hgood
    have hm := hask.good s talk hs.toReady hgood
    have hsaid : converse srv tool seq0 (.getMemory trav fetchunit.toInt32) cn i talk =
        .ok _ (talk ++ [reply srv tool seq0 (.getMemory trav fetchunit.toInt32) cn i talk.length]) := rfl
    rw [hsaid] at hm
    obtain ⟨s', hs', hready⟩ := hm.of_ok
    -- the exchange leaves the counter alone, and the loop's own line adds one
    have htotal := (exchange_keeps srv tool s.totalIter cn i _).of_ok hs' rfl
    unfold fetchUnit
    rw [ok_bind hs']
    refine ⟨rfl, ⟨⟨⟨hready.unread, hready.sent, hready.seen⟩, hready.next⟩, ?_⟩⟩
    show s'.totalIter + 1 = _
    rw [htotal, hs.total, List.length_append, UInt32.ofNat_add]
    rfl
  case stuck =>
    intro s talk hs hgood hbad
    rw [hend] at hbad
    obtain ⟨e, s', hs', hbehind⟩ := hask.stuck s talk hs.toReady hgood hbad
    exact ⟨e, s', error_bind hs', hbehind⟩

theorem fetchLoop_follows {σ τ : Type} {R E : σ → τ → Prop} {Good : τ → Prop} {Stuck : σ → Prop}
    {f : UInt64 → EStateM Stop σ Unit} {g : UInt64 → EStateM Stop τ Unit}
    (h : ∀ trav, Follows R E Good Stuck (f trav) (g trav)) :
    ∀ (n : ℕ) (trav : UInt64), Follows R E Good Stuck (fetchLoop f n trav) (fetchLoop g n trav)
  | 0, trav => Follows.pure trav
  | n + 1, trav => (h trav).bind fun _ => fetchLoop_follows h n _

/-- The loops of `fetch_mem_all` follow the conversation as long as the payloads fit. -/
theorem fetchLoops_follows (membase : UInt64) (numbytes : UInt32) (cn2Ranks : CN2Ranks) :
    Follows (Counted seq0) InStep (AllWhole (FitsBuffer t)) Behind
      (fetchLoops srv tool membase numbytes cn2Ranks)
      (fetchTalk srv tool seq0 membase numbytes cn2Ranks) := by
  refine forRanks_follows cn2Ranks fun cn i => ?_
  refine (fetchLoop_follows (fun trav => fetchUnit_follows srv tool seq0 cn i trav) _ _).bind
    fun trav => ?_
  unfold whenever
  split
  · exact fetchUnit_follows srv tool seq0 cn i trav
  · exact Follows.pure ()

end Follows

/-! ## The result -/

/-- The requests are, rank after rank, for pieces that tile the range. -/
def Covered (membase : UInt64) (numbytes : ℕ) :
    List (Int32 × Int32) → List (Int32 × UInt32 × Body) → Prop
  | [], asked => asked = []
  | p :: ps, asked => ∃ pieces rest, asked = pieces.map (askFor p) ++ rest ∧
      Tiles membase numbytes pieces ∧ Covered membase numbytes ps rest

/-- The fetch covers the range: it returns LMON_OK, the requests that have been answered tile the range
    for each rank, and no payload was longer than `memAckBuffer`. -/
def FetchCovers {t : Toolctl} (srv : Cdti t) (tool : Tool) (seq0 usec : UInt32) (membase : UInt64)
    (numbytes : UInt32) (cn2Ranks : CN2Ranks) : Prop :=
  ∃ r s, fetchMemAll srv tool usec membase numbytes cn2Ranks (St.start seq0) = .ok r s ∧
    Covered membase numbytes.toNat cn2Ranks.ranks (s.seen.map Exchange.about) ∧
    ∀ e ∈ s.seen, t.announced e.got ≤ t.maxMemorySize

/-- When the fetch covers the range: `numbytes` is a multiple of a unit, the number of the requests is
    not 0, nor another multiple of 2^32, and all payloads fit. -/
structure Fetchable {t : Toolctl} (srv : Cdti t) (tool : Tool) (seq0 : UInt32) (membase : UInt64)
    (numbytes : UInt32) (cn2Ranks : CN2Ranks) : Prop where
  whole : 4096 ∣ numbytes.toNat
  count : ¬2 ^ 32 ∣ cn2Ranks.ranks.length * (numbytes.toNat / 4096)
  payloads : AllWhole (FitsBuffer t) (final (fetchTalk srv tool seq0 membase numbytes cn2Ranks) [])

/-- A function that has returned has done its loops and has counted something. -/
theorem fetchMemAll_ok {t : Toolctl} (srv : Cdti t) (tool : Tool) (seq0 usec : UInt32)
    (membase : UInt64) (numbytes : UInt32) (cn2Ranks : CN2Ranks) (s : St) :
    (∃ r, fetchMemAll srv tool usec membase numbytes cn2Ranks (St.start seq0) = .ok r s) ↔
      fetchLoops srv tool membase numbytes cn2Ranks (St.start seq0) = .ok () s ∧ s.totalIter ≠ 0 := by
  constructor
  · rintro ⟨r, h⟩
    obtain ⟨_, s₁, hstart, h⟩ := bind_eq_ok h
    cases hstart
    obtain ⟨_, s₂, hloops, h⟩ := bind_eq_ok h
    obtain ⟨_, s₃, hget, h⟩ := bind_eq_ok h
    cases hget
    obtain ⟨_, s₄, hcheck, h⟩ := bind_eq_ok h
    obtain ⟨hne, rfl⟩ := check_eq_ok.mp hcheck
    cases h
    exact ⟨hloops, of_decide_eq_false hne⟩
  · rintro ⟨hloops, hne⟩
    refine ⟨(fetchunit, usec / s.totalIter), ?_⟩
    have hset : (modify fun s => { s with totalIter := 0 } : Prog Unit) (St.start seq0) =
        .ok () (St.start seq0) := rfl
    have hget : (get : Prog St) s = .ok s s := rfl
    have hcheck : whenever (decide (s.totalIter = 0)) (throw Stop.zeroDivide : Prog Unit) s = .ok () s :=
      check_eq_ok.mpr ⟨decide_eq_false hne, rfl⟩
    unfold fetchMemAll
    rw [ok_bind hset, ok_bind hloops, ok_bind hget, ok_bind hcheck]
    rfl

theorem covered_units (membase : UInt64) {n : ℕ} (hdvd : 4096 ∣ n) : ∀ ps : List (Int32 × Int32),
    Covered membase n ps (ps.flatMap fun p => (units (n / 4096) membase).map (askFor p))
  | [] => rfl
  | _ :: ps => ⟨_, _, List.flatMap_cons, tiles_units _ _ _ (Nat.mul_div_cancel' hdvd).symm,
      covered_units membase hdvd ps⟩

theorem ofNat_eq_zero_iff (n : ℕ) : UInt32.ofNat n = 0 ↔ 2 ^ 32 ∣ n := by
  rw [← UInt32.toNat_inj, UInt32.toNat_ofNat', UInt32.toNat_zero]
  exact (Nat.dvd_iff_mod_eq_zero ..).symm

/-- The number of the requests for a range that is a multiple of a unit. -/
theorem length_talk {membase : UInt64} {n : ℕ} {ps : List (Int32 × Int32)} {talk : List Exchange}
    (h : talk.map Exchange.about = ps.flatMap fun p => (units n membase).map (askFor p)) :
    talk.length = ps.length * n := by
  have hlen := congrArg List.length h
  rw [List.length_map] at hlen
  rw [hlen]
  clear h hlen
  induction ps with
  | nil => exact (Nat.zero_mul n).symm
  | cons p ps ih =>
    rw [List.flatMap_cons, List.length_append, List.length_map, length_units, ih, List.length_cons,
      Nat.succ_mul, Nat.add_comm]

/-- Where units cover the range of some rank, it is a multiple of a unit. -/
theorem dvd_of_covered {membase : UInt64} {n : ℕ} {p : Int32 × Int32} {ps : List (Int32 × Int32)}
    {talk : List Exchange} (hcovered : Covered membase n (p :: ps) (talk.map Exchange.about))
    (hunits : AllUnits talk) : 4096 ∣ n := by
  obtain ⟨pieces, rest, hasked, htiles, -⟩ := hcovered
  refine htiles.dvd ?_
  intro q hq
  have hmem : askFor p q ∈ talk.map Exchange.about := by
    rw [hasked]
    exact List.mem_append_left _ (List.mem_map_of_mem hq)
  obtain ⟨e, he, habout⟩ := List.mem_map.mp hmem
  obtain ⟨addr, hbody⟩ := hunits e he
  have hsame : e.request.body = .getMemory q.1 q.2 := congrArg (fun a => a.2.2) habout
  rw [hbody] at hsame
  exact (Body.getMemory.inj hsame).2.symm

/-- **When the fetch covers the range.** -/
theorem fetch_covers_iff {t : Toolctl} (srv : Cdti t) (tool : Tool) (seq0 usec : UInt32)
    (membase : UInt64) (numbytes : UInt32) (cn2Ranks : CN2Ranks) :
    FetchCovers srv tool seq0 usec membase numbytes cn2Ranks ↔
      Fetchable srv tool seq0 membase numbytes cn2Ranks := by
  have hfollows := fetchLoops_follows srv tool seq0 membase numbytes cn2Ranks
  have hstart : Counted seq0 (St.start seq0) [] :=
    ⟨⟨⟨fun _ => rfl, rfl, rfl⟩, (UInt32.add_zero seq0).symm⟩, rfl⟩
  constructor
  · rintro ⟨r, s, hrun, hcovered, hbound⟩
    obtain ⟨hloops, hne⟩ := (fetchMemAll_ok ..).mp ⟨r, hrun⟩
    have hgood : AllWhole (FitsBuffer t)
        (final (fetchTalk srv tool seq0 membase numbytes cn2Ranks) []) := by
      refine Classical.byContradiction fun hbad => ?_
      obtain ⟨e, s', hstuck, -⟩ :=
        hfollows.stuck _ _ hstart (fun e he => absurd he List.not_mem_nil) hbad
      rw [hloops] at hstuck
      cases hstuck
    have hm := hfollows.good _ _ hstart hgood
    have hunits := fetchTalk_units srv tool seq0 membase numbytes cn2Ranks
    rw [hloops] at hm
    cases htalk : fetchTalk srv tool seq0 membase numbytes cn2Ranks [] with
    | error e talk =>
      rw [htalk] at hm
      exact hm.elim
    | ok u talk =>
      rw [htalk] at hm
      rw [final_ok htalk] at hunits
      obtain ⟨-, hcounted⟩ := hm
      rw [hcounted.total, Ne, ofNat_eq_zero_iff] at hne
      rw [hcounted.seen] at hcovered
      -- with no rank at all nothing is counted, and the final division would trap
      have hdvd : 4096 ∣ numbytes.toNat := by
        cases hps : cn2Ranks.ranks with
        | nil =>
          rw [hps] at hcovered
          have hnil : talk = [] := List.map_eq_nil_iff.mp hcovered
          rw [hnil] at hne
          exact absurd (Nat.dvd_zero _) hne
        | cons p ps =>
          rw [hps] at hcovered
          exact dvd_of_covered hcovered hunits
      obtain ⟨talk', htalk', hmap⟩ := fetchTalk_ok srv tool seq0 membase hdvd cn2Ranks
      rw [htalk] at htalk'
      cases htalk'
      rw [length_talk hmap] at hne
      exact ⟨hdvd, hne, hgood⟩
  · rintro ⟨hdvd, hcount, hgood⟩
    obtain ⟨talk, htalk, hmap⟩ := fetchTalk_ok srv tool seq0 membase hdvd cn2Ranks
    have hm := hfollows.good _ _ hstart hgood
    rw [htalk] at hm
    rw [final_ok htalk] at hgood
    obtain ⟨s, hloops, hcounted⟩ := hm.of_ok
    have hne : s.totalIter ≠ 0 := by
      rw [hcounted.total, Ne, ofNat_eq_zero_iff, length_talk hmap]
      exact hcount
    obtain ⟨r, hrun⟩ := (fetchMemAll_ok srv tool seq0 usec membase numbytes cn2Ranks s).mpr ⟨hloops, hne⟩
    refine ⟨r, s, hrun, ?_, ?_⟩
    · rw [hcounted.seen, hmap]
      exact covered_units membase hdvd _
    · intro e he
      rw [hcounted.seen] at he
      exact (hgood e he).2

/-- A server of the small layout that announces `n` bytes for every request of memory, and sends them. -/
def memoryOf (n : UInt8) : Cdti smallLayout where
  answer k cn r :=
    match r.body with
    | .getMemory _ _ => le32 r.rank ++ le32 r.sequenceId ++ n :: List.replicate n.toNat 0
    | _ => oneThread.answer k cn r
  sized k cn r := by
    have hother := oneThread.sized k cn r
    obtain ⟨tool, rank, sequenceId, body⟩ := r
    cases body with
    | getMemory addr length =>
      show (le32 rank ++ le32 sequenceId ++ n :: List.replicate n.toNat 0).length = 9 + n.toNat
      rw [List.length_append, List.length_cons, List.length_replicate]
      show 8 + (n.toNat + 1) = _
      omega
    | threadList => exact hother
    | control => exact hother
    | hold threadId => exact hother
    | release threadId => exact hother

/-- Three ways to fail.  100 bytes of one rank: a whole unit is asked for.  No rank at all: a division
    by zero.  A unit whose payload is longer than the buffer, which has room for 4 bytes here: it is read
    all the same. -/
theorem fetch_covers_counterexample :
    ¬FetchCovers (memoryOf 1) ⟨1, 0, 0⟩ 0 0 0 100 [(0, [0])] ∧
      ¬FetchCovers (memoryOf 1) ⟨1, 0, 0⟩ 0 0 0 4096 [] ∧
      ¬FetchCovers (memoryOf 5) ⟨1, 0, 0⟩ 0 0 0 4096 [(0, [0])] := by
  refine ⟨?_, ?_, ?_⟩
  · rintro ⟨r, s, hrun, hcovered, -⟩
    have hunits : AllUnits s.seen := by
      cases hrun
      exact List.forall_mem_singleton.mpr ⟨0, rfl⟩
    have hdvd : 4096 ∣ 100 := dvd_of_covered hcovered hunits
    exact absurd hdvd (by decide)
  · rintro ⟨r, s, hrun, -⟩
    cases hrun
  · rintro ⟨r, s, hrun, -⟩
    cases hrun

end LaunchMON.Backend.Bgq
