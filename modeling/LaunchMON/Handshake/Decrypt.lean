/-
  What `decrypt_packet` of `tools/handshake/handshake.c` reads of a packet that `recv_packet` has put into
  a buffer.

  The buffer is the front of the memory from its first byte on, and each read pushes a mark to its end.
  So a run has stayed within a buffer of `n` bytes if the mark is at most `n`, whatever is in the memory
  behind it.

    (1) Without encryption, the packet is copied if its size is the size of the structure.
    (2) With a key, the structure is hashed if the size is enough for it, and the hash is read behind it
        if the size is exactly enough for both.
    (3) With munge the buffer goes to `munge_decode` as it is, and that reads a C string.

  So in (1) and (2) each check stands in front of the reads that need it (`noneDecryptPacket_below`,
  `keyDecryptPacket_below`).  In (3) there is no check, and the run stays within the buffer if and only if
  the peer has sent a NUL (`decryptReads_le_iff`).

  The fields of `handshake_packet_t` are read from their places in its 56 bytes.  The hash of libgcrypt
  and the decoder of libmunge are parameters; of the decoder it matters that it reads up to the first NUL.
-/
import LaunchMON.Handshake.Main
import LaunchMON.Lib.Effect

namespace LaunchMON.Handshake

open Wire CBytes Effect

/-! ## The structure in memory -/

/-- The `n` low bytes of a number, lowest first. -/
def leBytes (n x : ℕ) : List UInt8 := (List.range n).map fun i => UInt8.ofNat (x / 2 ^ (8 * i))

/-- `sizeof(handshake_packet_t)`. -/
def sizeofPacket : ℕ := 56

/-- MAX_ADDR_LEN. -/
def maxAddrLen : ℕ := 14

/-- A `handshake_packet_t` in memory, with four bytes of padding. -/
def Packet.image (p : Packet) : List UInt8 :=
  leBytes 4 p.signature.toNat ++ leBytes 2 p.serverPort.toNat ++ leBytes 2 p.clientPort.toNat ++
    leBytes 4 p.uid.toNat ++ leBytes 4 p.gid.toNat ++ leBytes 8 p.sessionId.toNat ++
    leBytes maxAddrLen p.serverAddr.toNat ++ leBytes maxAddrLen p.clientAddr.toNat ++ leBytes 4 0

theorem length_image (p : Packet) : p.image.length = sizeofPacket := rfl

/-- The fields in the order in which `compare_packets` looks at them: where they are, how long they are,
    and what a difference means.  The addresses are compared byte by byte. -/
def comparedFields : List (ℕ × ℕ × Rc) :=
  [(16, 8, .dropConnection), (0, 4, .abort), (4, 2, .abort), (6, 2, .abort), (8, 4, .abort),
    (12, 4, .abort)] ++
    (List.range maxAddrLen).map (fun i => (24 + i, 1, .abort)) ++
    (List.range maxAddrLen).map (fun i => (38 + i, 1, .abort))

/-! ## Reads -/

/-- A run with the mark behind what it has read, which may return early. -/
abbrev Rd (α : Type) := EStateM Rc ℕ α

/-- What is in `n` bytes of `bs`. -/
def slice (bs : List UInt8) (off n : ℕ) : List UInt8 := (bs.drop off).take n

/-- Read `n` bytes of the memory. -/
def load (mem : List UInt8) (off n : ℕ) : Rd (List UInt8) := do
  modify (max (off + n))
  return slice mem off n

/-- Read a C string from the front of the memory. -/
def loadString (mem : List UInt8) : Rd (List UInt8) := do
  modify (max ((mem.takeWhile (· ≠ 0)).length + 1))
  return mem.takeWhile (· ≠ 0)

/-- One comparison: `read` goes where the received data is. -/
def checkField (expected : List UInt8) (read : ℕ → ℕ → Rd (List UInt8)) (field : ℕ × ℕ × Rc) :
    Rd Unit := do
  let bs ← read field.1 field.2.1
  whenever (bs ≠ slice expected field.1 field.2.1) (throw field.2.2)

/-- `compare_packets`. -/
def comparePackets (expected : List UInt8) (read : ℕ → ℕ → Rd (List UInt8)) : Rd Rc := do
  each comparedFields (checkField expected read)
  return .success

/-! ## The libraries -/

/-- `munge_err_t`. -/
inductive MungeErr
  | success | snafu | badArg | badLength | overflow | noMemory | socket | timeout
  | badCred | badVersion | badCipher | badMac | badZip | badRealm
  | credInvalid | credExpired | credRewound | credReplayed | credUnauthorized
  | other
  deriving DecidableEq, Repr

/-- The `switch` of `munge_decrypt_packet` over the result of `munge_decode`. -/
def MungeErr.rc : MungeErr → Option Rc
  | .success => none
  | .snafu | .badArg | .badLength | .overflow | .noMemory | .socket | .timeout => some .internalError
  | .credExpired => some .again
  | .badCred => some .dropConnection
  | .badVersion | .badCipher | .badMac | .badZip | .badRealm | .credInvalid | .credRewound
  | .credReplayed | .credUnauthorized | .other => some .abort

/-- What `munge_decode` makes of a credential. -/
structure Decoded where
  result : MungeErr
  payload : List UInt8
  uid : UInt32
  gid : UInt32

/-- How the program has been built, and what the libraries do in this run. -/
structure Setting where
  enableNullEncryption : Bool
  munge : Bool
  gcrypt : Bool
  mungeCtxCreate : Bool
  mungeCtxSet : Bool
  mungeDecode : List UInt8 → Decoded
  hmac : List UInt8 → List UInt8 → Option (List UInt8)

/-- `handshake_security_t`, with the key that is used. -/
inductive Mechanism
  | none
  | munge
  | keyInFile (savedKey : List UInt8)
  | explicitKey (key : List UInt8)
  deriving DecidableEq

/-- The `hash_result_size` of `get_hash_of_buffer`. -/
def hashSize : ℕ := 32

/-! ## The functions -/

section

variable (set : Setting) (expected : Packet) (mem : List UInt8) (size : ℕ)

/-- `none_decrypt_packet`. -/
def noneDecryptPacket : Rd Rc := do
  whenever (!set.enableNullEncryption) (throw .internalError)
  whenever (size ≠ sizeofPacket) (throw .dropConnection)
  let recvd ← load mem 0 size
  comparePackets expected.image fun off n => pure (slice recvd off n)

/-- `munge_create_context`: the context, with a cipher and a time to live. -/
def mungeCreateContext : Rd Unit := do
  whenever (!set.mungeCtxCreate) (throw .internalError)
  whenever (!set.mungeCtxSet) (throw .internalError)

/-- `munge_decrypt_packet`, behind the call of `munge_decode`. -/
def mungeCheck (d : Decoded) : Rd Rc := do
  d.result.rc.elim (pure ()) throw
  whenever (d.payload.length ≠ sizeofPacket) (throw .abort)
  whenever (slice d.payload 8 4 ≠ le32 d.uid) (throw .abort)
  whenever (slice d.payload 12 4 ≠ le32 d.gid) (throw .abort)
  comparePackets expected.image fun off n => pure (slice d.payload off n)

/-- `munge_decrypt_packet`. -/
def mungeDecryptPacket : Rd Rc := do
  whenever (!set.munge) (throw .internalError)
  mungeCreateContext set
  let cred ← loadString mem
  mungeCheck expected (set.mungeDecode cred)

/-- `key_decrypt_packet`. -/
def keyDecryptPacket (key : List UInt8) : Rd Rc := do
  whenever (!set.gcrypt) (throw .internalError)
  whenever (size < sizeofPacket) (throw .internalError)
  let image ← load mem 0 sizeofPacket
  (set.hmac key image).elim (throw .internalError) fun calcd => do
    whenever (size ≠ sizeofPacket + hashSize) (throw .internalError)
    each ((List.range hashSize).map fun i => (i, 1, .abort))
      (checkField calcd fun off n => load mem (sizeofPacket + off) n)
    comparePackets expected.image (load mem)

/-- `decrypt_packet`. -/
def decryptPacket : Mechanism → Rd Rc
  | .none => noneDecryptPacket set expected mem size
  | .munge => mungeDecryptPacket set expected mem
  | .keyInFile savedKey => keyDecryptPacket set expected mem size savedKey
  | .explicitKey key => keyDecryptPacket set expected mem size key

end

/-- How far `decrypt_packet` reads from the start of a buffer, with `behind` in the memory behind it. -/
def decryptReads (set : Setting) (expected : Packet) (m : Mechanism) (buf behind : List UInt8) : ℕ :=
  final (decryptPacket set expected (buf ++ behind) buf.length m) 0

/-! ## The mark -/

section

variable {n : ℕ}

/-- The mark stays where it is allowed to be. -/
abbrev Below (n : ℕ) : ℕ → ℕ → Prop := Keeps (· ≤ n)

theorem load_below {mem : List UInt8} {off len : ℕ} (h : off + len ≤ n) :
    Within (Below n) (load mem off len) :=
  have : Within (Below n) (modify (max (off + len)) : Rd Unit) :=
    within_modify fun _ hs => max_le h hs
  inferInstanceAs (Within (Below n) (do modify (max (off + len)); return slice mem off len))

/-- A field that lies below the mark. -/
theorem checkField_below {expected : List UInt8} {read : ℕ → ℕ → Rd (List UInt8)} {field : ℕ × ℕ × Rc}
    (h : Within (Below n) (read field.1 field.2.1)) :
    Within (Below n) (checkField expected read field) := by
  unfold checkField
  infer_instance

/-- All fields lie in the structure. -/
theorem comparedFields_le : ∀ field ∈ comparedFields, field.1 + field.2.1 ≤ sizeofPacket := by decide

theorem comparePackets_below {expected : List UInt8} {read : ℕ → ℕ → Rd (List UInt8)}
    (h : ∀ off len, off + len ≤ sizeofPacket → Within (Below n) (read off len)) :
    Within (Below n) (comparePackets expected read) := by
  have hloop : Within (Below n) (each comparedFields (checkField expected read)) :=
    Within.each_mem _ fun field hfield => checkField_below (h _ _ (comparedFields_le field hfield))
  unfold comparePackets
  infer_instance

theorem noneDecryptPacket_below (set : Setting) (expected : Packet) (mem : List UInt8) (size : ℕ) :
    Within (Below size) (noneDecryptPacket set expected mem size) := by
  have hload : Within (Below size) (load mem 0 size) := load_below (Nat.zero_add _).le
  have hcompare : ∀ recvd, Within (Below size)
      (comparePackets expected.image fun off n => pure (slice recvd off n)) :=
    fun recvd => comparePackets_below fun _ _ _ => inferInstance
  unfold noneDecryptPacket
  infer_instance

theorem keyDecryptPacket_below (set : Setting) (expected : Packet) (mem : List UInt8) (size : ℕ)
    (key : List UInt8) : Within (Below size) (keyDecryptPacket set expected mem size key) := by
  refine Within.check fun _ => Within.check fun hsmall => ?_
  have hsize : sizeofPacket ≤ size := Nat.not_lt.mp (of_decide_eq_false hsmall)
  have hload : Within (Below size) (load mem 0 sizeofPacket) := load_below (by omega)
  -- what follows the digest does not depend on its value: the length test, the signature, the fields
  have hrest : ∀ calcd, Within (Below size) (do
      whenever (size ≠ sizeofPacket + hashSize) (throw .internalError)
      each ((List.range hashSize).map fun i => (i, 1, .abort))
        (checkField calcd fun off n => load mem (sizeofPacket + off) n)
      comparePackets expected.image (load mem)) := by
    intro calcd
    refine Within.check fun hboth => ?_
    have hsum : size = sizeofPacket + hashSize := of_not_not (of_decide_eq_false hboth)
    have hloop : Within (Below size) (each ((List.range hashSize).map fun i => (i, 1, Rc.abort))
        (checkField calcd fun off n => load mem (sizeofPacket + off) n)) := by
      refine Within.each_mem _ fun field hfield => checkField_below (load_below ?_)
      obtain ⟨i, hi, rfl⟩ := List.mem_map.mp hfield
      have hi' := List.mem_range.mp hi
      show sizeofPacket + i + 1 ≤ size
      omega
    have hcompare : Within (Below size) (comparePackets expected.image (load mem)) :=
      comparePackets_below fun off len hle => load_below (hle.trans hsize)
    infer_instance
  infer_instance

end

/-! ## The string -/

/-- A C string ends within a buffer if and only if the buffer has a NUL. -/
theorem length_takeWhile_lt (buf behind : List UInt8) :
    ((buf ++ behind).takeWhile (· ≠ 0)).length < buf.length ↔ 0 ∈ buf := by
  induction buf with
  | nil => exact ⟨fun h => absurd h (Nat.not_lt_zero _), fun h => absurd h List.not_mem_nil⟩
  | cons b buf ih =>
    rw [List.cons_append, List.takeWhile_cons, List.length_cons, List.mem_cons]
    by_cases hb : b = 0
    · rw [if_neg (by rw [decide_eq_true_iff]; exact not_not_intro hb)]
      exact ⟨fun _ => Or.inl hb.symm, fun _ => Nat.succ_pos _⟩
    · rw [if_pos (decide_eq_true hb), List.length_cons, Nat.add_lt_add_iff_right, ih]
      constructor
      · exact Or.inr
      · rintro (h | h)
        · exact absurd h.symm hb
        · exact h

/-- What is behind `munge_decode` reads from the payload only. -/
theorem mungeCheck_within {R : ℕ → ℕ → Prop} [IsPreorder ℕ R] (expected : Packet) (d : Decoded) :
    Within R (mungeCheck expected d) := by
  have hcompare : Within R (comparePackets expected.image fun off n => pure (slice d.payload off n)) := by
    unfold comparePackets checkField
    infer_instance
  unfold mungeCheck
  infer_instance

/-- Is a packet given to `munge_decode`? -/
def HandsOver (set : Setting) (m : Mechanism) : Prop :=
  m = .munge ∧ set.munge = true ∧ set.mungeCtxCreate = true ∧ set.mungeCtxSet = true

instance (set : Setting) (m : Mechanism) : Decidable (HandsOver set m) :=
  inferInstanceAs (Decidable (_ ∧ _ ∧ _ ∧ _))

/-- Then all that is read is a C string. -/
theorem munge_reads {set : Setting} {m : Mechanism} (h : HandsOver set m) (expected : Packet)
    (buf behind : List UInt8) :
    decryptReads set expected m buf behind = ((buf ++ behind).takeWhile (· ≠ 0)).length + 1 := by
  obtain ⟨rfl, hmunge, hcreate, hset⟩ := h
  have hrun : final (mungeCheck expected (set.mungeDecode ((buf ++ behind).takeWhile (· ≠ 0))))
      (((buf ++ behind).takeWhile (· ≠ 0)).length + 1) =
        ((buf ++ behind).takeWhile (· ≠ 0)).length + 1 :=
    (@mungeCheck_within (Keeps (· = ((buf ++ behind).takeWhile (· ≠ 0)).length + 1)) _ _ _).out _ rfl
  rw [decryptReads, decryptPacket, mungeDecryptPacket, mungeCreateContext, hmunge, hcreate, hset]
  exact hrun

/-- Munge reads nothing of a packet that it does not get. -/
theorem munge_reads_nothing {set : Setting} (h : ¬HandsOver set .munge) (expected : Packet)
    (buf behind : List UInt8) : decryptReads set expected .munge buf behind = 0 := by
  rw [decryptReads, decryptPacket, mungeDecryptPacket, mungeCreateContext]
  cases hmunge : set.munge with
  | false => rfl
  | true =>
    cases hcreate : set.mungeCtxCreate with
    | false => rfl
    | true =>
      cases hset : set.mungeCtxSet with
      | false => rfl
      | true => exact absurd ⟨rfl, hmunge, hcreate, hset⟩ h

/-- How far a packet is read, under every mechanism. -/
theorem decryptReads_le_iff (set : Setting) (expected : Packet) (m : Mechanism) (buf behind : List UInt8) :
    decryptReads set expected m buf behind ≤ buf.length ↔ (HandsOver set m → 0 ∈ buf) := by
  by_cases hover : HandsOver set m
  · rw [munge_reads hover, Nat.succ_le_iff, length_takeWhile_lt]
    exact ⟨fun h _ => h, fun h => h hover⟩
  · refine iff_of_true ?_ fun h => absurd h hover
    cases m with
    | none => exact (noneDecryptPacket_below set expected _ _).out 0 (Nat.zero_le _)
    | munge =>
      rw [munge_reads_nothing hover]
      exact Nat.zero_le _
    | keyInFile key => exact (keyDecryptPacket_below set expected _ _ key).out 0 (Nat.zero_le _)
    | explicitKey key => exact (keyDecryptPacket_below set expected _ _ key).out 0 (Nat.zero_le _)

/-! ## What is received -/

/-- `recv_packet` against a peer that sends a size and as many bytes. -/
theorem recvPacket_sent {size : UInt32} {content : List UInt8} (hsize : size.toNat ≤ maxPacket)
    (hlen : content.length = size.toNat) (rest : List UInt8) (room : Option ℕ) :
    recvPacket.serve ⟨le32 size ++ content ++ rest, room⟩ = (.ok content, ⟨rest, room⟩) := by
  have hhas : (⟨le32 size ++ content ++ rest, room⟩ : Line).Has 4 := by
    show 4 ≤ (le32 size ++ content ++ rest).length
    rw [List.length_append, List.length_append, length_le32]
    omega
  have htake : (le32 size ++ content ++ rest).take 4 = le32 size := by
    rw [List.append_assoc]
    exact List.take_left' (length_le32 size)
  have hpass : (⟨le32 size ++ content ++ rest, room⟩ : Line).pass 4 0 = ⟨content ++ rest, room⟩ := by
    rw [Line.pass, List.append_assoc]
    cases room <;> rfl
  have hhas' : (⟨content ++ rest, room⟩ : Line).Has size.toNat := by
    show size.toNat ≤ (content ++ rest).length
    rw [List.length_append]
    omega
  have hpass' : (⟨content ++ rest, room⟩ : Line).pass size.toNat 0 = ⟨rest, room⟩ := by
    rw [Line.pass, List.drop_left' hlen]
    cases room <;> rfl
  -- first the length word, then exactly that many bytes
  unfold recvPacket
  rw [Io.get_bind, Io.serve_read, if_pos hhas, htake, hpass]
  dsimp only
  rw [readLe32_le32, Option.getD_some, if_neg (by omega), Io.get_bind, Io.serve_read, if_pos hhas', hpass',
    List.take_left' hlen]
  rfl

/-- What `recv_packet` accepts is not too large. -/
theorem recvPacket_le {l l' : Line} {buf : List UInt8} (h : recvPacket.serve l = (.ok buf, l')) :
    buf.length ≤ maxPacket := by
  unfold recvPacket at h
  rw [Io.get_bind, Io.serve_read] at h
  split at h
  · dsimp only at h
    split at h
    · cases h
    · next hsize =>
      rw [Io.get_bind, Io.serve_read] at h
      split at h
      · cases h
        rw [List.length_take]
        omega
      · cases h
  · cases h

/-- **Received packets**: whatever a peer sends, a packet that `recv_packet` accepts is read by
    `decrypt_packet` within its size if and only if it is not given to `munge_decode`, or has a NUL. -/
theorem received_reads (set : Setting) (expected : Packet) (m : Mechanism) (l l' : Line)
    (buf : List UInt8) (h : recvPacket.serve l = (.ok buf, l')) (behind : List UInt8) :
    buf.length ≤ maxPacket ∧
    (decryptReads set expected m buf behind ≤ buf.length ↔ (HandsOver set m → 0 ∈ buf)) :=
  ⟨recvPacket_le h, decryptReads_le_iff set expected m buf behind⟩

/-- A build with everything, and a decoder that accepts nothing. -/
def fullSetting : Setting where
  enableNullEncryption := true
  munge := true
  gcrypt := true
  mungeCtxCreate := true
  mungeCtxSet := true
  mungeDecode := fun _ => ⟨.badCred, [], 0, 0⟩
  hmac := fun _ _ => some (List.replicate hashSize 0)

/-- A packet that is expected. -/
def somePacket : Packet := ⟨serverToClientSig, 80, 5000, 7, 7, 1, 0x0100007f, 0x0200007f⟩

theorem received_reads_credential :
    ([77, 85, 0] : List UInt8).length ≤ maxPacket ∧
    (decryptReads fullSetting somePacket .munge [77, 85, 0] [1] ≤ ([77, 85, 0] : List UInt8).length ↔
      (HandsOver fullSetting .munge → 0 ∈ ([77, 85, 0] : List UInt8))) :=
  received_reads fullSetting somePacket .munge ⟨le32 3 ++ [77, 85, 0] ++ [], none⟩ ⟨[], none⟩ [77, 85, 0]
    (recvPacket_sent (by decide) (by decide) [] none) [1]

/-- A packet of size 0: `munge_decode` reads what is behind the buffer. -/
theorem received_reads_counterexample :
    ¬∀ (set : Setting) (expected : Packet) (m : Mechanism) (l l' : Line) (buf : List UInt8),
      recvPacket.serve l = (.ok buf, l') → ∀ behind : List UInt8,
        decryptReads set expected m buf behind ≤ buf.length := by
  intro h
  have hrecv := @recvPacket_sent 0 [] (by decide) rfl [] none
  have hreads := h fullSetting somePacket .munge _ _ [] hrecv [65, 66]
  rw [munge_reads (by decide)] at hreads
  exact absurd hreads (by decide)

end LaunchMON.Handshake
