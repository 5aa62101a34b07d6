/-
  The packets of `tools/handshake/handshake.c` in both directions: what `encrypt_packet` makes, and what
  follows about its maker when `decrypt_packet` accepts one.

  A packet vouches for the 56 bytes of a structure (`Vouches`): with a key, if the hash behind them is
  theirs; with munge, if the credential decodes to them and was made by a process of the user that is
  expected.  Accepting a packet is that, and that the fields are the expected ones (`decides_decrypt`),
  and the fields say what packet it is (`Packet.fields_inj`).

  The fields of the structure stand side by side, and the four bytes behind them are what the stack holds.
-/
import LaunchMON.Handshake.Decrypt

namespace LaunchMON.Handshake

open Wire CBytes Effect

/-! ## Sending -/

/-- What an end calls in one round.  `readKey` tells whether `read_key` finds the key, `padding` is on the
    stack behind the fields, and `behind` is in the memory behind the received packet. -/
structure Calls extends Setting where
  readKey : Bool
  mungeEncode : List UInt8 → Option CString
  padding : UInt32
  behind : List UInt8

/-- The fields of a packet in memory. -/
def Packet.fields (p : Packet) : List UInt8 :=
  leBytes 4 p.signature.toNat ++ leBytes 2 p.serverPort.toNat ++ leBytes 2 p.clientPort.toNat ++
    leBytes 4 p.uid.toNat ++ leBytes 4 p.gid.toNat ++ leBytes 8 p.sessionId.toNat ++
    leBytes maxAddrLen p.serverAddr.toNat ++ leBytes maxAddrLen p.clientAddr.toNat

/-- The bytes that the fields take. -/
def fieldsSize : ℕ := 52

/-- The structure, with what is behind its fields. -/
def Packet.inMemory (p : Packet) (padding : UInt32) : List UInt8 := p.fields ++ le32 padding

section

variable (c : Calls) (p : Packet)

/-- `none_encrypt_packet`. -/
def noneEncryptPacket : Except Rc (List UInt8) :=
  if c.enableNullEncryption then .ok (p.inMemory c.padding) else .error .internalError

/-- `munge_encrypt_packet`. -/
def mungeEncryptPacket : Except Rc (List UInt8) := do
  if c.munge = false then throw .internalError
  if c.mungeCtxCreate = false then throw .internalError
  if c.mungeCtxSet = false then throw .internalError
  (c.mungeEncode (p.inMemory c.padding)).elim (throw .internalError) fun cred => pure (cred.bytes ++ [0])

/-- `key_encrypt_packet`. -/
def keyEncryptPacket (key : List UInt8) : Except Rc (List UInt8) := do
  if c.gcrypt = false then throw .internalError
  (c.hmac key (p.inMemory c.padding)).elim (throw .internalError) fun hash =>
    pure (p.inMemory c.padding ++ hash.take hashSize)

/-- `filekey_encrypt_packet`. -/
def filekeyEncryptPacket (savedKey : List UInt8) : Except Rc (List UInt8) := do
  if c.readKey = false then throw .abort
  keyEncryptPacket c p savedKey

/-- `encrypt_packet`. -/
def encryptPacket : Mechanism → Except Rc (List UInt8)
  | .none => noneEncryptPacket c p
  | .munge => mungeEncryptPacket c p
  | .keyInFile savedKey => filekeyEncryptPacket c p savedKey
  | .explicitKey key => keyEncryptPacket c p key

end

/-- The value of a run with the mark at `s`, whether it has been returned early or not. -/
def Rd.value (x : Rd Rc) (s : ℕ) : Rc :=
  match x s with
  | .ok r _ => r
  | .error r _ => r

/-- What the two functions do in a round. -/
def Calls.cipher (c : Calls) (m : Mechanism) : Cipher where
  encrypt p := encryptPacket c p m
  decrypt expected buf := Rd.value (decryptPacket c.toSetting expected (buf ++ c.behind) buf.length m) 0

/-! ## Fields -/

theorem leBytes_succ (n x : ℕ) : leBytes (n + 1) x = UInt8.ofNat x :: leBytes n (x / 256) := by
  unfold leBytes
  rw [List.range_succ_eq_map, List.map_cons, List.map_map]
  refine congrArg₂ List.cons (by simp) (List.map_congr_left fun i _ => ?_)
  show UInt8.ofNat (x / 2 ^ (8 * (i + 1))) = UInt8.ofNat (x / 256 / 2 ^ (8 * i))
  rw [Nat.div_div_eq_div_mul, Nat.mul_succ, Nat.pow_add, Nat.mul_comm]

/-- A number that fits is known from its bytes. -/
theorem leBytes_inj {n x y : ℕ} (hx : x < 256 ^ n) (hy : y < 256 ^ n) (h : leBytes n x = leBytes n y) :
    x = y := by
  induction n generalizing x y with
  | zero => omega
  | succ n ih =>
    rw [leBytes_succ, leBytes_succ, List.cons.injEq, ← UInt8.toNat_inj, UInt8.toNat_ofNat',
      UInt8.toNat_ofNat'] at h
    have hpow : 256 ^ (n + 1) = 256 ^ n * 256 := pow_succ 256 n
    have hhigh := ih (by omega) (by omega) h.2
    omega

theorem Packet.length_inMemory (p : Packet) (padding : UInt32) :
    (p.inMemory padding).length = sizeofPacket := rfl

theorem leBytes_four (x : UInt32) : leBytes 4 x.toNat = le32 x := by
  show [UInt8.ofNat (x.toNat / 2 ^ (8 * 0)), _, _, _] = [_, _, _, _]
  rw [Nat.mul_zero, Nat.pow_zero, Nat.div_one]

theorem slice_uid (p : Packet) : slice p.fields 8 4 = le32 p.uid := by
  rw [← leBytes_four]
  rfl

theorem slice_gid (p : Packet) : slice p.fields 12 4 = le32 p.gid := by
  rw [← leBytes_four]
  rfl

theorem Packet.take_image (p : Packet) : p.image.take fieldsSize = p.fields := List.take_left' rfl

theorem Packet.take_inMemory (p : Packet) (padding : UInt32) :
    (p.inMemory padding).take fieldsSize = p.fields := List.take_left' rfl

/-- A packet is known from its fields. -/
theorem Packet.fields_inj {p q : Packet} (h : p.fields = q.fields) : p = q := by
  obtain ⟨signature, serverPort, clientPort, uid, gid, sessionId, serverAddr, clientAddr⟩ := p
  obtain ⟨signature', serverPort', clientPort', uid', gid', sessionId', serverAddr', clientAddr'⟩ := q
  unfold Packet.fields at h
  dsimp only at h
  have hpow : 256 ^ 4 = 2 ^ 32 ∧ 256 ^ 2 = 2 ^ 16 ∧ 256 ^ 8 = 2 ^ 64 := by decide
  have h32 : ∀ {x y : UInt32}, leBytes 4 x.toNat = leBytes 4 y.toNat → x = y := fun {x y} hxy =>
    UInt32.toNat_inj.mp (leBytes_inj (hpow.1 ▸ x.toNat_lt) (hpow.1 ▸ y.toNat_lt) hxy)
  have h16 : ∀ {x y : UInt16}, leBytes 2 x.toNat = leBytes 2 y.toNat → x = y := fun {x y} hxy =>
    UInt16.toNat_inj.mp (leBytes_inj (hpow.2.1 ▸ x.toNat_lt) (hpow.2.1 ▸ y.toNat_lt) hxy)
  have h64 : ∀ {x y : UInt64}, leBytes 8 x.toNat = leBytes 8 y.toNat → x = y := fun {x y} hxy =>
    UInt64.toNat_inj.mp (leBytes_inj (hpow.2.2 ▸ x.toNat_lt) (hpow.2.2 ▸ y.toNat_lt) hxy)
  have haddr : ∀ {x y : UInt32}, leBytes maxAddrLen x.toNat = leBytes maxAddrLen y.toNat → x = y := by
    intro x y hxy
    have hle : 2 ^ 32 ≤ 256 ^ maxAddrLen := by decide
    exact UInt32.toNat_inj.mp (leBytes_inj (x.toNat_lt.trans_le hle) (y.toNat_lt.trans_le hle) hxy)
  obtain ⟨h, h8⟩ := List.append_inj' h rfl
  obtain ⟨h, h7⟩ := List.append_inj' h rfl
  obtain ⟨h, h6⟩ := List.append_inj' h rfl
  obtain ⟨h, h5⟩ := List.append_inj' h rfl
  obtain ⟨h, h4⟩ := List.append_inj' h rfl
  obtain ⟨h, h3⟩ := List.append_inj' h rfl
  obtain ⟨h1, h2⟩ := List.append_inj' h rfl
  rw [h32 h1, h16 h2, h16 h3, h32 h4, h32 h5, h64 h6, haddr h7, haddr h8]

/-! ## Comparing -/

/-- Lists that agree on fields that cover their fronts agree there. -/
theorem take_eq_of_slices {fields : List (ℕ × ℕ × Rc)} {as bs : List UInt8} {n : ℕ}
    (hcover : ∀ i < n, ∃ f ∈ fields, f.1 ≤ i ∧ i < f.1 + f.2.1)
    (h : ∀ f ∈ fields, slice as f.1 f.2.1 = slice bs f.1 f.2.1) : as.take n = bs.take n := by
  refine List.ext_getElem? fun i => ?_
  by_cases hi : i < n
  · obtain ⟨f, hf, hle, hlt⟩ := hcover i hi
    have hat : ∀ cs : List UInt8, (slice cs f.1 f.2.1)[i - f.1]? = cs[i]? := by
      intro cs
      rw [slice, List.getElem?_take, if_pos (by omega), List.getElem?_drop, Nat.add_sub_cancel' hle]
    rw [List.getElem?_take, List.getElem?_take, if_pos hi, if_pos hi, ← hat as, ← hat bs, h f hf]
  · rw [List.getElem?_take, List.getElem?_take, if_neg hi, if_neg hi]

/-- Fields that cover the fronts, and lie within them, compare them. -/
theorem slices_iff {fields : List (ℕ × ℕ × Rc)} {as bs : List UInt8} {n : ℕ}
    (hcover : ∀ i < n, ∃ f ∈ fields, f.1 ≤ i ∧ i < f.1 + f.2.1)
    (hwithin : ∀ f ∈ fields, f.1 + f.2.1 ≤ n) :
    (∀ f ∈ fields, slice as f.1 f.2.1 = slice bs f.1 f.2.1) ↔ as.take n = bs.take n := by
  refine ⟨take_eq_of_slices hcover, fun htake f hf => ?_⟩
  have hfront : ∀ cs : List UInt8, slice (cs.take n) f.1 f.2.1 = slice cs f.1 f.2.1 := by
    intro cs
    have hle := hwithin f hf
    rw [slice, slice, List.drop_take, List.take_take, min_eq_left (by omega)]
  rw [← hfront as, htake, hfront]

/-- `compare_packets` looks at every byte of the fields. -/
theorem comparedFields_cover : ∀ i < fieldsSize, ∃ f ∈ comparedFields, f.1 ≤ i ∧ i < f.1 + f.2.1 := by
  decide

/-- The received structure is `mem`, wherever the mark is. -/
def Gets (read : ℕ → ℕ → Rd (List UInt8)) (mem : List UInt8) : Prop :=
  ∀ off n s, ∃ s', read off n s = .ok (slice mem off n) s'

theorem gets_pure (mem : List UInt8) : Gets (fun off n => pure (slice mem off n)) mem :=
  fun _ _ s => ⟨s, rfl⟩

theorem gets_load (mem : List UInt8) : Gets (load mem) mem := fun _ _ _ => ⟨_, rfl⟩

/-! ## Decisions -/

/-- A result that is told for a packet that is not accepted. -/
def Rc.Rejects (r : Rc) : Prop := r ≠ .success ∧ r ≠ .connectionRefused

instance (r : Rc) : Decidable r.Rejects := inferInstanceAs (Decidable (_ ∧ _))

/-- The packet is accepted exactly if `P`. -/
def Decides (P : Prop) (r : Rc) : Prop := r = .success ∧ P ∨ r.Rejects ∧ ¬P

section

variable {P Q : Prop} {r : Rc}

theorem Decides.success_iff (h : Decides P r) : r = .success ↔ P := by
  rcases h with ⟨hr, hP⟩ | ⟨hr, hP⟩
  · exact iff_of_true hr hP
  · exact iff_of_false hr.1 hP

theorem Decides.ne_refused (h : Decides P r) : r ≠ .connectionRefused := by
  rcases h with ⟨rfl, -⟩ | ⟨hr, -⟩
  · decide
  · exact hr.2

theorem Decides.congr (h : Decides P r) (hiff : P ↔ Q) : Decides Q r := by
  unfold Decides at *
  rwa [← hiff]

theorem decides_rejects (hr : r.Rejects) (hP : ¬P) : Decides P r := Or.inr ⟨hr, hP⟩

/-- A check in front. -/
theorem decides_check {c : Bool} {f : Unit → Rd Rc} {s : ℕ} (hr : r.Rejects)
    (h : c = false → Decides P (Rd.value (f ()) s)) :
    Decides (c = false ∧ P) (Rd.value (whenever c (throw r) >>= f) s) := by
  cases c with
  | false => exact (h rfl).congr (and_iff_right rfl).symm
  | true => exact decides_rejects hr fun hP => Bool.noConfusion hP.1

/-- A loop of comparisons in front. -/
theorem decides_each {read : ℕ → ℕ → Rd (List UInt8)} {mem expected : List UInt8} {g : Unit → Rd Rc}
    (hread : Gets read mem) (hg : ∀ s, Decides P (Rd.value (g ()) s)) :
    ∀ (fields : List (ℕ × ℕ × Rc)) (s : ℕ), (∀ f ∈ fields, f.2.2.Rejects) →
      Decides ((∀ f ∈ fields, slice mem f.1 f.2.1 = slice expected f.1 f.2.1) ∧ P)
        (Rd.value (each fields (checkField expected read) >>= g) s) := by
  intro fields
  induction fields with
  | nil =>
    intro s _
    exact (hg s).congr (and_iff_right fun f hf => absurd hf List.not_mem_nil).symm
  | cons f fields ih =>
    intro s hcodes
    obtain ⟨hf, hfields⟩ := List.forall_mem_cons.mp hcodes
    obtain ⟨s', hs'⟩ := hread f.1 f.2.1 s
    have hturn : Rd.value (each (f :: fields) (checkField expected read) >>= g) s =
        Rd.value (whenever (slice mem f.1 f.2.1 ≠ slice expected f.1 f.2.1) (throw f.2.2) >>= fun _ =>
          each fields (checkField expected read) >>= g) s' := by
      unfold Rd.value
      rw [each, checkField, bind_assoc, bind_assoc, ok_bind hs']
    rw [hturn, List.forall_mem_cons, and_assoc]
    refine (decides_check hf fun _ => ih s' hfields).congr (and_congr_left' ?_)
    rw [decide_eq_false_iff_not, not_not]

/-- **Comparing packets**: exactly the fields have to be equal. -/
theorem decides_compare {read : ℕ → ℕ → Rd (List UInt8)} {mem : List UInt8} (expected : Packet)
    (hread : Gets read mem) (s : ℕ) :
    Decides (mem.take fieldsSize = expected.fields) (Rd.value (comparePackets expected.image read) s) := by
  have hcodes : ∀ f ∈ comparedFields, f.2.2.Rejects := by decide
  have hwithin : ∀ f ∈ comparedFields, f.1 + f.2.1 ≤ fieldsSize := by decide
  have hreturn : ∀ s, Decides True (Rd.value (pure .success) s) := fun s => Or.inl ⟨rfl, trivial⟩
  refine (decides_each hread hreturn comparedFields s hcodes).congr ?_
  rw [and_true, ← expected.take_image]
  exact slices_iff comparedFields_cover hwithin

end

/-! ## Vouching -/

/-- What `decrypt_packet` needs of the build and of libmunge. -/
def Able (c : Calls) : Mechanism → Prop
  | .none => c.enableNullEncryption = true
  | .munge => c.munge = true ∧ c.mungeCtxCreate = true ∧ c.mungeCtxSet = true
  | .keyInFile _ | .explicitKey _ => c.gcrypt = true

/-- The packet `buf` vouches for the structure `image`, with munge as one of the user. -/
def Vouches (c : Calls) (m : Mechanism) (uid gid : UInt32) (buf image : List UInt8) : Prop :=
  image.length = sizeofPacket ∧
  match m with
  | .none => buf = image
  | .munge =>
    let d := c.mungeDecode ((buf ++ c.behind).takeWhile (· ≠ 0))
    d.result = .success ∧ d.payload = image ∧ d.uid = uid ∧ d.gid = gid
  | .keyInFile key | .explicitKey key =>
    ∃ hash, c.hmac key image = some hash ∧ hashSize ≤ hash.length ∧ buf = image ++ hash.take hashSize

/-- A packet vouches for an expected one. -/
def Expected (c : Calls) (m : Mechanism) (expected : Packet) (buf : List UInt8) : Prop :=
  ∃ image, Vouches c m expected.uid expected.gid buf image ∧ image.take fieldsSize = expected.fields

section

variable (c : Calls) (expected : Packet) (buf : List UInt8)

theorem decides_none :
    Decides (Able c .none ∧ Expected c .none expected buf) ((c.cipher .none).decrypt expected buf) := by
  have hrun : ∀ s, Decides (buf.take fieldsSize = expected.fields) (Rd.value (do
      let recvd ← load (buf ++ c.behind) 0 buf.length
      comparePackets expected.image fun off n => pure (slice recvd off n)) s) := by
    intro s
    have hbuf : slice (buf ++ c.behind) 0 buf.length = buf := List.take_left
    have hcompare := decides_compare expected (gets_pure (slice (buf ++ c.behind) 0 buf.length))
      (max (0 + buf.length) s)
    exact hcompare.congr (by rw [hbuf])
  refine (decides_check (by decide) fun _ => decides_check (by decide) fun _ => hrun 0).congr
    (and_congr (by simp [Able]) ?_)
  rw [decide_eq_false_iff_not, not_not]
  constructor
  · rintro ⟨hlen, htake⟩
    exact ⟨buf, ⟨hlen, rfl⟩, htake⟩
  · rintro ⟨_, ⟨hlen, rfl⟩, htake⟩
    exact ⟨hlen, htake⟩

/-- The fields of the user are among the fields. -/
theorem slice_fields {image : List UInt8} {expected : Packet} (h : image.take fieldsSize = expected.fields) :
    slice image 8 4 = le32 expected.uid ∧ slice image 12 4 = le32 expected.gid := by
  have hfront : ∀ off, off + 4 ≤ fieldsSize → slice image off 4 = slice expected.fields off 4 := by
    intro off hoff
    rw [← h, slice, slice, List.drop_take, List.take_take, min_eq_left (by omega)]
  exact ⟨(hfront 8 (by decide)).trans (slice_uid expected),
    (hfront 12 (by decide)).trans (slice_gid expected)⟩

theorem le32_inj {x y : UInt32} (h : le32 x = le32 y) : x = y := by
  have hread := congrArg readLe32 h
  rw [readLe32_le32, readLe32_le32] at hread
  exact Option.some.inj hread

/-- The results of `munge_decode` that are no success are rejections. -/
theorem MungeErr.rc_cases (e : MungeErr) :
    e = .success ∧ e.rc = none ∨ e ≠ .success ∧ ∃ r, e.rc = some r ∧ r.Rejects := by
  cases e <;> first
    | exact Or.inl ⟨rfl, rfl⟩
    | exact Or.inr ⟨by decide, _, rfl, by decide⟩

/-- What is behind `munge_decode`. -/
theorem decides_mungeCheck (d : Decoded) (s : ℕ) :
    Decides (d.result = .success ∧ d.payload.length = sizeofPacket ∧ d.uid = expected.uid ∧
      d.gid = expected.gid ∧ d.payload.take fieldsSize = expected.fields)
      (Rd.value (mungeCheck expected d) s) := by
  unfold mungeCheck
  rcases d.result.rc_cases with ⟨hok, hnone⟩ | ⟨hne, r, hr, hrejects⟩
  · rw [hnone]
    refine (decides_check (by decide) fun _ => decides_check (by decide) fun _ => decides_check (by decide)
      fun _ => decides_compare expected (gets_pure d.payload) s).congr ?_
    simp only [decide_eq_false_iff_not, not_not, hok, true_and]
    -- The user is compared twice, with the one that sent the credential and with the expected one.
    refine and_congr_right fun _ => ?_
    constructor
    · rintro ⟨huid, hgid, htake⟩
      obtain ⟨huid', hgid'⟩ := slice_fields htake
      exact ⟨le32_inj (huid.symm.trans huid'), le32_inj (hgid.symm.trans hgid'), htake⟩
    · rintro ⟨huid, hgid, htake⟩
      obtain ⟨huid', hgid'⟩ := slice_fields htake
      exact ⟨huid ▸ huid', hgid ▸ hgid', htake⟩
  · rw [hr]
    exact decides_rejects hrejects fun h => hne h.1

theorem decides_munge :
    Decides (Able c .munge ∧ Expected c .munge expected buf) ((c.cipher .munge).decrypt expected buf) := by
  have hrun := decides_mungeCheck expected (c.mungeDecode ((buf ++ c.behind).takeWhile (· ≠ 0)))
    (max (((buf ++ c.behind).takeWhile (· ≠ 0)).length + 1) 0)
  have hchain : Decides (((!c.munge) = false ∧ (!c.mungeCtxCreate) = false ∧ (!c.mungeCtxSet) = false ∧ _))
      ((c.cipher .munge).decrypt expected buf) := decides_check (by decide) fun _ => by
    rw [mungeCreateContext, bind_assoc]
    exact decides_check (by decide) fun _ => decides_check (by decide) fun _ => hrun
  refine hchain.congr ?_
  simp only [Bool.not_eq_false', Able, Expected, Vouches, and_assoc]
  refine and_congr_right fun _ => and_congr_right fun _ => and_congr_right fun _ => ?_
  constructor
  · rintro ⟨hok, hlen, huid, hgid, htake⟩
    exact ⟨_, hlen, hok, rfl, huid, hgid, htake⟩
  · rintro ⟨_, hlen, hok, rfl, huid, hgid, htake⟩
    exact ⟨hok, hlen, huid, hgid, htake⟩

/-- The digest and the fields, when the size is right. -/
theorem decides_digest (calcd : List UInt8) (hsize : buf.length = sizeofPacket + hashSize) (s : ℕ) :
    Decides (buf.drop sizeofPacket = calcd.take hashSize ∧ buf.take fieldsSize = expected.fields)
      (Rd.value (do
        each ((List.range hashSize).map fun i => (i, 1, .abort))
          (checkField calcd fun off n => load (buf ++ c.behind) (sizeofPacket + off) n)
        comparePackets expected.image (load (buf ++ c.behind))) s) := by
  have hread : Gets (fun off n => load (buf ++ c.behind) (sizeofPacket + off) n)
      ((buf ++ c.behind).drop sizeofPacket) := by
    intro off n s
    refine ⟨max (sizeofPacket + off + n) s, ?_⟩
    rw [slice, List.drop_drop]
    rfl
  have hdigest : ((buf ++ c.behind).drop sizeofPacket).take hashSize = buf.drop sizeofPacket := by
    rw [List.drop_append_of_le_length (by omega)]
    exact List.take_left' (by rw [List.length_drop]; omega)
  have hfields : (buf ++ c.behind).take fieldsSize = buf.take fieldsSize :=
    List.take_append_of_le_length (hsize ▸ by decide)
  have hcodes : ∀ f ∈ (List.range hashSize).map fun i => (i, 1, Rc.abort), f.2.2.Rejects := by decide
  refine (decides_each hread (fun s => decides_compare expected (gets_load _) s) _ s hcodes).congr ?_
  rw [hfields, slices_iff (n := hashSize) (by decide) (by decide), hdigest]

theorem decides_sized (calcd : List UInt8) (s : ℕ) :
    Decides (buf.length = sizeofPacket + hashSize ∧
      buf.drop sizeofPacket = calcd.take hashSize ∧ buf.take fieldsSize = expected.fields)
      (Rd.value (do
        whenever (buf.length ≠ sizeofPacket + hashSize) (throw .internalError)
        each ((List.range hashSize).map fun i => (i, 1, .abort))
          (checkField calcd fun off n => load (buf ++ c.behind) (sizeofPacket + off) n)
        comparePackets expected.image (load (buf ++ c.behind))) s) := by
  refine (decides_check (by decide) fun hsize =>
    decides_digest c expected buf calcd (not_not.mp (of_decide_eq_false hsize)) s).congr ?_
  rw [decide_eq_false_iff_not, not_not]

theorem decides_keyDecrypt (key : List UInt8) :
    Decides (c.gcrypt = true ∧ Expected c (.explicitKey key) expected buf)
      (Rd.value (keyDecryptPacket c.toSetting expected (buf ++ c.behind) buf.length key) 0) := by
  have himage (h : sizeofPacket ≤ buf.length) : slice (buf ++ c.behind) 0 sizeofPacket = buf.take sizeofPacket :=
    List.take_append_of_le_length h
  have hchain : Decides ((!c.gcrypt) = false ∧ decide (buf.length < sizeofPacket) = false ∧
      ∃ calcd, c.hmac key (slice (buf ++ c.behind) 0 sizeofPacket) = some calcd ∧
        buf.length = sizeofPacket + hashSize ∧
        buf.drop sizeofPacket = calcd.take hashSize ∧ buf.take fieldsSize = expected.fields)
      (Rd.value (keyDecryptPacket c.toSetting expected (buf ++ c.behind) buf.length key) 0) := by
    refine decides_check (by decide) fun _ => decides_check (by decide) fun _ => ?_
    show Decides _ (Rd.value ((c.hmac key (slice (buf ++ c.behind) 0 sizeofPacket)).elim _ _) _)
    cases hhash : c.hmac key (slice (buf ++ c.behind) 0 sizeofPacket) with
    | none =>
      refine decides_rejects (show Rc.Rejects .internalError by decide) ?_
      rintro ⟨calcd, hcalcd, -⟩
      cases hcalcd
    | some calcd =>
      refine (decides_sized c expected buf calcd _).congr ?_
      simp
  refine hchain.congr ?_
  simp only [Bool.not_eq_false', decide_eq_false_iff_not, not_lt, Expected, Vouches]
  refine and_congr_right fun _ => ?_
  constructor
  · rintro ⟨hle, calcd, hhash, hsize, hdrop, htake⟩
    rw [himage hle] at hhash
    have hlen : (buf.take sizeofPacket).length = sizeofPacket := by rw [List.length_take, min_eq_left hle]
    have hcalcd : hashSize ≤ calcd.length := by
      have h := congrArg List.length hdrop
      rw [List.length_drop, List.length_take, hsize] at h
      omega
    refine ⟨buf.take sizeofPacket, ⟨hlen, calcd, hhash, hcalcd, ?_⟩, ?_⟩
    · rw [← hdrop, List.take_append_drop]
    · rw [List.take_take]
      exact htake
  · rintro ⟨image, ⟨hlen, hash, hhash, hle, rfl⟩, htake⟩
    have hsize : (image ++ hash.take hashSize).length = sizeofPacket + hashSize := by
      rw [List.length_append, List.length_take, min_eq_left hle, hlen]
    refine ⟨by omega, hash, ?_, hsize, List.drop_left' hlen, ?_⟩
    · rw [himage (by omega), List.take_left' hlen]
      exact hhash
    · rw [List.take_append_of_le_length (hlen ▸ by decide)]
      exact htake

/-- **What is accepted**: exactly the packets that vouch for the expected fields. -/
theorem decides_decrypt (m : Mechanism) :
    Decides (Able c m ∧ Expected c m expected buf) ((c.cipher m).decrypt expected buf) := by
  cases m with
  | none => exact decides_none c expected buf
  | munge => exact decides_munge c expected buf
  | keyInFile key => exact decides_keyDecrypt c expected buf key
  | explicitKey key => exact decides_keyDecrypt c expected buf key

end

end LaunchMON.Handshake
