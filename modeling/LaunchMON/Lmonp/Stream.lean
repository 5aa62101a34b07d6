/-
  LMONP messages on a socket: the bytes of a header, and the three calls that move messages
  (`read_lmonp_msgheader`, `read_lmonp_payloads`, `write_lmonp_long_msg`).

  The C struct has its bit-fields in words of their own: class and type take four bytes each, the two
  unions two (and two of padding) and four, the three lengths four each.  The unused bits are written
  as zeros and masked by the reader.

  A daemon does more than to talk on one socket, so the calls are the operations of a `Fleet.Daemon`.
  Against a peer on the same stream they become an `Io` (`onStream`), where nothing fails; where they
  may do anything a `Feed` answers them (`Feed.answer`).
-/
import LaunchMON.Lib.Fleet
import LaunchMON.Lib.Wire
import LaunchMON.Lmonp.Msg

namespace LaunchMON.Lmonp

open CBytes Fleet Wire

/-! ## Bytes of a header -/

/-- A halfword, lowest byte first. -/
def le16 (x : UInt16) : List UInt8 := [UInt8.ofNat x.toNat, UInt8.ofNat (x.toNat / 2 ^ 8)]

/-- The halfword at the front of `bs`. -/
def readLe16 : List UInt8 → UInt16
  | b0 :: b1 :: _ => UInt16.ofNat (b0.toNat + 2 ^ 8 * b1.toNat)
  | _ => 0

@[simp] theorem readLe16_append (x : UInt16) (rest : List UInt8) : readLe16 (le16 x ++ rest) = x := by
  have hx := x.toNat_lt
  show UInt16.ofNat _ = _
  simp only [UInt8.toNat_ofNat']
  refine UInt16.toNat_inj.mp ?_
  rw [UInt16.toNat_ofNat']
  omega

/-- `lmonp_t` in memory. -/
def Header.bytes (h : Header) : List UInt8 :=
  le32 (UInt32.ofNat h.msgclass.toNat) ++ (le32 (UInt32.ofNat h.type.toNat) ++ (le16 h.numTasks ++
    ([0, 0] ++ (le16 h.numExecName ++ (le16 h.numHostName ++ (le32 h.longNumTasks ++
      (le32 h.lmonPayloadLength ++ le32 h.usrPayloadLength)))))))

/-- The header in the first `sizeof(lmonp_t)` bytes. -/
def Header.ofBytes (bs : List UInt8) : Header where
  msgclass := BitVec.ofNat 3 ((readLe32 bs).getD 0).toNat
  type := BitVec.ofNat 13 ((readLe32 (bs.drop 4)).getD 0).toNat
  numTasks := readLe16 (bs.drop 8)
  numExecName := readLe16 (bs.drop 12)
  numHostName := readLe16 (bs.drop 14)
  longNumTasks := (readLe32 (bs.drop 16)).getD 0
  lmonPayloadLength := (readLe32 (bs.drop 20)).getD 0
  usrPayloadLength := (readLe32 (bs.drop 24)).getD 0

@[simp] theorem Header.length_bytes (h : Header) : h.bytes.length = sizeofLmonp := rfl

/-- **A header is read as it was written**, whatever comes behind it. -/
theorem Header.ofBytes_append (h : Header) (rest : List UInt8) : Header.ofBytes (h.bytes ++ rest) = h := by
  obtain ⟨c, t, nt, ne, nh, ln, ll, ul⟩ := h
  have hc : (UInt32.ofNat c.toNat).toNat = c.toNat := by
    rw [UInt32.toNat_ofNat']
    exact Nat.mod_eq_of_lt (lt_trans c.isLt (by decide))
  have ht : (UInt32.ofNat t.toNat).toNat = t.toNat := by
    rw [UInt32.toNat_ofNat']
    exact Nat.mod_eq_of_lt (lt_trans t.isLt (by decide))
  simp only [ofBytes, bytes, List.append_assoc, mk.injEq]
  refine ⟨?_, ?_, ?_, ?_, ?_, ?_, ?_, ?_⟩
  · rw [readLe32_append, Option.getD_some, hc, BitVec.ofNat_toNat, BitVec.setWidth_eq]
  · rw [drop_le32_append, readLe32_append, Option.getD_some, ht, BitVec.ofNat_toNat,
      BitVec.setWidth_eq]
  · exact readLe16_append nt _
  · exact readLe16_append ne _
  · exact readLe16_append nh _
  · exact congrArg (·.getD 0) (readLe32_append ln _)
  · exact congrArg (·.getD 0) (readLe32_append ll _)
  · exact congrArg (·.getD 0) (readLe32_append ul _)

@[simp] theorem Header.ofBytes_bytes (h : Header) : Header.ofBytes h.bytes = h := by
  simpa using Header.ofBytes_append h []

/-! ## The calls -/

/-- The calls on the socket of a daemon.  A payload is asked for with the `int` that the source
    passes; a write has the bytes of the message. -/
inductive SockOp
  | readMsgheader
  | readPayloads (length : UInt32)
  | writeLongMsg (bs : List UInt8)

/-- What a call leaves: whether a header could be read, and the header as it is after the call; the
    payload, unless it failed; whether the message went out. -/
abbrev SockOp.Ans : SockOp → Type
  | .readMsgheader => Bool × Header
  | .readPayloads _ => Option (List UInt8)
  | .writeLongMsg _ => Bool

/-- A program of a daemon with a socket. -/
abbrev Sock (α : Type) := Daemon SockOp SockOp.Ans LmonRc α

variable {ρ α β : Type}

/-- `read_lmonp_msgheader`. -/
def readLmonpMsgheader : Daemon SockOp SockOp.Ans ρ (Bool × Header) :=
  Daemon.ask SockOp.readMsgheader

/-- `read_lmonp_payloads`. -/
def readLmonpPayloads (length : UInt32) : Daemon SockOp SockOp.Ans ρ (Option (List UInt8)) :=
  Daemon.ask (SockOp.readPayloads length)

/-- The result of `read_lmonp_payloads` in an `unsigned int`: -1 for a failure. -/
def bytesread (o : Option (List UInt8)) : UInt32 :=
  match o with
  | none => 0xFFFFFFFF
  | some bs => UInt32.ofNat bs.length

/-- The size that `write_lmonp_long_msg` finds in a header, as an `int`. -/
def msgsize (h : Header) : UInt32 := UInt32.ofNat sizeofLmonp + h.lmonPayloadLength + h.usrPayloadLength

/-- `write_lmonp_long_msg`: a message whose size is not the one in its header does not go out. -/
def writeLmonpLongMsg (m : Msg) (msglength : UInt32) : Daemon SockOp SockOp.Ans ρ Bool :=
  if msgsize m.hdr ≠ msglength then return false
  else Daemon.ask (SockOp.writeLongMsg (m.hdr.bytes ++ m.payload))

/-! ## On a stream -/

/-- What a daemon has read from a stream: headers, and payloads of some length. -/
inductive Heard
  | header (h : Header)
  | payload (length : ℕ)

/-- A daemon that talks on a stream on which nothing fails, while `collective` answers its collectives.
    The read of nothing is taken for a lost connection by the source.  With its result comes what it
    has read, behind `heard`. -/
def onStream (collective : Collective → List UInt8 → List UInt8) (heard : List Heard) :
    Daemon SockOp SockOp.Ans ρ α → Io (Except ρ α × List Heard)
  | .ret a => .ret (.ok a, heard)
  | .fail e => .ret (.error e, heard)
  | .op .readMsgheader k => .read sizeofLmonp fun o =>
    let h := Header.ofBytes (o.getD [])
    onStream collective (heard ++ [.header h]) (k (o.isSome, h))
  | .op (.readPayloads length) k =>
    if length = 0 then onStream collective heard (k none)
    else .read length.toNat fun o =>
      onStream collective (heard ++ [.payload length.toNat]) (k o)
  | .op (.writeLongMsg bs) k => .write bs fun sent => onStream collective heard (k sent)
  | .meet c mine k => onStream collective heard (k (collective c mine))

/-! ## Two ends of a stream -/

section

open FifoNet Relation

variable {γ : Type} {cap : Bool × Bool → ℕ∞} {coll : Collective → List UInt8 → List UInt8}

/-- Two daemons on the two ends of a stream with nothing on its way. -/
def talk (coll : Collective → List UInt8 → List UInt8) (P Q : Daemon SockOp SockOp.Ans ρ γ)
    (x y : List Heard) : Net Bool UInt8 (Except ρ γ × List Heard) :=
  duo ((onStream coll x P).net false) ((onStream coll y Q).net true) [] []

/-- Both have returned. -/
def told (a b : Except ρ γ × List Heard) : Net Bool UInt8 (Except ρ γ × List Heard) :=
  duo (.ret a) (.ret b) [] []

variable {P Q : Daemon SockOp SockOp.Ans ρ γ} {h : Header} {pl : List UInt8} {length : UInt32}
  {x y : List Heard} {k : Bool → Daemon SockOp SockOp.Ans ρ γ}
  {kh : Bool × Header → Daemon SockOp SockOp.Ans ρ γ}

/-- A message without payload goes from the first to the second. -/
theorem talk_header_true (hcap : 1 ≤ cap (true, false)) :
    ReflTransGen (ByteStep cap)
      (talk coll (.op (.writeLongMsg (h.bytes ++ [])) k) (.op .readMsgheader kh) x y)
      (talk coll (k true) (kh (true, h)) x (y ++ [.header h])) := by
  refine (@duo_pass_true _ _ cap _ _ _ h.bytes hcap []).trans (duo_sent_true.trans ?_)
  show ReflTransGen _ (duo _ ((onStream coll (y ++ [.header (Header.ofBytes h.bytes)])
    (kh (true, Header.ofBytes h.bytes))).net true) [] []) _
  rw [Header.ofBytes_bytes]
  exact ReflTransGen.refl

/-- A message goes from the first to the second, who then asks for the payload. -/
theorem talk_message_true (hcap : 1 ≤ cap (true, false))
    (kp : Option (List UInt8) → Daemon SockOp SockOp.Ans ρ γ)
    (hread : kh (true, h) = .op (.readPayloads length) kp) (hlen : pl.length = length.toNat)
    (hpos : pl ≠ []) :
    ReflTransGen (ByteStep cap)
      (talk coll (.op (.writeLongMsg (h.bytes ++ pl)) k) (.op .readMsgheader kh) x y)
      (talk coll (k true) (kp (some pl)) x (y ++ [.header h, .payload pl.length])) := by
  have hne : length ≠ 0 := by
    rintro rfl
    exact hpos (List.length_eq_zero_iff.mp hlen)
  refine (@duo_pass_true _ _ cap _ _ _ h.bytes hcap pl).trans ?_
  show ReflTransGen _ (duo _ ((onStream coll (y ++ [.header (Header.ofBytes h.bytes)])
    (kh (true, Header.ofBytes h.bytes))).net true) [] []) _
  rw [Header.ofBytes_bytes, hread, onStream, if_neg hne, ← hlen, List.append_assoc]
  have hpass := @duo_pass_true _ _ cap ((onStream coll x (k true)).net false) (fun bs =>
    (onStream coll (y ++ [.header h, .payload pl.length]) (kp (some bs))).net true) [] pl hcap []
  rw [List.append_nil] at hpass
  exact hpass.trans duo_sent_true

/-- A message without payload goes from the second to the first. -/
theorem talk_header_false (hcap : 1 ≤ cap (false, true)) :
    ReflTransGen (ByteStep cap)
      (talk coll (.op .readMsgheader kh) (.op (.writeLongMsg (h.bytes ++ [])) k) x y)
      (talk coll (kh (true, h)) (k true) (x ++ [.header h]) y) := by
  refine (@duo_pass_false _ _ cap _ _ _ h.bytes hcap []).trans (duo_sent_false.trans ?_)
  show ReflTransGen _ (duo ((onStream coll (x ++ [.header (Header.ofBytes h.bytes)])
    (kh (true, Header.ofBytes h.bytes))).net false) _ [] []) _
  rw [Header.ofBytes_bytes]
  exact ReflTransGen.refl

/-- A message goes from the second to the first, who then asks for the payload. -/
theorem talk_message_false (hcap : 1 ≤ cap (false, true))
    (kp : Option (List UInt8) → Daemon SockOp SockOp.Ans ρ γ)
    (hread : kh (true, h) = .op (.readPayloads length) kp) (hlen : pl.length = length.toNat)
    (hpos : pl ≠ []) :
    ReflTransGen (ByteStep cap)
      (talk coll (.op .readMsgheader kh) (.op (.writeLongMsg (h.bytes ++ pl)) k) x y)
      (talk coll (kp (some pl)) (k true) (x ++ [.header h, .payload pl.length]) y) := by
  have hne : length ≠ 0 := by
    rintro rfl
    exact hpos (List.length_eq_zero_iff.mp hlen)
  refine (@duo_pass_false _ _ cap _ _ _ h.bytes hcap pl).trans ?_
  show ReflTransGen _ (duo ((onStream coll (x ++ [.header (Header.ofBytes h.bytes)])
    (kh (true, Header.ofBytes h.bytes))).net false) _ [] []) _
  rw [Header.ofBytes_bytes, hread, onStream, if_neg hne, ← hlen, List.append_assoc]
  have hpass := @duo_pass_false _ _ cap ((onStream coll y (k true)).net true) (fun bs =>
    (onStream coll (x ++ [.header h, .payload pl.length]) (kp (some bs))).net false) [] pl hcap []
  rw [List.append_nil] at hpass
  exact hpass.trans duo_sent_false

end

/-! ## Answers of any kind -/

/-- What the calls of a daemon find, in the order of the calls of each kind. -/
structure Feed where
  headers : ℕ → Bool × Header
  payloads : ℕ → Option (List UInt8)
  sent : ℕ → Bool

/-- The answer to a call, and what is left for the next ones. -/
def Feed.answer (f : Feed) : (o : SockOp) → o.Ans × Feed
  | .readMsgheader => (f.headers 0, { f with headers := fun i => f.headers (i + 1) })
  | .readPayloads _ => (f.payloads 0, { f with payloads := fun i => f.payloads (i + 1) })
  | .writeLongMsg _ => (f.sent 0, { f with sent := fun i => f.sent (i + 1) })

end LaunchMON.Lmonp
