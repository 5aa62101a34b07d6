/-
  The security handshake of `tools/handshake/handshake.c`.

  Both ends of a connection run `handshake_main` in rounds.  In a round each of them sends a signature,
  then a packet that says who it is, then its result, and reads the same three from its peer after
  each.  A credential that has expired asks for another round, up to MAX_NUM_TIMEOUTS of them.

  What `encrypt_packet` and `decrypt_packet` do depends on the mechanism and, for munge, on the time:
  a `Cipher` is what they do in one round, and an end has a cipher for each round.  The messages that
  are only logged are left out.
-/
import LaunchMON.Lib.Wire
import LaunchMON.Lib.Bytes

namespace LaunchMON.Handshake

open Wire CBytes

/-! ## Results -/

/-- HSHAKE_SUCCESS and the error returns, with HSHAKE_AGAIN. -/
inductive Rc
  | success
  | internalError
  | dropConnection
  | connectionRefused
  | abort
  | again
  deriving DecidableEq, Repr

/-- The value of a result, as an `int32_t`. -/
def Rc.value : Rc → UInt32
  | .success => 0
  | .internalError => -1
  | .dropConnection => -2
  | .connectionRefused => -3
  | .abort => -4
  | .again => -16

/-! ## Packets -/

/-- SIG, SERVER_TO_CLIENT_SIG and CLIENT_TO_SERVER_SIG. -/
def sig : UInt32 := 0x845D96C1
def serverToClientSig : UInt32 := 0x67AD047E
def clientToServerSig : UInt32 := 0x9B1CC028

/-- `struct sockaddr`, by its family. -/
inductive Sockaddr
  | inet (port : UInt16) (addr : UInt32)
  | other
  deriving DecidableEq, Repr

/-- `handshake_packet_t`.  An address is its `in_addr`, behind which the field is zero. -/
structure Packet where
  signature : UInt32
  serverPort : UInt16
  clientPort : UInt16
  uid : UInt32
  gid : UInt32
  sessionId : UInt64
  serverAddr : UInt32
  clientAddr : UInt32
  deriving DecidableEq, Repr

/-- What one end knows about itself and the connection; `addrs` are the addresses of server and
    client as `get_client_server_addrs` finds them. -/
structure Party where
  isServer : Bool
  uid : UInt32
  gid : UInt32
  sessionId : UInt64
  addrs : Option (Sockaddr × Sockaddr)
  deriving DecidableEq, Repr

/-- `encode_addr`. -/
def encodeAddr : Sockaddr → Except Rc (UInt16 × UInt32)
  | .inet port addr => .ok (port, addr)
  | .other => .error .internalError

/-- `encode_packet`, with the signature that is set next. -/
def encodePacket (me : Party) (serverAddr clientAddr : Sockaddr) (signature : UInt32) :
    Except Rc Packet := do
  let s ← encodeAddr serverAddr
  let c ← encodeAddr clientAddr
  return { signature := signature
           serverPort := s.1
           clientPort := c.1
           uid := me.uid
           gid := me.gid
           sessionId := me.sessionId
           serverAddr := s.2
           clientAddr := c.2 }

/-- `encrypt_packet` and `decrypt_packet` in one round. -/
structure Cipher where
  encrypt : Packet → Except Rc (List UInt8)
  decrypt : Packet → List UInt8 → Rc

/-! ## Messages -/

/-- `exchange_sig`. -/
def exchangeSig : Io Rc := do
  let sent ← Io.put (le32 sig)
  if sent = false then return .internalError
  let got ← Io.get 4
  return got.elim .internalError fun bs => if readLe32 bs = some sig then .success else .dropConnection

/-- `send_packet`. -/
def sendPacket (packet : List UInt8) : Io Rc := do
  let sent ← Io.put (le32 (UInt32.ofNat packet.length))
  if sent = false then return .internalError
  let sent ← Io.put packet
  return if sent then .success else .internalError

/-- The largest packet that is received. -/
def maxPacket : Nat := 0x100000

/-- `recv_packet`. -/
def recvPacket : Io (Except Rc (List UInt8)) := do
  let got ← Io.get 4
  match got with
  | none => return .error .internalError
  | some bs =>
    let size := ((readLe32 bs).getD 0).toNat
    if maxPacket < size then return .error .dropConnection
    let got ← Io.get size
    return got.elim (.error .internalError) .ok

/-- `share_result`: what is sent. -/
def resultToSend : Rc → Rc
  | .success => .success
  | .again => .again
  | .internalError | .dropConnection | .abort | .connectionRefused => .dropConnection

/-- `share_result`: what the value that the peer reports stands for. -/
def peerResult (v : Option UInt32) : Rc :=
  if v = some Rc.success.value then .success
  else if v = some Rc.again.value then .again
  else .connectionRefused

/-- `share_result`. -/
def shareResult (result : Rc) : Io Rc := do
  let sent ← Io.put (le32 (resultToSend result).value)
  if sent = false then return .internalError
  let got ← Io.get 4
  return got.elim .internalError fun bs => peerResult (readLe32 bs)

/-! ## Rounds -/

/-- `handshake_main`, from `done` on without a socket error: only an end that is satisfied itself
    takes the result of its peer. -/
def finish (result : Rc) : Io Rc := do
  let peer ← shareResult result
  return if result = .success then peer else result

/-- `handshake_main`, when the packet of the peer is there. -/
def judge (c : Cipher) (expected : Except Rc Packet) (buf : List UInt8) : Io Rc :=
  match expected with
  | .error r => finish r
  | .ok p => finish (c.decrypt p buf)

/-- `handshake_main`, when the own packet is ready to be sent. -/
def exchangePackets (c : Cipher) (expected : Except Rc Packet) (buf : List UInt8) : Io Rc := do
  let sent ← sendPacket buf
  if sent ≠ .success then return sent
  let got ← recvPacket
  match got with
  | .error r => return r
  | .ok buf' => judge c expected buf'

/-- The packet that an end sends. -/
def ownPacket (me : Party) (server client : Sockaddr) : Except Rc Packet :=
  encodePacket me server client (if me.isServer then serverToClientSig else clientToServerSig)

/-- The packet that an end expects. -/
def expectedPacket (me : Party) (server client : Sockaddr) : Except Rc Packet :=
  encodePacket me server client (if me.isServer then clientToServerSig else serverToClientSig)

/-- `handshake_main`. -/
def handshakeMain (c : Cipher) (me : Party) (server client : Sockaddr) : Io Rc := do
  let result ← exchangeSig
  if result ≠ .success then return result
  match ownPacket me server client with
  | .error r => finish r
  | .ok p =>
    match c.encrypt p with
    | .error r => finish r
    | .ok buf => exchangePackets c (expectedPacket me server client) buf

/-- MAX_NUM_TIMEOUTS. -/
def maxNumTimeouts : Nat := 3

/-- The loop of `handshake_wrapper`, with `left` rounds left; the result comes with `num_timeouts`. -/
def wrapperLoop (rounds : Nat → Cipher) (me : Party) (server client : Sockaddr) :
    Nat → Io (Rc × Nat)
  | 0 => return (.abort, maxNumTimeouts)
  | left + 1 => do
    let numTimeouts := maxNumTimeouts - (left + 1)
    let result ← handshakeMain (rounds numTimeouts) me server client
    if result ≠ .again then return (result, numTimeouts)
    wrapperLoop rounds me server client left

/-- `handshake_wrapper`, that is `handshake_server` and `handshake_client`. -/
def handshakeWrapper (rounds : Nat → Cipher) (me : Party) : Io (Rc × Nat) :=
  match me.addrs with
  | none => return (.internalError, 0)
  | some (server, client) => wrapperLoop rounds me server client maxNumTimeouts

/-! ## Two ends -/

/-- An end that gets as far as the packets in every round. -/
structure End where
  me : Party
  server : Sockaddr
  client : Sockaddr
  rounds : Nat → Cipher
  own : Packet
  expected : Packet
  packet : Nat → List UInt8
  addrs_eq : me.addrs = some (server, client)
  own_eq : ownPacket me server client = .ok own
  expected_eq : expectedPacket me server client = .ok expected
  packet_eq : ∀ k, (rounds k).encrypt own = .ok (packet k)
  packet_le : ∀ k, (packet k).length ≤ maxPacket
  decrypt_ne : ∀ k buf, (rounds k).decrypt expected buf ≠ .connectionRefused

/-- The outcome of round `k` for `e`, when it has received the packet of `f`. -/
def End.outcome (e f : End) (k : Nat) : Rc := (e.rounds k).decrypt e.expected (f.packet k)

def End.main (e : End) (k : Nat) : Io Rc := handshakeMain (e.rounds k) e.me e.server e.client

theorem End.outcome_ne (e f : End) (k : Nat) : e.outcome f k ≠ .connectionRefused :=
  e.decrypt_ne k _

/-- The rounds from round `3 - left` on. -/
def End.rest (e : End) (left : Nat) : Io (Rc × Nat) :=
  wrapperLoop e.rounds e.me e.server e.client left

theorem End.rest_succ (e : End) (left : Nat) : e.rest (left + 1) =
    (e.main (maxNumTimeouts - (left + 1)) >>= fun result =>
      if result ≠ .again then .ret (result, maxNumTimeouts - (left + 1)) else e.rest left) := rfl

end LaunchMON.Handshake
