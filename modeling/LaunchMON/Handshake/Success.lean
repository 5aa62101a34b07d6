/-
  What an end knows that has left the handshake with HSHAKE_SUCCESS, whoever is on the other side of the
  line.

  In the round in which it succeeds it has read the signature, a packet that it accepts, and the word of
  success (`handshakeMain_reads`).  The packet vouches for the fields that it expects, and the fields say
  everything about an end: only the opposite end makes them (`Endpoint.Accepts.maker`).  The signature in
  the packet names the role, so an own packet that comes back is none of them (`not_accepts_own`).

  That nobody makes packets without the key, or credentials in the name of another user, is an
  assumption about the line (`Unforged`).
-/
import LaunchMON.Handshake.Packets
import LaunchMON.Handshake.Lockstep

namespace LaunchMON.Handshake

open Wire CBytes Effect

/-! ## What is read in a round -/

section

variable {past : List UInt8}

theorem exchangeSig_reads : exchangeSig.Reads (fun r bs => r = .success → bs = past ++ le32 sig) past := by
  intro ok
  cases ok with
  | false => exact nofun
  | true =>
    refine ⟨fun bs _ => nofun, fun bs hlen hresult => ?_⟩
    by_cases hsig : readLe32 bs = some sig
    · rw [eq_le32_of_read hlen hsig]
    · exact absurd ((if_neg hsig).symm.trans hresult) (by decide)

theorem sendPacket_reads (packet : List UInt8) : (sendPacket packet).Reads (fun _ bs => bs = past) past := by
  intro ok
  cases ok with
  | false => rfl
  | true => exact fun ok => rfl

theorem recvPacket_reads : recvPacket.Reads (fun got bs => match got with
    | .error r => r ≠ .success
    | .ok buf => buf.length ≤ maxPacket ∧ bs = past ++ (le32 (UInt32.ofNat buf.length) ++ buf)) past := by
  refine ⟨fun bs _ => Rc.noConfusion, fun bs hlen => ?_⟩
  obtain ⟨size, hsize⟩ : ∃ size, readLe32 bs = some size := by
    match bs, hlen with
    | [_, _, _, _], _ => exact ⟨_, rfl⟩
  show Io.Reads _ (if maxPacket < ((readLe32 bs).getD 0).toNat then _ else _) _
  rw [hsize, Option.getD_some]
  by_cases hlarge : maxPacket < size.toNat
  · rw [if_pos hlarge]
    exact Rc.noConfusion
  · rw [if_neg hlarge]
    refine ⟨fun content _ => Rc.noConfusion, fun content hcontent => ⟨by omega, ?_⟩⟩
    rw [hcontent, UInt32.ofNat_toNat, ← eq_le32_of_read hlen hsize, List.append_assoc]

theorem shareResult_reads (result : Rc) : (shareResult result).Reads
    (fun peer bs => peer = .success → bs = past ++ le32 Rc.success.value) past := by
  intro ok
  cases ok with
  | false => exact nofun
  | true =>
    refine ⟨fun bs _ => nofun, fun bs hlen hresult => ?_⟩
    replace hresult : peerResult (readLe32 bs) = .success := hresult
    unfold peerResult at hresult
    split at hresult
    · next hword => rw [eq_le32_of_read hlen hword]
    · split at hresult
      · cases hresult
      · cases hresult

/-- Nobody succeeds whose own result is another one. -/
theorem finish_reads (result : Rc) : (finish result).Reads
    (fun r bs => r = .success → result = .success ∧ bs = past ++ le32 Rc.success.value) past := by
  refine (shareResult_reads result).bind fun peer bs hpeer hgood => ?_
  by_cases hresult : result = .success
  · rw [if_pos hresult] at hgood
    exact ⟨hresult, hpeer hgood⟩
  · rw [if_neg hresult] at hgood
    exact absurd hgood hresult

/-- What an end has read in a round in which it has succeeded: the signature, a packet that it accepts, and
    the success of its peer. -/
def RoundRead (c : Cipher) (expected : Except Rc Packet) (bs : List UInt8) : Prop :=
  ∃ p buf, expected = .ok p ∧ buf.length ≤ maxPacket ∧ c.decrypt p buf = .success ∧
    bs = le32 sig ++ (le32 (UInt32.ofNat buf.length) ++ buf) ++ le32 Rc.success.value

/-- Errors end the handshake. -/
def Fails {α : Type} (x : Except Rc α) : Prop := ∀ r, x = .error r → r.Failed

theorem Rc.Failed.ne_success {r : Rc} (h : r.Failed) : r ≠ .success := by
  rintro rfl
  revert h
  decide

/-- Behind the own packet. -/
theorem exchangePackets_reads (c : Cipher) {expected : Except Rc Packet} (hexpected : Fails expected)
    (buf : List UInt8) :
    (exchangePackets c expected buf).Reads (fun r bs => r = .success → ∃ p buf, expected = .ok p ∧
      buf.length ≤ maxPacket ∧ c.decrypt p buf = .success ∧
      bs = past ++ (le32 (UInt32.ofNat buf.length) ++ buf) ++ le32 Rc.success.value) past := by
  refine (sendPacket_reads buf).bind fun sent bs hbs => ?_
  subst hbs
  by_cases hsent : sent = .success
  · rw [if_neg (not_not_intro hsent)]
    refine recvPacket_reads.bind fun got bs hgot => ?_
    cases got with
    | error r => exact fun hgood => absurd hgood hgot
    | ok buf' =>
      obtain ⟨hle, rfl⟩ := hgot
      cases expected with
      | error r =>
        exact (finish_reads r).mono fun r' bs hfinish hgood =>
          absurd (hfinish hgood).1 (hexpected r rfl).ne_success
      | ok p =>
        refine (finish_reads (c.decrypt p buf')).mono fun r bs hfinish hgood => ?_
        obtain ⟨haccepted, rfl⟩ := hfinish hgood
        exact ⟨p, buf', rfl, hle, haccepted, rfl⟩
  · rw [if_pos hsent]
    exact fun hgood => absurd hgood hsent

theorem encodePacket_fails (me : Party) (server client : Sockaddr) (signature : UInt32) :
    Fails (encodePacket me server client signature) := by
  intro r hr
  cases server with
  | other =>
    cases hr
    decide
  | inet port addr =>
    cases client with
    | other =>
      cases hr
      decide
    | inet port' addr' => cases hr

/-- **A round in which an end succeeds.** -/
theorem handshakeMain_reads (c : Cipher) (hc : ∀ p, Fails (c.encrypt p)) (me : Party)
    (server client : Sockaddr) : (handshakeMain c me server client).Reads
      (fun r bs => r = .success → RoundRead c (expectedPacket me server client) bs) [] := by
  refine exchangeSig_reads.bind fun result bs hresult => ?_
  by_cases hsig : result = .success
  · rw [if_neg (not_not_intro hsig), hresult hsig]
    have hown : Fails (ownPacket me server client) := encodePacket_fails me server client _
    cases howner : ownPacket me server client with
    | error r =>
      exact (finish_reads r).mono fun r' bs hfinish hgood => absurd (hfinish hgood).1 (hown r howner).ne_success
    | ok p =>
      dsimp only
      cases hbuf : c.encrypt p with
      | error r =>
        exact (finish_reads r).mono fun r' bs hfinish hgood => absurd (hfinish hgood).1 (hc p r hbuf).ne_success
      | ok buf => exact exchangePackets_reads c (encodePacket_fails _ _ _ _) buf
  · rw [if_pos hsig]
    exact fun hgood => absurd hgood hsig

end

/-! ## An end on any line -/

/-- A process that runs `handshake_server` or `handshake_client`: what it knows, and what it calls in
    each round. -/
structure Endpoint where
  me : Party
  mechanism : Mechanism
  calls : ℕ → Calls

namespace Endpoint

variable (e : Endpoint)

def rounds (k : ℕ) : Cipher := (e.calls k).cipher e.mechanism

/-- `handshake_server` and `handshake_client`. -/
def handshake : Io (Rc × ℕ) := handshakeWrapper e.rounds e.me

/-- The rounds from round `3 - left` on. -/
def rest (server client : Sockaddr) (left : ℕ) : Io (Rc × ℕ) := wrapperLoop e.rounds e.me server client left

/-- A round against a peer on a line. -/
def round (server client : Sockaddr) (k : ℕ) (line : Line) : Rc × Line :=
  (handshakeMain (e.rounds k) e.me server client).serve line

/-- The line at the beginning of a round. -/
def lineAt (server client : Sockaddr) (line : Line) : ℕ → Line
  | 0 => line
  | k + 1 => (e.round server client k (lineAt server client line k)).2

/-- The packet `buf` is received in round `n`. -/
def Hears (line : Line) (n : ℕ) (buf : List UInt8) : Prop :=
  ∃ server client, e.me.addrs = some (server, client) ∧
    (∀ k < n, (e.round server client k (e.lineAt server client line k)).1 = .again) ∧
    buf.length ≤ maxPacket ∧ ∃ rest, (e.lineAt server client line n).input =
      le32 sig ++ (le32 (UInt32.ofNat buf.length) ++ buf) ++ rest

/-- The packet `buf` is sent in round `k`. -/
def Sends (k : ℕ) (buf : List UInt8) : Prop :=
  ∃ server client own, e.me.addrs = some (server, client) ∧ ownPacket e.me server client = .ok own ∧
    (e.rounds k).encrypt own = .ok buf

/-- The packet `buf` is accepted in round `n`. -/
def Accepts (n : ℕ) (buf : List UInt8) : Prop :=
  ∃ server client expected, e.me.addrs = some (server, client) ∧
    expectedPacket e.me server client = .ok expected ∧ (e.rounds n).decrypt expected buf = .success

/-- The packet `buf` vouches for a structure in round `n`. -/
def Vouched (n : ℕ) (buf image : List UInt8) : Prop :=
  Vouches (e.calls n) e.mechanism e.me.uid e.me.gid buf image

end Endpoint

/-! ## Makers -/

/-- The opposite role with the same session, addresses, ports and user. -/
def Party.opposite (p : Party) : Party := { p with isServer := !p.isServer }

theorem Party.opposite_ne (p : Party) : p.opposite ≠ p := by
  intro h
  have hrole : (!p.isServer) = p.isServer := congrArg Party.isServer h
  revert hrole
  cases p.isServer <;> decide

/-- The structure is the one that the party sends. -/
def Party.Makes (h : Party) (image : List UInt8) : Prop :=
  ∃ server client own padding, h.addrs = some (server, client) ∧ ownPacket h server client = .ok own ∧
    image = own.inMemory padding

/-- Each packet that the end hears and that vouches for a structure has been made by one of `holders`: nobody
    else has the key, or gets a credential of the user. -/
def Unforged (holders : Set Party) (e : Endpoint) (line : Line) : Prop :=
  ∀ n buf image, e.Hears line n buf → e.Vouched n buf image → ∃ h ∈ holders, h.Makes image

/-- An address is known from what is sent of it. -/
theorem encodeAddr_inj {a b : Sockaddr} {x : UInt16 × UInt32} (ha : encodeAddr a = .ok x)
    (hb : encodeAddr b = .ok x) : a = b := by
  cases a with
  | other => cases ha
  | inet port addr =>
    cases b with
    | other => cases hb
    | inet port' addr' =>
      obtain rfl := Except.ok.inj ha
      obtain ⟨rfl, rfl⟩ := Prod.mk.inj (Except.ok.inj hb)
      rfl

theorem encodePacket_eq {me : Party} {server client : Sockaddr} {signature : UInt32} {p : Packet}
    (h : encodePacket me server client signature = .ok p) :
    encodeAddr server = .ok (p.serverPort, p.serverAddr) ∧
      encodeAddr client = .ok (p.clientPort, p.clientAddr) ∧ p.signature = signature ∧ p.uid = me.uid ∧ p.gid = me.gid ∧ p.sessionId = me.sessionId := by
  unfold encodePacket at h
  cases hs : encodeAddr server with
  | error r =>
    rw [hs] at h
    cases h
  | ok s =>
    cases hc : encodeAddr client with
    | error r =>
      rw [hs, hc] at h
      cases h
    | ok c =>
      rw [hs, hc] at h
      obtain rfl := Except.ok.inj h
      exact ⟨rfl, rfl, rfl, rfl, rfl, rfl⟩

/-- **Who makes what is expected** is the opposite end. -/
theorem opposite_of_makes {me h : Party} {server client : Sockaddr} {expected : Packet} {image : List UInt8}
    (haddrs : me.addrs = some (server, client)) (hexpected : expectedPacket me server client = .ok expected)
    (hmakes : h.Makes image) (htake : image.take fieldsSize = expected.fields) : h = me.opposite := by
  obtain ⟨server', client', own, padding, haddrs', hown, rfl⟩ := hmakes
  rw [Packet.take_inMemory] at htake
  obtain rfl := Packet.fields_inj htake
  obtain ⟨hserver, hclient, hsig, huid, hgid, hsession⟩ := encodePacket_eq hexpected
  obtain ⟨hserver', hclient', hsig', huid', hgid', hsession'⟩ := encodePacket_eq hown
  have hrole : h.isServer = !me.isServer := by
    have hsame := hsig.symm.trans hsig'
    revert hsame
    cases h.isServer <;> cases me.isServer <;> decide
  have hs : server' = server := encodeAddr_inj hserver' hserver
  have hc : client' = client := encodeAddr_inj hclient' hclient
  have haddrs'' : h.addrs = me.addrs := by rw [haddrs', haddrs, hs, hc]
  obtain ⟨isServer, uid, gid, sessionId, addrs⟩ := h
  rw [Party.opposite, Party.mk.injEq]
  exact ⟨hrole, huid'.symm.trans huid, hgid'.symm.trans hgid, hsession'.symm.trans hsession, haddrs''⟩

/-! ## Success -/

theorem keyEncryptPacket_fails (c : Calls) (p : Packet) (key : List UInt8) :
    Fails (keyEncryptPacket c p key) := by
  intro r hr
  unfold keyEncryptPacket at hr
  cases hgcrypt : c.gcrypt with
  | false =>
    rw [hgcrypt] at hr
    cases hr
    decide
  | true =>
    cases hhash : c.hmac key (p.inMemory c.padding) with
    | none =>
      rw [hgcrypt, hhash] at hr
      cases hr
      decide
    | some hash =>
      rw [hgcrypt, hhash] at hr
      cases hr

theorem mungeEncryptPacket_fails (c : Calls) (p : Packet) : Fails (mungeEncryptPacket c p) := by
  intro r hr
  unfold mungeEncryptPacket at hr
  cases hmunge : c.munge <;> cases hcreate : c.mungeCtxCreate <;> cases hset : c.mungeCtxSet <;>
    cases hcred : c.mungeEncode (p.inMemory c.padding) <;> rw [hmunge, hcreate, hset, hcred] at hr <;>
    cases hr <;> decide

theorem encryptPacket_fails (c : Calls) (p : Packet) (m : Mechanism) : Fails (encryptPacket c p m) := by
  cases m with
  | none =>
    intro r hr
    replace hr : noneEncryptPacket c p = .error r := hr
    unfold noneEncryptPacket at hr
    split at hr
    · cases hr
    · cases hr
      decide
  | munge => exact mungeEncryptPacket_fails c p
  | keyInFile key =>
    intro r hr
    replace hr : filekeyEncryptPacket c p key = .error r := hr
    unfold filekeyEncryptPacket at hr
    cases hread : c.readKey with
    | false =>
      rw [hread] at hr
      cases hr
      decide
    | true =>
      rw [hread] at hr
      exact keyEncryptPacket_fails c p key r hr
  | explicitKey key => exact keyEncryptPacket_fails c p key

namespace Endpoint

variable {e : Endpoint} {line : Line} {server client : Sockaddr} {n : ℕ}

theorem rest_succ (e : Endpoint) (server client : Sockaddr) (left : ℕ) : e.rest server client (left + 1) =
    (handshakeMain (e.rounds (maxNumTimeouts - (left + 1))) e.me server client >>= fun result =>
      if result ≠ .again then .ret (result, maxNumTimeouts - (left + 1))
      else e.rest server client left) := rfl

theorem handshake_eq (haddrs : e.me.addrs = some (server, client)) :
    e.handshake = e.rest server client maxNumTimeouts := by
  unfold handshake handshakeWrapper
  rw [haddrs]
  rfl

theorem handshake_none (haddrs : e.me.addrs = none) : e.handshake = .ret (.internalError, 0) := by
  unfold handshake handshakeWrapper
  rw [haddrs]
  rfl

/-- A round in which an end succeeds against a line. -/
theorem round_success {k : ℕ} (h : (e.round server client k line).1 = .success) :
    ∃ expected buf rest, expectedPacket e.me server client = .ok expected ∧
      (e.rounds k).decrypt expected buf = .success ∧ buf.length ≤ maxPacket ∧
      line.input = le32 sig ++ (le32 (UInt32.ofNat buf.length) ++ buf) ++ rest := by
  have hreads := handshakeMain_reads (e.rounds k) (fun p => encryptPacket_fails _ p _) e.me server client
  obtain ⟨bs, hbs, hround⟩ := hreads.serve line
  obtain ⟨expected, buf, hexpected, hle, haccepted, rfl⟩ := hround h
  exact ⟨expected, buf, _, hexpected, haccepted, hle, hbs.trans (List.append_assoc _ _ _)⟩

/-- A round, and what it says about the rounds behind it. -/
theorem rest_serve (left : ℕ) (line : Line) : (e.rest server client (left + 1)).serve line =
    (if (e.round server client (maxNumTimeouts - (left + 1)) line).1 ≠ .again then
      .ret ((e.round server client (maxNumTimeouts - (left + 1)) line).1, maxNumTimeouts - (left + 1))
    else e.rest server client left).serve (e.round server client (maxNumTimeouts - (left + 1)) line).2 :=
  Io.serve_bind _ _ _

/-- The loop succeeds in a round before which it has only been asked to try again. -/
theorem rest_success (left : ℕ) (hle : left ≤ maxNumTimeouts)
    (h : ((e.rest server client left).serve
      (e.lineAt server client line (maxNumTimeouts - left))).1 = (.success, n)) :
    maxNumTimeouts - left ≤ n ∧ (∀ k < n, maxNumTimeouts - left ≤ k →
      (e.round server client k (e.lineAt server client line k)).1 = .again) ∧
      (e.round server client n (e.lineAt server client line n)).1 = .success := by
  induction left with
  | zero => cases h
  | succ left ih =>
    rw [rest_serve] at h
    have hnext : maxNumTimeouts - left = maxNumTimeouts - (left + 1) + 1 := by omega
    rw [hnext] at ih
    generalize maxNumTimeouts - (left + 1) = k at h ih ⊢
    by_cases hagain : (e.round server client k (e.lineAt server client line k)).1 = .again
    · rw [if_neg (not_not_intro hagain)] at h
      obtain ⟨hn, hretries, hsuccess⟩ := ih (by omega) h
      refine ⟨by omega, fun j hlt hge => ?_, hsuccess⟩
      rcases Nat.eq_or_lt_of_le hge with rfl | hge
      · exact hagain
      · exact hretries j hlt hge
    · rw [if_pos hagain] at h
      obtain ⟨hresult, rfl⟩ := Prod.mk.inj h
      exact ⟨le_refl _, fun j hlt hge => absurd hlt (by omega), hresult⟩

/-- **An end that succeeds** has heard a packet in this round that it accepts. -/
theorem handshake_success (h : (e.handshake.serve line).1 = (.success, n)) :
    ∃ buf, e.Hears line n buf ∧ e.Accepts n buf := by
  cases haddrs : e.me.addrs with
  | none =>
    rw [handshake_none haddrs] at h
    cases h
  | some addrs =>
    obtain ⟨server, client⟩ := addrs
    rw [handshake_eq haddrs] at h
    obtain ⟨-, hretries, hsuccess⟩ := rest_success maxNumTimeouts (le_refl _) h
    obtain ⟨expected, buf, rest, hexpected, haccepted, hle, hinput⟩ := round_success hsuccess
    exact ⟨buf, ⟨server, client, haddrs, fun k hk => hretries k hk (by omega), hle, rest, hinput⟩,
      ⟨server, client, expected, haddrs, hexpected, haccepted⟩⟩

/-- A packet that is accepted vouches for a structure with the expected fields. -/
theorem Accepts.expected {buf : List UInt8} (h : e.Accepts n buf) : ∃ server client expected image,
    e.me.addrs = some (server, client) ∧ expectedPacket e.me server client = .ok expected ∧
      e.Vouched n buf image ∧ image.take fieldsSize = expected.fields := by
  obtain ⟨server, client, expected, haddrs, hexpected, haccepted⟩ := h
  have hdecides := decides_decrypt (e.calls n) expected buf e.mechanism
  obtain ⟨-, image, hvouches, htake⟩ := hdecides.success_iff.mp haccepted
  obtain ⟨-, -, -, huid, hgid, -⟩ := encodePacket_eq hexpected
  refine ⟨server, client, expected, image, haddrs, hexpected, ?_, htake⟩
  rw [huid, hgid] at hvouches
  exact hvouches

/-- **Only the opposite end** makes what is accepted. -/
theorem Accepts.maker {buf : List UInt8} (h : e.Accepts n buf) {holders : Set Party}
    (hmade : ∀ image, e.Vouched n buf image → ∃ h ∈ holders, h.Makes image) :
    ∃ image, e.Vouched n buf image ∧ e.me.opposite ∈ holders ∧ e.me.opposite.Makes image := by
  obtain ⟨server, client, expected, image, haddrs, hexpected, hvouched, htake⟩ := h.expected
  obtain ⟨h, hmem, hmakes⟩ := hmade image hvouched
  obtain rfl := opposite_of_makes haddrs hexpected hmakes htake
  exact ⟨image, hvouched, hmem, hmakes⟩

end Endpoint

/-! ## Own packets -/

/-- What `munge_decode` finds in a credential of `munge_encode` is what has been put into it. -/
def Faithful (e f : Endpoint) : Prop := ∀ k n image cred, (f.calls k).mungeEncode image = some cred →
  ((e.calls n).mungeDecode cred.bytes).result = .success →
    ((e.calls n).mungeDecode cred.bytes).payload = image

theorem keyEncryptPacket_ok {c : Calls} {p : Packet} {key buf : List UInt8}
    (h : keyEncryptPacket c p key = .ok buf) : ∃ hash, c.hmac key (p.inMemory c.padding) = some hash ∧
      buf = p.inMemory c.padding ++ hash.take hashSize := by
  unfold keyEncryptPacket at h
  cases hgcrypt : c.gcrypt with
  | false =>
    rw [hgcrypt] at h
    cases h
  | true =>
    cases hhash : c.hmac key (p.inMemory c.padding) with
    | none =>
      rw [hgcrypt, hhash] at h
      cases h
    | some hash =>
      rw [hgcrypt, hhash] at h
      cases h
      exact ⟨hash, rfl, rfl⟩

theorem mungeEncryptPacket_ok {c : Calls} {p : Packet} {buf : List UInt8}
    (h : mungeEncryptPacket c p = .ok buf) : ∃ cred, c.mungeEncode (p.inMemory c.padding) = some cred ∧
      buf = cred.bytes ++ [0] := by
  unfold mungeEncryptPacket at h
  cases hmunge : c.munge <;> cases hcreate : c.mungeCtxCreate <;> cases hset : c.mungeCtxSet <;>
    cases hcred : c.mungeEncode (p.inMemory c.padding) <;> rw [hmunge, hcreate, hset, hcred] at h <;>
    cases h
  exact ⟨_, rfl, rfl⟩

/-- A packet starts with the structure, or is a credential for it. -/
def MadeFrom (c : Calls) (p : Packet) (buf : List UInt8) : Mechanism → Prop
  | .none => buf = p.inMemory c.padding
  | .munge => ∃ cred, c.mungeEncode (p.inMemory c.padding) = some cred ∧ buf = cred.bytes ++ [0]
  | .keyInFile key | .explicitKey key => ∃ hash, c.hmac key (p.inMemory c.padding) = some hash ∧
      buf = p.inMemory c.padding ++ hash.take hashSize

theorem encryptPacket_ok {c : Calls} {p : Packet} {m : Mechanism} {buf : List UInt8}
    (h : encryptPacket c p m = .ok buf) : MadeFrom c p buf m := by
  cases m with
  | none =>
    replace h : noneEncryptPacket c p = .ok buf := h
    unfold noneEncryptPacket at h
    split at h
    · exact (Except.ok.inj h).symm
    · cases h
  | munge => exact mungeEncryptPacket_ok h
  | keyInFile key =>
    replace h : filekeyEncryptPacket c p key = .ok buf := h
    unfold filekeyEncryptPacket at h
    cases hread : c.readKey with
    | false =>
      rw [hread] at h
      cases h
    | true =>
      rw [hread] at h
      exact keyEncryptPacket_ok h
  | explicitKey key => exact keyEncryptPacket_ok h

/-- The string in front of the first NUL. -/
theorem takeWhile_cred (cred : CString) (behind : List UInt8) :
    (cred.bytes ++ [0] ++ behind).takeWhile (· ≠ 0) = cred.bytes := by
  rw [List.append_assoc, List.takeWhile_append_of_pos fun b hb =>
    decide_eq_true (ne_of_mem_of_not_mem hb cred.noNul)]
  exact List.append_nil _

/-- **What a packet vouches for** is what it has been made from. -/
theorem vouched_sent {e f : Endpoint} (hfaithful : Faithful e f) {k n : ℕ} {p : Packet}
    {buf image : List UInt8} (hm : e.mechanism = f.mechanism) (hbuf : (f.rounds k).encrypt p = .ok buf) (h : e.Vouched n buf image) :
    image = p.inMemory (f.calls k).padding := by
  have hok : MadeFrom (f.calls k) p buf f.mechanism := encryptPacket_ok hbuf
  have hlen := p.length_inMemory (f.calls k).padding
  obtain ⟨himage, hv⟩ := h
  rw [hm] at hv
  cases hmech : f.mechanism with
  | none =>
    rw [hmech] at hv hok
    exact hv.symm.trans hok
  | munge =>
    rw [hmech] at hv hok
    obtain ⟨cred, hcred, rfl⟩ := hok
    obtain ⟨hsuccess, hpayload, -, -⟩ := hv
    rw [takeWhile_cred] at hsuccess hpayload
    exact hpayload.symm.trans (hfaithful k n _ cred hcred hsuccess)
  | keyInFile key =>
    rw [hmech] at hv hok
    obtain ⟨hash, -, rfl⟩ := hok
    obtain ⟨hash', -, -, heq⟩ := hv
    exact (List.append_inj_left heq (hlen.trans himage.symm)).symm
  | explicitKey key =>
    rw [hmech] at hv hok
    obtain ⟨hash, -, rfl⟩ := hok
    obtain ⟨hash', -, -, heq⟩ := hv
    exact (List.append_inj_left heq (hlen.trans himage.symm)).symm

/-- **A packet that comes back** is not accepted. -/
theorem not_accepts_own {e : Endpoint} (hfaithful : Faithful e e) {k n : ℕ} {buf : List UInt8}
    (hsends : e.Sends k buf) : ¬e.Accepts n buf := by
  intro haccepts
  obtain ⟨server, client, own, haddrs, hown, hbuf⟩ := hsends
  have hmade : ∀ image, e.Vouched n buf image → ∃ h ∈ ({e.me} : Set Party), h.Makes image :=
    fun image hvouched =>
      ⟨e.me, rfl, server, client, own, _, haddrs, hown, vouched_sent hfaithful rfl hbuf hvouched⟩
  obtain ⟨image, -, hmem, -⟩ := haccepts.maker hmade
  exact e.me.opposite_ne (Set.mem_singleton_iff.mp hmem)

end LaunchMON.Handshake
