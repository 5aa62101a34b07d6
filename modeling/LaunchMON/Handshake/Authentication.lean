/-
  Does the handshake authenticate both ends?

  An end is not told by a packet when it has been made, and nothing protects the word with the result of
  its peer.  So success on any line says who has made the packet (`Endpoint.handshake_success`), and not
  that its maker is in the same round, or has accepted anything (`handshake_not_mutual`).

  When the bytes of each end get to the other one, success is mutual (`success_mutual`).  Two ends that
  have packets go through a round as in the lockstep of `Lockstep`.  An end without a packet sends the word
  of a failure where its peer expects a size, and the word is too large for a size, so both ends fail
  (`early_run`).  In each case the ends come to a state in which nothing is left to be done
  (`connection_settles`), and that one schedule settles all of them.
-/
import LaunchMON.Handshake.Success

namespace LaunchMON.Handshake

open Wire FifoNet Relation Descent CBytes

/-! ## Rounds with packets -/

/-- What an end has that gets as far as the packets in round `k`. -/
structure Ready (e : Endpoint) (server client : Sockaddr) (k : ℕ) where
  own : Packet
  expected : Packet
  packet : List UInt8
  addrs_eq : e.me.addrs = some (server, client)
  own_eq : ownPacket e.me server client = .ok own
  expected_eq : expectedPacket e.me server client = .ok expected
  packet_eq : (e.rounds k).encrypt own = .ok packet
  packet_le : packet.length ≤ maxPacket

namespace Ready

variable {e f : Endpoint} {server client server' client' : Sockaddr} {k : ℕ}

/-- An end whose rounds are all like this one. -/
def toEnd (r : Ready e server client k) : End where
  me := e.me
  server := server
  client := client
  rounds _ := e.rounds k
  own := r.own
  expected := r.expected
  packet _ := r.packet
  addrs_eq := r.addrs_eq
  own_eq := r.own_eq
  expected_eq := r.expected_eq
  packet_eq _ := r.packet_eq
  packet_le _ := r.packet_le
  decrypt_ne _ buf := (decides_decrypt (e.calls k) r.expected buf e.mechanism).ne_refused

/-- The outcome of the round, with the packet of the peer. -/
def outcome (r : Ready e server client k) (r' : Ready f server' client' k) : Rc :=
  (e.rounds k).decrypt r.expected r'.packet

theorem sends (r : Ready e server client k) : e.Sends k r.packet :=
  ⟨server, client, r.own, r.addrs_eq, r.own_eq, r.packet_eq⟩

theorem accepts (r : Ready e server client k) (r' : Ready f server' client' k)
    (h : r.outcome r' = .success) : e.Accepts k r'.packet :=
  ⟨server, client, r.expected, r.addrs_eq, r.expected_eq, h⟩

/-- **A round with packets.** -/
theorem run {cap : Bool × Bool → ℕ∞} {α : Type} (r : Ready e server client k)
    (r' : Ready f server' client' k) (g h : Rc → Io α)
    (he : ((4 + r.packet.length : ℕ) : ℕ∞) ≤ cap (true, false))
    (hf : ((4 + r'.packet.length : ℕ) : ℕ∞) ≤ cap (false, true)) :
    ReflTransGen (ByteStep cap)
      (duo ((handshakeMain (e.rounds k) e.me server client >>= g).net false)
        ((handshakeMain (f.rounds k) f.me server' client' >>= h).net true) [] [])
      (duo ((g (combine (r.outcome r') (r'.outcome r))).net false)
        ((h (combine (r'.outcome r) (r.outcome r'))).net true) [] []) :=
  round_run r.toEnd r'.toEnd k g h he hf

end Ready

/-! ## Rounds without -/

theorem Rc.Failed.ne_again {r : Rc} (h : r.Failed) : r ≠ .again := by
  rintro rfl
  revert h
  decide

theorem Rc.Failed.resultToSend {r : Rc} (h : r.Failed) : resultToSend r = .dropConnection := by
  rcases h with rfl | rfl | rfl <;> rfl

section

variable {α : Type} {c : Cipher} {me : Party} {server client : Sockaddr} {own : Packet}

/-- The packet that is to be sent in a round. -/
def offer (c : Cipher) (me : Party) (server client : Sockaddr) : Except Rc (List UInt8) :=
  ownPacket me server client >>= c.encrypt

theorem finish_net {r : Rc} (hr : r.Failed) (g : Rc → Io α) (peer : Bool) :
    (finish r >>= g).net peer =
      .send peer (le32 Rc.dropConnection.value) (.recv peer 4 fun _ => (g r).net peer) := by
  unfold finish shareResult
  rw [hr.resultToSend]
  simp [Io.net, hr.ne_success]

theorem handshakeMain_eq : handshakeMain c me server client = exchangeSig >>= fun result =>
    if result ≠ .success then pure result else match offer c me server client with
      | .error r => finish r
      | .ok buf => exchangePackets c (expectedPacket me server client) buf := by
  unfold handshakeMain offer
  cases ownPacket me server client with
  | error r => rfl
  | ok p => rfl

theorem exchangeSig_net (f : Rc → Io α) (peer : Bool) : (exchangeSig >>= f).net peer =
    .send peer (le32 sig) (.recv peer 4 fun bs =>
      (f (if readLe32 bs = some sig then .success else .dropConnection)).net peer) := rfl

/-- What comes first in a round. -/
theorem main_net (g : Rc → Io α) (peer : Bool) : (handshakeMain c me server client >>= g).net peer =
    .send peer (le32 sig) (.recv peer 4 fun bs => if readLe32 bs = some sig then
      (match offer c me server client with
        | .error r => finish r >>= g
        | .ok buf => exchangePackets c (expectedPacket me server client) buf >>= g).net peer
    else (g .dropConnection).net peer) := by
  rw [handshakeMain_eq, bind_assoc, exchangeSig_net]
  refine congrArg (Prog.send peer (le32 sig)) (congrArg (Prog.recv peer 4) (funext fun bs => ?_))
  by_cases h : readLe32 bs = some sig
  · rw [if_pos h, if_pos h, if_neg (not_not_intro rfl)]
    cases offer c me server client with
    | error r => rfl
    | ok buf => rfl
  · rw [if_neg h, if_neg h]
    rfl

theorem sendPacket_net (packet : List UInt8) (f : Rc → Io α) (peer : Bool) :
    (sendPacket packet >>= f).net peer =
      .send peer (le32 (UInt32.ofNat packet.length)) (.send peer packet ((f .success).net peer)) := rfl

theorem recvPacket_net (f : Except Rc (List UInt8) → Io α) (peer : Bool) : (recvPacket >>= f).net peer =
    .recv peer 4 fun bs =>
      if maxPacket < ((readLe32 bs).getD 0).toNat then (f (.error .dropConnection)).net peer
      else .recv peer ((readLe32 bs).getD 0).toNat fun buf => (f (.ok buf)).net peer := by
  refine congrArg (Prog.recv peer 4) (funext fun bs => ?_)
  by_cases h : maxPacket < ((readLe32 bs).getD 0).toNat
  · rw [if_pos h]
    exact congrArg (fun x : Io (Except Rc (List UInt8)) => (x >>= f).net peer) (if_pos h)
  · rw [if_neg h]
    exact congrArg (fun x : Io (Except Rc (List UInt8)) => (x >>= f).net peer) (if_neg h)

/-- What comes next, up to the packet of the peer. -/
theorem exchangePackets_net (expected : Except Rc Packet) (buf : List UInt8) (g : Rc → Io α) (peer : Bool) :
    (exchangePackets c expected buf >>= g).net peer =
      .send peer (le32 (UInt32.ofNat buf.length)) (.send peer buf (.recv peer 4 fun bs =>
        if maxPacket < ((readLe32 bs).getD 0).toNat then (g .dropConnection).net peer
        else .recv peer ((readLe32 bs).getD 0).toNat fun buf' => (judge c expected buf' >>= g).net peer)) := by
  unfold exchangePackets
  rw [bind_assoc, sendPacket_net, if_neg (not_not_intro rfl), bind_assoc, recvPacket_net]
  rfl

end

/-- Buffers that hold everything. -/
def unbounded : Bool × Bool → ℕ∞ := fun _ => ⊤

theorem failure_word : readLe32 (le32 Rc.dropConnection.value) = some Rc.dropConnection.value :=
  readLe32_le32 _

/-- The word of a failure is no size of a packet. -/
theorem failure_large : maxPacket < ((readLe32 (le32 Rc.dropConnection.value)).getD 0).toNat := by
  rw [failure_word]
  decide

section

variable {α : Type} {c c' : Cipher} {me me' : Party} {server client server' client' : Sockaddr}

/-- **A round without packets**: both ends fail if one of them has no packet. -/
theorem early_run (h : Fails (offer c me server client)) (h' : Fails (offer c' me' server' client'))
    (hearly : ∀ buf buf', offer c me server client = .ok buf → offer c' me' server' client' ≠ .ok buf')
    (g g' : Rc → Io α) : ∃ a b x y, a.Failed ∧ b.Failed ∧ ReflTransGen (ByteStep unbounded)
      (duo ((handshakeMain c me server client >>= g).net false)
        ((handshakeMain c' me' server' client' >>= g').net true) [] [])
      (duo ((g a).net false) ((g' b).net true) x y) := by
  have hsig : readLe32 (le32 sig) = some sig := readLe32_le32 _
  rw [main_net, main_net]
  -- the signatures
  have hsigs : ∀ P Q : Prog Bool UInt8 α, ReflTransGen (ByteStep unbounded)
      (duo (.send false (le32 sig) (.recv false 4 fun bs => if readLe32 bs = some sig then P
          else (g .dropConnection).net false))
        (.send true (le32 sig) (.recv true 4 fun bs => if readLe32 bs = some sig then Q
          else (g' .dropConnection).net true)) [] []) (duo P Q [] []) := by
    intro P Q
    refine (duo_put_true le_top).trans ?_
    refine (duo_put_false le_top).trans ?_
    refine (@duo_take_true _ _ unbounded _ _ _ (le32 sig)).trans ?_
    refine (@duo_take_false _ _ unbounded _ _ _ (le32 sig)).trans ?_
    rw [if_pos hsig, if_pos hsig]
  cases hoffer : offer c me server client with
  | error r =>
    have hr := h r hoffer
    cases hoffer' : offer c' me' server' client' with
    | error r' =>
      have hr' := h' r' hoffer'
      refine ⟨r, r', [], [], hr, hr', (hsigs _ _).trans ?_⟩
      rw [finish_net hr, finish_net hr']
      refine (duo_put_true le_top).trans ?_
      refine (duo_put_false le_top).trans ?_
      refine (@duo_take_true _ _ unbounded _ _ _ (le32 _)).trans ?_
      exact @duo_take_false _ _ unbounded _ _ _ (le32 _)
    | ok buf' =>
      refine ⟨r, .dropConnection, [], buf', hr, by decide, (hsigs _ _).trans ?_⟩
      dsimp only
      rw [finish_net hr, exchangePackets_net]
      refine (duo_put_true le_top).trans ?_
      refine (duo_put_false le_top).trans ?_
      refine (duo_put_false le_top).trans ?_
      refine (@duo_get_true _ _ unbounded _ _ _ buf' (le32 _)).trans ?_
      refine (@duo_take_false _ _ unbounded _ _ _ (le32 _)).trans ?_
      rw [if_pos failure_large]
  | ok buf =>
    cases hoffer' : offer c' me' server' client' with
    | error r' =>
      have hr' := h' r' hoffer'
      refine ⟨.dropConnection, r', buf, [], by decide, hr', (hsigs _ _).trans ?_⟩
      dsimp only
      rw [finish_net hr', exchangePackets_net]
      refine (duo_put_false le_top).trans ?_
      refine (duo_put_true le_top).trans ?_
      refine (duo_put_true le_top).trans ?_
      refine (@duo_get_false _ _ unbounded _ _ buf _ (le32 _)).trans ?_
      refine (@duo_take_true _ _ unbounded _ _ _ (le32 _)).trans ?_
      rw [if_pos failure_large]
    | ok buf' => exact absurd hoffer' (hearly buf buf' hoffer)

end

/-! ## The handshake of two ends -/

/-- An end has packets that its peer does not find too large. -/
def Short (e : Endpoint) : Prop := ∀ k buf, e.Sends k buf → buf.length ≤ maxPacket

/-- In round `n` each end accepts the packet that the other one sends. -/
def Mutual (e f : Endpoint) (n : ℕ) : Prop :=
  ∃ buf buf', e.Sends n buf ∧ f.Sends n buf' ∧ e.Accepts n buf' ∧ f.Accepts n buf

/-- Both ends at the beginning of the handshake, with nothing between them. -/
def connection (e f : Endpoint) : Net Bool UInt8 (Rc × ℕ) :=
  duo (e.handshake.net false) (f.handshake.net true) [] []

/-- Whoever has succeeded has done so in a round in which both ends accept. -/
def Agreed (e f : Endpoint) (t : Net Bool UInt8 (Rc × ℕ)) : Prop :=
  ∀ p n, t.prog p = .ret (.success, n) → Mutual e f n

namespace Endpoint

variable {e f : Endpoint} {server client server' client' : Sockaddr} {k : ℕ}

/-- An end has a packet for a round, or fails. -/
theorem offer_fails (e : Endpoint) (server client : Sockaddr) (k : ℕ) :
    Fails (offer (e.rounds k) e.me server client) := by
  intro r hr
  unfold offer at hr
  cases howner : ownPacket e.me server client with
  | error r' =>
    rw [howner] at hr
    cases hr
    exact encodePacket_fails e.me server client _ _ howner
  | ok p =>
    rw [howner] at hr
    exact encryptPacket_fails (e.calls k) p e.mechanism r hr

theorem encodePacket_ok {me : Party} {signature signature' : UInt32} {p : Packet}
    (h : encodePacket me server client signature = .ok p) :
    encodePacket me server client signature' = .ok { p with signature := signature' } := by
  obtain ⟨hserver, hclient, -, huid, hgid, hsession⟩ := encodePacket_eq h
  unfold encodePacket
  rw [hserver, hclient, ← huid, ← hgid, ← hsession]
  rfl

theorem exists_ready (hshort : Short e) (haddrs : e.me.addrs = some (server, client)) {buf : List UInt8}
    (h : offer (e.rounds k) e.me server client = .ok buf) :
    ∃ r : Ready e server client k, r.packet = buf := by
  unfold offer at h
  cases hown : ownPacket e.me server client with
  | error r =>
    rw [hown] at h
    cases h
  | ok own =>
    rw [hown] at h
    exact ⟨{ own := own
             expected := _
             packet := buf
             addrs_eq := haddrs
             own_eq := hown
             expected_eq := encodePacket_ok hown
             packet_eq := h
             packet_le := hshort k buf ⟨server, client, own, haddrs, hown, h⟩ }, rfl⟩

/-- An end that goes on alone does not succeed. -/
theorem rest_alone_true (e : Endpoint) (server client : Sockaddr) (left : ℕ) (b : Rc × ℕ) :
    ∃ t, ReflTransGen (ByteStep unbounded) (duo ((e.rest server client left).net false) (.ret b) [] []) t ∧
      Stuck (ByteStep unbounded) t ∧ t.prog false = .ret b ∧ ∀ n, t.prog true ≠ .ret (.success, n) := by
  cases left with
  | zero =>
    refine ⟨_, ReflTransGen.refl, stuck_of_finished _ (duo_finished _ _ _ _), rfl, fun n h => ?_⟩
    cases h
  | succ left =>
    rw [rest_succ, main_net]
    refine ⟨_, duo_put_true le_top, stuck_duo_true, rfl, fun n h => ?_⟩
    cases h

theorem rest_alone_false (f : Endpoint) (server client : Sockaddr) (left : ℕ) (a : Rc × ℕ) :
    ∃ t, ReflTransGen (ByteStep unbounded) (duo (.ret a) ((f.rest server client left).net true) [] []) t ∧
      Stuck (ByteStep unbounded) t ∧ t.prog true = .ret a ∧ ∀ n, t.prog false ≠ .ret (.success, n) := by
  cases left with
  | zero =>
    refine ⟨_, ReflTransGen.refl, stuck_of_finished _ (duo_finished _ _ _ _), rfl, fun n h => ?_⟩
    cases h
  | succ left =>
    rw [rest_succ, main_net]
    refine ⟨_, duo_put_false le_top, stuck_duo_false, rfl, fun n h => ?_⟩
    cases h

end Endpoint

/-- A round succeeds only if both ends are satisfied. -/
theorem combine_success {a b : Rc} (h : combine a b = .success) : a = .success ∧ b = .success := by
  cases a <;> cases b <;> revert h <;> decide

section

variable {e f : Endpoint} {server client server' client' : Sockaddr}

/-- Both ends are satisfied. -/
theorem Ready.mutual {k : ℕ} (r : Ready e server client k) (r' : Ready f server' client' k)
    (h : r.outcome r' = .success) (h' : r'.outcome r = .success) : Mutual e f k :=
  ⟨r.packet, r'.packet, r.sends, r'.sends, r.accepts r' h, r'.accepts r h'⟩

/-- One end has left in round `k`, and the other one does not succeed. -/
theorem agreed_of_left {t : Net Bool UInt8 (Rc × ℕ)} {p : Bool} {a : Rc} {k : ℕ}
    (hleft : t.prog p = .ret (a, k)) (hno : ∀ n, t.prog (!p) ≠ .ret (.success, n)) (ha : a = .success → Mutual e f k) : Agreed e f t := by
  intro q n hq
  rcases Bool.eq_or_eq_not q p with rfl | rfl
  · obtain ⟨rfl, rfl⟩ := Prod.mk.inj (Prog.ret.inj (hleft.symm.trans hq))
    exact ha rfl
  · exact absurd hq (hno n)

/-- Both ends have left in round `k`. -/
theorem agreed_of_finished {a b : Rc} {k : ℕ} {x y : List UInt8} (ha : a = .success → Mutual e f k)
    (hb : b = .success → Mutual e f k) : Agreed e f (duo (.ret (a, k)) (.ret (b, k)) x y) := by
  intro p n hp
  cases p with
  | true =>
    obtain ⟨rfl, rfl⟩ := Prod.mk.inj (Prog.ret.inj hp)
    exact ha rfl
  | false =>
    obtain ⟨rfl, rfl⟩ := Prod.mk.inj (Prog.ret.inj hp)
    exact hb rfl

/-- **The rounds of two ends** come to a state in which nothing is left to be done. -/
theorem rest_settles (he : Short e) (hf : Short f) (haddrs : e.me.addrs = some (server, client))
    (haddrs' : f.me.addrs = some (server', client')) (left : ℕ) : ∃ t,
    ReflTransGen (ByteStep unbounded)
      (duo ((e.rest server client left).net false) ((f.rest server' client' left).net true) [] []) t ∧
      Stuck (ByteStep unbounded) t ∧ Agreed e f t := by
  induction left with
  | zero =>
    refine ⟨_, ReflTransGen.refl, stuck_of_finished _ (duo_finished _ _ _ _), fun p n h => ?_⟩
    cases p <;> cases h
  | succ left ih =>
    rw [Endpoint.rest_succ, Endpoint.rest_succ]
    generalize hk : maxNumTimeouts - (left + 1) = k
    by_cases hready : Nonempty (Ready e server client k) ∧ Nonempty (Ready f server' client' k)
    · obtain ⟨⟨r⟩, ⟨r'⟩⟩ := hready
      have hrun := @Ready.run e f server client server' client' k unbounded (Rc × ℕ) r r'
        (fun result => if result ≠ .again then .ret (result, k) else e.rest server client left)
        (fun result => if result ≠ .again then .ret (result, k) else f.rest server' client' left)
        le_top le_top
      have ha : combine (r.outcome r') (r'.outcome r) = .success → Mutual e f k := fun h =>
        r.mutual r' (combine_success h).1 (combine_success h).2
      have hb : combine (r'.outcome r) (r.outcome r') = .success → Mutual e f k := fun h =>
        r.mutual r' (combine_success h).2 (combine_success h).1
      generalize combine (r.outcome r') (r'.outcome r) = a at hrun ha
      generalize combine (r'.outcome r) (r.outcome r') = b at hrun hb
      by_cases hagain : a = .again
      · by_cases hagain' : b = .again
        · rw [if_neg (not_not_intro hagain), if_neg (not_not_intro hagain')] at hrun
          obtain ⟨t, ht, hstuck, hagreed⟩ := ih
          exact ⟨t, hrun.trans ht, hstuck, hagreed⟩
        · rw [if_neg (not_not_intro hagain), if_pos hagain'] at hrun
          obtain ⟨t, ht, hstuck, hleft, hno⟩ := e.rest_alone_true server client left (b, k)
          exact ⟨t, hrun.trans ht, hstuck, agreed_of_left hleft hno hb⟩
      · by_cases hagain' : b = .again
        · rw [if_pos hagain, if_neg (not_not_intro hagain')] at hrun
          obtain ⟨t, ht, hstuck, hleft, hno⟩ := f.rest_alone_false server' client' left (a, k)
          exact ⟨t, hrun.trans ht, hstuck, agreed_of_left hleft hno ha⟩
        · rw [if_pos hagain, if_pos hagain'] at hrun
          exact ⟨_, hrun, stuck_of_finished _ (duo_finished _ _ _ _), agreed_of_finished ha hb⟩
    · have hearly : ∀ buf buf', offer (e.rounds k) e.me server client = .ok buf →
          offer (f.rounds k) f.me server' client' ≠ .ok buf' := by
        intro buf buf' hoffer hoffer'
        obtain ⟨r, -⟩ := Endpoint.exists_ready he haddrs hoffer
        obtain ⟨r', -⟩ := Endpoint.exists_ready hf haddrs' hoffer'
        exact hready ⟨⟨r⟩, ⟨r'⟩⟩
      obtain ⟨a, b, x, y, ha, hb, hrun⟩ := early_run (e.offer_fails server client k)
        (f.offer_fails server' client' k) hearly
        (fun result => if result ≠ .again then .ret (result, k) else e.rest server client left)
        (fun result => if result ≠ .again then .ret (result, k) else f.rest server' client' left)
      rw [if_pos ha.ne_again, if_pos hb.ne_again] at hrun
      exact ⟨_, hrun, stuck_of_finished _ (duo_finished _ _ _ _),
        agreed_of_finished (fun h => absurd h ha.ne_success) fun h => absurd h hb.ne_success⟩

/-- **The handshake of two ends**, whatever they have to start with. -/
theorem connection_settles (he : Short e) (hf : Short f) : ∃ t,
    ReflTransGen (ByteStep unbounded) (connection e f) t ∧ Stuck (ByteStep unbounded) t ∧ Agreed e f t := by
  unfold connection
  cases haddrs : e.me.addrs with
  | none =>
    rw [Endpoint.handshake_none haddrs]
    cases haddrs' : f.me.addrs with
    | none =>
      rw [Endpoint.handshake_none haddrs']
      exact ⟨_, ReflTransGen.refl, stuck_of_finished _ (duo_finished _ _ _ _),
        agreed_of_finished nofun nofun⟩
    | some addrs =>
      rw [Endpoint.handshake_eq haddrs']
      obtain ⟨t, ht, hstuck, hleft, hno⟩ :=
        f.rest_alone_false addrs.1 addrs.2 maxNumTimeouts (.internalError, 0)
      exact ⟨t, ht, hstuck, agreed_of_left hleft hno nofun⟩
  | some addrs =>
    rw [Endpoint.handshake_eq haddrs]
    cases haddrs' : f.me.addrs with
    | none =>
      rw [Endpoint.handshake_none haddrs']
      obtain ⟨t, ht, hstuck, hleft, hno⟩ :=
        e.rest_alone_true addrs.1 addrs.2 maxNumTimeouts (.internalError, 0)
      exact ⟨t, ht, hstuck, agreed_of_left hleft hno nofun⟩
    | some addrs' =>
      rw [Endpoint.handshake_eq haddrs']
      exact rest_settles he hf haddrs haddrs' maxNumTimeouts

/-- **Success is mutual** when the bytes of each end get to the other one, on every schedule. -/
theorem success_mutual {cap : Bool × Bool → ℕ∞} (he : Short e) (hf : Short f)
    {t : Net Bool UInt8 (Rc × ℕ)} (ht : ReflTransGen (Step cap) (connection e f) t) : Agreed e f t := by
  obtain ⟨s, hs, hstuck, hagreed⟩ := connection_settles he hf
  have hends : EndsIn (Step unbounded) (connection e f) s :=
    EndsIn.of_run (byteStep_closing unbounded) (fun _ _ => ByteStep.step unbounded)
      (fun _ _ => Step.byteSteps unbounded) hs hstuck
  have ht' := ReflTransGen.mono (fun _ _ => Step.mono fun _ => le_top) _ _ ht
  exact fun p n hp => hagreed p n (returned_of_step_run unbounded hends ht' hp)

end

/-! ## Honest ends -/

/-- What `c` sends for a structure is accepted by `d`: they have the same key, or the credential that `c`
    gets says who it is and what it has been made for. -/
def Delivers (c d : Calls) (uid gid : UInt32) (image : List UInt8) (m : Mechanism) : Prop :=
  Able c m ∧ Able d m ∧
  match m with
  | .none => True
  | .munge => ∃ cred, c.mungeEncode image = some cred ∧ cred.bytes.length < maxPacket ∧
      d.mungeDecode cred.bytes = ⟨.success, image, uid, gid⟩
  | .keyInFile key => c.readKey = true ∧
      ∃ hash, c.hmac key image = some hash ∧ d.hmac key image = some hash ∧ hashSize ≤ hash.length
  | .explicitKey key =>
      ∃ hash, c.hmac key image = some hash ∧ d.hmac key image = some hash ∧ hashSize ≤ hash.length

/-- The credential that `c` gets has expired when `d` looks at it. -/
def Expires (c d : Calls) (image : List UInt8) (m : Mechanism) : Prop :=
  m = .munge ∧ Able c m ∧ Able d m ∧ ∃ cred, c.mungeEncode image = some cred ∧
    cred.bytes.length < maxPacket ∧ (d.mungeDecode cred.bytes).result = .credExpired

section

variable {c d : Calls} {p : Packet} {m : Mechanism}

theorem keyEncryptPacket_of {key hash : List UInt8} (hgcrypt : c.gcrypt = true)
    (hhash : c.hmac key (p.inMemory c.padding) = some hash) :
    keyEncryptPacket c p key = .ok (p.inMemory c.padding ++ hash.take hashSize) := by
  unfold keyEncryptPacket
  rw [hgcrypt, hhash]
  rfl

theorem mungeEncryptPacket_of {cred : CString} (hable : Able c .munge)
    (hcred : c.mungeEncode (p.inMemory c.padding) = some cred) :
    mungeEncryptPacket c p = .ok (cred.bytes ++ [0]) := by
  obtain ⟨hmunge, hcreate, hset⟩ := hable
  unfold mungeEncryptPacket
  rw [hmunge, hcreate, hset, hcred]
  rfl

theorem length_keyPacket (hash : List UInt8) :
    (p.inMemory c.padding ++ hash.take hashSize).length ≤ maxPacket := by
  rw [List.length_append, List.length_take, p.length_inMemory]
  exact (Nat.add_le_add_left (min_le_left _ _) _).trans (by decide)

theorem delivers_accepted (h : Delivers c d p.uid p.gid (p.inMemory c.padding) m) :
    ∃ buf, encryptPacket c p m = .ok buf ∧ buf.length ≤ maxPacket ∧
      (d.cipher m).decrypt p buf = .success := by
  obtain ⟨hc, hd, hm⟩ := h
  have haccepted : ∀ buf, Vouches d m p.uid p.gid buf (p.inMemory c.padding) →
      (d.cipher m).decrypt p buf = .success := fun buf hv =>
    (decides_decrypt d p buf m).success_iff.mpr ⟨hd, _, hv, p.take_inMemory _⟩
  cases m with
  | none =>
    refine ⟨p.inMemory c.padding, if_pos hc, ?_, haccepted _ ⟨rfl, rfl⟩⟩
    rw [p.length_inMemory]
    decide
  | munge =>
    obtain ⟨cred, hcred, hlen, hdecode⟩ := hm
    refine ⟨_, mungeEncryptPacket_of hc hcred, ?_, haccepted _ ⟨rfl, ?_⟩⟩
    · rw [List.length_append, List.length_singleton]
      omega
    · dsimp only
      rw [takeWhile_cred, hdecode]
      exact ⟨rfl, rfl, rfl, rfl⟩
  | keyInFile key =>
    obtain ⟨hread, hash, hhash, hhash', hle⟩ := hm
    refine ⟨p.inMemory c.padding ++ hash.take hashSize, ?_, length_keyPacket hash,
      haccepted _ ⟨rfl, hash, hhash', hle, rfl⟩⟩
    show filekeyEncryptPacket c p key = _
    unfold filekeyEncryptPacket
    rw [hread]
    exact keyEncryptPacket_of hc hhash
  | explicitKey key =>
    obtain ⟨hash, hhash, hhash', hle⟩ := hm
    exact ⟨p.inMemory c.padding ++ hash.take hashSize, keyEncryptPacket_of hc hhash, length_keyPacket hash,
      haccepted _ ⟨rfl, hash, hhash', hle, rfl⟩⟩

theorem expires_again (h : Expires c d (p.inMemory c.padding) m) :
    ∃ buf, encryptPacket c p m = .ok buf ∧ buf.length ≤ maxPacket ∧
      (d.cipher m).decrypt p buf = .again := by
  obtain ⟨rfl, hc, ⟨hmunge, hcreate, hset⟩, cred, hcred, hlen, hexpired⟩ := h
  refine ⟨_, mungeEncryptPacket_of hc hcred, ?_, ?_⟩
  · rw [List.length_append, List.length_singleton]
    omega
  · have hcheck : mungeCheck p (d.mungeDecode cred.bytes) = throw .again := by
      unfold mungeCheck
      rw [hexpired]
      rfl
    show Rd.value (mungeDecryptPacket d.toSetting p (cred.bytes ++ [0] ++ d.behind)) 0 = _
    unfold mungeDecryptPacket mungeCreateContext loadString
    rw [hmunge, hcreate, hset, takeWhile_cred]
    exact congrArg (fun x : Rd Rc => Rd.value x (max (cred.bytes.length + 1) 0)) hcheck

end

namespace Endpoint

/-- In round `k` the packet of `e` is accepted by its peer. -/
def Conveys (e f : Endpoint) (k : ℕ) : Prop :=
  ∃ server client own, e.me.addrs = some (server, client) ∧ ownPacket e.me server client = .ok own ∧
    Delivers (e.calls k) (f.calls k) e.me.uid e.me.gid (own.inMemory (e.calls k).padding) e.mechanism

/-- In round `k` the credential of `e` has expired when its peer looks at it. -/
def TooLate (e f : Endpoint) (k : ℕ) : Prop :=
  ∃ server client own, e.me.addrs = some (server, client) ∧ ownPacket e.me server client = .ok own ∧
    Expires (e.calls k) (f.calls k) (own.inMemory (e.calls k).padding) e.mechanism

/-- Round `k` is repeated, since a credential has expired. -/
def Repeats (e f : Endpoint) (k : ℕ) : Prop :=
  e.TooLate f k ∧ (f.Conveys e k ∨ f.TooLate e k) ∨ f.TooLate e k ∧ e.Conveys f k

/-- In round `k` the outcome of `f` with the packet of `e` is `result`. -/
def Turns (e f : Endpoint) (k : ℕ) (result : Rc) : Prop :=
  ∃ (server client : Sockaddr) (r : Ready e server client k),
    ∀ (server' client' : Sockaddr) (r' : Ready f server' client' k), r'.outcome r = result

variable {e f : Endpoint} {server client server' client' : Sockaddr} {k n : ℕ}

theorem ownPacket_opposite (p : Party) (server client : Sockaddr) :
    expectedPacket p.opposite server client = ownPacket p server client := by
  obtain ⟨isServer, uid, gid, sessionId, addrs⟩ := p
  cases isServer <;> rfl

theorem turns_of (hme : f.me = e.me.opposite) (hm : f.mechanism = e.mechanism) {own : Packet} {buf : List UInt8}
    {result : Rc} (haddrs : e.me.addrs = some (server, client)) (hown : ownPacket e.me server client = .ok own)
    (hbuf : encryptPacket (e.calls k) own e.mechanism = .ok buf) (hlen : buf.length ≤ maxPacket)
    (hresult : ((f.calls k).cipher e.mechanism).decrypt own buf = result) : e.Turns f k result := by
  refine ⟨server, client, { own := own
                            expected := _
                            packet := buf
                            addrs_eq := haddrs
                            own_eq := hown
                            expected_eq := encodePacket_ok hown
                            packet_eq := hbuf
                            packet_le := hlen }, fun server' client' r' => ?_⟩
  have haddrs' : some (server, client) = some (server', client') := by
    rw [← haddrs, ← r'.addrs_eq, hme, Party.opposite]
  obtain ⟨rfl, rfl⟩ := Prod.mk.inj (Option.some.inj haddrs')
  have hexpected := r'.expected_eq
  rw [hme, ownPacket_opposite, hown] at hexpected
  rw [Ready.outcome, ← Except.ok.inj hexpected, rounds, hm]
  exact hresult

theorem uid_own {own : Packet} (h : ownPacket e.me server client = .ok own) :
    own.uid = e.me.uid ∧ own.gid = e.me.gid :=
  ⟨(encodePacket_eq h).2.2.2.1, (encodePacket_eq h).2.2.2.2.1⟩

theorem Conveys.turns (h : e.Conveys f k) (hme : f.me = e.me.opposite) (hm : f.mechanism = e.mechanism) :
    e.Turns f k .success := by
  obtain ⟨server, client, own, haddrs, hown, hdelivers⟩ := h
  obtain ⟨huid, hgid⟩ := uid_own hown
  rw [← huid, ← hgid] at hdelivers
  obtain ⟨buf, hbuf, hlen, hresult⟩ := delivers_accepted hdelivers
  exact turns_of hme hm haddrs hown hbuf hlen hresult

theorem TooLate.turns (h : e.TooLate f k) (hme : f.me = e.me.opposite) (hm : f.mechanism = e.mechanism) :
    e.Turns f k .again := by
  obtain ⟨server, client, own, haddrs, hown, hexpires⟩ := h
  obtain ⟨buf, hbuf, hlen, hresult⟩ := expires_again hexpires
  exact turns_of hme hm haddrs hown hbuf hlen hresult

end Endpoint

theorem Party.opposite_opposite (p : Party) : p.opposite.opposite = p := by
  obtain ⟨isServer, uid, gid, sessionId, addrs⟩ := p
  cases isServer <;> rfl

/-- The buffers of the sockets hold what an end sends before it reads. -/
def Roomy (cap : Bool × Bool → ℕ∞) (e f : Endpoint) : Prop :=
  (∀ k buf, e.Sends k buf → ((4 + buf.length : ℕ) : ℕ∞) ≤ cap (true, false)) ∧
    ∀ k buf, f.Sends k buf → ((4 + buf.length : ℕ) : ℕ∞) ≤ cap (false, true)

section

variable {cap : Bool × Bool → ℕ∞} {e f : Endpoint} {n : ℕ}

/-- **Honest rounds**: round `n` is the first one that is not repeated. -/
theorem rest_succeeds (hroom : Roomy cap e f) {server client server' client' : Sockaddr}
    (haddrs : e.me.addrs = some (server, client)) (haddrs' : f.me.addrs = some (server', client'))
    (hn : n < maxNumTimeouts) (hrepeat : ∀ k < n, ∃ x y, e.Turns f k x ∧ f.Turns e k y ∧
      combine x y = .again ∧ combine y x = .again)
    (hlast : e.Turns f n .success) (hlast' : f.Turns e n .success) (left : ℕ) (hle : left ≤ maxNumTimeouts)
    (hleft : maxNumTimeouts - left ≤ n) : ReflTransGen (ByteStep cap)
      (duo ((e.rest server client left).net false) ((f.rest server' client' left).net true) [] [])
      (leftNet (.success, n) (.success, n)) := by
  have hsame : ∀ {e : Endpoint} {k : ℕ} {s c s' c' : Sockaddr}, e.me.addrs = some (s, c) →
      Ready e s' c' k → s' = s ∧ c' = c := fun haddrs r =>
    Prod.mk.inj (Option.some.inj (r.addrs_eq.symm.trans haddrs))
  induction left with
  | zero => exact absurd hn (by omega)
  | succ left ih =>
    rw [Endpoint.rest_succ, Endpoint.rest_succ]
    generalize hk : maxNumTimeouts - (left + 1) = k at hleft
    have hround : ∀ x y, e.Turns f k x → f.Turns e k y → ∀ g h : Rc → Io (Rc × ℕ),
        ReflTransGen (ByteStep cap)
          (duo ((handshakeMain (e.rounds k) e.me server client >>= g).net false)
            ((handshakeMain (f.rounds k) f.me server' client' >>= h).net true) [] [])
          (duo ((g (combine y x)).net false) ((h (combine x y)).net true) [] []) := by
      rintro x y ⟨s, c, r, hx⟩ ⟨s', c', r', hy⟩ g h
      obtain ⟨rfl, rfl⟩ := hsame haddrs r
      obtain ⟨rfl, rfl⟩ := hsame haddrs' r'
      have hrun := r.run r' g h (hroom.1 k _ r.sends) (hroom.2 k _ r'.sends)
      rwa [hx _ _ r', hy _ _ r] at hrun
    rcases Nat.eq_or_lt_of_le hleft with rfl | hlt
    · exact hround .success .success hlast hlast' _ _
    · obtain ⟨x, y, hx, hy, hxy, hyx⟩ := hrepeat k hlt
      have hrun := hround x y hx hy
        (fun result => if result ≠ .again then .ret (result, k) else e.rest server client left)
        (fun result => if result ≠ .again then .ret (result, k) else f.rest server' client' left)
      rw [hxy, hyx, if_neg (not_not_intro rfl), if_neg (not_not_intro rfl)] at hrun
      exact hrun.trans (ih (by omega) (by omega))

/-- **Honest ends succeed.** -/
theorem honest_succeed (hroom : Roomy cap e f) (hme : f.me = e.me.opposite) (hm : f.mechanism = e.mechanism)
    (hn : n < maxNumTimeouts) (hrepeat : ∀ k < n, e.Repeats f k) (hlast : e.Conveys f n)
    (hlast' : f.Conveys e n) :
    EndsIn (Step cap) (connection e f) (leftNet (.success, n) (.success, n)) := by
  have hme' : e.me = f.me.opposite := by rw [hme, Party.opposite_opposite]
  obtain ⟨server, client, -, haddrs, -, -⟩ := id hlast
  obtain ⟨server', client', -, haddrs', -, -⟩ := id hlast'
  have hturns : ∀ k < n, ∃ x y, e.Turns f k x ∧ f.Turns e k y ∧
      combine x y = .again ∧ combine y x = .again := by
    intro k hk
    rcases hrepeat k hk with ⟨hlate, hconveys | hlate'⟩ | ⟨hlate', hconveys⟩
    · exact ⟨.again, .success, hlate.turns hme hm, hconveys.turns hme' hm.symm, by decide, by decide⟩
    · exact ⟨.again, .again, hlate.turns hme hm, hlate'.turns hme' hm.symm, by decide, by decide⟩
    · exact ⟨.success, .again, hconveys.turns hme hm, hlate'.turns hme' hm.symm, by decide, by decide⟩
  have hrun := rest_succeeds hroom haddrs haddrs' hn hturns (hlast.turns hme hm) (hlast'.turns hme' hm.symm)
    maxNumTimeouts (le_refl _) (Nat.sub_self _ ▸ Nat.zero_le _)
  unfold connection
  rw [Endpoint.handshake_eq haddrs, Endpoint.handshake_eq haddrs']
  exact endsIn_of_run cap hrun (duo_finished _ _ _ _)

/-- Packets with a hash are short. -/
theorem short_of_key {key : List UInt8} (hm : e.mechanism = .explicitKey key) : Short e := by
  rintro k buf ⟨server, client, own, -, -, hbuf⟩
  have hmade : MadeFrom (e.calls k) own buf e.mechanism := encryptPacket_ok hbuf
  rw [hm] at hmade
  obtain ⟨hash, -, rfl⟩ := hmade
  exact length_keyPacket hash

end

/-! ## The result -/

/-- **What success means.**
    (1) An end that succeeds, on any line on which nothing is forged, has heard in this round a packet that
        an end of the opposite role has made, with the same session, addresses, ports and user.
    (2) A packet of its own is never accepted.
    (3) So it does not succeed with a peer of another session.
    (4) When the bytes of each end get to the other one, an end succeeds only in a round in which both of
        them accept, whatever they have to start with and on every schedule.
    (5) Then opposite ends with the same mechanism succeed, in the first round without a credential that
        has expired. -/
theorem handshake_authenticates :
    (∀ (e : Endpoint) (holders : Set Party) (line : Line) (n : ℕ), Unforged holders e line →
      (e.handshake.serve line).1 = (.success, n) → e.me.opposite ∈ holders ∧
        ∃ buf image, e.Hears line n buf ∧ e.Accepts n buf ∧ e.Vouched n buf image ∧
          e.me.opposite.Makes image) ∧
    (∀ (e : Endpoint) (k n : ℕ) (buf : List UInt8), Faithful e e → e.Sends k buf →
      ¬e.Accepts n buf) ∧
    (∀ (e f : Endpoint) (line : Line) (n : ℕ), Unforged {e.me, f.me} e line →
      e.me.sessionId ≠ f.me.sessionId → (e.handshake.serve line).1 ≠ (.success, n)) ∧
    (∀ (e f : Endpoint) (cap : Bool × Bool → ℕ∞) (t : Net Bool UInt8 (Rc × ℕ)) (p : Bool) (n : ℕ),
      Short e → Short f → ReflTransGen (Step cap) (connection e f) t → t.prog p = .ret (.success, n) →
        Mutual e f n ∧ (e.mechanism = f.mechanism → Faithful e f → f.me = e.me.opposite)) ∧
    (∀ (e f : Endpoint) (cap : Bool × Bool → ℕ∞) (n : ℕ), Roomy cap e f → f.me = e.me.opposite →
      f.mechanism = e.mechanism → n < maxNumTimeouts → (∀ k < n, e.Repeats f k) → e.Conveys f n →
        f.Conveys e n → EndsIn (Step cap) (connection e f) (leftNet (.success, n) (.success, n))) := by
  have hline : ∀ (e : Endpoint) (holders : Set Party) (line : Line) (n : ℕ), Unforged holders e line →
      (e.handshake.serve line).1 = (.success, n) → e.me.opposite ∈ holders ∧
        ∃ buf image, e.Hears line n buf ∧ e.Accepts n buf ∧ e.Vouched n buf image ∧
          e.me.opposite.Makes image := by
    intro e holders line n hunforged hsuccess
    obtain ⟨buf, hhears, haccepts⟩ := Endpoint.handshake_success hsuccess
    obtain ⟨image, hvouched, hmem, hmakes⟩ := haccepts.maker fun image => hunforged n buf image hhears
    exact ⟨hmem, buf, image, hhears, haccepts, hvouched, hmakes⟩
  refine ⟨hline, fun e k n buf hfaithful hsends => not_accepts_own hfaithful hsends, ?_, ?_, ?_⟩
  · intro e f line n hunforged hsession hsuccess
    obtain ⟨hmem, -⟩ := hline e _ line n hunforged hsuccess
    rcases hmem with hown | hpeer
    · exact e.me.opposite_ne hown
    · have hsame : e.me.opposite.sessionId = f.me.sessionId :=
        congrArg Party.sessionId (Set.mem_singleton_iff.mp hpeer)
      exact hsession hsame
  · intro e f cap t p n he hf ht hp
    have hmutual := success_mutual he hf ht p n hp
    refine ⟨hmutual, fun hm hfaithful => ?_⟩
    obtain ⟨buf, buf', -, ⟨server, client, own, haddrs, hown, hbuf⟩, haccepts, -⟩ := hmutual
    have hmade : ∀ image, e.Vouched n buf' image → ∃ h ∈ ({f.me} : Set Party), h.Makes image :=
      fun image hvouched =>
        ⟨f.me, rfl, server, client, own, _, haddrs, hown, vouched_sent hfaithful hm hbuf hvouched⟩
    obtain ⟨image, -, hmem, -⟩ := haccepts.maker hmade
    exact (Set.mem_singleton_iff.mp hmem).symm
  · exact fun e f cap n hroom hme hm hn hrepeat hlast hlast' =>
      honest_succeed hroom hme hm hn hrepeat hlast hlast'

/-- The ends of a connection with the same key. -/
def keyEnd (isServer : Bool) : Endpoint where
  me := ⟨isServer, 7, 7, 1, some (.inet 80 0x0100007f, .inet 5000 0x0200007f)⟩
  mechanism := .explicitKey [1, 2, 3]
  calls _ := { fullSetting with
    readKey := true
    mungeEncode := fun _ => none
    padding := 0
    behind := [] }

/-- What they send. -/
def keyPacket (isServer : Bool) : List UInt8 :=
  Packet.inMemory ⟨if isServer then serverToClientSig else clientToServerSig, 80, 5000, 7, 7, 1,
    0x0100007f, 0x0200007f⟩ 0 ++ List.replicate hashSize 0

/-- A line to the server with the packet of the client, and a word of success. -/
def keyLine : Line where
  input := le32 sig ++ (le32 (UInt32.ofNat (keyPacket false).length) ++ keyPacket false) ++ le32 0
  room := none

/-- A line that breaks behind the signature. -/
def brokenLine : Line := ⟨le32 sig, none⟩

theorem keyEnd_sends (b : Bool) (k : ℕ) : (keyEnd b).Sends k (keyPacket b) := by
  cases b <;> exact ⟨_, _, _, rfl, rfl, rfl⟩

theorem keyEnd_faithful (b b' : Bool) : Faithful (keyEnd b) (keyEnd b') := nofun

theorem keyEnd_conveys (b : Bool) (k : ℕ) : (keyEnd b).Conveys (keyEnd !b) k := by
  cases b <;> exact ⟨_, _, _, rfl, rfl, rfl, rfl, _, rfl, rfl, by decide⟩

/-- A packet that is heard is known from what is read. -/
theorem heard_inj {as bs rest rest' : List UInt8} (ha : as.length ≤ maxPacket) (hb : bs.length ≤ maxPacket)
    (h : le32 sig ++ (le32 (UInt32.ofNat as.length) ++ as) ++ rest =
      le32 sig ++ (le32 (UInt32.ofNat bs.length) ++ bs) ++ rest') : as = bs := by
  simp only [List.append_assoc] at h
  have hbody := List.append_cancel_left h
  have hsize := le32_inj (List.append_inj_left hbody rfl)
  have hlen : as.length = bs.length := by
    have hlt : maxPacket < 2 ^ 32 := by decide
    have hnat := congrArg UInt32.toNat hsize
    rwa [UInt32.toNat_ofNat_of_lt' (ha.trans_lt hlt), UInt32.toNat_ofNat_of_lt' (hb.trans_lt hlt)] at hnat
  exact List.append_inj_left (List.append_inj_right hbody rfl) hlen

theorem keyLine_unforged {holders : Set Party} (hmem : (keyEnd false).me ∈ holders) :
    Unforged holders (keyEnd true) keyLine := by
  rintro n buf image ⟨server, client, haddrs, hretries, hle, rest, hinput⟩ ⟨himage, hash, -, -, hbuf⟩
  cases n with
  | zero =>
    have hheard : keyPacket false = buf := heard_inj (by decide) hle hinput
    rw [← hheard] at hbuf
    refine ⟨_, hmem, _, _, _, 0, rfl, rfl, ?_⟩
    exact (List.append_inj_left hbuf himage.symm).symm
  | succ n =>
    obtain ⟨rfl, rfl⟩ := Prod.mk.inj (Option.some.inj haddrs)
    exact absurd (hretries 0 (Nat.succ_pos n)) (by decide +kernel)

theorem brokenLine_unforged (holders : Set Party) (b : Bool) : Unforged holders (keyEnd b) brokenLine := by
  rintro n buf image ⟨server, client, haddrs, hretries, -, rest, hinput⟩ -
  cases n with
  | zero =>
    have hlen : brokenLine.input.length = _ := congrArg List.length hinput
    simp only [List.length_append, length_le32] at hlen
    have hsig : brokenLine.input.length = 4 := rfl
    omega
  | succ n =>
    obtain ⟨rfl, rfl⟩ := Prod.mk.inj (Option.some.inj haddrs)
    refine absurd (hretries 0 (Nat.succ_pos n)) ?_
    cases b <;> decide +kernel

theorem keyLine_success : ((keyEnd true).handshake.serve keyLine).1 = (.success, 0) := by decide +kernel

theorem handshake_authenticates_key :
    ((keyEnd true).me.opposite ∈ ({(keyEnd false).me} : Set Party) ∧
      ∃ buf image, (keyEnd true).Hears keyLine 0 buf ∧ (keyEnd true).Accepts 0 buf ∧
        (keyEnd true).Vouched 0 buf image ∧ (keyEnd true).me.opposite.Makes image) ∧
    ¬(keyEnd true).Accepts 0 (keyPacket true) ∧
    ((keyEnd true).handshake.serve brokenLine).1 ≠ (.success, 0) ∧
    (Mutual (keyEnd true) (keyEnd false) 0 ∧ ((keyEnd true).mechanism = (keyEnd false).mechanism →
      Faithful (keyEnd true) (keyEnd false) → (keyEnd false).me = (keyEnd true).me.opposite)) ∧
    EndsIn (Step unbounded) (connection (keyEnd true) (keyEnd false))
      (leftNet (.success, 0) (.success, 0)) := by
  obtain ⟨hline, hown, hsession, hmutual, hhonest⟩ := handshake_authenticates
  have hends := hhonest (keyEnd true) (keyEnd false) unbounded 0
    ⟨fun _ _ _ => le_top, fun _ _ _ => le_top⟩ rfl rfl (by decide) nofun (keyEnd_conveys true 0) (keyEnd_conveys false 0)
  exact ⟨hline _ _ _ _ (keyLine_unforged (Set.mem_singleton _)) keyLine_success,
    hown _ 0 0 _ (keyEnd_faithful true true) (keyEnd_sends true 0),
    hsession (keyEnd true) { keyEnd false with me := { (keyEnd false).me with sessionId := 2 } } _ 0
      (brokenLine_unforged _ true) (by decide),
    hmutual _ _ unbounded _ true 0 (short_of_key rfl) (short_of_key rfl)
      (hends.reach _ ReflTransGen.refl) rfl,
    hends⟩

/-- An end with the key whose socket is not of AF_INET. -/
def otherEnd (isServer : Bool) : Endpoint where
  me := { (keyEnd isServer).me with addrs := some (.other, .other) }
  mechanism := (keyEnd isServer).mechanism
  calls := (keyEnd isServer).calls

/-- Somebody passes the packet of the client on to the server, adds the word of success, and breaks the
    line of the client.  And two ends whose sockets are not of AF_INET have no packets. -/
theorem handshake_not_mutual :
    (¬∀ (e f : Endpoint) (line line' : Line) (n : ℕ),
      Unforged {e.me, f.me} e line → Unforged {e.me, f.me} f line' →
        (e.handshake.serve line).1 = (.success, n) → ∃ buf, f.Hears line' n buf ∧ f.Accepts n buf) ∧
    ¬∀ e f : Endpoint, f.me = e.me.opposite → f.mechanism = e.mechanism →
      ∃ n, EndsIn (Step unbounded) (connection e f) (leftNet (.success, n) (.success, n)) := by
  constructor
  · intro h
    obtain ⟨buf, ⟨server, client, -, -, -, rest, hinput⟩, -⟩ := h (keyEnd true) (keyEnd false)
      keyLine brokenLine 0 (keyLine_unforged (Set.mem_insert_of_mem _ (Set.mem_singleton _))) (brokenLine_unforged _ false)
      keyLine_success
    have hlen : brokenLine.input.length = _ := congrArg List.length hinput
    simp only [List.length_append, length_le32] at hlen
    have hsig : brokenLine.input.length = 4 := rfl
    omega
  · intro h
    obtain ⟨n, hends⟩ := h (otherEnd true) (otherEnd false) rfl rfl
    obtain ⟨buf, buf', -, -, ⟨server, client, expected, haddrs, hexpected, -⟩, -⟩ :=
      success_mutual (short_of_key rfl) (short_of_key rfl) (hends.reach _ ReflTransGen.refl) true n rfl
    obtain ⟨rfl, rfl⟩ := Prod.mk.inj (Option.some.inj haddrs)
    cases hexpected

end LaunchMON.Handshake
