/-
  The rounds of the handshake: do both ends agree when it is over?

  Two ends that get as far as the packets come to an outcome each.  An end that is satisfied takes the
  result that its peer reports, and any other end keeps its own, so a round ends in different ways
  for the two exactly if one of them asks for another round and the other has failed (`Clash`).
  `round_run` takes both ends through one round; `lockstep_iff` says that the handshake ends for both
  of them, after the same number of retries and on every schedule, if and only if no round clashes.
-/
import LaunchMON.Handshake.Main

namespace LaunchMON.Handshake

open Wire FifoNet Relation Descent CBytes

/-! ## Outcomes -/

/-- The end has rejected the packet of its peer. -/
def Rc.Failed (r : Rc) : Prop := r = .internalError ∨ r = .dropConnection ∨ r = .abort

instance (r : Rc) : Decidable r.Failed := inferInstanceAs (Decidable (_ ∨ _))

/-- The result of a round, from the own outcome and the outcome of the peer. -/
def combine (own peer : Rc) : Rc :=
  if own = .success then peerResult (some (resultToSend peer).value) else own

/-- One end asks for another round and the other one has failed. -/
def Clash (a b : Rc) : Prop := a = .again ∧ b.Failed ∨ b = .again ∧ a.Failed

instance (a b : Rc) : Decidable (Clash a b) := inferInstanceAs (Decidable (_ ∨ _))

/-- One end asks for another round and the other one has not failed. -/
def Retry (a b : Rc) : Prop := a = .again ∧ ¬b.Failed ∨ b = .again ∧ ¬a.Failed

instance (a b : Rc) : Decidable (Retry a b) := inferInstanceAs (Decidable (_ ∨ _))

/-- **Both ends come to the same decision unless they clash.** -/
theorem combine_again {a b : Rc} (ha : a ≠ .connectionRefused) (hb : b ≠ .connectionRefused)
    (h : ¬Clash a b) : combine a b = .again ↔ Retry a b := by
  cases a <;> cases b <;> revert ha hb h <;> decide

theorem combine_clash {a b : Rc} (h : Clash a b) :
    combine a b = .again ∧ combine b a ≠ .again ∨ combine a b ≠ .again ∧ combine b a = .again := by
  cases a <;> cases b <;> revert h <;> decide

theorem Retry.symm {a b : Rc} (h : Retry a b) : Retry b a := Or.symm h

theorem Clash.symm {a b : Rc} (h : Clash a b) : Clash b a := Or.symm h

/-! ## What two ends do -/

/-- What an end does in a round. -/
theorem End.main_net {α : Type} (e : End) (k : Nat) (g : Rc → Io α) (peer : Bool) :
    (e.main k >>= g).net peer = .send peer (le32 sig) (.recv peer 4 fun bs =>
      if readLe32 bs = some sig then
        .send peer (le32 (UInt32.ofNat (e.packet k).length)) (.send peer (e.packet k)
          (.recv peer 4 fun bs => if maxPacket < ((readLe32 bs).getD 0).toNat then
              (g .dropConnection).net peer
            else .recv peer ((readLe32 bs).getD 0).toNat fun buf =>
              .send peer (le32 (resultToSend ((e.rounds k).decrypt e.expected buf)).value)
                (.recv peer 4 fun bs => (g (if (e.rounds k).decrypt e.expected buf = .success then
                  peerResult (readLe32 bs) else (e.rounds k).decrypt e.expected buf)).net peer)))
      else (g .dropConnection).net peer) := by
  unfold End.main handshakeMain exchangeSig exchangePackets sendPacket recvPacket judge finish
    shareResult
  simp only [e.own_eq, e.expected_eq, e.packet_eq, bind_assoc, Io.pure_eq, Io.put_bind, Io.get_bind,
    Io.ret_bind, Io.write_bind, Io.read_bind, Io.ite_bind, Io.net, Option.elim_some,
    Bool.true_eq_false, if_false, ne_eq]
  refine congrArg _ (congrArg _ (funext fun bs => ?_))
  by_cases h : readLe32 bs = some sig
  · simp [h, Io.net, apply_ite]
  · simp [h]

/-! ## One round -/

variable {cap : Bool × Bool → ℕ∞}

/-- **A round**: both ends get to the end of it, with what `combine` makes of their outcomes. -/
theorem round_run {α : Type} (e f : End) (k : Nat) (g h : Rc → Io α)
    (he : ((4 + (e.packet k).length : Nat) : ℕ∞) ≤ cap (true, false))
    (hf : ((4 + (f.packet k).length : Nat) : ℕ∞) ≤ cap (false, true)) :
    ReflTransGen (ByteStep cap)
      (duo ((e.main k >>= g).net false) ((f.main k >>= h).net true) [] [])
      (duo ((g (combine (e.outcome f k) (f.outcome e k))).net false)
        ((h (combine (f.outcome e k) (e.outcome f k))).net true) [] []) := by
  have hsize : ∀ e : End, ((readLe32 (le32 (UInt32.ofNat (e.packet k).length))).getD 0).toNat =
      (e.packet k).length := by
    intro e
    have hle : (e.packet k).length ≤ 0x100000 := e.packet_le k
    have happ := readLe32_append (UInt32.ofNat (e.packet k).length) []
    rw [List.append_nil] at happ
    rw [happ, Option.getD_some, UInt32.toNat_ofNat_of_lt' (show _ < 2 ^ 32 by omega)]
  have hword : ∀ x : UInt32, readLe32 (le32 x) = some x := by
    intro x
    have happ := readLe32_append x []
    rwa [List.append_nil] at happ
  have h4 : ∀ {n : Nat} {c : ℕ∞}, ((4 + n : Nat) : ℕ∞) ≤ c → (([] : List UInt8).length + 4 : Nat) ≤ c :=
    fun h => le_trans (Nat.cast_le.mpr (by simp)) h
  rw [e.main_net, f.main_net]
  -- the signatures
  refine (duo_put_true (h4 he)).trans ?_
  refine (duo_put_false (h4 hf)).trans ?_
  refine (@duo_take_true _ _ cap _ _ _ (le32 sig)).trans ?_
  refine (@duo_take_false _ _ cap _ _ _ (le32 sig)).trans ?_
  rw [hword, if_pos rfl, if_pos rfl]
  -- the packets
  refine (duo_put_true (h4 he)).trans ?_
  refine (duo_put_true he).trans ?_
  refine (duo_put_false (h4 hf)).trans ?_
  refine (duo_put_false hf).trans ?_
  refine (@duo_get_true _ _ cap _ _ _ (f.packet k) (le32 _)).trans ?_
  refine (@duo_get_false _ _ cap _ _ (e.packet k) _ (le32 _)).trans ?_
  rw [hsize, hsize, if_neg (Nat.not_lt.mpr (f.packet_le k)), if_neg (Nat.not_lt.mpr (e.packet_le k))]
  refine duo_take_true.trans ?_
  refine duo_take_false.trans ?_
  -- the results
  refine (duo_put_true (h4 he)).trans ?_
  refine (duo_put_false (h4 hf)).trans ?_
  refine (@duo_take_true _ _ cap _ _ _ (le32 _)).trans ?_
  refine (@duo_take_false _ _ cap _ _ _ (le32 _)).trans ?_
  rw [hword, hword]
  exact ReflTransGen.refl

/-! ## The handshake -/

/-- Both ends at the beginning of the handshake. -/
def handshakeNet (e f : End) : Net Bool UInt8 (Rc × Nat) :=
  duo ((handshakeWrapper e.rounds e.me).net false) ((handshakeWrapper f.rounds f.me).net true) [] []

/-- Both ends have left the handshake, with results `a` and `b` and as many retries. -/
def leftNet (a b : Rc × Nat) : Net Bool UInt8 (Rc × Nat) := duo (.ret a) (.ret b) [] []

/-- Round `k` is reached: each round before has been asked to be repeated by one end, and the other
    one has not failed. -/
def Reached (e f : End) (k : Nat) : Prop :=
  k < maxNumTimeouts ∧ ∀ j < k, Retry (e.outcome f j) (f.outcome e j)

theorem handshakeNet_eq (e f : End) : handshakeNet e f =
    duo ((e.rest maxNumTimeouts).net false) ((f.rest maxNumTimeouts).net true) [] [] := by
  unfold handshakeNet handshakeWrapper End.rest
  rw [e.addrs_eq, f.addrs_eq]

/-- The buffers of the sockets hold what an end sends before it reads. -/
def Fits (cap : Bool × Bool → ℕ∞) (e f : End) : Prop :=
  ∀ k, ((4 + (e.packet k).length : Nat) : ℕ∞) ≤ cap (true, false) ∧
    ((4 + (f.packet k).length : Nat) : ℕ∞) ≤ cap (false, true)

/-- **Without a clash** both ends leave, after the same number of retries. -/
theorem rest_run {e f : End} (hfit : Fits cap e f) (left : Nat) (hle : left ≤ maxNumTimeouts)
    (h : ∀ k, maxNumTimeouts - left ≤ k → Reached e f k → ¬Clash (e.outcome f k) (f.outcome e k))
    (hreach : ∀ j < maxNumTimeouts - left, Retry (e.outcome f j) (f.outcome e j)) :
    ∃ a b n, ReflTransGen (ByteStep cap)
      (duo ((e.rest left).net false) ((f.rest left).net true) [] []) (leftNet (a, n) (b, n)) := by
  induction left with
  | zero => exact ⟨.abort, .abort, maxNumTimeouts, ReflTransGen.refl⟩
  | succ left ih =>
    have hk : Reached e f (maxNumTimeouts - (left + 1)) := ⟨by omega, hreach⟩
    have hno := h _ (Nat.le_refl _) hk
    have hrun := round_run e f (maxNumTimeouts - (left + 1))
      (fun result => if result ≠ .again then .ret (result, maxNumTimeouts - (left + 1))
        else e.rest left)
      (fun result => if result ≠ .again then .ret (result, maxNumTimeouts - (left + 1))
        else f.rest left) (hfit _).1 (hfit _).2
    rw [← End.rest_succ, ← End.rest_succ] at hrun
    have hiff := combine_again (e.outcome_ne f _) (f.outcome_ne e _) hno
    have hiff' := combine_again (f.outcome_ne e _) (e.outcome_ne f _) fun hc => hno hc.symm
    by_cases hretry : Retry (e.outcome f (maxNumTimeouts - (left + 1)))
        (f.outcome e (maxNumTimeouts - (left + 1)))
    · rw [if_neg (not_not_intro (hiff.mpr hretry)), if_neg (not_not_intro (hiff'.mpr hretry.symm))]
        at hrun
      have hnext : ∀ j < maxNumTimeouts - left, Retry (e.outcome f j) (f.outcome e j) := by
        intro j hj
        rcases Nat.lt_or_ge j (maxNumTimeouts - (left + 1)) with hlt | hge
        · exact hreach j hlt
        · rw [show j = maxNumTimeouts - (left + 1) by omega]
          exact hretry
      obtain ⟨a, b, n, hab⟩ := ih (by omega) (fun k hle' => h k (by omega)) hnext
      exact ⟨a, b, n, hrun.trans hab⟩
    · rw [if_pos fun hc => hretry (hiff.mp hc), if_pos fun hc => hretry (hiff'.mp hc).symm] at hrun
      exact ⟨_, _, _, hrun⟩

/-- An end that goes on alone waits for a signature, or has counted its last retry. -/
theorem rest_alone_true {e f : End} (hfit : Fits cap e f) (left : Nat) {b : Rc × Nat}
    (hb : b.2 + left + 1 = maxNumTimeouts) : ∃ s, ReflTransGen (ByteStep cap)
      (duo ((e.rest left).net false) (.ret b) [] []) s ∧ Stuck (ByteStep cap) s ∧
      ∀ a b n, s ≠ leftNet (a, n) (b, n) := by
  cases left with
  | zero =>
    refine ⟨_, ReflTransGen.refl, stuck_of_finished cap (duo_finished _ _ _ _), fun a b' n h => ?_⟩
    have htrue := congrFun (congrArg Net.prog h) true
    have hfalse := congrFun (congrArg Net.prog h) false
    have hn : maxNumTimeouts = n := congrArg Prod.snd (Prog.ret.inj htrue)
    have hn' : b.2 = n := congrArg Prod.snd (Prog.ret.inj hfalse)
    omega
  | succ left =>
    rw [e.rest_succ, e.main_net]
    refine ⟨_, duo_put_true (le_trans (Nat.cast_le.mpr ?_) (hfit 0).1), stuck_duo_true,
      fun a b' n h => ?_⟩
    · show 0 + 4 ≤ _
      omega
    · have htrue := congrFun (congrArg Net.prog h) true
      cases htrue

theorem rest_alone_false {e f : End} (hfit : Fits cap e f) (left : Nat) {a : Rc × Nat}
    (ha : a.2 + left + 1 = maxNumTimeouts) : ∃ s, ReflTransGen (ByteStep cap)
      (duo (.ret a) ((f.rest left).net true) [] []) s ∧ Stuck (ByteStep cap) s ∧
      ∀ a b n, s ≠ leftNet (a, n) (b, n) := by
  cases left with
  | zero =>
    refine ⟨_, ReflTransGen.refl, stuck_of_finished cap (duo_finished _ _ _ _), fun a' b n h => ?_⟩
    have htrue := congrFun (congrArg Net.prog h) true
    have hfalse := congrFun (congrArg Net.prog h) false
    have hn : a.2 = n := congrArg Prod.snd (Prog.ret.inj htrue)
    have hn' : maxNumTimeouts = n := congrArg Prod.snd (Prog.ret.inj hfalse)
    omega
  | succ left =>
    rw [f.rest_succ, f.main_net]
    refine ⟨_, duo_put_false (le_trans (Nat.cast_le.mpr ?_) (hfit 0).2), stuck_duo_false,
      fun a b' n h => ?_⟩
    · show 0 + 4 ≤ _
      omega
    · have hfalse := congrFun (congrArg Net.prog h) false
      cases hfalse

/-- **With a clash** one end waits for ever, or has counted another retry. -/
theorem rest_clash {e f : End} (hfit : Fits cap e f) (left : Nat) {k : Nat}
    (hle : left ≤ maxNumTimeouts) (hk : maxNumTimeouts - left ≤ k) (hreach : Reached e f k)
    (hc : Clash (e.outcome f k) (f.outcome e k)) :
    ∃ s, ReflTransGen (ByteStep cap)
      (duo ((e.rest left).net false) ((f.rest left).net true) [] []) s ∧ Stuck (ByteStep cap) s ∧
      ∀ a b n, s ≠ leftNet (a, n) (b, n) := by
  induction left with
  | zero => exact absurd hreach.1 (by omega)
  | succ left ih =>
    have hrun := round_run e f (maxNumTimeouts - (left + 1))
      (fun result => if result ≠ .again then .ret (result, maxNumTimeouts - (left + 1))
        else e.rest left)
      (fun result => if result ≠ .again then .ret (result, maxNumTimeouts - (left + 1))
        else f.rest left) (hfit _).1 (hfit _).2
    rw [← End.rest_succ, ← End.rest_succ] at hrun
    rcases Nat.lt_or_ge (maxNumTimeouts - (left + 1)) k with hlt | hge
    · -- an earlier round, which both repeat
      have hretry := hreach.2 _ hlt
      have hno : ¬Clash (e.outcome f (maxNumTimeouts - (left + 1)))
          (f.outcome e (maxNumTimeouts - (left + 1))) := by
        revert hretry
        generalize e.outcome f (maxNumTimeouts - (left + 1)) = a
        generalize f.outcome e (maxNumTimeouts - (left + 1)) = b
        cases a <;> cases b <;> decide
      have hiff := combine_again (e.outcome_ne f _) (f.outcome_ne e _) hno
      have hiff' := combine_again (f.outcome_ne e _) (e.outcome_ne f _) fun hc => hno hc.symm
      rw [if_neg (not_not_intro (hiff.mpr hretry)), if_neg (not_not_intro (hiff'.mpr hretry.symm))]
        at hrun
      obtain ⟨s, hs, hstuck, hne⟩ := ih (by omega) (by omega)
      exact ⟨s, hrun.trans hs, hstuck, hne⟩
    · obtain rfl : k = maxNumTimeouts - (left + 1) := by omega
      rcases combine_clash hc with ⟨ha, hb⟩ | ⟨ha, hb⟩
      · rw [if_neg (not_not_intro ha), if_pos hb] at hrun
        obtain ⟨s, hs, hstuck, hne⟩ := @rest_alone_true cap e f hfit left
          (combine (f.outcome e (maxNumTimeouts - (left + 1)))
            (e.outcome f (maxNumTimeouts - (left + 1))), maxNumTimeouts - (left + 1))
          (show maxNumTimeouts - (left + 1) + left + 1 = _ by omega)
        exact ⟨s, hrun.trans hs, hstuck, hne⟩
      · rw [if_pos ha, if_neg (not_not_intro hb)] at hrun
        obtain ⟨s, hs, hstuck, hne⟩ := @rest_alone_false cap e f hfit left
          (combine (e.outcome f (maxNumTimeouts - (left + 1)))
            (f.outcome e (maxNumTimeouts - (left + 1))), maxNumTimeouts - (left + 1))
          (show maxNumTimeouts - (left + 1) + left + 1 = _ by omega)
        exact ⟨s, hrun.trans hs, hstuck, hne⟩

/-- **When the ends stay in step.**  On every schedule both ends leave the handshake after the same
    number of retries, if and only if no round that is reached clashes. -/
theorem lockstep_iff (e f : End) (cap : Bool × Bool → ℕ∞) (hfit : Fits cap e f) :
    (∃ a b n, EndsIn (Step cap) (handshakeNet e f) (leftNet (a, n) (b, n))) ↔
      ∀ k, Reached e f k → ¬Clash (e.outcome f k) (f.outcome e k) := by
  rw [handshakeNet_eq]
  constructor
  · rintro ⟨a, b, n, hends⟩ k hreach hc
    obtain ⟨s, hs, hstuck, hne⟩ := rest_clash hfit maxNumTimeouts (Nat.le_refl _)
      (by omega) hreach hc
    exact hne a b n (eq_of_byteStuck cap hends hs hstuck)
  · intro h
    obtain ⟨a, b, n, hrun⟩ := rest_run hfit maxNumTimeouts (Nat.le_refl _) (fun k _ => h k)
      (fun j hj => absurd hj (by omega))
    exact ⟨a, b, n, endsIn_of_run cap hrun (duo_finished _ _ _ _)⟩

/-- The ends of a connection on which credentials are told by their first byte: 0 is good, 1 has
    expired, 2 is garbage. -/
def byteCipher (b : UInt8) : Cipher where
  encrypt _ := .ok [b]
  decrypt _ buf := if buf = [0] then .success else if buf = [1] then .again else .dropConnection

/-- An end that sends the bytes `bs` in its rounds. -/
def byteEnd (isServer : Bool) (bs : Nat → UInt8) : End where
  me := ⟨isServer, 0, 0, 0, some (.inet 1 1, .inet 2 2)⟩
  server := .inet 1 1
  client := .inet 2 2
  rounds k := byteCipher (bs k)
  own := ⟨if isServer then serverToClientSig else clientToServerSig, 1, 2, 0, 0, 0, 1, 2⟩
  expected := ⟨if isServer then clientToServerSig else serverToClientSig, 1, 2, 0, 0, 0, 1, 2⟩
  packet k := [bs k]
  addrs_eq := rfl
  own_eq := rfl
  expected_eq := rfl
  packet_eq _ := rfl
  packet_le _ := show 1 ≤ 0x100000 by decide
  decrypt_ne k buf := by
    unfold byteCipher
    dsimp only
    split
    · decide
    · split <;> decide

/-- The credential of the server has expired in the first round. -/
theorem lockstep_iff_retry : ∃ a b n, EndsIn (Step fun _ => 5)
    (handshakeNet (byteEnd true fun k => if k = 0 then 1 else 0) (byteEnd false fun _ => 0))
    (leftNet (a, n) (b, n)) := by
  refine (lockstep_iff _ _ _ fun _ => ⟨le_refl _, le_refl _⟩).mpr fun k _ => ?_
  show ¬Clash ((byteCipher _).decrypt _ [0]) ((byteCipher 0).decrypt _ [if k = 0 then 1 else 0])
  by_cases hk : k = 0
  · rw [if_pos hk]
    show ¬Clash .success .again
    decide
  · rw [if_neg hk]
    show ¬Clash .success .success
    decide

/-- The server finds garbage in the packet of the client, which finds the credential of the server
    expired: the client starts another round, and the server has left. -/
theorem lockstep_counterexample : ¬∃ a b n, EndsIn (Step fun _ => ⊤)
    (handshakeNet (byteEnd true fun _ => 1) (byteEnd false fun _ => 2)) (leftNet (a, n) (b, n)) := by
  intro h
  obtain ⟨a, b, n, hends⟩ := h
  obtain ⟨s, hs, hstuck, hne⟩ := @rest_clash (fun _ => ⊤) (byteEnd true fun _ => 1)
    (byteEnd false fun _ => 2) (fun _ => ⟨le_top, le_top⟩) maxNumTimeouts 0 (Nat.le_refl _) (by decide)
    ⟨by decide, fun j hj => absurd hj (by omega)⟩ (Or.inr ⟨by decide, by decide⟩)
  rw [handshakeNet_eq] at hends
  exact hne a b n (eq_of_byteStuck _ hends hs hstuck)

end LaunchMON.Handshake
