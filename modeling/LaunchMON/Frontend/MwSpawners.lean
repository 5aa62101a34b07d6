/-
  The spawners of a session: what `LMON_fe_launchMwDaemons` puts into `spawner_vector`, what
  `LMON_assist_ICCL_MW_init` starts with it, and what `LMON_fe_getMwHostlist` tells of it.

  1. **A launch** (`launchMw`) goes through the requests and pushes a spawner for each, up to one that it
     cannot serve.  Then it gives up, and what has been pushed stays.  If all of them can be served, the
     security arguments are appended to the arguments of every spawner in the vector, and every one is
     told to spawn: not only those of this call.

  2. **All or nothing** (`AllOrNothing`).  A refused call should leave the vector as it was, and a
     successful one should start its own daemons.  The first is so if nothing has been pushed, that is,
     if the request that is refused is the first one; the second is so if the vector has been empty
     (`allOrNothing_iff`).

  3. **Runs** (`launches_iff`).  The vector is emptied only where the session is destroyed, so a run is
     as it should be exactly if no call is refused after its first request, and no call that pushes
     anything is followed by a successful one.

  4. **The list of hosts** (`hostLoop_spec`).  The loop of `LMON_fe_getMwHostlist` goes on for as long as
     `i <= maxlen`, and so writes one name too many, and finds afterwards that `i` is not `maxlen`.  It
     does what it should exactly if there are at most `maxlen` hosts (`getMwHostlist_iff`).
-/
import LaunchMON.Frontend.Locks

namespace LaunchMON.Frontend

open CBytes Lmonp

/-! ## A launch -/

/-- What `LMON_assist_ICCL_MW_init` prints of the key and of the number of the session: `ssec` and
    `secchk`. -/
structure SecurityArgs where
  ssec : CString
  secchk : CString

/-- A call of `LMON_fe_launchMwDaemons`, and what `LMON_fe_mwHandshakeSequence` returns if it gets that
    far. -/
structure MwCall where
  req : List DistRequest
  nreq : Int
  handshake : LmonRc

/-- The requests of a call. -/
def MwCall.requests (c : MwCall) : List DistRequest := c.req.take c.nreq.toNat

/-- The test of `nreq`. -/
def MwCall.BadNreq (c : MwCall) : Prop := c.nreq ≤ 0 ∨ c.nreq > lmonNMwTypes

instance (c : MwCall) : Decidable c.BadNreq := inferInstanceAs (Decidable (_ ∨ _))

/-- The loop over the requests: `lrc`, and the vector. -/
def pushLoop (pMap : Proctable) : List DistRequest → List Spawner → LmonRc × List Spawner
  | [], spawnerVector => (.ok, spawnerVector)
  | r :: rs, spawnerVector =>
    match r.spawner pMap with
    | .error lrc => (lrc, spawnerVector)
    | .ok s => pushLoop pMap rs (spawnerVector ++ [s])

/-- The security arguments behind those of a spawner. -/
def Spawner.secured (sec : SecurityArgs) (s : Spawner) : Spawner :=
  { s with daemonArgs := s.daemonArgs ++ [sec.ssec, sec.secchk] }

/-- The loop of `LMON_assist_ICCL_MW_init`: the vector, and the spawners that have been told to spawn, as
    they are then. -/
def spawnLoop (sec : SecurityArgs) : List Spawner → List Spawner × List Spawner
  | [] => ([], [])
  | s :: ss =>
    let s := s.secured sec
    let (spawnerVector, spawned) := spawnLoop sec ss
    (s :: spawnerVector, s :: spawned)

/-- What a call leaves, and what it has given to others: the spawners that have been told to spawn, and
    the hosts in the order of the ranks for `cobo_server_open`. -/
structure Launched where
  rc : LmonRc
  desc : Desc
  spawned : List Spawner
  cobohl : List CString

/-- `LMON_fe_launchMwDaemons` on the descriptor of its handle. -/
def launchMw (sec : SecurityArgs) (d : Desc) (c : MwCall) : Launched :=
  if c.BadNreq then ⟨.ebdarg, d, [], []⟩
  else
    let (lrc, spawnerVector) := pushLoop d.pMap c.requests d.spawnerVector
    if lrc ≠ .ok then ⟨lrc, { d with spawnerVector := spawnerVector }, [], []⟩
    else
      let (spawnerVector, spawned) := spawnLoop sec spawnerVector
      let d := { d with spawnerVector := spawnerVector }
      let combinedHostList := combineHosts spawnerVector
      if c.handshake ≠ .ok then ⟨c.handshake, d, spawned, combinedHostList⟩
      else ⟨.ok, { d with mwSpawned := true }, spawned, combinedHostList⟩

/-! ## The loops -/

/-- The spawners of the requests in front of the first one that is refused. -/
def pushes (pMap : Proctable) : List DistRequest → List Spawner
  | [] => []
  | r :: rs =>
    match r.spawner pMap with
    | .error _ => []
    | .ok s => s :: pushes pMap rs

/-- No request is refused with LMON_OK. -/
theorem spawner_error {pMap : Proctable} {r : DistRequest} {lrc : LmonRc}
    (h : r.spawner pMap = .error lrc) : lrc ≠ .ok := by
  unfold DistRequest.spawner at h
  rintro rfl
  split at h
  · split at h <;> cases h
  · split at h
    · cases h
    · split at h
      · cases h
      · split at h
        · split at h
          · split at h <;> cases h
          · cases h
        · cases h

/-- **The loop over the requests** pushes up to the first one that is refused, and its result tells
    whether there is one. -/
theorem pushLoop_spec (pMap : Proctable) : ∀ (rs : List DistRequest) (v : List Spawner),
    (pushLoop pMap rs v).2 = v ++ pushes pMap rs ∧
      ((pushLoop pMap rs v).1 = .ok ↔ Supported pMap rs) := by
  intro rs
  induction rs with
  | nil =>
    intro v
    exact ⟨(List.append_nil v).symm, iff_of_true rfl fun r hr => absurd hr List.not_mem_nil⟩
  | cons r rs ih =>
    intro v
    rw [pushLoop, pushes]
    cases hs : r.spawner pMap with
    | error lrc =>
      refine ⟨(List.append_nil v).symm, iff_of_false (spawner_error hs) fun h => ?_⟩
      obtain ⟨s, hs'⟩ := h r List.mem_cons_self
      rw [hs] at hs'
      cases hs'
    | ok s =>
      obtain ⟨hvector, hrc⟩ := ih (v ++ [s])
      refine ⟨?_, hrc.trans ?_⟩
      · dsimp only
        rw [hvector, List.append_assoc, List.singleton_append]
      · rw [Supported, Supported, List.forall_mem_cons, and_iff_right ⟨s, hs⟩]

/-- If no request is refused, there is a spawner for each. -/
theorem pushes_of_supported {pMap : Proctable} {rs : List DistRequest} (h : Supported pMap rs) :
    rs.mapM (DistRequest.spawner pMap) = .ok (pushes pMap rs) := by
  induction rs with
  | nil => rfl
  | cons r rs ih =>
    obtain ⟨s, hs⟩ := h r List.mem_cons_self
    rw [List.mapM_cons, pushes, hs, ih fun r hr => h r (List.mem_cons_of_mem _ hr)]
    rfl

/-- The vector and what is started are the same list. -/
theorem spawnLoop_eq (sec : SecurityArgs) (v : List Spawner) :
    spawnLoop sec v = (v.map (Spawner.secured sec), v.map (Spawner.secured sec)) := by
  induction v with
  | nil => rfl
  | cons s ss ih => rw [spawnLoop, ih, List.map_cons]

/-! ## What a call does -/

/-- A call that is refused for one of its requests. -/
def MwCall.Refused (c : MwCall) (pMap : Proctable) : Prop := ¬ c.BadNreq ∧ ¬ Supported pMap c.requests

/-- A call that succeeds. -/
def MwCall.Succeeds (c : MwCall) (pMap : Proctable) : Prop :=
  ¬ c.BadNreq ∧ Supported pMap c.requests ∧ c.handshake = .ok

/-- The spawners that a call pushes. -/
def MwCall.pushed (c : MwCall) (pMap : Proctable) : List Spawner :=
  if c.BadNreq then [] else pushes pMap c.requests

variable {sec : SecurityArgs} {d : Desc} {c : MwCall}

theorem launchMw_badNreq (h : c.BadNreq) : launchMw sec d c = ⟨.ebdarg, d, [], []⟩ := if_pos h

theorem launchMw_refused (h : c.Refused d.pMap) :
    (launchMw sec d c).rc ≠ .ok ∧ (launchMw sec d c).desc.pMap = d.pMap ∧
      (launchMw sec d c).desc.spawnerVector = d.spawnerVector ++ c.pushed d.pMap := by
  obtain ⟨hvector, hrc⟩ := pushLoop_spec d.pMap c.requests d.spawnerVector
  have hne := mt hrc.mp h.2
  rw [launchMw, if_neg h.1, MwCall.pushed, if_neg h.1]
  dsimp only
  rw [if_pos hne]
  exact ⟨hne, rfl, hvector⟩

theorem launchMw_supported (hnreq : ¬ c.BadNreq) (h : Supported d.pMap c.requests) :
    ((launchMw sec d c).rc = .ok ↔ c.handshake = .ok) ∧ (launchMw sec d c).desc.pMap = d.pMap ∧
      (launchMw sec d c).spawned = (d.spawnerVector ++ c.pushed d.pMap).map (Spawner.secured sec) ∧
      (launchMw sec d c).desc.spawnerVector =
        (d.spawnerVector ++ c.pushed d.pMap).map (Spawner.secured sec) ∧
      (launchMw sec d c).cobohl = combineHosts (launchMw sec d c).desc.spawnerVector := by
  obtain ⟨hvector, hrc⟩ := pushLoop_spec d.pMap c.requests d.spawnerVector
  rw [launchMw, if_neg hnreq, MwCall.pushed, if_neg hnreq]
  dsimp only
  rw [if_neg (not_not.mpr (hrc.mpr h)), hvector, spawnLoop_eq]
  dsimp only
  by_cases hok : c.handshake = .ok
  · rw [if_neg (not_not.mpr hok)]
    exact ⟨iff_of_true rfl hok, rfl, rfl, rfl, rfl⟩
  · rw [if_pos hok]
    exact ⟨Iff.rfl, rfl, rfl, rfl, rfl⟩

/-- A call leaves the process table alone. -/
theorem launchMw_pMap : (launchMw sec d c).desc.pMap = d.pMap := by
  by_cases hnreq : c.BadNreq
  · rw [launchMw_badNreq hnreq]
  · by_cases hs : Supported d.pMap c.requests
    · exact (launchMw_supported hnreq hs).2.1
    · exact (launchMw_refused ⟨hnreq, hs⟩).2.1

/-- **The vector is empty after a call** if it has been before and nothing has been pushed. -/
theorem launchMw_vector : (launchMw sec d c).desc.spawnerVector = [] ↔
    d.spawnerVector = [] ∧ c.pushed d.pMap = [] := by
  rw [← List.append_eq_nil_iff]
  by_cases hnreq : c.BadNreq
  · rw [launchMw_badNreq hnreq, MwCall.pushed, if_pos hnreq, List.append_nil]
  · by_cases hs : Supported d.pMap c.requests
    · rw [(launchMw_supported hnreq hs).2.2.2.1, List.map_eq_nil_iff]
    · rw [(launchMw_refused ⟨hnreq, hs⟩).2.2]

/-- The result of a call tells what has become of it. -/
theorem launchMw_rc : (launchMw sec d c).rc = .ok ↔ c.Succeeds d.pMap := by
  by_cases hnreq : c.BadNreq
  · rw [launchMw_badNreq hnreq]
    exact iff_of_false nofun fun h => h.1 hnreq
  · by_cases hs : Supported d.pMap c.requests
    · rw [(launchMw_supported hnreq hs).1, MwCall.Succeeds, and_iff_right hnreq, and_iff_right hs]
    · exact iff_of_false (launchMw_refused ⟨hnreq, hs⟩).1 fun h => hs h.2.1

/-- The loop over the requests, as the program on the descriptor and the mutex has it. -/
theorem pushSpawners_eq : ∀ (rs : List DistRequest) (d : Desc) (tr : List MutexOp),
    pushSpawners rs ⟨d, tr⟩ =
      if (pushLoop d.pMap rs d.spawnerVector).1 = .ok then
        .ok .ok ⟨{ d with spawnerVector := (pushLoop d.pMap rs d.spawnerVector).2 }, tr⟩
      else
        .error (.ret (pushLoop d.pMap rs d.spawnerVector).1)
          ⟨{ d with spawnerVector := (pushLoop d.pMap rs d.spawnerVector).2 }, tr ++ [.unlock]⟩ := by
  intro rs
  induction rs with
  | nil =>
    intro d tr
    exact (if_pos rfl).symm
  | cons r rs ih =>
    intro d tr
    rw [pushLoop]
    cases hs : r.spawner d.pMap with
    | error lrc =>
      dsimp only
      rw [if_neg (spawner_error hs)]
      simp [pushSpawners, hs]
    | ok s =>
      dsimp only
      rw [← ih { d with spawnerVector := d.spawnerVector ++ [s] } tr]
      simp [pushSpawners, hs]

/-- **The program with the mutex** returns the same, and leaves the same, except that it does not know
    of the security arguments. -/
theorem call_launchMwDaemons {h : Int} (hh : Handle h) (hreq : c.nreq.toNat ≤ c.req.length) :
    ∃ d' tr, call (lmonFeLaunchMwDaemons h c.req c.nreq c.handshake) d =
        some ((launchMw sec d c).rc, d', tr) ∧
      ((launchMw sec d c).desc = d' ∨ (launchMw sec d c).desc =
        { d' with spawnerVector := d'.spawnerVector.map (Spawner.secured sec) }) := by
  by_cases hnreq : c.BadNreq
  · rw [launchMw_badNreq hnreq]
    refine ⟨d, [], ?_, Or.inl rfl⟩
    unfold MwCall.BadNreq at hnreq
    simp [call, lmonFeLaunchMwDaemons, checkHandle_bind hh, hnreq]
  · have hpush := pushSpawners_eq c.requests d [.lock]
    have hcode : ¬(c.nreq ≤ 0 ∨ c.nreq > lmonNMwTypes) := hnreq
    have hlen : ¬c.req.length < c.nreq.toNat := Nat.not_lt.mpr hreq
    unfold MwCall.requests at hpush
    rw [launchMw, if_neg hnreq, MwCall.requests]
    dsimp only
    by_cases hrc : (pushLoop d.pMap (c.req.take c.nreq.toNat) d.spawnerVector).1 = .ok
    · rw [if_pos hrc] at hpush
      rw [if_neg (not_not.mpr hrc), spawnLoop_eq]
      dsimp only
      by_cases hok : c.handshake = .ok
      · rw [if_neg (not_not.mpr hok)]
        refine ⟨{ d with
            spawnerVector := (pushLoop d.pMap (c.req.take c.nreq.toNat) d.spawnerVector).2
            mwSpawned := true }, [.lock, .unlock], ?_, Or.inr rfl⟩
        simp [call, lmonFeLaunchMwDaemons, checkHandle_bind hh, hcode, hlen, hok, Effect.ok_bind hpush]
      · rw [if_pos hok]
        refine ⟨{ d with
            spawnerVector := (pushLoop d.pMap (c.req.take c.nreq.toNat) d.spawnerVector).2 },
          [.lock, .unlock, .unlock], ?_, Or.inr rfl⟩
        simp [call, lmonFeLaunchMwDaemons, checkHandle_bind hh, hcode, hlen, hok, Effect.ok_bind hpush]
    · rw [if_neg hrc] at hpush
      rw [if_pos hrc]
      refine ⟨_, [.lock, .unlock], ?_, Or.inl rfl⟩
      simp [call, lmonFeLaunchMwDaemons, checkHandle_bind hh, hcode, hlen, Effect.error_bind hpush]

/-! ## All or nothing -/

/-- What is asked of a call: if it is refused for a request, the vector is as it was; if it succeeds, the
    spawners of its own requests have been told to spawn, each once, with the security arguments behind
    the arguments of the request, and no others. -/
structure AllOrNothing (sec : SecurityArgs) (d : Desc) (c : MwCall) : Prop where
  refused : c.Refused d.pMap → (launchMw sec d c).desc.spawnerVector = d.spawnerVector
  launched : (launchMw sec d c).rc = .ok → ∃ own, c.requests.mapM (DistRequest.spawner d.pMap) = .ok own ∧
    (launchMw sec d c).spawned = own.map (Spawner.secured sec)

/-- When a call has to be as it should, from its requests and the vector before it. -/
structure MwCall.Tidy (c : MwCall) (pMap : Proctable) (empty : Prop) : Prop where
  first : c.Refused pMap → c.pushed pMap = []
  fresh : c.Succeeds pMap → empty

/-- **One call.** -/
theorem allOrNothing_iff (sec : SecurityArgs) (d : Desc) (c : MwCall) :
    AllOrNothing sec d c ↔ c.Tidy d.pMap (d.spawnerVector = []) := by
  constructor
  · intro h
    constructor
    · intro href
      have hvector := (launchMw_refused href).2.2.symm.trans (h.refused href)
      exact List.append_right_eq_self.mp hvector
    · intro hsucc
      obtain ⟨own, hown, hspawned⟩ := h.launched (launchMw_rc.mpr hsucc)
      obtain ⟨hnreq, hsupp, -⟩ := hsucc
      rw [pushes_of_supported hsupp] at hown
      obtain rfl := Except.ok.inj hown
      rw [(launchMw_supported hnreq hsupp).2.2.1, MwCall.pushed, if_neg hnreq, List.map_append] at hspawned
      exact List.map_eq_nil_iff.mp (List.append_left_eq_self.mp hspawned)
  · rintro ⟨hfirst, hfresh⟩
    constructor
    · intro href
      rw [(launchMw_refused href).2.2, hfirst href, List.append_nil]
    · intro hrc
      have hvector := hfresh (launchMw_rc.mp hrc)
      obtain ⟨hnreq, hsupp, -⟩ := launchMw_rc.mp hrc
      refine ⟨_, pushes_of_supported hsupp, ?_⟩
      rw [(launchMw_supported hnreq hsupp).2.2.1, hvector, MwCall.pushed, if_neg hnreq, List.nil_append]

/-! ## Runs -/

/-- What happens to a session, as far as its spawners are concerned: a launch, a process table from the
    engine, and `LMON_destroy_sess` with `LMON_init_sess`. -/
inductive MwEvent
  | launch (c : MwCall)
  | proctable (pMap : Proctable)
  | destroy

/-- The descriptor behind an event. -/
def MwEvent.step (sec : SecurityArgs) (d : Desc) : MwEvent → Desc
  | .launch c => (launchMw sec d c).desc
  | .proctable pMap => { d with pMap := pMap }
  | .destroy => .init

/-- Every call of a run is as it should be. -/
def Launches (sec : SecurityArgs) : Desc → List MwEvent → Prop
  | _, [] => True
  | d, e :: es => (∀ c, e = .launch c → AllOrNothing sec d c) ∧ Launches sec (e.step sec d) es

/-- The condition on a run, from the requests alone: whether anything has been pushed since the session
    has been set up is carried along. -/
def TidyRun : Proctable → Prop → List MwEvent → Prop
  | _, _, [] => True
  | pMap, empty, .launch c :: es => c.Tidy pMap empty ∧ TidyRun pMap (empty ∧ c.pushed pMap = []) es
  | _, empty, .proctable pMap :: es => TidyRun pMap empty es
  | _, _, .destroy :: es => TidyRun ∅ True es

/-- **Every run**: its calls are all or nothing exactly if no call is refused behind its first request,
    and none succeeds while there are spawners of earlier calls. -/
theorem launches_iff (sec : SecurityArgs) : ∀ (es : List MwEvent) (d : Desc),
    Launches sec d es ↔ TidyRun d.pMap (d.spawnerVector = []) es := by
  intro es
  induction es with
  | nil =>
    intro d
    exact Iff.rfl
  | cons e es ih =>
    intro d
    rw [Launches, ih]
    cases e with
    | launch c =>
      rw [TidyRun]
      refine and_congr ⟨fun h => (allOrNothing_iff sec d c).mp (h c rfl), ?_⟩ ?_
      · rintro h c' ⟨⟩
        exact (allOrNothing_iff sec d c).mpr h
      · rw [MwEvent.step, launchMw_pMap, launchMw_vector]
    | proctable pMap => exact and_iff_right fun c h => nomatch h
    | destroy =>
      refine (and_iff_right fun c h => nomatch h).trans ?_
      rw [TidyRun, MwEvent.step, Desc.init, eq_self_iff_true]

/-- Hosts named by the caller, one daemon on each. -/
def hostlistRequest (hl : List CString) : DistRequest where
  md := 8
  mwDaemonPath := .empty
  dArgv := []
  ndaemon := -1
  block := -1
  cyclic := -1
  optkind := .hostlists
  hl := hl

/-- A good request for two hosts, and one that is not implemented. -/
def halfGood : MwCall :=
  let req := hostlistRequest [.letter 0, .letter 1]
  ⟨[req, { req with ndaemon := 2 }], 2, .ok⟩

/-- The spawner of the good request stays. -/
theorem launches_counterexample : ¬Launches ⟨.empty, .empty⟩ .init [.launch halfGood] := by
  intro h
  have hrefused : halfGood.Refused ∅ := by
    refine ⟨by decide, fun hs => ?_⟩
    obtain ⟨s, hs⟩ := hs _ (List.mem_cons_of_mem _ List.mem_cons_self)
    cases hs
  exact List.cons_ne_nil _ _ ((h.1 halfGood rfl).refused hrefused)

/-! ## The list of hosts -/

/-- The loop of `LMON_fe_getMwHostlist` over the hosts: `i`, and the caller's array. -/
def hostLoop (maxlen : UInt32) : List CString → UInt32 → Buf (Option CString) →
    UInt32 × Buf (Option CString)
  | [], i, hostlist => (i, hostlist)
  | host :: chosts, i, hostlist =>
    if i ≤ maxlen then hostLoop maxlen chosts (i + 1) (hostlist.write i.toNat [some host])
    else (i, hostlist)

/-- What a call that asks for hosts returns, the caller's array, and `*size`. -/
structure MwHosts where
  rc : LmonRc
  hostlist : Buf (Option CString)
  size : UInt32

/-- `LMON_fe_getMwHostlist` on the descriptor of its handle. -/
def getMwHostlist (d : Desc) (hostlist : Buf (Option CString)) (size maxlen : UInt32) : MwHosts :=
  if d.registered = false then ⟨.ebdarg, hostlist, size⟩
  else if d.mwSpawned = false then ⟨.edunav, hostlist, size⟩
  else
    let chosts := combineHosts d.spawnerVector
    let size := UInt32.ofNat chosts.length
    let (i, hostlist) := hostLoop maxlen chosts 0 hostlist
    ⟨if i = maxlen ∧ maxlen < size then .etrunc else .ok, hostlist, size⟩

/-- `LMON_fe_getMwHostlistSize`: its result, and `*size`. -/
def getMwHostlistSize (d : Desc) (size : UInt32) : LmonRc × UInt32 :=
  if d.registered = false then (.ebdarg, size)
  else if d.mwSpawned = false then (.edunav, size)
  else (.ok, d.spawnerVector.foldl (fun size s => size + UInt32.ofNat s.hosts.length) 0)

theorem toNat_succ {i : UInt32} (h : i.toNat + 1 < 2 ^ 32) : (i + 1).toNat = i.toNat + 1 := by
  rw [UInt32.toNat_add]
  exact Nat.mod_eq_of_lt h

/-- **The loop over the hosts** goes up to the index `maxlen`, and not up to the one in front of it. -/
theorem hostLoop_spec (maxlen : UInt32) : ∀ (chosts : List CString) (i : UInt32)
    (hostlist : Buf (Option CString)), i.toNat + chosts.length < 2 ^ 32 →
      (hostLoop maxlen chosts i hostlist).1.toNat =
          i.toNat + min chosts.length (maxlen.toNat + 1 - i.toNat) ∧
        (hostLoop maxlen chosts i hostlist).2 =
          hostlist.write i.toNat ((chosts.take (maxlen.toNat + 1 - i.toNat)).map some) := by
  intro chosts
  induction chosts with
  | nil =>
    intro i hostlist _
    rw [hostLoop, List.length_nil, Nat.zero_min, List.take_nil, List.map_nil, Buf.write_nil]
    exact ⟨rfl, rfl⟩
  | cons host chosts ih =>
    intro i hostlist hlen
    rw [List.length_cons] at hlen ⊢
    rw [hostLoop]
    by_cases hle : i ≤ maxlen
    · have hnat : i.toNat ≤ maxlen.toNat := UInt32.le_iff_toNat_le.mp hle
      have hsucc : (i + 1).toNat = i.toNat + 1 := toNat_succ (by omega)
      obtain ⟨hi, hwrite⟩ := ih (i + 1) (hostlist.write i.toNat [some host]) (by omega)
      rw [if_pos hle, hi, hwrite, hsucc]
      refine ⟨by omega, ?_⟩
      rw [show maxlen.toNat + 1 - i.toNat = maxlen.toNat + 1 - (i.toNat + 1) + 1 by omega,
        List.take_succ_cons, List.map_cons]
      exact Buf.write_write hostlist i.toNat [some host] _
    · have hnat : maxlen.toNat < i.toNat := Nat.lt_of_not_le fun h => hle (UInt32.le_iff_toNat_le.mpr h)
      rw [if_neg hle, show maxlen.toNat + 1 - i.toNat = 0 by omega, Nat.min_zero, List.take_zero,
        List.map_nil, Buf.write_nil]
      exact ⟨rfl, rfl⟩

/-- The two functions count the same. -/
theorem sizes_agree (v : List Spawner) : ∀ (size : UInt32),
    v.foldl (fun size s => size + UInt32.ofNat s.hosts.length) size =
      size + UInt32.ofNat (combineHosts v).length := by
  induction v with
  | nil =>
    intro size
    exact (UInt32.add_zero size).symm
  | cons s v ih =>
    intro size
    rw [List.foldl_cons, ih, UInt32.add_assoc, ← UInt32.ofNat_add, combineHosts, combineHosts,
      List.flatMap_cons, List.length_append]

/-- What is asked of the two functions: the first `maxlen` hosts are written and nothing else, the size
    is the number of all of them, the result tells whether some are missing, and the place of a host is
    the rank of the daemon on it. -/
structure TellsHosts (d : Desc) (maxlen : UInt32) : Prop where
  written : ∀ hostlist size, (getMwHostlist d hostlist size maxlen).hostlist =
    hostlist.write 0 (((combineHosts d.spawnerVector).take maxlen.toNat).map some)
  size : ∀ hostlist size,
    (getMwHostlist d hostlist size maxlen).size.toNat = (combineHosts d.spawnerVector).length
  rc : ∀ hostlist size, (getMwHostlist d hostlist size maxlen).rc =
    if maxlen.toNat < (combineHosts d.spawnerVector).length then .etrunc else .ok
  sizes : ∀ hostlist size size',
    getMwHostlistSize d size' = (.ok, (getMwHostlist d hostlist size maxlen).size)
  ranks : ∀ sec d₀ c, (launchMw sec d₀ c).rc = .ok → (launchMw sec d₀ c).desc = d →
    (launchMw sec d₀ c).cobohl = combineHosts d.spawnerVector

theorem getMwHostlist_eq {d : Desc} (hreg : d.registered = true) (hmw : d.mwSpawned = true)
    (hostlist : Buf (Option CString)) (size maxlen : UInt32) :
    getMwHostlist d hostlist size maxlen =
      ⟨if (hostLoop maxlen (combineHosts d.spawnerVector) 0 hostlist).1 = maxlen ∧
          maxlen < UInt32.ofNat (combineHosts d.spawnerVector).length then .etrunc else .ok,
        (hostLoop maxlen (combineHosts d.spawnerVector) 0 hostlist).2,
        UInt32.ofNat (combineHosts d.spawnerVector).length⟩ := by
  rw [getMwHostlist, if_neg (by rw [hreg]; decide), if_neg (by rw [hmw]; decide)]

/-- A list of hosts that does not fit is never told as it should. -/
theorem not_tellsHosts {d : Desc} (hreg : d.registered = true) (hmw : d.mwSpawned = true)
    {maxlen : UInt32} (hlong : maxlen.toNat < (combineHosts d.spawnerVector).length) :
    ¬TellsHosts d maxlen := by
  intro h
  have hsize := h.size (fun _ => none) 0
  have hrc := h.rc (fun _ => none) 0
  rw [getMwHostlist_eq hreg hmw] at hsize hrc
  rw [if_pos hlong] at hrc
  have hlen : (combineHosts d.spawnerVector).length < 2 ^ 32 := hsize ▸ UInt32.toNat_lt _
  obtain ⟨hi, -⟩ := hostLoop_spec maxlen (combineHosts d.spawnerVector) 0 (fun _ => none)
    (by rw [UInt32.toNat_zero]; omega)
  rw [UInt32.toNat_zero] at hi
  -- the loop has stopped one behind `maxlen`
  have hne : (hostLoop maxlen (combineHosts d.spawnerVector) 0 fun _ => none).1 ≠ maxlen := by
    intro heq
    rw [heq] at hi
    omega
  rw [if_neg fun hand => hne hand.1] at hrc
  cases hrc

/-- **When the hosts are told as they should be**: exactly if there are at most `maxlen` of them. -/
theorem getMwHostlist_iff {d : Desc} (hreg : d.registered = true) (hmw : d.mwSpawned = true)
    (maxlen : UInt32) :
    TellsHosts d maxlen ↔ (combineHosts d.spawnerVector).length ≤ maxlen.toNat := by
  constructor
  · intro h
    exact Nat.le_of_not_lt fun hlong => not_tellsHosts hreg hmw hlong h
  · intro hle
    have hmax : maxlen.toNat < 2 ^ 32 := UInt32.toNat_lt _
    have hsize : (UInt32.ofNat (combineHosts d.spawnerVector).length).toNat =
        (combineHosts d.spawnerVector).length := UInt32.toNat_ofNat_of_lt' (hle.trans_lt hmax)
    constructor
    · intro hostlist size
      obtain ⟨-, hwrite⟩ := hostLoop_spec maxlen (combineHosts d.spawnerVector) 0 hostlist
        (by rw [UInt32.toNat_zero]; omega)
      rw [getMwHostlist_eq hreg hmw, hwrite, UInt32.toNat_zero, List.take_of_length_le hle,
        List.take_of_length_le (by omega)]
    · intro hostlist size
      rw [getMwHostlist_eq hreg hmw, hsize]
    · intro hostlist size
      have hlt : ¬maxlen < UInt32.ofNat (combineHosts d.spawnerVector).length := by
        rw [UInt32.lt_iff_toNat_lt, hsize]
        omega
      rw [getMwHostlist_eq hreg hmw, if_neg fun hand => hlt hand.2, if_neg (Nat.not_lt.mpr hle)]
    · intro hostlist size size'
      rw [getMwHostlist_eq hreg hmw, getMwHostlistSize, if_neg (by rw [hreg]; decide),
        if_neg (by rw [hmw]; decide), sizes_agree, UInt32.zero_add]
    · rintro sec d₀ c hrc rfl
      obtain ⟨hnreq, hsupp, -⟩ := launchMw_rc.mp hrc
      exact (launchMw_supported hnreq hsupp).2.2.2.2

/-- A session whose middleware is up, with the given hosts. -/
def mwUp (hl : List CString) : Desc :=
  { Desc.init with
    registered := true
    mwSpawned := true
    spawnerVector := [⟨false, .empty, [], hl⟩] }

theorem getMwHostlist_iff_two :
    TellsHosts (mwUp [.empty, .empty]) 2 ↔ (combineHosts (mwUp [.empty, .empty]).spawnerVector).length ≤ 2 :=
  getMwHostlist_iff rfl rfl 2

/-- Two hosts and room for one: both are written, and the result is LMON_OK. -/
theorem getMwHostlist_counterexample : ¬TellsHosts (mwUp [.empty, .empty]) 1 := by
  intro h
  exact absurd (h.rc (fun _ => none) 0) (by decide)

/-- The program with the mutex returns the same, for a number of hosts that is an `unsigned int`. -/
theorem call_getMwHostlist {h : Int} (hh : Handle h) (d : Desc) (hostlist : Buf (Option CString))
    (size maxlen : UInt32) (hlen : (combineHosts d.spawnerVector).length < 2 ^ 32) :
    (call (lmonFeGetMwHostlist h maxlen) d).map (fun r => r.1) =
      some (getMwHostlist d hostlist size maxlen).rc := by
  have hsize : (UInt32.ofNat (combineHosts d.spawnerVector).length).toNat =
      (combineHosts d.spawnerVector).length := UInt32.toNat_ofNat_of_lt' hlen
  obtain ⟨hi, -⟩ := hostLoop_spec maxlen (combineHosts d.spawnerVector) 0 hostlist
    (by rw [UInt32.toNat_zero]; omega)
  rw [UInt32.toNat_zero, Nat.zero_add, Nat.sub_zero] at hi
  have hiff : (hostLoop maxlen (combineHosts d.spawnerVector) 0 hostlist).1 = maxlen ∧
      maxlen < UInt32.ofNat (combineHosts d.spawnerVector).length ↔
      min (combineHosts d.spawnerVector).length (maxlen.toNat + 1) = maxlen.toNat ∧
        maxlen.toNat < (combineHosts d.spawnerVector).length := by
    rw [← UInt32.toNat_inj, hi, UInt32.lt_iff_toNat_lt, hsize]
  cases hreg : d.registered with
  | false => simp [call, lmonFeGetMwHostlist, getMwHostlist, checkHandle_bind hh, hreg]
  | true =>
    cases hmw : d.mwSpawned with
    | false => simp [call, lmonFeGetMwHostlist, getMwHostlist, checkHandle_bind hh, hreg, hmw]
    | true =>
      rw [getMwHostlist_eq hreg hmw, if_congr hiff rfl rfl]
      simp [call, lmonFeGetMwHostlist, checkHandle_bind hh, hreg, hmw]

end LaunchMON.Frontend
