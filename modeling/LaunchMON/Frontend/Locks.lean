/-
  The mutex of a session, over the calls of one thread.

  A call that returns leaves one of four traces on `eventMutex`: none, when it does not get as far;
  lock, waits, unlock; a lock alone; a lock and two unlocks (`Trace`).  The second pair breaks the
  balance, and each of its two members has its own way in: a request that does not go out, or a
  process table without a payload, returns with the mutex; a middleware handshake that fails gives it
  back twice.  `Clean` excludes these three, and `mutex_balance` says that a sequence of calls is
  balanced, and does not block on itself, exactly when all of them are clean.
-/
import LaunchMON.Frontend.Calls

namespace LaunchMON.Frontend

open CBytes Lmonp Machine

variable {α : Type}

/-! ## Programs, one step at a time -/

section Run

variable (d : Desc) (tr : List MutexOp)

@[simp] theorem mutexOp_bind (o : MutexOp) (f : Unit → ApiM α) :
    (mutexOp o >>= f) ⟨d, tr⟩ = f () ⟨d, tr ++ [o]⟩ := rfl

@[simp] theorem getDesc_bind (f : Desc → ApiM α) : (getDesc >>= f) ⟨d, tr⟩ = f d ⟨d, tr⟩ := rfl

@[simp] theorem setDesc_bind (d' : Desc) (f : Unit → ApiM α) :
    (setDesc d' >>= f) ⟨d, tr⟩ = f () ⟨d', tr⟩ := rfl

@[simp] theorem mutexOp_map (o : MutexOp) (f : Unit → α) :
    (f <$> mutexOp o) ⟨d, tr⟩ = .ok (f ()) ⟨d, tr ++ [o]⟩ := rfl

@[simp] theorem setDesc_map (d' : Desc) (f : Unit → α) :
    (f <$> setDesc d') ⟨d, tr⟩ = .ok (f ()) ⟨d', tr⟩ := rfl

@[simp] theorem return_run (a : α) : (pure a : ApiM α) ⟨d, tr⟩ = .ok a ⟨d, tr⟩ := rfl

@[simp] theorem throw_run (e : Exit) : (throw e : ApiM α) ⟨d, tr⟩ = .error e ⟨d, tr⟩ := rfl

@[simp] theorem leave_run (rc : LmonRc) :
    leave rc ⟨d, tr⟩ = .error (.ret rc) ⟨d, tr ++ [.unlock]⟩ := rfl

@[simp] theorem ite_run (c : Prop) [Decidable c] (x y : ApiM α) (s : Thread) :
    (if c then x else y) s = if c then x s else y s := by
  split <;> rfl

end Run

/-- A handle that is an index of the array of descriptors. -/
def Handle (h : Int) : Prop := 0 ≤ h ∧ h < maxLmonSession

instance (h : Int) : Decidable (Handle h) := inferInstanceAs (Decidable (_ ∧ _))

theorem checkHandle_bind {h : Int} (hh : Handle h) (f : Unit → ApiM α) (s : Thread) :
    (checkHandle h >>= f) s = f () s := by
  obtain ⟨h0, h1⟩ := hh
  unfold checkHandle
  rw [if_neg (by omega), if_neg (by omega)]
  rfl

/-- A call on a handle that is no index returns at once, if it returns. -/
theorem call_bad_handle {h : Int} (hh : ¬ Handle h) (f : Unit → ApiM LmonRc) (d : Desc)
    {r : LmonRc × Desc × List MutexOp} (hr : call (checkHandle h >>= f) d = some r) :
    r = (.ebdarg, d, []) := by
  unfold Handle at hh
  unfold call checkHandle at hr
  by_cases h1 : h = maxLmonSession
  · subst h1
    cases hr
  · rw [if_pos (by omega)] at hr
    cases hr
    rfl

/-! ## The traces of the loops -/

/-- The loop around the wait adds waits and nothing else. -/
theorem waitFor_run {c : Call} : ∀ (ws : List Wake) (d : Desc) (tr : List MutexOp),
    (∃ s, waitFor c ws ⟨d, tr⟩ = .error .blocked s) ∨
      ∃ rc d' k, waitFor c ws ⟨d, tr⟩ = .ok rc ⟨d', tr ++ List.replicate k .timedwait⟩ := by
  intro ws
  induction ws with
  | nil =>
    intro d tr
    by_cases hf : c.flag d.toSession = true
    · exact Or.inr ⟨.ok, d, 0, by simp [waitFor, hf]⟩
    · exact Or.inl ⟨⟨d, tr⟩, by simp [waitFor, hf]⟩
  | cons w ws ih =>
    intro d tr
    by_cases hf : c.flag d.toSession = true
    · exact Or.inr ⟨.ok, d, 0, by simp [waitFor, hf]⟩
    · cases hw : w.rc with
      | etimedout =>
        exact Or.inr ⟨.etout, { d with toSession := w.session }, 1, by simp [waitFor, hf, hw]⟩
      | other =>
        exact Or.inr ⟨.einval, { d with toSession := w.session }, 1, by simp [waitFor, hf, hw]⟩
      | ok =>
        have hstep : waitFor c (w :: ws) ⟨d, tr⟩ =
            waitFor c ws ⟨{ d with toSession := w.session }, tr ++ [.timedwait]⟩ := by
          simp [waitFor, hf, hw]
        rw [hstep]
        rcases ih { d with toSession := w.session } (tr ++ [.timedwait]) with hb | ⟨rc, d', k, hk⟩
        · exact Or.inl hb
        · right
          refine ⟨rc, d', k + 1, ?_⟩
          rw [hk, List.replicate_succ, List.append_assoc]
          rfl

/-- The requests of `LMON_fe_launchMwDaemons` can all be served. -/
def Supported (pMap : Proctable) (req : List DistRequest) : Prop :=
  ∀ r ∈ req, ∃ s, r.spawner pMap = .ok s

/-- The loop over the requests leaves the mutex alone, or gives it back with the call. -/
theorem pushSpawners_run : ∀ (req : List DistRequest) (d : Desc) (tr : List MutexOp),
    (Supported d.pMap req ∧ ∃ d', pushSpawners req ⟨d, tr⟩ = .ok .ok ⟨d', tr⟩) ∨
      (¬ Supported d.pMap req ∧
        ∃ rc d', pushSpawners req ⟨d, tr⟩ = .error (.ret rc) ⟨d', tr ++ [.unlock]⟩) := by
  intro req
  induction req with
  | nil =>
    intro d tr
    exact Or.inl ⟨fun r hr => absurd hr List.not_mem_nil, d, rfl⟩
  | cons r rs ih =>
    intro d tr
    cases hs : r.spawner d.pMap with
    | error rc =>
      right
      refine ⟨fun h => ?_, rc, d, by simp [pushSpawners, hs]⟩
      obtain ⟨s, hs'⟩ := h r List.mem_cons_self
      rw [hs] at hs'
      cases hs'
    | ok s =>
      have hstep : pushSpawners (r :: rs) ⟨d, tr⟩ =
          pushSpawners rs ⟨{ d with spawnerVector := d.spawnerVector ++ [s] }, tr⟩ := by
        simp [pushSpawners, hs]
      have hsupp : Supported d.pMap (r :: rs) ↔ Supported d.pMap rs := by
        simp [Supported, hs]
      rw [hstep, hsupp]
      exact ih { d with spawnerVector := d.spawnerVector ++ [s] } tr

/-! ## The calls of a thread -/

/-- A call with its arguments and what the outside does to it. -/
inductive Invocation
  | detach (h : Int) (sent : Bool) (wakes : List Wake)
  | kill (h : Int) (sent : Bool) (wakes : List Wake)
  | shutdownDaemons (h : Int) (sent : Bool) (wakes : List Wake)
  | getProctableSize (h : Int)
  | getProctable (h : Int) (proctable : Option (Buf ProcdescExt)) (maxlen : UInt32)
  | launchMwDaemons (h : Int) (req : List DistRequest) (nreq : Int) (handshake : LmonRc)
  | getMwHostlist (h : Int) (maxlen : UInt32)
  | getMwHostlistSize (h : Int)

def Invocation.program : Invocation → ApiM LmonRc
  | .detach h sent wakes => lmonFeDetach h sent wakes
  | .kill h sent wakes => lmonFeKill h sent wakes
  | .shutdownDaemons h sent wakes => lmonFeShutdownDaemons h sent wakes
  | .getProctableSize h => lmonFeGetProctableSize h
  | .getProctable h proctable maxlen => lmonFeGetProctable h proctable maxlen
  | .launchMwDaemons h req nreq handshake => lmonFeLaunchMwDaemons h req nreq handshake
  | .getMwHostlist h maxlen => lmonFeGetMwHostlist h maxlen
  | .getMwHostlistSize h => lmonFeGetMwHostlistSize h

/-- The request of a call that gets as far as sending it goes out. -/
def Sends (c : Call) (d : Desc) (h : Int) (sent : Bool) : Prop :=
  Handle h → c.check d.toSession = true → sent = true

/-- What a call must find outside, and in the descriptor, to be balanced: its request goes out; a table
    that has come has a payload; the handshake that it gets to succeeds. -/
def Invocation.Clean (d : Desc) : Invocation → Prop
  | .detach h sent _ => Sends .detach d h sent
  | .kill h sent _ => Sends .kill d h sent
  | .shutdownDaemons h sent _ => Sends .shutdownDaemons d h sent
  | .getProctable h proctable _ => Handle h → d.registered = true → d.spawned = true →
      proctable.isSome = true → ∀ m, d.proctabMsg = some m → getLmonpayloadBegin m.hdr ≠ none
  | .launchMwDaemons h req nreq handshake => Handle h → 0 < nreq → nreq ≤ lmonNMwTypes →
      Supported d.pMap (req.take nreq.toNat) → handshake = .ok
  | .getProctableSize _ | .getMwHostlist _ _ | .getMwHostlistSize _ => True

/-- The mutex is taken as often as it is given back, never given back without having it, and free at
    the end, with no operation on the way that blocks. -/
structure Balanced (tr : List MutexOp) : Prop where
  count : tr.count .lock = tr.count .unlock
  free : runAll Mutex.step false tr = some false

/-- The traces of the calls that return.  `good` and `bad` tell the balanced ones from the others. -/
inductive Trace : Bool → List MutexOp → Prop
  | unlocked : Trace true []
  | served (k : ℕ) : Trace true (.lock :: (List.replicate k .timedwait ++ [.unlock]))
  | kept : Trace false [.lock]
  | twice : Trace false [.lock, .unlock, .unlock]

/-- What is known of a call that returns. -/
def Leaves (x : ApiM LmonRc) (d : Desc) (Clean : Prop) : Prop :=
  ∀ rc d' tr, call x d = some (rc, d', tr) → (Clean ∧ Trace true tr) ∨ (¬ Clean ∧ Trace false tr)

theorem Leaves.of_bad_handle {h : Int} {d : Desc} {f : Unit → ApiM LmonRc} {P : Prop}
    (hh : ¬ Handle h) : Leaves (checkHandle h >>= f) d (Handle h → P) := by
  intro rc d' tr hr
  cases call_bad_handle hh f d hr
  exact Or.inl ⟨fun h' => absurd h' hh, .unlocked⟩

theorem Leaves.good {x : ApiM LmonRc} {d : Desc} {P : Prop} (rc₁ : LmonRc) (d₁ : Desc)
    (tr₁ : List MutexOp) (hx : call x d = some (rc₁, d₁, tr₁)) (hP : P) (ht : Trace true tr₁) : Leaves x d P := by
  intro rc d' tr h
  cases hx.symm.trans h
  exact Or.inl ⟨hP, ht⟩

theorem Leaves.bad {x : ApiM LmonRc} {d : Desc} {P : Prop} (rc₁ : LmonRc) (d₁ : Desc)
    (tr₁ : List MutexOp) (hx : call x d = some (rc₁, d₁, tr₁)) (hP : ¬ P) (ht : Trace false tr₁) : Leaves x d P := by
  intro rc d' tr h
  cases hx.symm.trans h
  exact Or.inr ⟨hP, ht⟩

theorem Leaves.never {x : ApiM LmonRc} {d : Desc} {P : Prop} (hx : call x d = none) :
    Leaves x d P := by
  intro rc d' tr h
  rw [hx] at h
  cases h

/-- **Detach, kill, shutdown**: the ways to return. -/
theorem control_spec {c : Call} {h : Int} {sent : Bool} {wakes : List Wake} {d d' : Desc}
    {rc : LmonRc} {tr : List MutexOp} (hr : call (control c h sent wakes) d = some (rc, d', tr)) :
    (¬ Handle h ∧ d' = d ∧ tr = []) ∨
      (c.check d.toSession = false ∧ d' = d ∧ tr = [.lock, .unlock]) ∨
      (Handle h ∧ c.check d.toSession = true ∧ sent = false ∧ d' = d ∧ tr = [.lock]) ∨
      (sent = true ∧ ∃ k d₁, d' = c.leaves d₁ ∧
        tr = .lock :: (List.replicate k .timedwait ++ [.unlock])) := by
  by_cases hh : Handle h
  · right
    cases hc : c.check d.toSession with
    | false =>
      left
      simp [call, control, checkHandle_bind hh, hc] at hr
      exact ⟨rfl, hr.2.1.symm, hr.2.2.symm⟩
    | true =>
      right
      cases sent with
      | false =>
        left
        simp [call, control, checkHandle_bind hh, hc] at hr
        exact ⟨hh, rfl, rfl, hr.2.1.symm, hr.2.2.symm⟩
      | true =>
        right
        rcases waitFor_run (c := c) wakes d [.lock] with ⟨s, hb⟩ | ⟨rc, d₁, k, hk⟩
        · simp [call, control, checkHandle_bind hh, hc, Effect.error_bind hb] at hr
        · simp [call, control, checkHandle_bind hh, hc, Effect.ok_bind hk] at hr
          exact ⟨rfl, k, d₁, hr.2.1.symm, hr.2.2.symm⟩
  · left
    cases call_bad_handle hh _ d hr
    exact ⟨hh, rfl, rfl⟩

theorem control_leaves (c : Call) (h : Int) (sent : Bool) (wakes : List Wake) (d : Desc) :
    Leaves (control c h sent wakes) d (Sends c d h sent) := by
  intro rc d' tr hr
  rcases control_spec hr with ⟨hh, -, rfl⟩ | ⟨hc, -, rfl⟩ | ⟨hh, hc, hs, -, rfl⟩ | ⟨hs, k, -, -, rfl⟩
  · exact Or.inl ⟨fun h' => absurd h' hh, .unlocked⟩
  · refine Or.inl ⟨fun _ hc' => ?_, .served 0⟩
    rw [hc] at hc'
    cases hc'
  · refine Or.inr ⟨fun hall => ?_, .kept⟩
    rw [hall hh hc] at hs
    cases hs
  · exact Or.inl ⟨fun _ _ => hs, .served k⟩

theorem getProctableSize_leaves (h : Int) (d : Desc) :
    Leaves (lmonFeGetProctableSize h) d True := by
  by_cases hh : Handle h
  · refine Leaves.good (if d.registered = false then .ebdarg
      else if d.spawned = false then .edunav else if d.proctabMsg = none then .edunav else .ok)
      d [.lock, .unlock] ?_ trivial (.served 0)
    simp only [call, lmonFeGetProctableSize, checkHandle_bind hh, mutexOp_bind, getDesc_bind, ite_run]
    split_ifs <;> simp
  · intro rc d' tr hr
    cases call_bad_handle hh _ d hr
    exact Or.inl ⟨trivial, .unlocked⟩

/-- `LMON_fe_getMwHostlist` and `LMON_fe_getMwHostlistSize` differ in what they return. -/
theorem mwHosts_leaves (h : Int) (d : Desc) (rc₀ : Desc → LmonRc) :
    Leaves (do
      checkHandle h
      mutexOp .lock
      let d ← getDesc
      if d.registered = false then leave .ebdarg
      else if d.mwSpawned = false then leave .edunav
      else
        mutexOp .unlock
        return rc₀ d) d True := by
  by_cases hh : Handle h
  · refine Leaves.good (if d.registered = false then .ebdarg
      else if d.mwSpawned = false then .edunav else rc₀ d) d [.lock, .unlock] ?_ trivial (.served 0)
    simp only [call, checkHandle_bind hh, mutexOp_bind, getDesc_bind, ite_run]
    split_ifs <;> simp
  · intro rc d' tr hr
    cases call_bad_handle hh _ d hr
    exact Or.inl ⟨trivial, .unlocked⟩

theorem getProctable_leaves (h : Int) (proctable : Option (Buf ProcdescExt)) (maxlen : UInt32)
    (d : Desc) :
    Leaves (lmonFeGetProctable h proctable maxlen) d
      ((Invocation.getProctable h proctable maxlen).Clean d) := by
  by_cases hh : Handle h
  swap
  · exact Leaves.of_bad_handle hh
  by_cases hr : d.registered = false
  · refine Leaves.good .ebdarg d [.lock, .unlock] ?_ (fun _ hr' => ?_) (.served 0)
    · simp [call, lmonFeGetProctable, checkHandle_bind hh, hr]
    · cases hr.symm.trans hr'
  by_cases hs : d.spawned = false
  · refine Leaves.good .edunav d [.lock, .unlock] ?_ (fun _ _ hs' => ?_) (.served 0)
    · simp [call, lmonFeGetProctable, checkHandle_bind hh, hr, hs]
    · cases hs.symm.trans hs'
  cases hm : d.proctabMsg with
  | none =>
    refine Leaves.good .edunav d [.lock, .unlock] ?_ (fun _ _ _ _ m hm' => ?_) (.served 0)
    · simp [call, lmonFeGetProctable, checkHandle_bind hh, hr, hs, hm]
    · cases hm.symm.trans hm'
  | some m =>
    cases ht : proctable with
    | none =>
      refine Leaves.good .edunav d [.lock, .unlock] ?_ (fun _ _ _ ht' => (by cases ht')) (.served 0)
      simp [call, lmonFeGetProctable, checkHandle_bind hh, hr, hs, hm]
    | some table =>
      cases hp : getLmonpayloadBegin m.hdr with
      | none =>
        refine Leaves.bad .edunav d [.lock] ?_ (fun hc => ?_) .kept
        · simp [call, lmonFeGetProctable, checkHandle_bind hh, hr, hs, hm, hp]
        · exact hc hh (by simpa using hr) (by simpa using hs) rfl m hm hp
      | some traverse =>
        have hclean : (Invocation.getProctable h (some table) maxlen).Clean d := by
          intro _ _ _ _ m' hm'
          cases hm.symm.trans hm'
          rw [hp]
          exact nofun
        cases hf : fetchRows (((getStrtabBegin m.hdr).map m.payload.drop).getD [])
            (min (ntasks m.hdr) maxlen.toNat) 0 (m.payload.drop traverse) table with
        | none =>
          refine Leaves.never ?_
          simp [call, lmonFeGetProctable, checkHandle_bind hh, hr, hs, hm, hp, hf]
        | some table' =>
          refine Leaves.good (if maxlen.toNat < ntasks m.hdr then .etrunc else .ok)
            d [.lock, .unlock] ?_ hclean (.served 0)
          simp [call, lmonFeGetProctable, checkHandle_bind hh, hr, hs, hm, hp, hf]

theorem launchMwDaemons_leaves (h : Int) (req : List DistRequest) (nreq : Int) (handshake : LmonRc)
    (d : Desc) :
    Leaves (lmonFeLaunchMwDaemons h req nreq handshake) d
      ((Invocation.launchMwDaemons h req nreq handshake).Clean d) := by
  by_cases hh : Handle h
  · by_cases hn : nreq ≤ 0 ∨ nreq > lmonNMwTypes
    · refine Leaves.good .ebdarg d [] ?_ ?_ .unlocked
      · simp [call, lmonFeLaunchMwDaemons, checkHandle_bind hh, hn]
      · intro _ h0 h1
        omega
    · by_cases hl : req.length < nreq.toNat
      · refine Leaves.never ?_
        simp [call, lmonFeLaunchMwDaemons, checkHandle_bind hh, hn, hl]
      · rcases pushSpawners_run (req.take nreq.toNat) d [.lock] with ⟨hs, d', hk⟩ | ⟨hs, rc, d', hk⟩
        · by_cases hok : handshake = .ok
          · refine Leaves.good .ok { d' with mwSpawned := true } [.lock, .unlock] ?_
              (fun _ _ _ _ => hok) (.served 0)
            simp [call, lmonFeLaunchMwDaemons, checkHandle_bind hh, hn, hl, hok, Effect.ok_bind hk]
          · refine Leaves.bad handshake d' [.lock, .unlock, .unlock] ?_
              (fun hc => hok (hc hh (by omega) (by omega) hs)) .twice
            simp [call, lmonFeLaunchMwDaemons, checkHandle_bind hh, hn, hl, hok, Effect.ok_bind hk]
        · refine Leaves.good rc d' [.lock, .unlock] ?_ (fun _ _ _ h' => absurd h' hs) (.served 0)
          simp [call, lmonFeLaunchMwDaemons, checkHandle_bind hh, hn, hl, Effect.error_bind hk]
  · exact Leaves.of_bad_handle hh

/-- **One call**: it is served, or it breaks the balance, as `Clean` says. -/
theorem Invocation.leaves (i : Invocation) (d : Desc) : Leaves i.program d (i.Clean d) := by
  cases i with
  | detach h sent wakes => exact control_leaves .detach h sent wakes d
  | kill h sent wakes => exact control_leaves .kill h sent wakes d
  | shutdownDaemons h sent wakes => exact control_leaves .shutdownDaemons h sent wakes d
  | getProctableSize h => exact getProctableSize_leaves h d
  | getProctable h proctable maxlen => exact getProctable_leaves h proctable maxlen d
  | launchMwDaemons h req nreq handshake => exact launchMwDaemons_leaves h req nreq handshake d
  | getMwHostlist h maxlen => exact mwHosts_leaves h d _
  | getMwHostlistSize h => exact mwHosts_leaves h d _

/-! ## Sequences of calls -/

/-- What the calls of one thread do to the mutex, each on the descriptor it finds; `none` if one of
    them does not return. -/
def trace : List (Desc × Invocation) → Option (List MutexOp)
  | [] => some []
  | (d, i) :: cs => do
    let (_, _, tr) ← call i.program d
    return tr ++ (← trace cs)

/-- The number of times the mutex was taken and not given back is what is known of it at the end. -/
theorem count_of_runAll : ∀ (tr : List MutexOp) (b b' : Bool), runAll Mutex.step b tr = some b' →
    b.toNat + tr.count .lock = b'.toNat + tr.count .unlock
  | [], b, b', h => by
    cases h
    rfl
  | o :: tr, b, b', h => by
    obtain ⟨b₁, hs, h⟩ := Option.bind_eq_some_iff.mp h
    have ih := count_of_runAll tr b₁ b' h
    cases b <;> cases o <;> cases hs <;> simp at ih ⊢ <;> omega

theorem balanced_iff (tr : List MutexOp) :
    Balanced tr ↔ runAll Mutex.step false tr = some false := by
  refine ⟨Balanced.free, fun h => ⟨?_, h⟩⟩
  have := count_of_runAll tr false false h
  simpa using this

theorem runAll_timedwait (tr : List MutexOp) : ∀ k : ℕ,
    runAll Mutex.step true (List.replicate k .timedwait ++ tr) = runAll Mutex.step true tr
  | 0 => rfl
  | k + 1 => runAll_timedwait tr k

/-- A balanced call leaves the mutex as it finds it; any other one ends with the mutex, or fails. -/
theorem Trace.free {tr : List MutexOp} (h : Trace true tr) :
    runAll Mutex.step false tr = some false := by
  cases h with
  | unlocked => rfl
  | served k => exact runAll_timedwait [.unlock] k

theorem Trace.not_free {tr : List MutexOp} (h : Trace false tr) :
    runAll Mutex.step false tr = some true ∨ runAll Mutex.step false tr = none := by
  cases h with
  | kept => exact Or.inl rfl
  | twice => exact Or.inr rfl

/-- Who starts with the mutex has it at the end, or fails. -/
theorem Trace.held {b : Bool} {tr : List MutexOp} (h : Trace b tr) :
    runAll Mutex.step true tr = some true ∨ runAll Mutex.step true tr = none := by
  cases h with
  | unlocked => exact Or.inl rfl
  | served | kept | twice => exact Or.inr rfl

theorem trace_held : ∀ (cs : List (Desc × Invocation)) (tr : List MutexOp), trace cs = some tr →
    runAll Mutex.step true tr ≠ some false := by
  intro cs
  induction cs with
  | nil =>
    intro tr h
    cases h
    exact nofun
  | cons c cs ih =>
    intro tr h
    obtain ⟨d, i⟩ := c
    obtain ⟨⟨rc, d', tr₁⟩, hc, h⟩ := Option.bind_eq_some_iff.mp h
    obtain ⟨tr₂, ht, h⟩ := Option.bind_eq_some_iff.mp h
    cases h
    have hheld : runAll Mutex.step true tr₁ = some true ∨ runAll Mutex.step true tr₁ = none := by
      rcases i.leaves d rc d' tr₁ hc with ⟨-, hb⟩ | ⟨-, hb⟩ <;> exact hb.held
    rw [runAll_append]
    rcases hheld with hh | hh <;> rw [hh]
    · exact ih tr₂ ht
    · exact nofun

/-- **Mutex balance**: the calls of one thread, on whatever descriptors they find, are balanced exactly
    when each of them finds what it must. -/
theorem mutex_balance : ∀ (cs : List (Desc × Invocation)) (tr : List MutexOp),
    trace cs = some tr → (Balanced tr ↔ ∀ c ∈ cs, c.2.Clean c.1) := by
  intro cs
  induction cs with
  | nil =>
    intro tr h
    cases h
    simp [balanced_iff, runAll]
  | cons c cs ih =>
    intro tr h
    obtain ⟨d, i⟩ := c
    obtain ⟨⟨rc, d', tr₁⟩, hc, h⟩ := Option.bind_eq_some_iff.mp h
    obtain ⟨tr₂, ht, h⟩ := Option.bind_eq_some_iff.mp h
    cases h
    have hrest := ih tr₂ ht
    rw [balanced_iff] at hrest ⊢
    rw [List.forall_mem_cons, runAll_append]
    rcases i.leaves d rc d' tr₁ hc with ⟨hclean, hb⟩ | ⟨hclean, hb⟩
    · rw [hb.free]
      simpa [hclean] using hrest
    · refine ⟨fun hfree => ?_, fun hall => absurd hall.1 hclean⟩
      rcases hb.not_free with hh | hh <;> rw [hh] at hfree
      · exact absurd hfree (trace_held cs tr₂ ht)
      · cases hfree

/-- The descriptor that `LMON_fe_createSession` grants. -/
def granted : Desc := { Desc.init with registered := true }

/-- A job that is killed: the watchdog sets the flag while the call waits. -/
theorem mutex_balance_kill :
    Balanced [.lock, .timedwait, .unlock] ↔
      ∀ c ∈ [(granted, Invocation.kill 0 true [⟨{ granted.toSession with killed := true }, .ok⟩])],
        c.2.Clean c.1 :=
  mutex_balance _ _ rfl

/-- A session without an engine is detached, and asked for the size of its process table: the second
    call blocks on the mutex that the first one has kept. -/
theorem mutex_balance_counterexample :
    ∃ tr, trace [(granted, .detach 0 false []), (granted, .getProctableSize 0)] = some tr ∧
      tr.count .lock ≠ tr.count .unlock ∧ runAll Mutex.step false tr = none :=
  ⟨_, rfl, by decide, by decide⟩

/-- The two other ways out of balance: a table without a payload, and a handshake that fails. -/
example :
    (call (lmonFeGetProctable 0 (some fun _ => ⟨⟨[], by simp⟩, ⟨[], by simp⟩, 0, 0, 0⟩) 8)
      { granted with
        spawned := true
        proctabMsg := some ⟨setMsgHeader .fetofe FeToFeMsg.proctableAvail.ctorIdx 0 0 0 0 0 0 0, []⟩ }).map
        (fun r => r.2.2) = some [.lock] ∧
      (call (lmonFeLaunchMwDaemons 0 [⟨8, ⟨[], by simp⟩, [], -1, -1, -1, .hostlists, []⟩] 1 .esys)
        granted).map (fun r => r.2.2) = some [.lock, .unlock, .unlock] :=
  ⟨by decide, by decide⟩

end LaunchMON.Frontend
