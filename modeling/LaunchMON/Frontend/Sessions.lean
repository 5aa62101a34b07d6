/-
  The table of sessions: `LMON_fe_createSession` hands out descriptors of a circular array, and
  `LMON_fe_kill` and `LMON_fe_shutdownDaemons` take them back.

  The array is handed out in a circle by `sessionPtrIndex`, which only moves when a descriptor is
  granted.  So a call that finds the descriptor at the index in use fails, however many others are
  free; and the call that grants the last descriptor moves the index back to the first one and returns
  on the side of the wrap test that never sets the return code.  `Grants` excludes both.

  A run is a sequence of calls of one thread.  Between them anything else may write the flags of a
  descriptor (`others`: the watchdogs and the rest of the API), except for `registered`.
-/
import LaunchMON.Frontend.Locks

namespace LaunchMON.Frontend

open Lmonp Machine

/-! ## The table -/

/-- `lmon_session_array_t`, with the mutexes that the thread of the API has not given back. -/
structure Table where
  sessionDescArray : Buf Desc
  sessionPtrIndex : ℕ
  held : ℕ → Bool

namespace Table

/-- `LMON_fe_init`. -/
def init : Table := ⟨fun _ => .init, 0, fun _ => false⟩

def registered (t : Table) (s : ℕ) : Bool := (t.sessionDescArray s).registered

/-- A slot of the array that nobody has. -/
def Free (t : Table) (s : ℕ) : Prop := s < maxLmonSession ∧ t.registered s = false

def setDesc (t : Table) (s : ℕ) (d : Desc) : Table :=
  { t with sessionDescArray := Function.update t.sessionDescArray s d }

/-- `LMON_fe_createSession`: its result, the handle and the table; `none` where it does not return.
    `ok` tells whether the system calls and the cipher library succeed. -/
def createSession (t : Table) (ok : Bool) : Option (LmonRc × ℕ × Table) :=
  let sessionHandle := t.sessionPtrIndex
  let mydesc := t.sessionDescArray sessionHandle
  if maxLmonSession ≤ sessionHandle ∨ t.held sessionHandle = true then none
  else if mydesc.registered = false then
    if ok = false then some (.esys, sessionHandle, t)
    else
      let t := t.setDesc sessionHandle { mydesc with registered := true }
      let sessionPtrIndex := sessionHandle + 1
      if sessionPtrIndex / maxLmonSession = 1 then
        -- both sides of the test that follows in the source leave LMON_EINVAL in `lrc`
        some (.einval, sessionHandle, { t with sessionPtrIndex := sessionPtrIndex % maxLmonSession })
      else some (.ok, sessionHandle, { t with sessionPtrIndex := sessionPtrIndex })
  else some (.einval, sessionHandle, t)

/-- A call on the session of its handle; `none` also where it blocks on a mutex that the thread has
    kept. -/
def on (t : Table) (h : Int) (x : ApiM LmonRc) : Option Table := do
  let (_, d, tr) ← call x (t.sessionDescArray h.toNat)
  let b ← runAll Mutex.step (t.held h.toNat) tr
  return { t.setDesc h.toNat d with held := Function.update t.held h.toNat b }

/-- What happens next. -/
inductive Event
  | createSession (ok : Bool)
  | kill (h : Int) (sent : Bool) (wakes : List Wake)
  | shutdownDaemons (h : Int) (sent : Bool) (wakes : List Wake)
  | others (s : ℕ) (flags : Session)

def step (t : Table) : Event → Option Table
  | .createSession ok => (t.createSession ok).map fun r => r.2.2
  | .kill h sent wakes => t.on h (lmonFeKill h sent wakes)
  | .shutdownDaemons h sent wakes => t.on h (lmonFeShutdownDaemons h sent wakes)
  | .others s flags =>
    let d := t.sessionDescArray s
    some (t.setDesc s { d with toSession := { flags with registered := d.registered } })

/-- The system calls of an event succeed. -/
def Succeeds : Event → Prop
  | .createSession ok => ok = true
  | .kill _ sent _ | .shutdownDaemons _ sent _ => sent = true
  | .others _ _ => True

/-! ## One step -/

/-- What a run of calls that succeed keeps: an index of the array, and no mutex. -/
structure Inv (t : Table) : Prop where
  index : t.sessionPtrIndex < maxLmonSession
  held : ∀ s, t.held s = false

theorem Inv.init : Inv init := ⟨by decide, fun _ => rfl⟩

theorem createSession_busy {t : Table} (h : Inv t) (hb : t.registered t.sessionPtrIndex = true)
    (ok : Bool) : t.createSession ok = some (.einval, t.sessionPtrIndex, t) := by
  have hb' : (t.sessionDescArray t.sessionPtrIndex).registered = true := hb
  have hi := h.index
  simp [createSession, h.held, hb', Nat.not_le.mpr hi]

/-- The table once the slot at the index is granted. -/
def grant (t : Table) : Table :=
  { t.setDesc t.sessionPtrIndex
      { t.sessionDescArray t.sessionPtrIndex with registered := true } with
    sessionPtrIndex := (t.sessionPtrIndex + 1) % maxLmonSession }

theorem createSession_free {t : Table} (h : Inv t) (hf : t.registered t.sessionPtrIndex = false) :
    t.createSession true =
      some (if t.sessionPtrIndex + 1 = maxLmonSession then .einval else .ok, t.sessionPtrIndex,
        t.grant) := by
  have hf' : (t.sessionDescArray t.sessionPtrIndex).registered = false := hf
  have hi := h.index
  have hwrap : (t.sessionPtrIndex + 1) / maxLmonSession = 1 ↔
      t.sessionPtrIndex + 1 = maxLmonSession := by
    unfold maxLmonSession at hi ⊢
    omega
  by_cases hw : t.sessionPtrIndex + 1 = maxLmonSession
  · have hone : maxLmonSession / maxLmonSession = 1 := by decide
    simp [createSession, h.held, hf', Nat.not_le.mpr hi, hw, grant, hone]
  · have hlt : t.sessionPtrIndex + 1 < maxLmonSession := by omega
    simp [createSession, h.held, hf', Nat.not_le.mpr hi, hwrap, hw, grant, Nat.mod_eq_of_lt hlt]

theorem registered_setDesc (t : Table) (s s' : ℕ) (d : Desc) :
    (t.setDesc s d).registered s' = if s' = s then d.registered else t.registered s' := by
  unfold registered setDesc
  by_cases hs : s' = s
  · subst hs
    simp
  · simp [hs]

@[simp] theorem registered_grant (t : Table) (s : ℕ) :
    t.grant.registered s = (decide (s = t.sessionPtrIndex) || t.registered s) := by
  show (t.setDesc _ _).registered s = _
  rw [registered_setDesc]
  by_cases hs : s = t.sessionPtrIndex <;> simp [hs]

theorem Inv.grant {t : Table} (h : Inv t) : Inv t.grant where
  index := Nat.mod_lt _ (by decide)
  held := h.held

theorem Inv.createSession {t t' : Table} {rc : LmonRc} {s : ℕ} (h : Inv t)
    (hc : t.createSession true = some (rc, s, t')) : Inv t' := by
  cases hb : t.registered t.sessionPtrIndex with
  | true =>
    rw [createSession_busy h hb] at hc
    cases hc
    exact h
  | false =>
    rw [createSession_free h hb] at hc
    cases hc
    exact h.grant

/-- A call that gives the mutex back leaves the invariant. -/
theorem Inv.on {t t' : Table} {h : Int} {x : ApiM LmonRc} (hi : Inv t)
    (hx : Leaves x (t.sessionDescArray h.toNat) True) (ht : t.on h x = some t') : Inv t' := by
  obtain ⟨⟨rc, d, tr⟩, hc, ht⟩ := Option.bind_eq_some_iff.mp ht
  obtain ⟨b, hb, ht⟩ := Option.bind_eq_some_iff.mp ht
  cases ht
  refine ⟨hi.index, fun s => ?_⟩
  show Function.update t.held h.toNat b s = false
  have hb' : b = false := by
    rcases hx rc d tr hc with ⟨-, htr⟩ | ⟨hn, -⟩
    · rw [hi.held, htr.free] at hb
      cases hb
      rfl
    · exact absurd trivial hn
  rw [hb', Function.update_apply, hi.held, ite_self]

theorem control_leaves_sent (c : Call) (h : Int) (wakes : List Wake) (d : Desc) :
    Leaves (control c h true wakes) d True := by
  intro rc d' tr hr
  rcases control_leaves c h true wakes d rc d' tr hr with ⟨-, ht⟩ | ⟨hn, -⟩
  · exact Or.inl ⟨trivial, ht⟩
  · exact absurd (fun _ _ => rfl) hn

theorem Inv.step {t t' : Table} {e : Event} (h : Inv t) (he : Succeeds e) (hs : t.step e = some t') :
    Inv t' := by
  cases e with
  | createSession ok =>
    obtain ⟨⟨rc, s, t₁⟩, hc, rfl⟩ := Option.map_eq_some_iff.mp hs
    cases (he : ok = true)
    exact h.createSession hc
  | kill hdl sent wakes =>
    cases (he : sent = true)
    exact h.on (control_leaves_sent .kill hdl wakes _) hs
  | shutdownDaemons hdl sent wakes =>
    cases (he : sent = true)
    exact h.on (control_leaves_sent .shutdownDaemons hdl wakes _) hs
  | others s flags =>
    cases hs
    exact ⟨h.index, h.held⟩

/-! ## What a call of `LMON_fe_createSession` must do -/

/-- The law of the table, for a call that takes `t` to `t'` and returns `rc` with the handle `h`. -/
structure Meets (t : Table) (rc : LmonRc) (h : ℕ) (t' : Table) : Prop where
  ok_iff : rc = .ok ↔
    t.Free h ∧ t'.registered h = true ∧ ∀ s < maxLmonSession, t.registered s = true → s ≠ h
  available : (∃ s, t.Free s) → rc = .ok
  failed : rc ≠ .ok → ∀ s, t'.registered s = t.registered s

/-- The slot at the index is free and is not the last one, or there is no free slot at all. -/
def Grants (t : Table) : Prop :=
  (t.Free t.sessionPtrIndex ∧ t.sessionPtrIndex + 1 < maxLmonSession) ∨ ∀ s, ¬ t.Free s

theorem meets_iff {t t' : Table} {rc : LmonRc} {h : ℕ} (hi : Inv t)
    (hc : t.createSession true = some (rc, h, t')) : Meets t rc h t' ↔ t.Grants := by
  have hlt := hi.index
  cases hb : t.registered t.sessionPtrIndex with
  | true =>
    rw [createSession_busy hi hb] at hc
    cases hc
    have hnf : ¬ t.Free t.sessionPtrIndex := fun hf => by
      rw [hf.2] at hb
      cases hb
    constructor
    · intro hm
      refine Or.inr fun s hs => ?_
      cases hm.available ⟨s, hs⟩
    · rintro (⟨hf, -⟩ | hnone)
      · exact absurd hf hnf
      · exact ⟨⟨nofun, fun hh => absurd hh.1 (hnone _)⟩, fun ⟨s, hs⟩ => absurd hs (hnone s),
          fun _ _ => rfl⟩
  | false =>
    rw [createSession_free hi hb] at hc
    cases hc
    have hf : t.Free t.sessionPtrIndex := ⟨hlt, hb⟩
    by_cases hw : t.sessionPtrIndex + 1 = maxLmonSession
    · rw [if_pos hw]
      constructor
      · intro hm
        cases hm.available ⟨_, hf⟩
      · rintro (⟨-, hlt'⟩ | hnone)
        · omega
        · exact absurd hf (hnone _)
    · rw [if_neg hw]
      refine ⟨fun _ => Or.inl ⟨hf, by omega⟩, fun _ => ⟨⟨fun _ => ⟨hf, by simp, ?_⟩, fun _ => rfl⟩,
        fun _ => rfl, fun hn => absurd rfl hn⟩⟩
      rintro s - hs rfl
      rw [hb] at hs
      cases hs

/-! ## Runs -/

/-- **The session table**: in every run whose system calls succeed the index stays inside of the array,
    and the next call of `LMON_fe_createSession` returns; it obeys the law of the table exactly when it
    finds the slot at the index free, and not the last one, or no free slot. -/
theorem session_table {t : Table} (h : Run step (fun _ e => Succeeds e) init t) :
    t.sessionPtrIndex < maxLmonSession ∧
      ∃ rc s t', t.createSession true = some (rc, s, t') ∧ (Meets t rc s t' ↔ t.Grants) := by
  have hi : Inv t := h.invariant Inv.init fun _ _ _ h he hs => h.step he hs
  refine ⟨hi.index, ?_⟩
  cases hb : t.registered t.sessionPtrIndex with
  | true => exact ⟨_, _, _, createSession_busy hi hb true, meets_iff hi (createSession_busy hi hb true)⟩
  | false => exact ⟨_, _, _, createSession_free hi hb, meets_iff hi (createSession_free hi hb)⟩

/-- Two sessions; the first one launches its daemons and is killed, and its flag comes after a wake-up
    that is for nothing. -/
def firstKilled : List Event :=
  [.createSession true, .createSession true, .others 0 ⟨true, true, false, false⟩,
    .kill 0 true [⟨⟨true, true, false, false⟩, .ok⟩, ⟨⟨true, true, false, true⟩, .ok⟩]]

/-- The slot of the first session is free behind them, and the index is at the third one. -/
theorem session_table_killed : ∃ t, runAll step init firstKilled = some t ∧
    t.registered 0 = false ∧ t.registered 1 = true ∧ t.sessionPtrIndex = 2 ∧
    ∃ rc s t', t.createSession true = some (rc, s, t') ∧ (Meets t rc s t' ↔ t.Grants) := by
  have hsucceeds : ∀ e ∈ firstKilled, ∀ _ : Table, Succeeds e := by
    simp [firstKilled, Succeeds]
  refine ⟨_, rfl, rfl, rfl, rfl, ?_⟩
  exact (session_table (Run.of_runAll_meets firstKilled hsucceeds rfl)).2

/-- The first calls fill the array from its start. -/
theorem run_grants : ∀ n < maxLmonSession, ∃ t, Run step (fun _ e => Succeeds e) init t ∧ Inv t ∧
    t.sessionPtrIndex = n ∧ ∀ s, n ≤ s → t.registered s = false := by
  intro n
  induction n with
  | zero => exact fun _ => ⟨init, .start, Inv.init, rfl, fun _ _ => rfl⟩
  | succ n ih =>
    intro hn
    obtain ⟨t, hrun, hi, hix, hfree⟩ := ih (by omega)
    have hc := createSession_free hi (hfree _ (by omega))
    refine ⟨t.grant, .next hrun (e := .createSession true) rfl ?_, hi.grant, ?_, fun s hs => ?_⟩
    · show (t.createSession true).map _ = _
      rw [hc]
      rfl
    · show (t.sessionPtrIndex + 1) % maxLmonSession = n + 1
      rw [hix, Nat.mod_eq_of_lt hn]
    · rw [registered_grant, hfree s (by omega), hix, Bool.or_false]
      exact decide_eq_false (by omega)

/-- **The hundredth session**: all slots but the last one are in use; the call takes it and returns
    LMON_EINVAL. -/
theorem session_table_counterexample :
    ∃ t, Run step (fun _ e => Succeeds e) init t ∧
      ∃ s t', t.createSession true = some (.einval, s, t') ∧ t.Free s ∧ t'.registered s = true := by
  obtain ⟨t, hrun, hi, hix, hfree⟩ := run_grants 99 (by decide)
  have hf := hfree t.sessionPtrIndex (by omega)
  refine ⟨t, hrun, t.sessionPtrIndex, t.grant, ?_, ⟨hi.index, hf⟩, by simp⟩
  rw [createSession_free hi hf, if_pos (by rw [hix]; rfl)]

end Table

end LaunchMON.Frontend
