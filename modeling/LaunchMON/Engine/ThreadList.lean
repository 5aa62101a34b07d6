/-
  The thread list of the engine, against the threads of the launcher.

  Three events of a thread that the launcher creates reach the engine, in any order: the trap of its
  parent, the first stop of the thread, and its end.  The first two enter the thread into the list, and
  the second one marks it as traced and continues it; the third one removes it.  `Listed` is the
  invariant: what is in the list has not ended, a thread whose first stop has not been taken waits there,
  and every other one is in the list and marked, until its end is taken.

  Nothing tells the engine that a thread whose parent traps has been there before.  So a thread whose end
  is taken first comes back into the list and stays there (`thread_list_counterexample`).  In every run
  in which that does not happen, and in which no breakpoint is mistaken for the first stop of a thread,
  the list is right (`thread_list`).
-/
import LaunchMON.Engine.Threads

namespace LaunchMON.Engine

open Effect Lmonp

set_option synthInstance.maxSize 4096

variable {cfg : Config}

/-! ## Entries of the list -/

theorem mem_flags {p : Process} {t : LwpId} {b : Bool} :
    (t, b) ∈ p.flags ↔ ∃ r, (t, r) ∈ p.thrlist ∧ r.traced = b := by
  unfold Process.flags
  rw [List.mem_map]
  constructor
  · rintro ⟨e, he, heq⟩
    cases heq
    exact ⟨e.2, he, rfl⟩
  · rintro ⟨r, hr, rfl⟩
    exact ⟨(t, r), hr, rfl⟩

theorem hasThr_iff_flags {p : Process} {t : LwpId} :
    p.hasThr t = true ↔ ∃ b, (t, b) ∈ p.flags := by
  rw [hasThr_iff]
  constructor
  · rintro ⟨r, hr⟩
    exact ⟨r.traced, mem_flags.mpr ⟨r, hr, rfl⟩⟩
  · rintro ⟨b, hb⟩
    obtain ⟨r, hr, -⟩ := mem_flags.mp hb
    exact ⟨r, hr⟩

/-- The keys of the list. -/
theorem flags_keys (p : Process) : p.flags.map Prod.fst = p.thrlist.map Prod.fst := by
  unfold Process.flags
  rw [List.map_map]
  rfl

/-- An entry of a list without repetitions. -/
theorem thr_traced {p : Process} (hnodup : (p.flags.map Prod.fst).Nodup) {t : LwpId} {b : Bool}
    (h : (t, b) ∈ p.flags) : ∃ r, p.thr t = some r ∧ r.traced = b := by
  obtain ⟨r, hr⟩ := Option.isSome_iff_exists.mp (hasThr_iff_flags.mpr ⟨b, h⟩)
  obtain ⟨l₁, l₂, heq, -⟩ := List.lookup_eq_some_iff.mp hr
  have hmem : (t, r.traced) ∈ p.flags :=
    mem_flags.mpr ⟨r, by rw [heq]; exact List.mem_append_right _ List.mem_cons_self, rfl⟩
  have hsame := List.inj_on_of_nodup_map hnodup hmem h rfl
  exact ⟨r, hr, (Prod.mk.inj hsame).2⟩

theorem mem_flags_insertThr {p : Process} {n t : LwpId} {b : Bool} {r : Thr} :
    (t, b) ∈ (p.insertThr n r).flags ↔ t = n ∧ b = r.traced ∨ (t, b) ∈ p.flags := by
  rw [mem_flags, mem_flags]
  constructor
  · rintro ⟨r', hr', rfl⟩
    rcases mem_insertThr.mp hr' with h | h
    · cases h
      exact Or.inl ⟨rfl, rfl⟩
    · exact Or.inr ⟨r', h, rfl⟩
  · rintro (⟨rfl, rfl⟩ | ⟨r', hr', rfl⟩)
    · exact ⟨r, mem_insertThr.mpr (Or.inl rfl), rfl⟩
    · exact ⟨r', mem_insertThr.mpr (Or.inr hr'), rfl⟩

theorem mem_flags_eraseThr {p : Process} {n t : LwpId} {b : Bool} :
    (t, b) ∈ (p.eraseThr n).flags ↔ (t, b) ∈ p.flags ∧ t ≠ n := by
  rw [mem_flags, mem_flags]
  constructor
  · rintro ⟨r, hr, rfl⟩
    exact ⟨⟨r, (mem_eraseThr.mp hr).1, rfl⟩, (mem_eraseThr.mp hr).2⟩
  · rintro ⟨⟨r, hr, rfl⟩, hne⟩
    exact ⟨r, mem_eraseThr.mpr ⟨hr, hne⟩, rfl⟩

/-- `set_traced(true)`. -/
def Process.markThr (p : Process) (t : LwpId) : Process := p.mapThr t fun r => { r with traced := true }

theorem mem_flags_markThr {p : Process} {n t : LwpId} {b : Bool} :
    (t, b) ∈ (p.markThr n).flags ↔ t ≠ n ∧ (t, b) ∈ p.flags ∨
      t = n ∧ b = true ∧ p.hasThr n = true := by
  rw [mem_flags, mem_flags, hasThr_iff]
  constructor
  · rintro ⟨r', hr', rfl⟩
    obtain ⟨r, hr, he⟩ := mem_mapThr.mp hr'
    dsimp only at hr he
    by_cases ht : t = n
    · rw [if_pos ht] at he
      exact Or.inr ⟨ht, by rw [he], r, ht ▸ hr⟩
    · rw [if_neg ht] at he
      exact Or.inl ⟨ht, r, hr, by rw [he]⟩
  · rintro (⟨ht, r, hr, rfl⟩ | ⟨rfl, rfl, r, hr⟩)
    · exact ⟨r, mem_mapThr.mpr ⟨r, hr, (if_neg ht).symm⟩, rfl⟩
    · exact ⟨{ r with traced := true }, mem_mapThr.mpr ⟨r, hr, (if_pos rfl).symm⟩, rfl⟩

theorem keys_markThr (p : Process) (n : LwpId) :
    (p.markThr n).flags.map Prod.fst = p.flags.map Prod.fst := by
  rw [flags_keys, flags_keys]
  unfold Process.markThr Process.mapThr
  rw [List.map_map]
  refine List.map_congr_left fun e _ => ?_
  show (if e.1 = n then (e.1, { e.2 with traced := true }) else e).1 = e.1
  split <;> rfl

theorem keys_insertThr (p : Process) (n : LwpId) (r : Thr) :
    ((p.insertThr n r).flags.map Prod.fst).Perm (n :: p.flags.map Prod.fst) := by
  rw [flags_keys, flags_keys]
  exact (List.perm_orderedInsert _ _ _).map Prod.fst

theorem keys_eraseThr (p : Process) (n : LwpId) :
    ((p.eraseThr n).flags.map Prod.fst).Sublist (p.flags.map Prod.fst) := by
  rw [flags_keys, flags_keys]
  exact List.filter_sublist.map Prod.fst

/-! ## The invariant -/

/-- The first stop has not been taken. -/
def Lwp.Waits (l : Lwp) : Prop := l.report = some (.stopped sigstop 0) ∨ l.run = .gone

/-- The list, when the threads that `seen` tells have had their first stop taken. -/
structure Listed (cfg : Config) (seen : LwpId → Prop) (w : World) : Prop where
  nodup : (w.proc.flags.map Prod.fst).Nodup
  live : ∀ t b, (t, b) ∈ w.proc.flags →
    ∃ l, w.target.lwps t = some l ∧ l.Own cfg t ∧ ¬l.Reaped
  held : ∀ t r, (t, r) ∈ w.proc.thrlist → r.eventRegistered = true →
    t = cfg.pid ∨ (t, true) ∈ w.proc.flags
  fresh : ∀ t l, t ≠ cfg.pid → w.target.lwps t = some l → l.entity = .thread → ¬seen t →
    (t, true) ∉ w.proc.flags ∧ l.Waits
  known : ∀ t l, t ≠ cfg.pid → w.target.lwps t = some l → l.entity = .thread → seen t →
    ¬l.Reaped → (t, true) ∈ w.proc.flags
  born : ∀ t, seen t → ∃ l, w.target.lwps t = some l

/-- What may happen to the thread `t` while the list stays. -/
structure Lwp.Carried (cfg : Config) (seen : LwpId → Prop) (w : World) (t : LwpId) (l l' : Lwp) :
    Prop where
  entity : l'.entity = l.entity
  reaped : l'.Reaped → l.Reaped ∨ w.proc.hasThr t = false
  stays : l.Reaped → l'.Reaped
  waits : t ≠ cfg.pid → l.entity = .thread → ¬seen t → l.Waits → l'.Waits

theorem Lwp.Carried.refl {seen : LwpId → Prop} {w : World} {t : LwpId} (l : Lwp) :
    Lwp.Carried cfg seen w t l l := ⟨rfl, Or.inl, id, fun _ _ _ => id⟩

namespace Listed

variable {seen : LwpId → Prop} {w w' : World}

/-- **The list stays.** -/
theorem carry (h : Listed cfg seen w) (hflags : w'.proc.flags = w.proc.flags)
    (hheld : ∀ t r, (t, r) ∈ w'.proc.thrlist → r.eventRegistered = true →
      t = cfg.pid ∨ (t, true) ∈ w.proc.flags)
    (hback : ∀ t l', w'.target.lwps t = some l' →
      (∃ l, w.target.lwps t = some l ∧ l.Carried cfg seen w t l') ∨
        w.target.lwps t = none ∧ l'.Waits)
    (hstay : ∀ t l, w.target.lwps t = some l → ∃ l', w'.target.lwps t = some l') :
    Listed cfg seen w' := by
  refine ⟨hflags ▸ h.nodup, fun t b hb => ?_, fun t r hr hreg => hflags ▸ hheld t r hr hreg,
    fun t l' hne hl' hent hseen => ?_, fun t l' hne hl' hent hseen hnot => ?_, fun t hseen => ?_⟩
  · rw [hflags] at hb
    obtain ⟨l, hl, hown, hnot⟩ := h.live t b hb
    obtain ⟨l', hl'⟩ := hstay t l hl
    rcases hback t l' hl' with ⟨l₁, hl₁, hc⟩ | ⟨hn, -⟩
    · cases hl.symm.trans hl₁
      refine ⟨l', hl', ?_, fun hr => ?_⟩
      · unfold Lwp.Own
        rw [hc.entity]
        exact hown
      · rcases hc.reaped hr with hr | hr
        · exact hnot hr
        · exact absurd ((hasThr_iff_flags.mpr ⟨b, hb⟩).symm.trans hr) (by decide)
    · rw [hl] at hn
      cases hn
  · rw [hflags]
    rcases hback t l' hl' with ⟨l, hl, hc⟩ | ⟨hn, hw⟩
    · obtain ⟨hnot, hwaits⟩ := h.fresh t l hne hl (hc.entity.symm.trans hent) hseen
      exact ⟨hnot, hc.waits hne (hc.entity.symm.trans hent) hseen hwaits⟩
    · refine ⟨fun hb => ?_, hw⟩
      obtain ⟨l, hl, -⟩ := h.live t true hb
      rw [hl] at hn
      cases hn
  · rw [hflags]
    rcases hback t l' hl' with ⟨l, hl, hc⟩ | ⟨hn, -⟩
    · exact h.known t l hne hl (hc.entity.symm.trans hent) hseen fun hr => hnot (hc.stays hr)
    · obtain ⟨l, hl⟩ := h.born t hseen
      rw [hl] at hn
      cases hn
  · obtain ⟨l, hl⟩ := h.born t hseen
    exact hstay t l hl

/-- A thread whose end has not been taken may be entered. -/
theorem enlist (h : Listed cfg seen w) {n : LwpId} {l : Lwp} (hl : w.target.lwps n = some l)
    (hown : l.Own cfg n) (hnot : ¬l.Reaped) : Listed cfg seen (w.enlist n) := by
  unfold World.enlist
  split
  · exact h
  · next hthr =>
    have hkeys := keys_insertThr w.proc n ⟨false, false, false⟩
    refine ⟨?_, fun t b hb => ?_, fun t r hr hreg => ?_, fun t l' hne hl' hent hseen => ?_,
      fun t l' hne hl' hent hseen hnr => ?_, h.born⟩
    · refine hkeys.nodup_iff.mpr (List.nodup_cons.mpr ⟨fun hmem => hthr ?_, h.nodup⟩)
      obtain ⟨e, he, rfl⟩ := List.mem_map.mp hmem
      exact hasThr_iff_flags.mpr ⟨e.2, he⟩
    · rcases mem_flags_insertThr.mp hb with ⟨rfl, -⟩ | hb
      · exact ⟨l, hl, hown, hnot⟩
      · exact h.live t b hb
    · rcases mem_insertThr.mp hr with he | hr
      · cases he
        cases hreg
      · exact (h.held t r hr hreg).imp_right fun hb => mem_flags_insertThr.mpr (Or.inr hb)
    · refine ⟨fun hb => ?_, (h.fresh t l' hne hl' hent hseen).2⟩
      rcases mem_flags_insertThr.mp hb with ⟨-, hb⟩ | hb
      · cases hb
      · exact (h.fresh t l' hne hl' hent hseen).1 hb
    · exact mem_flags_insertThr.mpr (Or.inr (h.known t l' hne hl' hent hseen hnr))

/-- A thread of the list may be marked as traced when its first stop is taken. -/
theorem mark (h : Listed cfg seen w) {n : LwpId} (hn : w.proc.hasThr n = true) :
    Listed cfg (fun t => t = n ∨ seen t) { w with proc := w.proc.markThr n } := by
  refine ⟨(keys_markThr _ _).symm ▸ h.nodup, fun t b hb => ?_, fun t r hr hreg => ?_,
    fun t l hne hl hent hseen => ?_, fun t l hne hl hent hseen hnot => ?_, fun t hseen => ?_⟩
  · rcases mem_flags_markThr.mp hb with ⟨-, hb⟩ | ⟨rfl, -, -⟩
    · exact h.live t b hb
    · obtain ⟨b, hb⟩ := hasThr_iff_flags.mp hn
      exact h.live t b hb
  · by_cases ht : t = n
    · exact Or.inr (mem_flags_markThr.mpr (Or.inr ⟨ht, rfl, hn⟩))
    · obtain ⟨r₀, hr₀, he⟩ := mem_mapThr.mp hr
      dsimp only at hr₀ he
      rw [if_neg ht] at he
      exact (h.held t r₀ hr₀ (he ▸ hreg)).imp_right fun hb => mem_flags_markThr.mpr (Or.inl ⟨ht, hb⟩)
  · push Not at hseen
    obtain ⟨hnot, hwaits⟩ := h.fresh t l hne hl hent hseen.2
    refine ⟨fun hb => ?_, hwaits⟩
    rcases mem_flags_markThr.mp hb with ⟨-, hb⟩ | ⟨ht, -, -⟩
    · exact hnot hb
    · exact hseen.1 ht
  · by_cases ht : t = n
    · exact mem_flags_markThr.mpr (Or.inr ⟨ht, rfl, hn⟩)
    · exact mem_flags_markThr.mpr (Or.inl ⟨ht, h.known t l hne hl hent (hseen.resolve_left ht) hnot⟩)
  · rcases hseen with rfl | hseen
    · obtain ⟨b, hb⟩ := hasThr_iff_flags.mp hn
      obtain ⟨l, hl, -⟩ := h.live t b hb
      exact ⟨l, hl⟩
    · exact h.born t hseen

/-- Only threads that the launcher has created matter. -/
theorem seen_congr {seen' : LwpId → Prop} (h : Listed cfg seen w)
    (hiff : ∀ t l, t ≠ cfg.pid → w.target.lwps t = some l → l.entity = .thread →
      (seen' t ↔ seen t)) (hborn : ∀ t, seen' t → ∃ l, w.target.lwps t = some l) :
    Listed cfg seen' w := by
  refine ⟨h.nodup, h.live, h.held, fun t l hne hl hent hs => ?_, fun t l hne hl hent hs => ?_, hborn⟩
  · exact h.fresh t l hne hl hent fun hs' => hs ((hiff t l hne hl hent).mpr hs')
  · exact h.known t l hne hl hent ((hiff t l hne hl hent).mp hs)

end Listed

/-! ## Stops -/

/-- A stop of `t` is taken. -/
def Stops (w : World) (a : Label) (t : LwpId) : Prop :=
  a = .poll t ∧ ∃ l sig ev, w.target.lwps t = some l ∧ l.report = some (.stopped sig ev)

/-- The thread whose status a step takes. -/
def Label.polled : Label → Option LwpId
  | .poll t => some t
  | _ => none

/-- The condition on a step: the first stop of a thread is not taken for a breakpoint, and a parent's
    trap is not taken after the end of the thread that it reports. -/
def InOrder (cfg : Config) (w : World) (a : Label) : Prop :=
  ∀ t ∈ a.polled, ∀ l ∈ w.target.lwps t,
    (t ≠ cfg.pid ∧ l.entity = .thread ∧ l.run = .stopped ∧ (t, true) ∉ w.proc.flags →
      w.proc.neverTrapped = false ∧ w.proc.pcPartOf .launch l.pc = false ∧
        w.proc.pcPartOf .loader l.pc = false) ∧
    (l.Own cfg t ∧ l.report = some (.stopped sigtrap eventClone) ∧ w.proc.neverTrapped = false ∧
      w.proc.pcPartOf .launch l.pc = false ∧ w.proc.pcPartOf .loader l.pc = false →
      ∀ n ∈ w.target.lwps l.eventMsg, ¬n.Reaped)

instance (w : World) (a : Label) : Decidable (InOrder cfg w a) :=
  inferInstanceAs (Decidable (∀ t ∈ a.polled, ∀ l ∈ w.target.lwps t, _ ∧ _))

/-- `handle_newthread_trace_event` is called for `t`, which sets its flag. -/
def marks (cfg : Config) (w : World) (a : Label) (t : LwpId) : Bool :=
  a = .poll t ∧ (w.target.lwps t).any fun l => l.report.any fun r =>
    match decipherAnEvent cfg r (w.eventOf t l) with
    | .ok ev _ => ev = .stopNewThreadTrace
    | .error _ _ => false

/-- A thread is marked at a stop only. -/
theorem stops_of_marks {w : World} {a : Label} {t : LwpId} (h : marks cfg w a t = true) :
    Stops w a t := by
  obtain ⟨ha, hany⟩ := of_decide_eq_true h
  obtain ⟨l, hl, hany⟩ := (Option.any_eq_true _ _).mp hany
  obtain ⟨r, hr, hev⟩ := (Option.any_eq_true _ _).mp hany
  cases r with
  | stopped sig ev => exact ⟨ha, l, sig, ev, hl, hr⟩
  | exited => exact absurd hev (by rintro ⟨⟩)
  | terminated => exact absurd hev (by rintro ⟨⟩)

section Classify

variable {p : Process} {t : LwpId} {pc : VA} {sig ev : Nat}

theorem classify_requested (hn : p.neverTrapped = false) (hreq : p.requested = true) :
    classify cfg p (some t) pc sig ev = .stopForDetach ∨
      classify cfg p (some t) pc sig ev = .stopForKill := by
  unfold classify
  rw [if_neg (by rw [hn]; decide)]
  cases hd : p.pleaseDetach with
  | true => exact Or.inl (if_pos rfl)
  | false =>
    right
    rw [Process.requested, hd, Bool.false_or] at hreq
    rw [if_neg (by decide), if_pos hreq]

/-- The first stop of a thread. -/
theorem classify_fresh {r : Thr} (hn : p.neverTrapped = false) (hreq : p.requested = false)
    (hlaunch : p.pcPartOf .launch pc = false) (hloader : p.pcPartOf .loader pc = false)
    (hthr : p.thr t = some r) (hr : r.traced = false) :
    classify cfg p (some t) pc sigstop 0 = .stopNewThreadTrace := by
  obtain ⟨hd, hk⟩ := not_requested hreq
  have hnot : ((some t).bind p.thr).any (fun r => !r.traced) = true := by
    show (p.thr t).any _ = true
    rw [hthr]
    show (!r.traced) = true
    rw [hr]
    rfl
  unfold classify
  rw [hn, hd, hk, hlaunch, hloader, hnot]
  rfl

theorem classify_eq_newThread (h : classify cfg p (some t) pc sig ev = .stopNewThreadTrace) :
    ∃ r, p.thr t = some r ∧ r.traced = false := by
  have hchosen := classify_chosen cfg p (some t) pc sig ev
  rw [h] at hchosen
  cases hchosen with
  | newThread hn hsig hthr =>
    obtain ⟨r, hr, hnot⟩ := (Option.any_eq_true _ _).mp hthr
    exact ⟨r, hr, by simpa using hnot⟩

theorem classify_eq_creation (h : classify cfg p (some t) pc sig ev = .stopAtThreadCreation) :
    p.neverTrapped = false ∧ p.pcPartOf .launch pc = false ∧ p.pcPartOf .loader pc = false ∧
      sig = sigtrap ∧ ev = eventClone := by
  have hchosen := classify_chosen cfg p (some t) pc sig ev
  rw [h] at hchosen
  cases hchosen with
  | creation hn hlaunch hloader hsig hev => exact ⟨hn, hlaunch, hloader, hsig, hev⟩

/-- Two kinds of stops concern the thread list. -/
theorem classify_listed (h : (classify cfg p (some t) pc sig ev).listed = true) :
    classify cfg p (some t) pc sig ev = .stopNewThreadTrace ∨
      classify cfg p (some t) pc sig ev = .stopAtThreadCreation := by
  have hchosen := classify_chosen cfg p (some t) pc sig ev
  generalize classify cfg p (some t) pc sig ev = e at h hchosen ⊢
  cases hchosen with
  | newThread hn hsig hthr => exact Or.inl rfl
  | creation hn hlaunch hloader hsig hev => exact Or.inr rfl
  | _ => cases h

end Classify

/-! ## Handlers of the thread list -/

/-- The first stop: the thread is marked and continued. -/
theorem handleNewthreadTraceEvent_at {w : World} {t : LwpId} {l : Lwp} (h : w.At t)
    (hl : w.target.lwps t = some l) (hp : l.Ptraceable) :
    handleNewthreadTraceEvent cfg w = .ok .ok
      { (w.setLwp t { l with opts := true }).setLwp t { l.resume with opts := true } with
        proc := w.proc.markThr t } := by
  have hget : ∀ w : World, (get : EngineM World) w = .ok w w := fun _ => rfl
  have hopts := @tracerOptions_focused cfg w t l h.focused hl hp true
  have hat : (w.setLwp t { l with opts := true }).At t := h.setLwp _ _
  have hmark : (modifyProc (fun p => p.mapThr t fun r => { r with traced := true }) : EngineM Unit)
      (w.setLwp t { l with opts := true }) =
        .ok () { w.setLwp t { l with opts := true } with proc := w.proc.markThr t } := rfl
  have hat' : ({ w.setLwp t { l with opts := true } with proc := w.proc.markThr t } : World).At t :=
    ⟨h.stack, h.child, hasThr_mapThr h.thr⟩
  have hcont := @tracerContinue_focused cfg _ t _ hat'.focused (World.setLwp_self w t _) hp
  refine catching_ok ?_
  rw [ok_bind hopts, ok_bind (hget _), ok_bind hat.curThreadCtx, ok_bind hmark, ok_bind hcont]
  rfl

/-- A parent's trap: the new thread is entered. -/
theorem handleThrcreateTrapEvent_at {w : World} {t : LwpId} {l : Lwp} (h : w.At t)
    (hl : w.target.lwps t = some l) (hp : l.Ptraceable) :
    handleThrcreateTrapEvent cfg w = .ok .ok ((w.enlist l.eventMsg).setLwp t l.resume) := by
  have hmsg : tracerGetEventMsg cfg w = .ok l.eventMsg w := by
    unfold tracerGetEventMsg
    rw [ok_bind (focus_focused h.focused hl hp)]
    rfl
  have hat : (w.enlist l.eventMsg).At t := by
    unfold World.enlist
    split
    · exact h
    · exact ⟨h.stack, h.child, hasThr_insertThr.mpr (Or.inr h.thr)⟩
  have hl' : (w.enlist l.eventMsg).target.lwps t = some l := by
    rw [World.enlist_target]
    exact hl
  refine catching_ok ?_
  rw [ok_bind hmsg, ok_bind (handleThrcreateRequest_run _ _),
    ok_bind (tracerContinue_focused hat.focused hl' hp)]
  rfl

/-! ## The invariant over a step -/

theorem World.enlist_thrlist {w w' : World} (h : w'.proc.thrlist = w.proc.thrlist) (t : LwpId) :
    (w'.enlist t).proc.thrlist = (w.enlist t).proc.thrlist := by
  have hthr : w'.proc.hasThr t = w.proc.hasThr t := by
    unfold Process.hasThr Process.thr
    rw [h]
  unfold World.enlist
  rw [hthr]
  split
  · exact h
  · unfold Process.insertThr
    dsimp only
    rw [h]

theorem World.eventOf_thrlist (w : World) (t : LwpId) (l : Lwp) :
    (w.eventOf t l).proc.thrlist = (w.enlist t).proc.thrlist := by
  unfold World.eventOf
  rw [World.enter_thrlist]
  exact @World.enlist_thrlist w (w.reap t l) rfl t

theorem Process.flags_congr {p q : Process} (h : p.thrlist = q.thrlist) : p.flags = q.flags := by
  unfold Process.flags
  rw [h]

namespace Listed

variable {seen : LwpId → Prop} {w w' w₂ : World} {t : LwpId} {l : Lwp}

/-- The end of a thread is taken. -/
theorem erase (h : Listed cfg seen w) (hl : w.target.lwps t = some l) (hg : l.run = .gone)
    (hT : w'.target = w.target.setLwp t { l with report := none })
    (hp : w'.proc.thrlist = (w.proc.eraseThr t).thrlist) : Listed cfg seen w' := by
  have hflags : ∀ {u b}, (u, b) ∈ w'.proc.flags ↔ (u, b) ∈ w.proc.flags ∧ u ≠ t := by
    intro u b
    rw [Process.flags_congr hp]
    exact mem_flags_eraseThr
  have hother : ∀ {u}, u ≠ t → w'.target.lwps u = w.target.lwps u := by
    intro u hu
    rw [hT, Target.setLwp_ne _ hu]
  have hself : w'.target.lwps t = some { l with report := none } := by
    rw [hT, Target.setLwp_self]
  refine ⟨?_, fun u b hb => ?_, fun u r hr hreg => ?_, fun u l' hne hl' hent hseen => ?_,
    fun u l' hne hl' hent hseen hnot => ?_, fun u hseen => ?_⟩
  · rw [Process.flags_congr hp]
    exact (keys_eraseThr _ _).nodup h.nodup
  · obtain ⟨hb, hu⟩ := hflags.mp hb
    rw [hother hu]
    exact h.live u b hb
  · rw [hp] at hr
    obtain ⟨hr, hu⟩ := mem_eraseThr.mp hr
    exact (h.held u r hr hreg).imp_right fun hb => hflags.mpr ⟨hb, hu⟩
  · by_cases hu : u = t
    · subst hu
      cases hself.symm.trans hl'
      exact ⟨fun hb => (hflags.mp hb).2 rfl, Or.inr hg⟩
    · rw [hother hu] at hl'
      obtain ⟨hnot, hwaits⟩ := h.fresh u l' hne hl' hent hseen
      exact ⟨fun hb => hnot (hflags.mp hb).1, hwaits⟩
  · by_cases hu : u = t
    · subst hu
      cases hself.symm.trans hl'
      exact absurd ⟨hg, rfl⟩ hnot
    · rw [hother hu] at hl'
      exact hflags.mpr ⟨h.known u l' hne hl' hent hseen hnot, hu⟩
  · by_cases hu : u = t
    · exact ⟨_, hu ▸ hself⟩
    · rw [hother hu]
      exact h.born u hseen

/-- A stop has been handled. -/
theorem afterStop {w₀ : World} {sig ev : Nat} (h : Listed cfg seen w₀) (hw₀ : w₀.target = w.target)
    (hl : w.target.lwps t = some l) (hr : l.report = some (.stopped sig ev)) (hrun : l.run = .stopped)
    (haside : Aside t (w.eventOf t l) w₂) (hseen : t = cfg.pid ∨ l.entity = .thread → seen t)
    (hown : l.Own cfg t) (hflags : w₂.proc.flags = w₀.proc.flags)
    (hheld : ∀ u r, (u, r) ∈ w₂.proc.thrlist → r.eventRegistered = true →
      u = cfg.pid ∨ (u, true) ∈ w₀.proc.flags) : Listed cfg seen w₂.leave := by
  have hthread := haside.handled (World.eventOf_target w t l)
  refine h.carry hflags hheld (fun u l' hl' => Or.inl ?_) (fun u l' hl' => ?_)
  · rw [hw₀]
    rcases hthread u with ⟨-, heq⟩ | ⟨rfl, l₁, hl₁, hent, hnone, hgone⟩
    · exact ⟨l', heq.symm.trans hl', .refl l'⟩
    · cases hl'.symm.trans hl₁
      refine ⟨l, hl, hent, fun hreap => ?_, fun hreap => ?_, fun hne hth hs => ?_⟩
      · rw [hgone hreap.1] at hrun
        cases hrun
      · rw [hreap.2] at hr
        cases hr
      · exact absurd (hseen (Or.inr hth)) hs
  · rw [hw₀] at hl'
    rcases hthread u with ⟨-, heq⟩ | ⟨rfl, l₁, hl₁, -, -, -⟩
    · exact ⟨l', heq.trans hl'⟩
    · exact ⟨l₁, hl₁⟩

end Listed

/-- The stop of a thread of the launcher, as `decipher_an_event` sees it. -/
theorem decipher_stop {w : World} {t : LwpId} {l : Lwp} {sig ev : Nat} (ht : w.Tidy cfg)
    (hk : Kin cfg w) (hl : w.target.lwps t = some l) (htr : l.traced = true)
    (hr : l.report = some (.stopped sig ev)) :
    decipherAnEvent cfg (.stopped sig ev) (w.eventOf t l) =
      .ok (classify cfg (w.eventOf t l).proc (some t) l.pc sig ev) (w.eventOf t l) := by
  have hp : ({ l with report := none } : Lwp).Ptraceable := ⟨htr, hk.stops t l sig ev hl hr⟩
  exact @decipherAnEvent_at cfg _ t { l with report := none } sig ev (World.eventOf_at ht t l) (w.eventOf_lwps t l) hp

/-- Only the thread list and the context are new when a stop is deciphered. -/
theorem World.eventOf_same (w : World) (t : LwpId) (l : Lwp) :
    (w.eventOf t l).proc.neverTrapped = w.proc.neverTrapped ∧
      (w.eventOf t l).proc.requested = w.proc.requested ∧
      ∀ sel pc, (w.eventOf t l).proc.pcPartOf sel pc = w.proc.pcPartOf sel pc := by
  obtain ⟨L, st, heq⟩ := w.eventOf_proc t l
  rw [heq]
  refine ⟨rfl, rfl, fun sel pc => ?_⟩
  cases sel <;> rfl

/-- **The first stop of a thread** is deciphered as such, and no other stop is. -/
theorem first_stop {seen : LwpId → Prop} {w w₂ : World} {t : LwpId} {l : Lwp} {sig ev : Nat}
    {e : Event} (ht : w.Tidy cfg) (hk : Kin cfg w) (h : Listed cfg seen w)
    (hord : InOrder cfg w (.poll t)) (hl : w.target.lwps t = some l) (htr : l.traced = true)
    (hr : l.report = some (.stopped sig ev)) (hne : t ≠ cfg.pid) (hent : l.entity = .thread)
    (hev : decipherAnEvent cfg (.stopped sig ev) (w.eventOf t l) = .ok e (w.eventOf t l))
    (hx : invokeHandler cfg e sig (w.eventOf t l) = .ok .ok w₂) :
    e = .stopNewThreadTrace ↔ ¬seen t := by
  have hdec := decipher_stop ht hk hl htr hr
  have he : e = classify cfg (w.eventOf t l).proc (some t) l.pc sig ev :=
    (EStateM.Result.ok.inj (hev.symm.trans hdec)).1
  have hown : l.Own cfg t := Or.inr hent
  have hnot : ¬l.Reaped := by
    rintro ⟨-, hnone⟩
    rw [hr] at hnone
    cases hnone
  have h₁ := h.enlist hl hown hnot
  have hflags : (w.eventOf t l).proc.flags = (w.enlist t).proc.flags :=
    Process.flags_congr (w.eventOf_thrlist t l)
  obtain ⟨b, hb⟩ := hasThr_iff_flags.mp (w.enlist_hasThr t)
  obtain ⟨r, hthr, htraced⟩ := thr_traced (hflags.symm ▸ h₁.nodup) (hflags.symm ▸ hb)
  constructor
  · intro hfirst hseen
    obtain ⟨r', hthr', hnt⟩ := classify_eq_newThread (he.symm.trans hfirst)
    have hb' := h₁.known t l hne (by rw [World.enlist_target]; exact hl) hent hseen hnot
    have hbt := List.inj_on_of_nodup_map h₁.nodup hb hb' rfl
    cases hthr.symm.trans hthr'
    rw [htraced, (Prod.mk.inj hbt).2] at hnt
    cases hnt
  · intro hseen
    obtain ⟨hunmarked, hwaits⟩ := h.fresh t l hne hl hent hseen
    obtain ⟨hn, hlaunch, hloader⟩ := (hord t rfl l hl).1
      ⟨hne, hent, hk.stops t l sig ev hl hr, hunmarked⟩
    obtain ⟨hn', hreq', hpc⟩ := w.eventOf_same t l
    -- a thread not seen yet waits at its birth with SIGSTOP to report, or has exited
    rcases hwaits with hwaits | hgone
    · cases hr.symm.trans hwaits
      cases hreq : w.proc.requested with
      | true =>
        rcases @classify_requested cfg (w.eventOf t l).proc t l.pc sigstop 0 (hn'.trans hn)
          (hreq'.trans hreq) with hc | hc
        · rw [he, hc] at hx
          exact absurd hx (handleDetachCmdEvent_never _ _)
        · rw [he, hc] at hx
          exact absurd hx (handleKillCmdEvent_never _ _)
      | false =>
        have hr₁ : r.traced = false := by
          cases hbt : b with
          | false => exact htraced.trans hbt
          | true =>
            have hseen₁ := (h₁.fresh t l hne (by rw [World.enlist_target]; exact hl) hent hseen).1
            exact absurd (hbt ▸ hb) hseen₁
        exact he.trans (classify_fresh (hn'.trans hn) (hreq'.trans hreq) ((hpc _ _).trans hlaunch)
          ((hpc _ _).trans hloader) hthr hr₁)
    · rw [hk.stops t l sig ev hl hr] at hgone
      cases hgone

/-- The handler of an event that does not concern the list. -/
theorem entries_of_event {w w₂ : World} {t : LwpId} {l : Lwp} {r : Report} {ev : Event}
    (ht : w.Tidy cfg) (hev : decipherAnEvent cfg r (w.eventOf t l) = .ok ev (w.eventOf t l))
    (hx : invokeHandler cfg ev r.signum (w.eventOf t l) = .ok .ok w₂) (hlist : ev.listed = false) :
    Entries t (w.eventOf t l) w₂ :=
  invokeHandler_returns_of_unlisted (R := Keeps (Entries t (w.eventOf t l)))
    (decipherAnEvent_eq_ok hev).2 hlist _ _ _ hx
    (Entries.refl (World.eventOf_at ht t l).inContext)

/-- **A stop of the launcher has been handled.** -/
theorem Listed.stop {seen : LwpId → Prop} {w w₂ : World} {t : LwpId} {l : Lwp} {sig ev : Nat}
    {e : Event} (h : Listed cfg seen w) (ht : w.Tidy cfg) (hk : Kin cfg w) (hrep : Reports cfg w)
    (hord : InOrder cfg w (.poll t)) (hl : w.target.lwps t = some l) (htr : l.traced = true)
    (hr : l.report = some (.stopped sig ev)) (hown : l.Own cfg t)
    (hev : decipherAnEvent cfg (.stopped sig ev) (w.eventOf t l) = .ok e (w.eventOf t l))
    (hx : invokeHandler cfg e sig (w.eventOf t l) = .ok .ok w₂) :
    Listed cfg (fun u => Stops w (.poll t) u ∨ seen u) w₂.leave := by
  have hrun := hk.stops t l sig ev hl hr
  have hnot : ¬l.Reaped := by
    rintro ⟨-, hnone⟩
    rw [hr] at hnone
    cases hnone
  have hstops : ∀ u, Stops w (.poll t) u ↔ u = t := by
    intro u
    constructor
    · rintro ⟨hu, -⟩
      cases hu
      rfl
    · rintro rfl
      exact ⟨rfl, l, sig, ev, hl, hr⟩
  -- what was seen before the step is still there after it
  have hborn : ∀ u, Stops w (.poll t) u ∨ seen u → ∃ l', w₂.leave.target.lwps u = some l' := by
    intro u hu
    have hg : Goes cfg w (.poll t) w₂.leave := .event hl htr hr hown hev hx
    obtain ⟨l₀, hl₀⟩ : ∃ l₀, w.target.lwps u = some l₀ := by
      rcases hu with hu | hu
      · exact ⟨l, (hstops u).mp hu ▸ hl⟩
      · exact h.born u hu
    obtain ⟨l', hl', -⟩ := hg.stays ht hl₀
    exact ⟨l', hl'⟩
  have haside := aside_of_event (r := .stopped sig ev) ht hev hx
  have he : e = classify cfg (w.eventOf t l).proc (some t) l.pc sig ev :=
    (EStateM.Result.ok.inj (hev.symm.trans (decipher_stop ht hk hl htr hr))).1
  have hat := World.eventOf_at ht t l
  have hlwp := w.eventOf_lwps t l
  have hp : ({ l with report := none } : Lwp).Ptraceable := ⟨htr, hrun⟩
  have h₁ := h.enlist hl hown hnot
  have hthrlist := w.eventOf_thrlist t l
  by_cases hmark : e = .stopNewThreadTrace
  · -- the thread is marked
    subst hmark
    have hw₂ := @handleNewthreadTraceEvent_at cfg _ t _ hat hlwp hp
    cases (hx.symm.trans hw₂)
    have hm := h₁.mark (w.enlist_hasThr t)
    have hlist : ((w.eventOf t l).proc.markThr t).thrlist = ((w.enlist t).proc.markThr t).thrlist := by
      unfold Process.markThr Process.mapThr
      dsimp only
      rw [hthrlist]
    have hdone := hm.afterStop (World.enlist_target w t) hl hr hrun haside (fun _ => Or.inl rfl) hown
      (Process.flags_congr hlist) fun u r hur hreg => hm.held u r (hlist ▸ hur) hreg
    refine hdone.seen_congr (fun u l' _ _ _ => ?_) hborn
    rw [hstops]
  · -- its first stop has been taken before
    have hseen : t = cfg.pid ∨ l.entity = .thread → t ≠ cfg.pid → seen t := by
      intro hor hne
      by_contra hns
      exact hmark ((first_stop ht hk h hord hl htr hr hne (hor.resolve_left hne) hev hx).mpr hns)
    have hwide : ∀ {seen' : LwpId → Prop}, (∀ u, seen' u ↔ (t = cfg.pid ∧ u = cfg.pid) ∨ seen u) →
        Listed cfg seen' w₂.leave → Listed cfg (fun u => Stops w (.poll t) u ∨ seen u) w₂.leave := by
      intro seen' hiff hdone
      refine hdone.seen_congr (fun u l' hu _ _ => ?_) hborn
      rw [hstops, hiff]
      constructor
      · rintro (rfl | hs)
        · exact Or.inr (hseen hown hu)
        · exact Or.inr hs
      · rintro (⟨-, hpid⟩ | hs)
        · exact absurd hpid hu
        · exact Or.inr hs
    have hbase : Listed cfg (fun u => (t = cfg.pid ∧ u = cfg.pid) ∨ seen u) (w.enlist t) := by
      refine h₁.seen_congr (fun u l' hu _ _ => ?_) fun u hu => ?_
      · exact ⟨fun hs => hs.resolve_left fun hc => hu hc.2, Or.inr⟩
      · rcases hu with ⟨-, rfl⟩ | hu
        · rw [World.enlist_target]
          exact hk.launcher
        · exact h₁.born u hu
    have hall : t = cfg.pid ∨ l.entity = .thread → (t = cfg.pid ∧ t = cfg.pid) ∨ seen t := by
      intro hor
      by_cases hpid : t = cfg.pid
      · exact Or.inl ⟨hpid, hpid⟩
      · exact Or.inr (hseen hor hpid)
    refine hwide (fun u => Iff.rfl) ?_
    by_cases hcreate : e = .stopAtThreadCreation
    · -- the new thread is entered
      subst hcreate
      have hw₂ := @handleThrcreateTrapEvent_at cfg _ t _ hat hlwp hp
      cases (hx.symm.trans hw₂)
      obtain ⟨hn, hlaunch, hloader, rfl, rfl⟩ := classify_eq_creation he.symm
      obtain ⟨hn', -, hpc⟩ := w.eventOf_same t l
      obtain ⟨n, hnew, hent⟩ : ∃ n, w.target.lwps l.eventMsg = some n ∧ n.entity = .thread := by
        rcases hrep.told with htold | ⟨hnever, -⟩
        · exact htold t l sigtrap hl hr
        · rw [hn'.symm.trans hn] at hnever
          cases hnever
      have hlive := (hord t rfl l hl).2 ⟨hown, hr, hn'.symm.trans hn, (hpc _ _).symm.trans hlaunch,
        (hpc _ _).symm.trans hloader⟩ n hnew
      have hb := hbase.enlist (n := l.eventMsg) (by rw [World.enlist_target]; exact hnew)
        (Or.inr hent) hlive
      have hlist : ((w.eventOf t l).enlist l.eventMsg).proc.thrlist =
          ((w.enlist t).enlist l.eventMsg).proc.thrlist := World.enlist_thrlist hthrlist _
      exact hb.afterStop ((World.enlist_target _ _).trans (World.enlist_target w t)) hl hr hrun haside
        hall hown (Process.flags_congr hlist) fun u r hur hreg => hb.held u r (hlist ▸ hur) hreg
    -- any other event leaves the entries of the thread list as they are
    · have hlist : e.listed = false := by
        cases hl' : e.listed with
        | false => rfl
        | true =>
          rw [he] at hl'
          rcases classify_listed hl' with hc | hc
          · exact absurd (he.trans hc) hmark
          · exact absurd (he.trans hc) hcreate
      have hentries := entries_of_event (r := .stopped sig ev) ht hev hx hlist
      refine hbase.afterStop (World.enlist_target w t) hl hr hrun haside hall hown
        (hentries.flags.trans (Process.flags_congr hthrlist)) fun u r hur hreg => ?_
      rcases hentries.held u r hur hreg with rfl | ⟨r₀, hr₀, hreg₀⟩
      · by_cases hpid : u = cfg.pid
        · exact Or.inl hpid
        · have hent : l.entity = .thread := hown.resolve_left hpid
          exact Or.inr (hbase.known u l hpid (by rw [World.enlist_target]; exact hl) hent
            (Or.inr (hseen hown hpid)) hnot)
      · exact hbase.held u r₀ (hthrlist ▸ hr₀) hreg₀

/-- The end of a thread has been handled. -/
theorem Listed.exit {seen : LwpId → Prop} {w w₂ : World} {t : LwpId} {l : Lwp} {r : Report} {e : Event}
    (h : Listed cfg seen w) (ht : w.Tidy cfg) (hrep : Reports cfg w)
    (hl : w.target.lwps t = some l) (hr : l.report = some r) (hown : l.Own cfg t)
    (hend : r = .exited ∨ r = .terminated)
    (hev : decipherAnEvent cfg r (w.eventOf t l) = .ok e (w.eventOf t l))
    (hx : invokeHandler cfg e r.signum (w.eventOf t l) = .ok .ok w₂) : Listed cfg seen w₂.leave := by
  have hexited : e = .exited := by
    rcases hend with rfl | rfl <;> cases hev <;> rfl
  subst hexited
  have hat := World.eventOf_at ht t l
  by_cases hpid : t = cfg.pid
  · subst hpid
    exact absurd hx (handleExitEvent_pid hat)
  · have hgone := hrep.ended t l hpid hl (by rw [hr]; exact hend.imp (congrArg some) (congrArg some))
    have hnot : ¬l.Reaped := by
      rintro ⟨-, hnone⟩
      rw [hr] at hnone
      cases hnone
    have h₁ := h.enlist hl hown hnot
    cases (hx.symm.trans (handleExitEvent_at hat hpid))
    refine h₁.erase (by rw [World.enlist_target]; exact hl) hgone ?_ ?_
    · rw [World.enlist_target]
      exact World.eventOf_target w t l
    · show ((w.eventOf t l).proc.eraseThr t).thrlist = _
      unfold Process.eraseThr
      dsimp only
      rw [World.eventOf_thrlist]

/-- **What one step preserves.** -/
theorem Goes.listed {seen : LwpId → Prop} {w w' : World} {a : Label} (hg : Goes cfg w a w')
    (h : Listed cfg seen w) (ht : w.Tidy cfg) (hk : Kin cfg w) (hrep : Reports cfg w)
    (hord : InOrder cfg w a) : Listed cfg (fun t => Stops w a t ∨ seen t) w' := by
  have hwide : (∀ t l, w.target.lwps t = some l → l.entity = .thread → ¬Stops w a t) →
      Listed cfg seen w' → Listed cfg (fun t => Stops w a t ∨ seen t) w' := by
    intro hno hlisted
    refine hlisted.seen_congr (fun t l' _ hl' hent => ?_) fun t hs => ?_
    · refine ⟨fun hs => hs.resolve_left fun hs => ?_, Or.inr⟩
      obtain ⟨-, l, sig, ev, hl, -⟩ := id hs
      obtain ⟨l₁, hl₁, hent₁⟩ := hg.stays ht hl
      cases hl'.symm.trans hl₁
      exact hno t l hl (hent₁.symm.trans hent) hs
    · obtain ⟨l, hl⟩ : ∃ l, w.target.lwps t = some l := by
        rcases hs with ⟨-, l, sig, ev, hl, -⟩ | hs
        · exact ⟨l, hl⟩
        · exact h.born t hs
      obtain ⟨l', hl', -⟩ := hg.stays ht hl
      exact ⟨l', hl'⟩
  have hstay : ∀ t l, w.target.lwps t = some l → ∃ l', w'.target.lwps t = some l' := by
    intro t l hl
    obtain ⟨l', hl', -⟩ := hg.stays ht hl
    exact ⟨l', hl'⟩
  cases hg with
  | @env b T hT =>
    refine hwide (fun t _ _ _ hs => absurd hs.1 (by simp)) (h.carry rfl h.held (fun t l' hl' => ?_) hstay)
    rcases (Target.step_moved hT).turn hl' with hl | ⟨l, hl, hturn⟩ | ⟨hn, -, l, en, mm, succ, rfl⟩
    · exact Or.inl ⟨l', hl, .refl l'⟩
    · refine Or.inl ⟨l, hl, ?_⟩
      cases hturn with
      | runs hent hr hr' hor =>
        have hrun : l.run ≠ .gone := by
          rcases hr with hr | hr <;> (rw [hr]; decide)
        refine ⟨hent, fun hreap => absurd hreap.1 hr', fun hreap => absurd hreap.1 hrun,
          fun _ _ _ hwaits => ?_⟩
        rcases hwaits with hwaits | hgone
        · have hstop := hk.stops t l _ _ hl hwaits
          rcases hr with hr | hr <;> rw [hstop] at hr <;> cases hr
        · exact absurd hgone hrun
      | ends hent hr hgone hor =>
        refine ⟨hent, fun hreap => ?_, fun hreap => absurd hreap.1 hr, fun _ _ _ _ => Or.inr hgone⟩
        rw [hreap.2] at hor
        rcases hor with hor | hor <;> cases hor
    · exact Or.inr ⟨hn, Or.inl rfl⟩
  | nothing hnb hnp => exact hwide (fun t _ _ _ hs => hnp t hs.1) h
  | @event t l r ev w₂ hl htr hr hown hev hx =>
    have hends : ∀ u l, w.target.lwps u = some l → l.entity = .thread → r = .exited ∨ r = .terminated →
        ¬Stops w (.poll t) u := by
      rintro u l - - hend ⟨hu, l₁, sig, e, hl₁, hr₁⟩
      cases hu
      cases hl.symm.trans hl₁
      rw [hr] at hr₁
      cases hr₁
      rcases hend with hend | hend <;> cases hend
    cases r with
    | stopped sig e => exact h.stop ht hk hrep hord hl htr hr hown hev hx
    | exited =>
      exact hwide (fun u l hl hent => hends u l hl hent (Or.inl rfl))
        (h.exit ht hrep hl hr hown (Or.inl rfl) hev hx)
    | terminated =>
      exact hwide (fun u l hl hent => hends u l hl hent (Or.inr rfl))
        (h.exit ht hrep hl hr hown (Or.inr rfl) hev hx)
  | @ignored t l r hl htr hr hend hne hnot =>
    have hgone := hrep.ended t l hne hl (by rw [hr]; exact hend.imp (congrArg some) (congrArg some))
    refine hwide (fun u l₁ hl₁ _ => ?_) (h.carry rfl h.held (fun u l' hl' => Or.inl ?_) hstay)
    · rintro ⟨hu, l₂, sig, e, hl₂, hr₂⟩
      cases hu
      cases hl.symm.trans hl₂
      rw [hr] at hr₂
      cases hr₂
      rcases hend with hend | hend <;> cases hend
    · rcases Target.setLwp_eq_some hl' with ⟨rfl, rfl⟩ | ⟨-, hl'⟩
      · refine ⟨l, hl, rfl, fun _ => Or.inr ?_, fun hreap => ?_, fun _ _ _ _ => Or.inr hgone⟩
        · rcases hnot with hproc | hthr
          · cases hthr : w.proc.hasThr u with
            | false => rfl
            | true =>
              obtain ⟨b, hb⟩ := hasThr_iff_flags.mp hthr
              obtain ⟨l₁, hl₁, hown, -⟩ := h.live u b hb
              cases hl.symm.trans hl₁
              rw [hown.resolve_left hne] at hproc
              cases hproc
          · exact hthr
        · rw [hreap.2] at hr
          cases hr
      · exact ⟨l', hl', .refl l'⟩
  | @child t l sig e w₂ hl htr hr hne hent hx =>
    have haside := aside_of_child ht hx
    have hentries : Entries t ((w.reap t l).enter t) w₂ :=
      Within.of_ok (R := Keeps (Entries t ((w.reap t l).enter t))) (x := handleNewprocForkedEvent cfg)
        hx (Entries.refl (ht.enterChild t l))
    have hlist : ((w.reap t l).enter t).proc.thrlist = w.proc.thrlist := World.enter_thrlist _ _
    have hnothr : w.proc.hasThr t = false := by
      cases hthr : w.proc.hasThr t with
      | false => rfl
      | true =>
        obtain ⟨b, hb⟩ := hasThr_iff_flags.mp hthr
        obtain ⟨l₁, hl₁, hown, -⟩ := h.live t b hb
        cases hl.symm.trans hl₁
        rw [hown.resolve_left hne] at hent
        cases hent
    refine hwide (fun u l₁ hl₁ hent₁ => ?_) (h.carry
      (hentries.flags.trans (Process.flags_congr hlist)) (fun u r hur hreg => ?_)
      (fun u l' hl' => Or.inl ?_) hstay)
    · rintro ⟨hu, -⟩
      cases hu
      cases hl.symm.trans hl₁
      rw [hent₁] at hent
      cases hent
    · rcases hentries.held u r hur hreg with rfl | ⟨r₀, hr₀, hreg₀⟩
      · have hmem : (u, r.traced) ∈ w.proc.flags := by
          rw [← Process.flags_congr hlist, ← hentries.flags]
          exact mem_flags.mpr ⟨r, hur, rfl⟩
        exact absurd ((hasThr_iff_flags.mpr ⟨_, hmem⟩).symm.trans hnothr) (by decide)
      · exact h.held u r₀ (hlist ▸ hr₀) hreg₀
    · rcases haside.handled (World.enter_target (w.reap t l) t) u with
        ⟨-, heq⟩ | ⟨rfl, l₁, hl₁, hent₁, hnone, hgone⟩
      · exact ⟨l', heq.symm.trans hl', .refl l'⟩
      · cases hl'.symm.trans hl₁
        refine ⟨l, hl, hent₁, fun _ => Or.inr hnothr, fun hreap => ?_, fun _ hth _ _ => ?_⟩
        · rw [hreap.2] at hr
          cases hr
        · rw [hth] at hent
          cases hent
  | @asked a r ha hreq =>
    have hlist : (r.mark w.proc).thrlist = w.proc.thrlist := Request.mark_thrlist r w.proc
    refine hwide (fun t _ _ _ hs => ?_) (h.carry (Process.flags_congr hlist)
      (fun t r hr hreg => h.held t r (hlist ▸ hr) hreg) (fun t l' hl' => Or.inl ?_) hstay)
    · rw [hs.1] at ha
      cases ha
    · rcases @stopThrs_lwps cfg (w.proc.thrlist.map Prod.fst) w.target t with heq | ⟨l, hl, heq⟩
      · exact ⟨l', heq.symm.trans hl', .refl l'⟩
      · cases heq.symm.trans hl'
        exact ⟨l, hl, rfl, Or.inl, id, fun _ _ _ => id⟩
  | released hrel =>
    refine hwide (fun t _ _ _ hs => absurd hs.1 (by simp)) (h.carry hrel.flags (fun t r' hr' hreg => ?_)
      (fun t l' hl' => Or.inl ?_) hstay)
    · obtain ⟨r, hr, -, himp⟩ := hrel.thr t r' hr'
      exact h.held t r hr (himp hreg)
    · rcases hrel.lwps t with heq | ⟨⟨r, hr, hreg⟩, -, l, hl, hp, heq⟩
      · exact ⟨l', heq.symm.trans hl', .refl l'⟩
      · cases heq.symm.trans hl'
        have hrun : l.run ≠ .gone := by
          rw [hp.2]
          decide
        refine ⟨l, hl, rfl, fun hreap => RunState.noConfusion hreap.1, fun hreap => absurd hreap.1 hrun,
          fun hne hent hs _ => ?_⟩
        -- a thread that is held has been marked
        exact absurd ((h.held t r hr hreg).resolve_left hne) (h.fresh t l hne hl hent hs).1

/-- A step takes the first stop of a thread, or a later one. -/
theorem Goes.marks_iff {seen : LwpId → Prop} {w w' : World} {a : Label} {t : LwpId} {l : Lwp}
    (hg : Goes cfg w a w') (ht : w.Tidy cfg) (hk : Kin cfg w) (h : Listed cfg seen w)
    (hord : InOrder cfg w a) (hl : w.target.lwps t = some l) (hne : t ≠ cfg.pid)
    (hent : l.entity = .thread) (hst : Stops w a t) : (marks cfg w a t = true ↔ ¬seen t) ∧
      (marks cfg w a t = true → ∃ l', w'.target.lwps t = some l' ∧ l'.run = .running) := by
  obtain ⟨rfl, l₁, sig, ev, hl₁, hr⟩ := hst
  cases hl.symm.trans hl₁
  cases hg with
  | nothing hnb hnp => exact absurd rfl (hnp t)
  | ignored hl' htr hr' hend hne' hnot =>
    cases hl.symm.trans hl'
    rw [hr] at hr'
    cases hr'
    rcases hend with hend | hend <;> cases hend
  | child hl' htr hr' hne' hent' hx =>
    cases hl.symm.trans hl'
    rw [hent] at hent'
    cases hent'
  | asked ha => cases ha
  | @event _ l' r e w₂ hl' htr hr' hown hev hx =>
    cases hl.symm.trans hl'
    cases hr.symm.trans hr'
    have hfirst := first_stop ht hk h hord hl htr hr hne hent hev hx
    have hmarks : marks cfg w (.poll t) t = decide (e = .stopNewThreadTrace) := by
      unfold marks
      simp only [hl, Option.any_some, hr, hev, true_and, Bool.decide_eq_true]
    refine ⟨by rw [hmarks, decide_eq_true_iff]; exact hfirst, fun hm => ?_⟩
    rw [hmarks, decide_eq_true_iff] at hm
    subst hm
    have hp : ({ l with report := none } : Lwp).Ptraceable := ⟨htr, hk.stops t l sig ev hl hr⟩
    have hw₂ := @handleNewthreadTraceEvent_at cfg _ t _ (World.eventOf_at ht t l) (w.eventOf_lwps t l) hp
    cases (hx.symm.trans hw₂)
    exact ⟨_, Target.setLwp_self .., rfl⟩

theorem Launched.listed {seen : LwpId → Prop} {T : Target} (h : Launched cfg T)
    (hno : ∀ t, ¬seen t) : Listed cfg seen (Sys.start cfg T).w := by
  obtain ⟨l, hlwps, -, -, -, -, -, -, hrun⟩ := h.lwps_eq
  have hpid : T.lwps cfg.pid = some l := by rw [hlwps, Function.update_self]
  have hentry : (Sys.start cfg T).w.proc.flags = [(cfg.pid, false)] := rfl
  refine ⟨?_, fun t b hb => ?_, fun t r hr hreg => ?_, fun t l' hne hl' => ?_,
    fun t _ _ _ _ hs => absurd hs (hno t), fun t hs => absurd hs (hno t)⟩
  · rw [hentry]
    exact List.nodup_singleton _
  · rw [hentry] at hb
    cases List.mem_singleton.mp hb
    refine ⟨l, hpid, Or.inl rfl, fun hreap => ?_⟩
    rcases hrun with ⟨hr, -⟩ | ⟨hr, -⟩ <;> exact absurd (hreap.1.symm.trans hr) (by decide)
  · cases List.mem_singleton.mp hr
    cases hreg
  · have hnone : T.lwps t = none := by rw [hlwps, Function.update_of_ne hne]
    cases hnone.symm.trans hl'

/-! ## Runs and what they have taken -/

/-- A step of a run. -/
structure Step where
  before : Sys
  label : Label
  after : Sys

/-- `History G s₀ h s`: a run from `s₀` to `s` with the steps `h`, the last one first, all of which meet
    `G`. -/
inductive History (cfg : Config) (G : Sys → Label → Prop) (s₀ : Sys) : List Step → Sys → Prop
  | nil : History cfg G s₀ [] s₀
  | cons {h : List Step} {s s' : Sys} {a : Label} (hh : History cfg G s₀ h s) (ha : G s a)
      (hs : s.step cfg a = some s') : History cfg G s₀ (⟨s, a, s'⟩ :: h) s'

/-- A stop of `t` is taken. -/
def Step.Stops (e : Step) (t : LwpId) : Prop := LaunchMON.Engine.Stops e.before.w e.label t

/-- `t` runs after the step. -/
def Step.Continues (e : Step) (t : LwpId) : Prop :=
  ∃ l, e.after.w.target.lwps t = some l ∧ l.run = .running

def Step.marks (cfg : Config) (e : Step) (t : LwpId) : Bool :=
  LaunchMON.Engine.marks cfg e.before.w e.label t

/-- The first stop of `t` has been taken, once: its flag has been set, and it has been continued. -/
def MarkedOnce (cfg : Config) (h : List Step) (t : LwpId) : Prop :=
  (h.countP fun e => e.marks cfg t) = 1 ∧ ∃ e ∈ h, e.marks cfg t = true ∧ e.Continues t

theorem countP_marks_of_unseen {h : List Step} {t : LwpId} (hno : ¬∃ e ∈ h, e.Stops t) :
    (h.countP fun e => e.marks cfg t) = 0 :=
  List.countP_eq_zero.mpr fun e he hm => hno ⟨e, he, stops_of_marks hm⟩

/-- What is counted after one more step. -/
theorem MarkedOnce.cons {h : List Step} {e : Step} {t : LwpId}
    (hfirst : e.Stops t → ((e.marks cfg t = true ↔ ¬∃ e ∈ h, e.Stops t) ∧
      (e.marks cfg t = true → e.Continues t)))
    (ih : (∃ e ∈ h, e.Stops t) → MarkedOnce cfg h t) (hs : ∃ e' ∈ e :: h, e'.Stops t) :
    MarkedOnce cfg (e :: h) t := by
  unfold MarkedOnce
  rw [List.countP_cons]
  cases hm : e.marks cfg t with
  | true =>
    obtain ⟨hiff, hcont⟩ := hfirst (stops_of_marks hm)
    rw [countP_marks_of_unseen (hiff.mp hm)]
    exact ⟨rfl, e, List.mem_cons_self, hm, hcont hm⟩
  | false =>
    have hold : ∃ e' ∈ h, e'.Stops t := by
      obtain ⟨e', he', hst⟩ := hs
      rcases List.mem_cons.mp he' with rfl | he'
      · by_contra hno
        exact absurd (hm.symm.trans ((hfirst hst).1.mpr hno)) (by decide)
      · exact ⟨e', he', hst⟩
    obtain ⟨hcount, e', he', hm', hcont⟩ := ih hold
    exact ⟨by rw [hcount]; rfl, e', List.mem_cons_of_mem e he', hm', hcont⟩

/-- A run that meets the condition. -/
theorem History.listed {h : List Step} {s₀ s : Sys} (h₀ : Initial cfg s₀)
    (hh : History cfg (fun s a => InOrder cfg s.w a) s₀ h s) (hm : s.mode ≠ .ended) :
    s.w.Tidy cfg ∧ Kin cfg s.w ∧ Reports cfg s.w ∧ Listed cfg (fun t => ∃ e ∈ h, e.Stops t) s.w ∧
      ∀ t l, t ≠ cfg.pid → s.w.target.lwps t = some l → l.entity = .thread →
        (∃ e ∈ h, e.Stops t) → MarkedOnce cfg h t := by
  induction hh with
  | nil =>
    obtain ⟨T, hT, rfl⟩ := h₀
    refine ⟨⟨rfl, rfl, hasThr_iff.mpr ⟨_, List.mem_singleton_self _⟩⟩, hT.kin, hT.reports,
      hT.listed (by simp), fun t l _ _ _ hs => ?_⟩
    obtain ⟨e, he, -⟩ := hs
    cases he
  | @cons h s s' a hh ha hs ih =>
    obtain ⟨ht, hk, hrep, hl, hmarked⟩ := ih (Sys.step_alive hs)
    have hg := goes ht hs hm
    have hiff : ∀ t, (∃ e ∈ (⟨s, a, s'⟩ : Step) :: h, e.Stops t) ↔
        Stops s.w a t ∨ ∃ e ∈ h, e.Stops t := by
      intro t
      simp only [List.mem_cons, exists_eq_or_imp]
      rfl
    refine ⟨hg.tidy ht, hg.kin ht hk, hg.reports ht hk hrep, ?_, fun t l' hne hl' hent hs' => ?_⟩
    · have hnew := hg.listed hl ht hk hrep ha
      rwa [show (fun t => Stops s.w a t ∨ ∃ e ∈ h, e.Stops t) =
        fun t => ∃ e ∈ (⟨s, a, s'⟩ : Step) :: h, e.Stops t from funext fun t => propext (hiff t).symm] at hnew
    · -- the thread has been there before the step
      obtain ⟨l, hl₀⟩ : ∃ l, s.w.target.lwps t = some l := by
        rcases (hiff t).mp hs' with ⟨-, l, sig, ev, hl₀, -⟩ | hs'
        · exact ⟨l, hl₀⟩
        · exact hl.born t hs'
      obtain ⟨l₁, hl₁, hent₁⟩ := hg.stays ht hl₀
      cases hl'.symm.trans hl₁
      have hent₀ : l.entity = .thread := hent₁.symm.trans hent
      exact MarkedOnce.cons (fun hst => hg.marks_iff ht hk hl ha hl₀ hne hent₀ hst)
        (hmarked t l hne hl₀ hent₀) hs'

/-! ## The thread list is right -/

/-- No news of the launcher's threads is on its way: the ends, the parents' traps and the first stops have
    been taken. -/
structure Settled (cfg : Config) (h : List Step) (s : Sys) : Prop where
  ends : ∀ t l, s.w.target.lwps t = some l → l.Own cfg t →
    l.report ≠ some .exited ∧ l.report ≠ some .terminated
  traps : ∀ t l, s.w.target.lwps t = some l → l.Own cfg t →
    l.report ≠ some (.stopped sigtrap eventClone)
  stops : ∀ t l, t ≠ cfg.pid → s.w.target.lwps t = some l → l.entity = .thread → l.run ≠ .gone →
    ∃ e ∈ h, e.Stops t

/-- The list has the threads of the launcher that are alive, each once, and each one that has been
    created has been marked once and continued. -/
structure ListRight (cfg : Config) (h : List Step) (s : Sys) : Prop where
  nodup : (s.w.proc.thrlist.map Prod.fst).Nodup
  alive_iff : ∀ t, s.w.proc.hasThr t = true ↔
    ∃ l, s.w.target.lwps t = some l ∧ l.Own cfg t ∧ l.run ≠ .gone
  marked : ∀ t l, t ≠ cfg.pid → s.w.target.lwps t = some l → l.entity = .thread → l.run ≠ .gone →
    MarkedOnce cfg h t

/-! ## Runs of a launcher with two threads -/

/-- The run of a list of labels, with its steps. -/
def Sys.runHistory (cfg : Config) (G : Sys → Label → Prop) [∀ s a, Decidable (G s a)] :
    List Step → Sys → List Label → Option (List Step × Sys)
  | h, s, [] => some (h, s)
  | h, s, a :: as => do
    guard (G s a)
    let s' ← s.step cfg a
    runHistory cfg G (⟨s, a, s'⟩ :: h) s' as

theorem History.of_runHistory {G : Sys → Label → Prop} [∀ s a, Decidable (G s a)] {s₀ : Sys} :
    ∀ (as : List Label) {h h' : List Step} {s s' : Sys}, History cfg G s₀ h s →
      s.runHistory cfg G h as = some (h', s') →
      History cfg G s₀ h' s' ∧ h'.map Step.label = as.reverse ++ h.map Step.label := by
  intro as
  induction as with
  | nil =>
    intro h h' s s' hh hrun
    cases hrun
    exact ⟨hh, rfl⟩
  | cons a as ih =>
    intro h h' s s' hh hrun
    obtain ⟨ha, hrun⟩ := guard_bind_eq_some.mp hrun
    obtain ⟨s₁, hs, hrun⟩ := Option.bind_eq_some_iff.mp hrun
    obtain ⟨hh', hlabels⟩ := ih (hh.cons ha hs) hrun
    refine ⟨hh', ?_⟩
    rw [hlabels, List.reverse_cons, List.append_assoc]
    rfl

/-- Every thread of a run has been there at its beginning or has been created. -/
theorem History.born {G : Sys → Label → Prop} {h : List Step} {s₀ s : Sys} (h₀ : Initial cfg s₀)
    (hh : History cfg G s₀ h s) (hm : s.mode ≠ .ended) : s.w.Tidy cfg ∧
      ∀ t l, s.w.target.lwps t = some l → t = cfg.pid ∨
        ∃ a ∈ h.map Step.label, a.creates = some t := by
  induction hh with
  | nil =>
    obtain ⟨T, hT, rfl⟩ := h₀
    obtain ⟨l₀, hlwps, -⟩ := hT.lwps_eq
    refine ⟨⟨rfl, rfl, hasThr_iff.mpr ⟨_, List.mem_singleton_self _⟩⟩, fun t l hl => Or.inl ?_⟩
    by_contra hne
    have hnone : T.lwps t = none := by rw [hlwps, Function.update_of_ne hne]
    cases hnone.symm.trans hl
  | @cons h s s' a hh ha hs ih =>
    obtain ⟨ht, hborn⟩ := ih (Sys.step_alive hs)
    have hg := goes ht hs hm
    refine ⟨hg.tidy ht, fun t l' hl' => ?_⟩
    rcases hg.born ht hl' with ⟨l, hl⟩ | hc
    · exact (hborn t l hl).imp_right fun ⟨b, hb, hc⟩ => ⟨b, List.mem_cons_of_mem _ hb, hc⟩
    · exact Or.inr ⟨a, List.mem_cons_self, hc⟩

/-- Nothing is left to be taken of the threads 100 and 101, and the first stop of 101 has been taken. -/
def taken (h : List Step) (s : Sys) : Bool :=
  s.mode = .looping ∧ ([100, 101].all fun t => (s.w.target.lwps t).all fun l => l.report = none) ∧
    h.any fun e => e.label = .poll 101 ∧ (e.before.w.target.lwps 101).any fun l =>
      l.report = some (.stopped sigstop 0)

theorem settled_of_taken {G : Sys → Label → Prop} {h : List Step} {s : Sys}
    (hh : History sample G (Sys.start sample (sampleTarget 0x1010 [])) h s)
    (hlabels : ∀ a ∈ h.map Step.label, ∀ t ∈ a.creates, t = 101)
    (ht : taken h s = true) : s.mode ≠ .ended ∧ Settled sample h s := by
  obtain ⟨hmode, hall, hany⟩ := of_decide_eq_true ht
  have hm : s.mode ≠ .ended := by
    rw [hmode]
    decide
  obtain ⟨-, hborn⟩ := hh.born ⟨_, sample_launched _ _, rfl⟩ hm
  have hnone : ∀ t l, s.w.target.lwps t = some l → l.report = none := by
    intro t l hl
    have hmem : t ∈ [100, 101] := by
      rcases hborn t l hl with rfl | ⟨b, hb, hc⟩
      · exact List.mem_cons_self
      · rw [hlabels b hb t hc]
        decide
    have hl' := List.all_eq_true.mp hall t hmem
    rw [hl] at hl'
    exact of_decide_eq_true hl'
  refine ⟨hm, fun t l hl _ => ?_, fun t l hl _ => ?_, fun t l hne hl _ _ => ?_⟩
  · rw [hnone t l hl]
    exact ⟨nofun, nofun⟩
  · rw [hnone t l hl]
    exact nofun
  · obtain ⟨e, he, hev⟩ := List.any_eq_true.mp hany
    obtain ⟨hpoll, hrep⟩ := of_decide_eq_true hev
    obtain ⟨l₁, hl₁, hr₁⟩ := (Option.any_eq_true _ _).mp hrep
    rcases hborn t l hl with rfl | ⟨b, hb, hc⟩
    · exact absurd rfl hne
    · rw [hlabels b hb t hc]
      exact ⟨e, he, hpoll, l₁, _, _, hl₁, of_decide_eq_true hr₁⟩

/-! ## The thread list is right -/

/-- **The thread list does not depend on the order of events**, as long as no parent's trap is taken
    after the end of the thread it reports and no first stop is taken for a breakpoint. -/
theorem thread_list {h : List Step} {s₀ s : Sys} (h₀ : Initial cfg s₀)
    (hh : History cfg (fun s a => InOrder cfg s.w a) s₀ h s) (hm : s.mode ≠ .ended)
    (hset : Settled cfg h s) : ListRight cfg h s := by
  obtain ⟨ht, hk, hrep, hl, hmarked⟩ := hh.listed h₀ hm
  refine ⟨flags_keys s.w.proc ▸ hl.nodup, fun t => ?_, fun t l hne hlt hent hrun => ?_⟩
  · rw [hasThr_iff_flags]
    constructor
    · rintro ⟨b, hb⟩
      obtain ⟨l, hlt, hown, hnot⟩ := hl.live t b hb
      refine ⟨l, hlt, hown, fun hgone => hnot ⟨hgone, ?_⟩⟩
      -- an end that has not been taken is reported
      obtain ⟨hex, hterm⟩ := hset.ends t l hlt hown
      cases hr : l.report with
      | none => rfl
      | some r =>
        cases r with
        | stopped sig ev => cases (hk.stops t l sig ev hlt hr).symm.trans hgone
        | exited => exact absurd hr hex
        | terminated => exact absurd hr hterm
    · rintro ⟨l, hlt, hown, hrun⟩
      by_cases hpid : t = cfg.pid
      · exact hasThr_iff_flags.mp (hpid ▸ ht.pid)
      · have hent := hown.resolve_left hpid
        exact ⟨true, hl.known t l hpid hlt hent (hset.stops t l hpid hlt hent hrun)
          fun hreap => hrun hreap.1⟩
  · exact hmarked t l hne hlt hent (hset.stops t l hne hlt hent hrun)

/-- The launcher creates a thread, whose stop is taken before the trap of its parent. -/
def cloneRun : List Label := [.poll 100, .env (.clone 100 101 0x1020), .poll 101, .poll 100]

theorem thread_list_clone : ∃ h s, h.map Step.label = cloneRun.reverse ∧ ListRight sample h s := by
  have hrun : ((Sys.start sample (sampleTarget 0x1010 [])).runHistory sample
      (fun s a => InOrder sample s.w a) [] cloneRun).any (fun r => taken r.1 r.2) = true := by
    decide +kernel
  obtain ⟨⟨h, s⟩, hs, ht⟩ := (Option.any_eq_true _ _).mp hrun
  obtain ⟨hh, hlabels⟩ := History.of_runHistory cloneRun .nil hs
  rw [List.map_nil, List.append_nil] at hlabels
  obtain ⟨hm, hset⟩ := settled_of_taken hh (by rw [hlabels]; decide) ht
  exact ⟨h, s, hlabels, thread_list ⟨_, sample_launched _ _, rfl⟩ hh hm hset⟩

/-- The same, but the thread ends before the trap of its parent is taken: it stays in the list. -/
def staleRun : List Label :=
  [.poll 100, .env (.clone 100 101 0x1020), .poll 101, .env (.exit 101 false), .poll 101, .poll 100]

theorem thread_list_counterexample : ∃ h s, h.map Step.label = staleRun.reverse ∧
    History sample (fun _ _ => True) (Sys.start sample (sampleTarget 0x1010 [])) h s ∧
    s.mode ≠ .ended ∧ Settled sample h s ∧ s.w.proc.hasThr 101 = true ∧ ¬ListRight sample h s := by
  have hrun : ((Sys.start sample (sampleTarget 0x1010 [])).runHistory sample
      (fun _ _ => True) [] staleRun).any (fun r => taken r.1 r.2 ∧ r.2.w.proc.hasThr 101 ∧
        r.2.w.target.lwps 101 ≠ none ∧ (r.2.w.target.lwps 101).all fun l => l.run = .gone) = true := by
    decide +kernel
  obtain ⟨⟨h, s⟩, hs, hobs⟩ := (Option.any_eq_true _ _).mp hrun
  obtain ⟨ht, hthr, -, hgone⟩ := of_decide_eq_true hobs
  obtain ⟨hh, hlabels⟩ := History.of_runHistory staleRun .nil hs
  rw [List.map_nil, List.append_nil] at hlabels
  obtain ⟨hm, hset⟩ := settled_of_taken hh (by rw [hlabels]; decide) ht
  refine ⟨h, s, hlabels, hh, hm, hset, hthr, fun hright => ?_⟩
  obtain ⟨l, hl, -, hrun'⟩ := (hright.alive_iff 101).mp hthr
  rw [hl] at hgone
  exact hrun' (of_decide_eq_true hgone)

end LaunchMON.Engine
