/-
  The process tables that a run ships.

  `acquire_proctable` sets `pcount` first, appends the entries to `proctable_copy` one by one, and can
  fail before, between and after.  Its callers ship what there is.  So a message is well formed
  exactly if the acquisition in front of it was sound: the launcher had a table that could be read to
  its end, with a resource ID, and the copy was empty.

  The crux is that `acquire_proctable` runs in the context of a thread that is stopped, so that what it
  reads is what there is in memory (`Halted`).  `Acquisition.Sound` asks memory alone, and
  `Note.Proper` is then an invariant of the log: the two handlers that ship are walked through, and
  all others ship nothing.
-/
import LaunchMON.Engine.Kin

namespace LaunchMON.Engine

open Effect Lmonp CBytes

set_option synthInstance.maxSize 4096

variable {cfg : Config}

/-! ## What there is to acquire -/

namespace Acquisition

variable (cfg) (A : Acquisition)

/-- `get_relocated_address`, with the library that the acquisition had. -/
def address (s : Sym) : VA :=
  ((cfg.mainImage s <|> A.rmso.bind fun im => im s).map Symbol.relocatedAddress).getD cfg.garbage

/-- The string at an address. -/
def stringAt (a : VA) : Option CString := (peekString A.mem a (words maxStringSize)).bind readCString

/-- The entry of rank `i`. -/
def entryAt (table : List UInt8) (i : Nat) : Option ProcdescExt := do
  let entry := table.drop (sizeofProcdesc * i)
  let host ← A.stringAt (readPtr entry)
  let exec ← A.stringAt (readPtr (entry.drop 8))
  some
    { executableName := exec
      hostName := host
      pid := readInt (entry.drop 16)
      mpirank := Int32.ofNat i
      cnodeid := -1 }

/-- The entries of a table of `n` entries. -/
def entries (n : Nat) : Option (List ProcdescExt) := do
  let loc ← peek A.mem (A.address cfg .proctable)
  let table ← peekBytes A.mem (wordVA loc) (sizeofProcdesc * n)
  (List.range n).mapM (A.entryAt table)

/-- The size of the table. -/
def size : Option Int32 := (peekBytes A.mem (A.address cfg .proctableSize) 4).map readInt

/-- There is a resource ID where the resource manager has one. -/
def HasResid : RidSource → Prop
  | .cstring => ∃ loc s, peek A.mem (A.address cfg .jobId) = some loc ∧
      A.stringAt (wordVA loc) = some s ∧ ¬(strtol s < 0 ∨ longMax ≤ strtol s)
  | .integer32 => ∃ bs, peekBytes A.mem (A.address cfg .jobId) 4 = some bs
  | .viaPid | .unsupported | .otherType | .nowhere => True

/-- The resource ID that is read; `left` is the one that the engine has before. -/
def ResidIs (left : Int) : RidSource → Int → Prop
  | .cstring, id => ∃ loc s, peek A.mem (A.address cfg .jobId) = some loc ∧
      A.stringAt (wordVA loc) = some s ∧ ¬(strtol s < 0 ∨ longMax ≤ strtol s) ∧ id = strtol s
  | .integer32, id => ∃ bs, peekBytes A.mem (A.address cfg .jobId) 4 = some bs ∧
      id = ((readLe32 bs).getD 0).toNat
  | .viaPid, id => id = cfg.pid
  | .unsupported, id | .otherType, id | .nowhere, id => id = left

theorem ResidIs.hasResid {left : Int} {rid : RidSource} {id : Int} (h : A.ResidIs cfg left rid id) :
    A.HasResid cfg rid := by
  cases rid with
  | cstring =>
    obtain ⟨loc, s, hloc, hs, hrange, -⟩ := h
    exact ⟨loc, s, hloc, hs, hrange⟩
  | integer32 =>
    obtain ⟨bs, hbs, -⟩ := h
    exact ⟨bs, hbs⟩
  | viaPid | unsupported | otherType | nowhere => trivial

/-- **The launcher has a table of `es`.** -/
structure Finds (es : List ProcdescExt) : Prop where
  size : ∃ n, A.size cfg = some n ∧ 0 < n ∧ A.entries cfg n.toInt.toNat = some es
  resid : A.HasResid cfg cfg.rid

/-- The launcher has a table, the copy is empty, and the message with the table is not too long. -/
def Sound : Prop :=
  ∃ es, A.Finds cfg es ∧ rows A.before = [] ∧ proctabMsgSize (es.foldl push A.before) < 2 ^ 31

end Acquisition

/-- A message that has been shipped for `tab`: its acquisition has succeeded, it has as many rows as it
    announces, and as many bytes as were allocated and as its header has. -/
structure WellFormed (A : Acquisition) (tab : Proctable) (pcount : Int32) (s : Shipment) : Prop where
  acquired : A.ok = true
  rows_eq : ((rows tab).length : Int) = pcount.toInt
  ntasks_eq : ntasks s.msg.hdr = (rows tab).length
  msgsize_eq : s.msgsize.toInt = sizeofLmonp + s.msg.payload.length
  payload_eq : s.msg.hdr.lmonPayloadLength.toNat =
    5 * 4 * (rows tab).length + tableLen (strTab tab).orderedEHName

/-- A process table message is well formed exactly if its acquisition was sound. -/
def Note.Proper (cfg : Config) : Note → Prop
  | .shippedProctab acq tab pcount s =>
    ∃ A, acq = some A ∧ (WellFormed A tab pcount s ↔ A.Sound cfg)
  | _ => True

/-! ## Reading in a context -/

/-- The context of `t` is set, and `t` is stopped. -/
structure World.Halted (w : World) (t : LwpId) (l : Lwp) : Prop extends w.At t where
  lwp : w.target.lwps t = some l
  stopped : l.Ptraceable

theorem World.Halted.same {w w' : World} {t : LwpId} {l : Lwp} (h : w.Halted t l)
    (hs : SameThreads w w') : w'.Halted t l := by
  refine ⟨⟨hs.stack.trans h.stack, hs.child.trans h.child, ?_⟩, by rw [hs.lwps]; exact h.lwp, h.stopped⟩
  have hthr := h.thr
  unfold Process.hasThr Process.thr at hthr ⊢
  rw [hs.thrlist]
  exact hthr

/-- A thread in whose context a request succeeds is stopped. -/
theorem World.Halted.of_focus {w w' : World} {t : LwpId} {f : LwpId × Lwp}
    (hstack : w.proc.threadCtxStack = [t]) (hchild : w.proc.newChildPid = none)
    (hf : focus cfg true w = .ok f w') : w.Halted t f.2 := by
  have hget : (get : EngineM World) w = .ok w w := rfl
  obtain ⟨-, -, hl, hp⟩ := focus_eq_ok (Or.inl ⟨hstack, hchild⟩) hf
  refine ⟨⟨hstack, hchild, ?_⟩, hl, hp⟩
  by_contra hthr
  have hpid : getPid cfg true w = .ok none w := by
    unfold getPid
    rw [ok_bind hget, if_neg (by decide), if_neg (by rw [hchild]; decide), hstack]
    show EStateM.Result.ok (if w.proc.hasThr t then some t else none) w = _
    rw [if_neg hthr]
  have hnone : focus? cfg true w = .ok none w := by
    unfold focus?
    rw [ok_bind hpid, ok_bind hget]
    rfl
  unfold focus at hf
  rw [ok_bind hnone] at hf
  cases hf

theorem orThrow_eq_ok {α : Type} {e : Exn} {o : Option α} {a : α} {w w' : World} :
    orThrow e o w = .ok a w' ↔ o = some a ∧ w' = w := by
  cases o with
  | none => exact ⟨by rintro ⟨⟩, by rintro ⟨⟨⟩, -⟩⟩
  | some b =>
    constructor
    · rintro ⟨⟩
      exact ⟨rfl, rfl⟩
    · rintro ⟨⟨⟩, rfl⟩
      rfl

section Halted

variable {w w' : World} {t : LwpId} {l : Lwp}

theorem World.Halted.focus (h : w.Halted t l) : focus cfg true w = .ok (t, l) w :=
  focus_focused h.toAt.focused h.lwp h.stopped

theorem World.Halted.contextMem (h : w.Halted t l) : w.contextMem = w.target.mem l.mm := by
  unfold World.contextMem
  rw [h.stack]
  show (((w.target.lwps t).map fun l => w.target.mem l.mm).getD _) = _
  rw [h.lwp]
  rfl

/-- The acquisition that begins in a state. -/
def World.acquisition (w : World) (ok : Bool) : Acquisition :=
  ⟨w.contextMem, w.proc.rmso, w.lmon.proctableCopy, ok⟩

theorem tracerRead_halted (h : w.Halted t l) (a : VA) (n : Nat) :
    tracerRead cfg true a n w = orThrow .tracer (peekBytes w.contextMem a n) w := by
  have hget : (get : EngineM World) w = .ok w w := rfl
  unfold tracerRead
  rw [ok_bind h.focus, ok_bind hget, h.contextMem]

theorem tracerReadWord_halted (h : w.Halted t l) (a : VA) :
    tracerReadWord cfg true a w = orThrow .tracer (peek w.contextMem a) w := by
  have hget : (get : EngineM World) w = .ok w w := rfl
  unfold tracerReadWord
  rw [ok_bind h.focus, ok_bind hget, h.contextMem]

theorem readStringAt_halted (h : w.Halted t l) (a : VA) : readStringAt cfg a w =
    (orThrow .tracer (peekString w.contextMem a (words maxStringSize)) >>= fun bs =>
      orThrow .crash (readCString bs) : EngineM CString) w := by
  have hget : (get : EngineM World) w = .ok w w := rfl
  have hread : tracerReadString cfg true a maxStringSize w =
      orThrow .tracer (peekString w.contextMem a (words maxStringSize)) w := by
    unfold tracerReadString
    rw [ok_bind h.focus, ok_bind hget, h.contextMem]
  unfold readStringAt
  cases hs : peekString w.contextMem a (words maxStringSize) with
  | none =>
    rw [hs] at hread
    rw [error_bind hread]
    rfl
  | some bs =>
    rw [hs] at hread
    rw [ok_bind hread]
    rfl

variable {A : Acquisition}

theorem readStringAt_eq_ok (h : w.Halted t l) (hA : A.mem = w.contextMem) {a : VA} {s : CString} :
    readStringAt cfg a w = .ok s w' ↔ A.stringAt a = some s ∧ w' = w := by
  rw [readStringAt_halted h, Acquisition.stringAt, hA]
  cases hs : peekString w.contextMem a (words maxStringSize) with
  | none => exact ⟨by rintro ⟨⟩, by rintro ⟨⟨⟩, -⟩⟩
  | some bs => exact orThrow_eq_ok

/-! ## Rows -/

/-- Entries are appended to the copy. -/
def World.pushed (w : World) (es : List ProcdescExt) : World :=
  { w with lmon := { w.lmon with proctableCopy := es.foldl push w.lmon.proctableCopy } }

theorem World.Halted.pushed (h : w.Halted t l) (es : List ProcdescExt) : (w.pushed es).Halted t l :=
  h.same ⟨rfl, rfl, rfl, rfl⟩

theorem acquireRow_eq_ok (h : w.Halted t l) (hA : A.mem = w.contextMem) {table : List UInt8} {i : Nat} :
    acquireRow cfg table i w = .ok () w' ↔ ∃ e, A.entryAt table i = some e ∧ w' = w.pushed [e] := by
  unfold acquireRow Acquisition.entryAt
  dsimp only
  constructor
  · intro hx
    obtain ⟨host, hhost, hx⟩ := read_bind_eq_ok (fun _ _ => (readStringAt_eq_ok h hA).mp) hx
    obtain ⟨exec, hexec, hx⟩ := read_bind_eq_ok (fun _ _ => (readStringAt_eq_ok h hA).mp) hx
    cases hx
    exact ⟨_, by rw [hhost, Option.bind_eq_bind, Option.bind_some, hexec]; rfl, rfl⟩
  · rintro ⟨e, he, rfl⟩
    obtain ⟨host, hhost, he⟩ := Option.bind_eq_some_iff.mp he
    obtain ⟨exec, hexec, he⟩ := Option.bind_eq_some_iff.mp he
    cases he
    rw [ok_bind ((readStringAt_eq_ok h hA).mpr ⟨hhost, rfl⟩),
      ok_bind ((readStringAt_eq_ok h hA).mpr ⟨hexec, rfl⟩)]
    rfl

/-- The loop over the entries. -/
theorem acquireRows_eq_ok (table : List UInt8) : ∀ (is : List Nat) {w : World}, w.Halted t l →
    A.mem = w.contextMem → ∀ {w'}, each is (acquireRow cfg table) w = .ok () w' ↔
      ∃ es, is.mapM (A.entryAt table) = some es ∧ w' = w.pushed es := by
  intro is
  induction is with
  | nil =>
    intro w h hA w'
    constructor
    · rintro ⟨⟩
      exact ⟨[], rfl, rfl⟩
    · rintro ⟨es, hes, rfl⟩
      cases hes
      rfl
  | cons i is ih =>
    intro w h hA w'
    rw [List.mapM_cons]
    constructor
    · intro hx
      obtain ⟨u, w₁, hi, hrest⟩ := bind_eq_ok hx
      obtain ⟨e, he, rfl⟩ := (acquireRow_eq_ok h hA).mp hi
      obtain ⟨es, hes, rfl⟩ := (ih (h.pushed _) hA).mp hrest
      exact ⟨e :: es, by rw [he, Option.bind_eq_bind, Option.bind_some, hes]; rfl, rfl⟩
    · rintro ⟨es, hes, rfl⟩
      obtain ⟨e, he, hes⟩ := Option.bind_eq_some_iff.mp hes
      obtain ⟨es', hes', hes⟩ := Option.bind_eq_some_iff.mp hes
      cases hes
      show (acquireRow cfg table i >>= fun _ => each is (acquireRow cfg table)) w = _
      rw [ok_bind ((acquireRow_eq_ok h hA).mpr ⟨e, he, rfl⟩)]
      exact (ih (h.pushed _) hA).mpr ⟨es', hes', rfl⟩

/-! ## The acquisition -/

theorem tracerRead_eq_ok (h : w.Halted t l) (hA : A.mem = w.contextMem) {a : VA} {n : Nat}
    {bs : List UInt8} :
    tracerRead cfg true a n w = .ok bs w' ↔ peekBytes A.mem a n = some bs ∧ w' = w := by
  rw [tracerRead_halted h, hA]
  exact orThrow_eq_ok

theorem tracerReadWord_eq_ok (h : w.Halted t l) (hA : A.mem = w.contextMem) {a : VA} {r : Word} :
    tracerReadWord cfg true a w = .ok r w' ↔ peek A.mem a = some r ∧ w' = w := by
  rw [tracerReadWord_halted h, hA]
  exact orThrow_eq_ok

/-- The resource ID is set if there is one. -/
theorem acquireResid_true (h : w.Halted t l) (hA : A.mem = w.contextMem) {w₀ : World}
    (hrmso : A.rmso = w₀.proc.rmso) {rid : RidSource} (hx : acquireResid cfg w₀ rid w = .ok true w') :
    ∃ id, A.ResidIs cfg w.lmon.resid rid id ∧ w' = { w with lmon := { w.lmon with resid := id } } := by
  have haddr : A.address cfg .jobId = w₀.relocatedAddress cfg .jobId := by
    rw [Acquisition.address, hrmso]
    rfl
  cases rid with
  | cstring =>
    obtain ⟨loc, hloc, hx⟩ := read_bind_eq_ok (fun _ _ => (tracerReadWord_eq_ok h hA).mp) hx
    obtain ⟨s, hs, hx⟩ := read_bind_eq_ok (fun _ _ => (readStringAt_eq_ok h hA).mp) hx
    split at hx
    · cases hx
    · next hid =>
      cases hx
      exact ⟨_, ⟨loc, s, by rw [haddr]; exact hloc, hs, hid, rfl⟩, rfl⟩
  | integer32 =>
    obtain ⟨bs, hbs, hx⟩ := read_bind_eq_ok (fun _ _ => (tracerRead_eq_ok h hA).mp) hx
    cases hx
    exact ⟨_, ⟨bs, by rw [haddr]; exact hbs, rfl⟩, rfl⟩
  | viaPid | unsupported | otherType | nowhere =>
    cases hx
    exact ⟨_, rfl, rfl⟩

theorem exists_acquireResid (h : w.Halted t l) (hA : A.mem = w.contextMem) {w₀ : World}
    (hrmso : A.rmso = w₀.proc.rmso) {rid : RidSource} (hid : A.HasResid cfg rid) :
    ∃ w', acquireResid cfg w₀ rid w = .ok true w' := by
  have haddr : A.address cfg .jobId = w₀.relocatedAddress cfg .jobId := by
    rw [Acquisition.address, hrmso]
    rfl
  cases rid with
  | cstring =>
    obtain ⟨loc, s, hloc, hs, hid⟩ := hid
    rw [haddr] at hloc
    rw [acquireResid, ok_bind ((tracerReadWord_eq_ok h hA).mpr ⟨hloc, rfl⟩),
      ok_bind ((readStringAt_eq_ok h hA).mpr ⟨hs, rfl⟩), if_neg hid]
    exact ⟨_, rfl⟩
  | integer32 =>
    obtain ⟨bs, hbs⟩ := hid
    rw [haddr] at hbs
    rw [acquireResid, ok_bind ((tracerRead_eq_ok h hA).mpr ⟨hbs, rfl⟩)]
    exact ⟨_, rfl⟩
  | viaPid => exact ⟨_, rfl⟩
  | unsupported | otherType | nowhere => exact ⟨_, rfl⟩

theorem length_of_mapM {α β : Type} {f : α → Option β} : ∀ {is : List α} {es : List β},
    is.mapM f = some es → es.length = is.length := by
  intro is
  induction is with
  | nil =>
    intro es hes
    cases hes
    rfl
  | cons i is ih =>
    intro es hes
    rw [List.mapM_cons] at hes
    obtain ⟨e, -, hes⟩ := Option.bind_eq_some_iff.mp hes
    obtain ⟨es', hes', hes⟩ := Option.bind_eq_some_iff.mp hes
    cases hes
    rw [List.length_cons, List.length_cons, ih hes']

/-- A copy that has been appended to is not empty. -/
theorem isEmpty_foldl_push {es : List ProcdescExt} (hes : es ≠ []) (tab : Proctable) :
    (es.foldl push tab).isEmpty = false := by
  rw [Bool.eq_false_iff]
  intro hempty
  have hlen := length_rows_foldl_push es tab
  rw [Std.ExtTreeMap.isEmpty_iff.mp hempty] at hlen
  have := List.length_pos_iff.mpr hes
  change 0 = _ at hlen
  omega

/-- The loop over a table of `n` entries, and what comes after it. -/
theorem acquireTable_true (h : w.Halted t l) (hA : A.mem = w.contextMem) {w₀ : World}
    (hrmso : A.rmso = w₀.proc.rmso) {n : ℕ} (hx : acquireTable cfg w₀ n w = .ok true w') :
    ∃ es id, A.entries cfg n = some es ∧ A.ResidIs cfg w.lmon.resid cfg.rid id ∧
      w' = { w.pushed es with lmon := { (w.pushed es).lmon with resid := id } } := by
  have haddr : A.address cfg .proctable = w₀.relocatedAddress cfg .proctable := by
    rw [Acquisition.address, hrmso]
    rfl
  obtain ⟨loc, hloc, hx⟩ := read_bind_eq_ok (fun _ _ => (tracerReadWord_eq_ok h hA).mp) hx
  obtain ⟨u, -, hx⟩ := read_bind_eq_ok (fun _ _ => check_eq_ok.mp) hx
  obtain ⟨table, htable, hx⟩ := read_bind_eq_ok (fun _ _ => (tracerRead_eq_ok h hA).mp) hx
  obtain ⟨v, w₁, hrows, hx⟩ := bind_eq_ok hx
  obtain ⟨es, hes, rfl⟩ := (acquireRows_eq_ok table _ h hA).mp hrows
  have hentries : A.entries cfg n = some es := by
    rw [Acquisition.entries, haddr, hloc, Option.bind_eq_bind, Option.bind_some, htable]
    exact hes
  change (if (w.pushed es).lmon.proctableCopy.isEmpty then pure false
    else acquireResid cfg w₀ cfg.rid : EngineM Bool) (w.pushed es) = _ at hx
  split at hx
  · cases hx
  · obtain ⟨id, hid, hw'⟩ := acquireResid_true (h.pushed es) hA hrmso hx
    exact ⟨es, id, hentries, hid, hw'⟩

/-- A table that is there is acquired, unless its size overflows. -/
theorem acquireTable_of_entries (h : w.Halted t l) (hA : A.mem = w.contextMem) {w₀ : World}
    (hrmso : A.rmso = w₀.proc.rmso) {n : ℕ} (hn : 0 < n) {es : List ProcdescExt}
    (hes : A.entries cfg n = some es) (hid : A.HasResid cfg cfg.rid) :
    (∃ w', acquireTable cfg w₀ n w = .ok true w') ∨ acquireTable cfg w₀ n w = .error .crash w := by
  have haddr : A.address cfg .proctable = w₀.relocatedAddress cfg .proctable := by
    rw [Acquisition.address, hrmso]
    rfl
  obtain ⟨loc, hloc, hes⟩ := Option.bind_eq_some_iff.mp hes
  obtain ⟨table, htable, hes⟩ := Option.bind_eq_some_iff.mp hes
  rw [haddr] at hloc
  unfold acquireTable
  rw [ok_bind ((tracerReadWord_eq_ok h hA).mpr ⟨hloc, rfl⟩)]
  by_cases hbig : 2 ^ 31 ≤ sizeofProcdesc * n
  · right
    rw [whenever, if_pos (decide_eq_true hbig)]
    rfl
  · left
    have hne : es ≠ [] := by
      rintro rfl
      have := length_of_mapM hes
      rw [List.length_range] at this
      change 0 = n at this
      omega
    rw [ok_bind (check_eq_ok (u := ()) |>.mpr ⟨decide_eq_false hbig, rfl⟩), ok_bind ((tracerRead_eq_ok h hA).mpr ⟨htable, rfl⟩),
      ok_bind ((acquireRows_eq_ok table _ h hA).mpr ⟨es, hes, rfl⟩)]
    show ∃ w', (if (w.pushed es).lmon.proctableCopy.isEmpty then pure false
      else acquireResid cfg w₀ cfg.rid : EngineM Bool) (w.pushed es) = .ok true w'
    rw [if_neg (by rw [World.pushed, isEmpty_foldl_push hne]; decide)]
    exact exists_acquireResid (h.pushed es) hA hrmso hid

/-- `set_pcount`. -/
def World.counted (w : World) (n : Int32) : World := { w with lmon := { w.lmon with pcount := n } }

theorem World.Halted.counted (h : w.Halted t l) (n : Int32) : (w.counted n).Halted t l :=
  h.same ⟨rfl, rfl, rfl, rfl⟩

/-- **A table that has been acquired was there.** -/
theorem acquireBody_true (h : w.Halted t l) (ok : Bool) (hx : acquireBody cfg w = .ok true w') :
    ∃ es, (w.acquisition ok).Finds cfg es ∧ w'.lmon.pcount.toInt = es.length ∧
      w'.lmon.proctableCopy = es.foldl push w.lmon.proctableCopy ∧
      (w.acquisition ok).ResidIs cfg w.lmon.resid cfg.rid w'.lmon.resid := by
  have hx := (catching_eq_ok hx).resolve_right (by decide)
  obtain ⟨bs, hbs, hx⟩ := read_bind_eq_ok (x := tracerRead cfg true _ 4)
    (fun _ _ => (tracerRead_eq_ok (A := w.acquisition ok) h rfl).mp) hx
  change (if readInt bs ≤ 0 then pure false else acquireTable cfg w (readInt bs).toInt.toNat :
    EngineM Bool) (w.counted (readInt bs)) = _ at hx
  split at hx
  · cases hx
  · next hpos =>
    obtain ⟨es, id, hes, hid, rfl⟩ := acquireTable_true (A := w.acquisition ok)
      (h.counted (readInt bs)) rfl rfl hx
    have hlt : 0 < readInt bs := by
      rw [Int32.lt_iff_toInt_lt]
      rw [Int32.le_iff_toInt_le] at hpos
      omega
    refine ⟨es, ⟨⟨_, congrArg (Option.map readInt) hbs, hlt, hes⟩, hid.hasResid⟩, ?_, rfl, hid⟩
    obtain ⟨loc, -, hmap⟩ := Option.bind_eq_some_iff.mp hes
    obtain ⟨table, -, hmap⟩ := Option.bind_eq_some_iff.mp hmap
    rw [length_of_mapM hmap, List.length_range]
    rw [Int32.lt_iff_toInt_lt] at hlt
    exact (Int.toNat_of_nonneg hlt.le).symm

/-- A table that is there is acquired, if there is a result at all. -/
theorem acquireBody_of_finds (h : w.Halted t l) {ok : Bool} {es : List ProcdescExt}
    (hf : (w.acquisition ok).Finds cfg es) {ok' : Bool} (hx : acquireBody cfg w = .ok ok' w') :
    ok' = true := by
  have hget : (get : EngineM World) w = .ok w w := rfl
  obtain ⟨n, hsize, hpos, hes⟩ := hf.size
  obtain ⟨bs, hbs, rfl⟩ := Option.map_eq_some_iff.mp hsize
  have hlt : 0 < (readInt bs).toInt := Int32.lt_iff_toInt_lt.mp hpos
  have hread : tracerRead cfg true (w.relocatedAddress cfg .proctableSize) 4 w = .ok bs w :=
    (tracerRead_eq_ok (A := w.acquisition ok) h rfl).mpr ⟨hbs, rfl⟩
  have hcount : (modifyLmon fun lm => { lm with pcount := readInt bs }) w =
      .ok () (w.counted (readInt bs)) := rfl
  unfold acquireBody catchAll catching at hx
  rw [ok_bind hget, ok_bind hread, ok_bind hcount, if_neg (fun hle =>
    absurd (Int32.le_iff_toInt_le.mp hle) (not_le.mpr (Int32.lt_iff_toInt_lt.mp hpos)))] at hx
  have htable : (∃ w₂, acquireTable cfg w (readInt bs).toInt.toNat (w.counted (readInt bs)) =
      .ok true w₂) ∨ acquireTable cfg w (readInt bs).toInt.toNat (w.counted (readInt bs)) =
      .error .crash (w.counted (readInt bs)) :=
    acquireTable_of_entries (A := w.acquisition ok) (h.counted (readInt bs)) rfl rfl
      (by omega) hes hf.resid
  rcases htable with ⟨w₂, htab⟩ | htab
  · rw [htab] at hx
    cases hx
    rfl
  · rw [htab] at hx
    cases hx

/-! ## Messages -/

theorem Acquisition.Finds.unique {es es' : List ProcdescExt} (h : A.Finds cfg es)
    (h' : A.Finds cfg es') : es' = es := by
  obtain ⟨n, hn, -, hes⟩ := h.size
  obtain ⟨n', hn', -, hes'⟩ := h'.size
  rw [hn] at hn'
  cases hn'
  exact Option.some.inj (hes'.symm.trans hes)

theorem Acquisition.Finds.length_pos {es : List ProcdescExt} (h : A.Finds cfg es) : 1 ≤ es.length := by
  obtain ⟨n, -, hpos, hes⟩ := h.size
  obtain ⟨loc, -, hmap⟩ := Option.bind_eq_some_iff.mp hes
  obtain ⟨table, -, hmap⟩ := Option.bind_eq_some_iff.mp hmap
  have hlt : 0 < n.toInt := Int32.lt_iff_toInt_lt.mp hpos
  rw [length_of_mapM hmap, List.length_range]
  omega

/-- What `ship_proctab_msg` sends is as long as the table. -/
theorem payload_length {b : Bool} {tab : Proctable} {pcount : Int32} {m : FeToFeMsg} {s : Shipment}
    (hs : shipProctabMsg b tab pcount m = some s) :
    s.msg.payload.length = 20 * (rows tab).length + tableLen (strTab tab).orderedEHName := by
  cases b with
  | false => cases hs
  | true =>
    cases hs
    show ((rows tab).flatMap (serialize (strTab tab)) ++ (strTab tab).image).length = _
    rw [List.length_append, length_flatMap_serialize]
    rfl

/-- **A message is well formed exactly if its acquisition was sound.** -/
theorem wellFormed_iff (h : w.Halted t l) {ok : Bool} (hx : acquireBody cfg w = .ok ok w') {s : Shipment}
    (hs : shipProctabMsg cfg.apiMode w'.lmon.proctableCopy w'.lmon.pcount .proctableAvail = some s) :
    WellFormed (w.acquisition ok) w'.lmon.proctableCopy w'.lmon.pcount s ↔
      (w.acquisition ok).Sound cfg := by
  have hlen := payload_length hs
  constructor
  · intro hwf
    obtain rfl : ok = true := hwf.acquired
    obtain ⟨es, hfinds, hcount, hcopy, -⟩ := acquireBody_true h true hx
    have hrows := length_rows_foldl_push es w.lmon.proctableCopy
    have hannounced := hwf.rows_eq
    rw [hcopy, hrows, hcount] at hannounced
    refine ⟨es, hfinds, List.length_eq_zero_iff.mp ?_, ?_⟩
    · show (rows w.lmon.proctableCopy).length = 0
      omega
    · have hsize := hwf.msgsize_eq
      have hlt := Int32.toInt_lt s.msgsize
      rw [hcopy] at hlen
      show proctabMsgSize (es.foldl push w.lmon.proctableCopy) < 2 ^ 31
      unfold proctabMsgSize
      omega
  · rintro ⟨es, hfinds, hempty, hsize⟩
    obtain rfl := acquireBody_of_finds h hfinds hx
    obtain ⟨es', hfinds', hcount, hcopy, -⟩ := acquireBody_true h true hx
    obtain rfl := hfinds.unique hfinds'
    have hrows : (rows w'.lmon.proctableCopy).length = es'.length := by
      rw [hcopy, length_rows_foldl_push]
      show (rows (w.acquisition true).before).length + _ = _
      rw [hempty]
      exact Nat.zero_add _
    have hsize' : proctabMsgSize w'.lmon.proctableCopy < 2 ^ 31 := by
      rw [hcopy]
      exact hsize
    unfold proctabMsgSize at hsize'
    have hapi : cfg.apiMode = true := by
      by_contra hapi
      rw [Bool.eq_false_of_not_eq_true hapi] at hs
      cases hs
    rw [hapi] at hs
    obtain ⟨s', hs', hmsg, hntasks, -, -, hpayload, -⟩ := shipProctabMsg_spec
      (hcount.trans (by rw [hrows])) (by rw [hrows]; exact hfinds'.length_pos) hsize' .proctableAvail
    rw [hs] at hs'
    cases hs'
    refine ⟨rfl, by rw [hrows, hcount], hntasks, ?_, hpayload⟩
    rw [hmsg, hlen]
    push_cast
    omega

/-! ## The log -/

/-- Every process table message so far is proper. -/
def World.Ships (cfg : Config) (w : World) : Prop := ∀ n ∈ w.log, n.Proper cfg

instance (f : Lmon → Lmon) : Within (Keeps (World.Ships cfg)) (modifyLmon f) :=
  within_modify fun _ h => h

instance (f : Process → Process) : Within (Keeps (World.Ships cfg)) (modifyProc f) :=
  within_modify fun _ h => h

instance (f : Target → Target) : Within (Keeps (World.Ships cfg)) (modifyTarget f) :=
  within_modify fun _ h => h

theorem within_note {n : Note} (hn : n.Proper cfg) : Within (Keeps (World.Ships cfg)) (note n) := by
  refine within_modify fun w h m hm => ?_
  rcases List.mem_append.mp hm with hm | hm
  · exact h m hm
  · rw [List.mem_singleton.mp hm]
    exact hn

instance : Frame (Keeps (World.Ships cfg)) where
  lmon _ := inferInstance
  note n hn := by
    refine within_note ?_
    cases n with
    | shippedProctab => exact hn.elim
    | _ => exact trivial
  threadLib := inferInstance
  libc := inferInstance
  attachFifo _ := inferInstance
  neverTrapped := by unfold setNeverTrapped; infer_instance

section Tracer

instance (t : LwpId) (l : Lwp) : Within (Keeps (World.Ships cfg)) (setLwp t l) := by
  unfold setLwp; infer_instance

instance (sel : BpSel) (b : Option Bp) : Within (Keeps (World.Ships cfg)) (setBp sel b) := by
  unfold setBp; infer_instance

instance (r : Regs) : Within (Keeps (World.Ships cfg)) (tracerSetregs cfg r) := by
  unfold tracerSetregs; infer_instance

instance (b : Bool) (a : VA) (bs : List UInt8) :
    Within (Keeps (World.Ships cfg)) (tracerWrite cfg b a bs) := by
  unfold tracerWrite; infer_instance

instance (b : Bool) : Within (Keeps (World.Ships cfg)) (tracerContinue cfg b) := by
  unfold tracerContinue; infer_instance

instance : Within (Keeps (World.Ships cfg)) (tracerSinglestep cfg) := by
  unfold tracerSinglestep; infer_instance

instance (b : Bool) : Within (Keeps (World.Ships cfg)) (tracerDetach cfg b) := by
  unfold tracerDetach; infer_instance

instance (b on : Bool) : Within (Keeps (World.Ships cfg)) (tracerOptions cfg b on) := by
  unfold tracerOptions; infer_instance

instance (sel : BpSel) : Within (Keeps (World.Ships cfg)) (enableBreakpoint cfg sel) := by
  unfold enableBreakpoint; infer_instance

instance (sel : BpSel) (b c : Bool) :
    Within (Keeps (World.Ships cfg)) (disableBreakpoint cfg sel b c) := by
  unfold disableBreakpoint; infer_instance

instance (t : LwpId) : Within (Keeps (World.Ships cfg)) (makeContext t) := by
  unfold makeContext; infer_instance

instance (t : LwpId) : Within (Keeps (World.Ships cfg)) (checkAndUndoContext t) := by
  unfold checkAndUndoContext; infer_instance

instance (c : Thr → Bool) (x : EngineM Unit) [Within (Keeps (World.Ships cfg)) x] :
    Within (Keeps (World.Ships cfg)) (eachThr c x) := by
  unfold eachThr; infer_instance

end Tracer

section Handlers

instance (m : FeToFeMsg) : Within (Keeps (World.Ships cfg)) (sayFetofeMsg cfg m) := by
  have : Within (Keeps (World.Ships cfg)) (note (.said m)) := within_note trivial
  unfold sayFetofeMsg; infer_instance

instance (w₀ : World) (n : Nat) : Within (Keeps (World.Ships cfg)) (acquireTable cfg w₀ n) := by
  have hrow : ∀ table i, Within (Keeps (World.Ships cfg)) (acquireRow cfg table i) := by
    intro table i
    unfold acquireRow; infer_instance
  have hresid : ∀ rid, Within (Keeps (World.Ships cfg)) (acquireResid cfg w₀ rid) := by
    intro rid
    cases rid <;> unfold acquireResid <;> try unfold setResid
    all_goals infer_instance
  unfold acquireTable; infer_instance

instance : Within (Keeps (World.Ships cfg)) (acquireProctable cfg) := by
  unfold acquireProctable acquireBody; infer_instance

instance (sel : BpSel) : Within (Keeps (World.Ships cfg)) (isBpPrologueDone cfg sel) := by
  unfold isBpPrologueDone handleBpPrologue setReturnAddr; infer_instance

instance (b c : Bool) : Within (Keeps (World.Ships cfg)) (disableAllBPs cfg b c) := by
  unfold disableAllBPs; infer_instance

instance (im : Image) : Within (Keeps (World.Ships cfg)) (handleMpirVariables cfg im) := by
  have hargs : ∀ a o, Within (Keeps (World.Ships cfg)) (writeServerArgs cfg a o) := by
    intro a o
    cases o <;> unfold writeServerArgs <;> infer_instance
  have hcoloc : Within (Keeps (World.Ships cfg)) (handleColocation cfg im) := by
    unfold handleColocation
    cases im .execPath <;> cases im .serverArgs <;> unfold writeColocation <;> infer_instance
  unfold handleMpirVariables registerLaunchBp; infer_instance

instance : Within (Keeps (World.Ships cfg)) (checkDependentSOs cfg) := by
  have hvisit : ∀ rmso name, Within (Keeps (World.Ships cfg)) (visitSo cfg rmso name) := by
    intro rmso name
    cases name <;> unfold visitSo
    case launcherSo => cases cfg.rmsoImage <;> unfold initRmso <;> infer_instance
    all_goals infer_instance
  unfold checkDependentSOs walkLinkMap; infer_instance

instance : Within (Keeps (World.Ships cfg)) (continueOnAttach cfg) := by
  unfold continueOnAttach; infer_instance

instance (o : Option VA) : Within (Keeps (World.Ships cfg)) (attachColocated cfg o) := by
  unfold attachColocated; infer_instance

instance : Within (Keeps (World.Ships cfg)) (registerLoaderBp cfg) := by
  unfold registerLoaderBp; infer_instance

instance (b : Bool) : Within (Keeps (World.Ships cfg)) (unsetBeingDebugged cfg b) := by
  unfold unsetBeingDebugged; infer_instance

instance : Within (Keeps (World.Ships cfg)) (letGo cfg) := by unfold letGo; infer_instance

instance : Within (Keeps (World.Ships cfg)) (handleDetachCmdEvent cfg) := by
  have : ∀ r, Within (Keeps (World.Ships cfg)) (detachReply cfg r) := by
    intro r
    cases r <;> unfold detachReply <;> infer_instance
  unfold handleDetachCmdEvent; infer_instance

instance : Within (Keeps (World.Ships cfg)) (handleKillCmdEvent cfg) := by
  have : ∀ r, Within (Keeps (World.Ships cfg)) (killReply cfg r) := by
    intro r
    cases r <;> unfold killReply <;> infer_instance
  unfold handleKillCmdEvent; infer_instance

instance : Within (Keeps (World.Ships cfg)) (launchAborting cfg) := by
  have : ∀ b, Within (Keeps (World.Ships cfg)) (detachStopped cfg b) := by
    intro b
    unfold detachStopped; infer_instance
  unfold launchAborting; infer_instance

instance : Within (Keeps (World.Ships cfg)) (holdOrContinue cfg) := by
  unfold holdOrContinue registerEvent; infer_instance

instance (t : LwpId) : Within (Keeps (World.Ships cfg)) (handleThrcreateRequest t) := by
  unfold handleThrcreateRequest; infer_instance

instance (mark : Process → Process) (reason : Reason) :
    Within (Keeps (World.Ships cfg)) (request cfg mark reason) := by
  unfold request stopThreads stopRunning tracerStop; infer_instance

instance (reason : Reason) : Within (Keeps (World.Ships cfg)) (requestDetach cfg reason) := by
  unfold requestDetach; infer_instance

/-- The handlers that ship no process table. -/
theorem within_invokeHandler {ev : Event} (hlaunch : ev ≠ .stopAtLaunchBp)
    (hattach : ev ≠ .stopAtFirstAttach) (data : Nat) :
    Within (Keeps (World.Ships cfg)) (invokeHandler cfg ev data) := by
  cases ev with
  | stopAtLaunchBp => exact absurd rfl hlaunch
  | stopAtFirstAttach => exact absurd rfl hattach
  | stopAtFirstExec => unfold invokeHandler handleTrapAfterExecEvent; infer_instance
  | stopForDetach => unfold invokeHandler; infer_instance
  | stopForKill => unfold invokeHandler; infer_instance
  | stopAtLoaderBp => unfold invokeHandler handleLoaderBpEvent; infer_instance
  | requestNewThread => unfold invokeHandler; infer_instance
  | stopAtThreadCreation => unfold invokeHandler handleThrcreateTrapEvent; infer_instance
  | stopNewThreadTrace => unfold invokeHandler handleNewthreadTraceEvent; infer_instance
  | stopNewForkedProcess => unfold invokeHandler handleNewprocForkedEvent; infer_instance
  | relaySignal => unfold invokeHandler handleRelaySignalEvent tracerDeliverSignal; infer_instance
  | stopNotInterested => unfold invokeHandler handleNotInterestedEvent; infer_instance
  | terminated => unfold invokeHandler handleTermEvent; infer_instance
  | exited => unfold invokeHandler handleExitEvent; infer_instance
  | hitABp => unfold invokeHandler; infer_instance
  | invalid => unfold invokeHandler; infer_instance

end Handlers

/-! ## The handlers that ship -/

section Ships

variable {α : Type} {x : EngineM α} [hx : Within (Keeps (World.Ships cfg)) x]

theorem World.Ships.out (h : w.Ships cfg) : (final x w).Ships cfg := hx.out w h

theorem World.Ships.of_ok (h : w.Ships cfg) {a : α} (ha : x w = .ok a w') : w'.Ships cfg :=
  hx.of_ok ha h

theorem World.Ships.of_error (h : w.Ships cfg) {e : Exn} (he : x w = .error e w') : w'.Ships cfg :=
  hx.of_error he h

end Ships

/-- `acquire_proctable` records what it was given, and its result. -/
theorem acquireProctable_eq_ok {u : Unit} (hx : acquireProctable cfg w = .ok u w') :
    ∃ ok w₁, acquireBody cfg w = .ok ok w₁ ∧
      w' = { w₁ with lmon := { w₁.lmon with acquisition := some (w.acquisition ok) } } := by
  obtain ⟨ok, w₁, hbody, hx⟩ := bind_eq_ok (x := acquireBody cfg) hx
  cases hx
  exact ⟨ok, w₁, hbody, rfl⟩

theorem acquireAndShip_ships (h : w.Halted t l) (hw : w.Ships cfg) :
    (final (acquireAndShip cfg) w).Ships cfg := by
  refine final_bind_of (fun u w₁ hx => ?_) fun e w₁ hx => hw.of_error hx
  have hw₁ : w₁.Ships cfg := hw.of_ok hx
  obtain ⟨ok, w₂, hbody, rfl⟩ := acquireProctable_eq_ok hx
  have hget : ∀ w : World, (get : EngineM World) w = .ok w w := fun _ => rfl
  unfold shipProctab
  rw [final_bind_ok (hget _)]
  cases hs : shipProctabMsg cfg.apiMode w₂.lmon.proctableCopy w₂.lmon.pcount .proctableAvail with
  | none => exact hw₁
  | some s =>
    exact (within_note (n := .shippedProctab _ _ _ s) ⟨_, rfl, wellFormed_iff h hbody hs⟩).out _ hw₁

theorem announceProctable_ships (h : w.Halted t l) (hw : w.Ships cfg) (m : FeToFeMsg) :
    (final (announceProctable cfg m) w).Ships cfg := final_bind_keeps (acquireAndShip_ships h hw)

/-- What `handle_launch_bp_event` does after it has read `MPIR_debug_state` in the context of `t`. -/
theorem launchBody_ships (hstack : w.proc.threadCtxStack = [t]) (hchild : w.proc.newChildPid = none)
    (hw : w.Ships cfg) : (final (launchBody cfg) w).Ships cfg := by
  have hget : (get : EngineM World) w = .ok w w := rfl
  unfold launchBody
  rw [final_bind_ok hget]
  refine final_bind_of (fun bs w₁ hx => ?_) fun e w₁ hx => hw.of_error hx
  obtain ⟨f, w₂, hf, hread⟩ := bind_eq_ok hx
  have hh := World.Halted.of_focus hstack hchild hf
  obtain ⟨-, rfl⟩ := (tracerRead_eq_ok (A := w.acquisition true) hh rfl).mp hx
  dsimp only
  split
  · exact hw.out
  · split
    · exact final_bind_keeps (announceProctable_ships hh hw .stopAtLaunchBpSpawned)
    · exact hw.out

theorem handleLaunchBpEvent_ships (hstack : w.proc.threadCtxStack = [t])
    (hchild : w.proc.newChildPid = none) (hw : w.Ships cfg) :
    (final (handleLaunchBpEvent cfg) w).Ships cfg := by
  unfold handleLaunchBpEvent catchAll
  rw [final_catching]
  refine final_bind_of (fun done w₁ hx => ?_) fun e w₁ hx => hw.of_error hx
  have hw₁ : w₁.Ships cfg := hw.of_ok hx
  have hsteady : Steady cfg w w₁ := Within.of_ok hx
  cases done with
  | true => exact launchBody_ships (hsteady.stack.trans hstack) (hsteady.child.trans hchild) hw₁
  | false => exact hw₁

/-- `continue_on_attach` either continues the launcher or leaves everything as it is. -/
theorem continueOnAttach_false (h : w.Halted t l) (hx : continueOnAttach cfg w = .ok false w') :
    w' = w := by
  have hget : (get : EngineM World) w = .ok w w := rfl
  have hread := @tracerRead_halted cfg _ _ _ h (w.relocatedAddress cfg .proctableSize) 4
  unfold continueOnAttach catchAll catching at hx
  cases hbs : peekBytes w.contextMem (w.relocatedAddress cfg .proctableSize) 4 with
  | none =>
    rw [hbs] at hread
    rw [ok_bind hget, error_bind hread] at hx
    cases hx
    rfl
  | some bs =>
    rw [hbs] at hread
    rw [ok_bind hget, ok_bind hread] at hx
    by_cases hzero : readInt bs = 0
    · rw [if_pos hzero, ok_bind (tracerContinue_focused h.toAt.focused h.lwp h.stopped)] at hx
      cases hx
    · rw [if_neg hzero] at hx
      cases hx
      rfl

theorem attachPlain_ships (h : w.Halted t l) (hw : w.Ships cfg) :
    (final (attachPlain cfg) w).Ships cfg := by
  refine final_bind_of (fun continued w₁ hx => ?_) fun e w₁ hx => hw.of_error hx
  cases continued with
  | true => exact hw.of_ok hx
  | false =>
    obtain rfl : w₁ = w := by
      split at hx
      · exact continueOnAttach_false h hx
      · cases hx
        rfl
    exact final_bind_keeps (announceProctable_ships h hw .stopAtFirstAttach)

instance (im : Image) : Within SameThreads (handleMpirVariables cfg im) := by
  have : ∀ o, Within SameThreads (modifyProc fun p => { p with symAttachFifo := o }) := fun _ =>
    sameThreads_modifyProc (fun _ => rfl) (fun _ => rfl) (fun _ => rfl)
  have : Within SameThreads (handleColocation cfg im) := by unfold handleColocation; infer_instance
  unfold handleMpirVariables; infer_instance

instance : Within SameThreads (checkDependentSOs cfg) := by
  have hproc : ∀ f : Process → Process, (∀ p, (f p).thrlist = p.thrlist) →
      (∀ p, (f p).threadCtxStack = p.threadCtxStack) → (∀ p, (f p).newChildPid = p.newChildPid) →
      Within SameThreads (modifyProc f) := fun _ => sameThreads_modifyProc
  have hvisit : ∀ rmso name, Within SameThreads (visitSo cfg rmso name) := by
    intro rmso name
    cases name <;> unfold visitSo
    case libpthread => exact hproc _ (fun _ => rfl) (fun _ => rfl) (fun _ => rfl)
    case libc => exact hproc _ (fun _ => rfl) (fun _ => rfl) (fun _ => rfl)
    case other => infer_instance
    case launcherSo =>
      cases cfg.rmsoImage with
      | none => unfold initRmso; infer_instance
      | some im =>
        have := hproc (fun p => { p with rmso := some im }) (fun _ => rfl) (fun _ => rfl) (fun _ => rfl)
        unfold initRmso; infer_instance
  unfold checkDependentSOs walkLinkMap; infer_instance

/-- The loader breakpoint is set in the context of a thread that is stopped. -/
theorem registerLoaderBp_halted (hstack : w.proc.threadCtxStack = [t])
    (hchild : w.proc.newChildPid = none) {u : Unit} (hx : registerLoaderBp cfg w = .ok u w') :
    ∃ l, w'.Halted t l := by
  have hsame : SameThreads w w' := Within.of_ok hx
  obtain ⟨u, w₁, hset, hx⟩ := bind_eq_ok hx
  cases hset
  obtain ⟨b, w₂, hb, hx⟩ := bind_eq_ok hx
  cases hb
  have hset : (Bp.setAt (loaderBreakpoint cfg)).status = .set := rfl
  rw [if_pos (Or.inl hset)] at hx
  obtain ⟨orig, w₃, hread, -⟩ := bind_eq_ok hx
  obtain ⟨f, w₄, hf, -⟩ := bind_eq_ok hread
  have hh := World.Halted.of_focus (t := t)
    (w := { w with proc := w.proc.setBp (some (Bp.setAt (loaderBreakpoint cfg))) .loader }) hstack hchild hf
  exact ⟨f.2, hh.same ⟨hsame.lwps, hsame.thrlist, hsame.stack, hsame.child⟩⟩

theorem attachRest_ships (h : w.Halted t l) (hw : w.Ships cfg) :
    (final (attachRest cfg) w).Ships cfg := by
  have hget : (get : EngineM World) w = .ok w w := rfl
  unfold attachRest
  rw [final_bind_ok hget]
  split
  · exact hw.out
  · exact attachPlain_ships h hw

theorem handleTrapAfterAttachEvent_ships (hstack : w.proc.threadCtxStack = [t])
    (hchild : w.proc.newChildPid = none) (hw : w.Ships cfg) :
    (final (handleTrapAfterAttachEvent cfg) w).Ships cfg := by
  unfold handleTrapAfterAttachEvent catchAll
  rw [final_catching]
  refine final_bind_of (fun u₁ w₁ hmpir => ?_) fun e w₁ hx => hw.of_error hx
  have hw₁ : w₁.Ships cfg := hw.of_ok hmpir
  have hsame : SameThreads w w₁ := Within.of_ok hmpir
  split
  · exact hw₁
  · refine final_bind_of (fun u₂ w₂ hloader => ?_) fun e w₂ hx => hw₁.of_error hx
    have hw₂ : w₂.Ships cfg := hw₁.of_ok hloader
    obtain ⟨l, hh⟩ := registerLoaderBp_halted (hsame.stack.trans hstack) (hsame.child.trans hchild)
      hloader
    refine final_bind_of (fun u₃ w₃ hdep => ?_) fun e w₃ hx => hw₂.of_error hx
    have hw₃ : w₃.Ships cfg := hw₂.of_ok hdep
    have hh₃ : w₃.Halted t l := hh.same (Within.of_ok hdep)
    exact final_bind_of (fun u₄ w₄ hset => final_bind_keeps (attachRest_ships
      (hh₃.same (by cases hset; exact ⟨rfl, rfl, rfl, rfl⟩)) (hw₃.of_ok hset))) fun e w₄ hx =>
      hw₃.of_error hx

end Halted

/-! ## Steps and runs -/

/-- An event of a thread that is in the list. -/
theorem handleEvent_ships {w : World} (h : w.Tidy cfg) (hw : w.Ships cfg) {t : LwpId}
    (ht : w.proc.hasThr t = true) (r : Report) : (final (handleEvent cfg t r) w).Ships cfg := by
  unfold handleEvent
  rw [final_bind_ok (makeContext_tidy h t)]
  have hat := h.enter_at ht
  have hw₁ : (w.enter t).Ships cfg := by
    unfold World.Ships
    rw [World.enter_log]
    exact hw
  refine final_bind_of (fun ev w₂ hev => ?_) fun e w₂ hx => hw₁.of_error hx
  have hw₂ : w₂.Ships cfg := hw₁.of_ok hev
  have hsame : SameThreads (w.enter t) w₂ := Within.of_ok hev
  have hstack := hsame.stack.trans hat.stack
  have hchild := hsame.child.trans hat.child
  refine final_bind_keeps ?_
  by_cases hlaunch : ev = .stopAtLaunchBp
  · rw [hlaunch]
    exact handleLaunchBpEvent_ships hstack hchild hw₂
  · by_cases hattach : ev = .stopAtFirstAttach
    · rw [hattach]
      exact handleTrapAfterAttachEvent_ships hstack hchild hw₂
    · exact (within_invokeHandler hlaunch hattach r.signum).out w₂ hw₂

instance : Within (Keeps (World.Ships cfg)) (handleDaemonExitEvent cfg) := by
  unfold handleDaemonExitEvent; infer_instance

instance (t : LwpId) (r : Report) : Within (Keeps (World.Ships cfg)) (handleChild cfg t r) := by
  have : Within (Keeps (World.Ships cfg)) (invokeHandler cfg .stopNewForkedProcess t) :=
    within_invokeHandler (by decide) (by decide) t
  cases r <;> unfold handleChild <;> infer_instance

instance (t : LwpId) (r : Report) : Within (Keeps (World.Ships cfg)) (enterThread cfg t r) := by
  have : Within (Keeps (World.Ships cfg)) (invokeHandler cfg .requestNewThread t) :=
    within_invokeHandler (by decide) (by decide) t
  cases r <;> unfold enterThread <;> infer_instance

instance (m : FeInput) : Within (Keeps (World.Ships cfg)) (handleIncomingSocketEvent cfg m) := by
  cases m with
  | msg m => cases m <;> unfold handleIncomingSocketEvent requestKill requestContLaunchBp contHeld <;>
      infer_instance
  | _ => unfold handleIncomingSocketEvent; infer_instance

theorem pollEvent_ships {w : World} (h : w.Tidy cfg) (hw : w.Ships cfg) (t : LwpId) (en : Entity)
    (r : Report) : (final (pollEvent cfg t en r) w).Ships cfg := by
  have hget : ∀ w : World, (get : EngineM World) w = .ok w w := fun _ => rfl
  unfold pollEvent
  rw [final_bind_ok (hget w)]
  cases en with
  | process =>
    by_cases ht : t = cfg.pid
    · subst ht
      rw [if_pos rfl]
      exact handleEvent_ships h hw h.pid r
    · rw [if_neg ht]
      by_cases htool : some t = w.lmon.toollauncherpid
      · rw [if_pos htool]
        cases r with
        | stopped signum event => exact hw
        | exited => exact hw.out
        | terminated => exact hw.out
      · rw [if_neg htool]
        exact hw.out
  | thread =>
    dsimp only
    obtain ⟨w₁, hrun, htidy⟩ : ∃ w₁, enterThread cfg t r w = .ok .ok w₁ ∧ w₁.Tidy cfg := by
      refine ⟨_, enterThread_run w t r, ?_⟩
      cases r with
      | stopped signum event => exact h.enlist t
      | exited => exact h
      | terminated => exact h
    rw [final_bind_ok hrun, final_bind_ok (hget _)]
    by_cases hthr : w₁.proc.hasThr t = true
    · rw [if_pos hthr]
      exact handleEvent_ships htidy (hw.of_ok hrun) hthr r
    · rw [if_neg hthr]
      exact hw.of_ok hrun

theorem Sys.step_ships {s s' : Sys} {a : Label} (h : s.w.Tidy cfg) (hw : s.w.Ships cfg)
    (hs : s.step cfg a = some s') : s'.w.Ships cfg := by
  cases a with
  | env a =>
    obtain ⟨-, T, -, rfl⟩ := Sys.step_env hs
    exact hw
  | poll t =>
    obtain ⟨-, l, r, -, -, -, -, rfl⟩ := Sys.step_poll hs
    rw [Sys.run_w]
    exact pollEvent_ships (w := s.w.reap t l) ⟨h.stack, h.child, h.pid⟩ hw t l.entity r
  | pollTool killed =>
    obtain ⟨-, t, -, rfl⟩ := Sys.step_pollTool hs
    rw [Sys.run_w]
    exact pollEvent_ships h hw t .process _
  | idle =>
    obtain ⟨-, rfl⟩ := Sys.step_idle hs
    exact hw
  | fe m =>
    obtain ⟨-, rfl⟩ := Sys.step_fe hs
    rw [Sys.run_w]
    exact hw.out
  | signal =>
    obtain ⟨-, hw', -⟩ := Sys.step_signal hs
    rw [hw']
    exact hw.out

theorem Run.ships {G : Sys → Label → Prop} {s₀ s : Sys} (h₀ : Initial cfg s₀) (h : Run cfg G s₀ s) :
    s.w.Ships cfg := by
  induction h with
  | refl =>
    obtain ⟨T, -, rfl⟩ := h₀
    intro n hn
    cases hn
  | step h ha hs ih => exact Sys.step_ships (Run.kin h₀ h (Sys.step_alive hs)).1 ih hs

/-- **Every process table message of a run is well formed exactly if its acquisition was sound.** -/
theorem proctab_wellFormed {s₀ s : Sys} (h₀ : Initial cfg s₀) (h : Run cfg (fun _ _ => True) s₀ s)
    {acq : Option Acquisition} {tab : Proctable} {pcount : Int32} {m : Shipment}
    (hm : .shippedProctab acq tab pcount m ∈ s.w.log) :
    ∃ A, acq = some A ∧ (WellFormed A tab pcount m ↔ A.Sound cfg) := h.ships h₀ _ hm

/-- `sample`, to which the engine attaches. -/
def attachedSample : Config := { sample with attach := true }

/-- What is told of a message: the result of its acquisition, its rows and its count, the tasks in its
    header, the bytes that were allocated, and the bytes it has and announces. -/
def Note.observed : Note → Option (Option Bool × Nat × Int × Nat × Int × Nat × Nat × Nat)
  | .shippedProctab acq tab pcount m => some (acq.map Acquisition.ok, (rows tab).length, pcount.toInt,
      ntasks m.msg.hdr, m.msgsize.toInt, m.msg.payload.length, m.msg.hdr.lmonPayloadLength.toNat,
      tableLen (strTab tab).orderedEHName)
  | _ => none

/-- The memory of a launcher with one task. -/
def oneTask : List UInt8 :=
  List.replicate 16 0 ++ [0x40, 0x20, 0, 0, 0, 0, 0, 0] ++ [1] ++ List.replicate 39 0 ++
    [0x80, 0x20, 0, 0, 0, 0, 0, 0] ++ [0x88, 0x20, 0, 0, 0, 0, 0, 0] ++ [5] ++ List.replicate 47 0 ++
    [110, 0, 0, 0, 0, 0, 0, 0] ++ [97]

/-- The memory of a launcher that says it has -1 tasks. -/
def noTask : List UInt8 := List.replicate 24 0 ++ [0xff, 0xff, 0xff, 0xff]

theorem attachedSample_launched (pc : VA) (data : List UInt8) :
    Launched attachedSample (sampleTarget pc data) :=
  ⟨(sample_launched pc data).lwps_eq, (sample_launched pc data).mem_eq⟩

/-- What has been told of the only message of a run. -/
theorem exists_shipped {data : List UInt8} {ok : Bool} {k n : Nat} {count size : Int} {p q b : Nat}
    (hrun : ((Sys.start attachedSample (sampleTarget 0x1010 data)).runAll attachedSample [.poll 100]).map
      (fun s => s.w.log.filterMap Note.observed) = some [(some ok, k, count, n, size, p, q, b)]) :
    ∃ s A tab pcount m,
      (Sys.start attachedSample (sampleTarget 0x1010 data)).runAll attachedSample [.poll 100] = some s ∧
      .shippedProctab (some A) tab pcount m ∈ s.w.log ∧ A.ok = ok ∧ (rows tab).length = k ∧
      pcount.toInt = count ∧ ntasks m.msg.hdr = n ∧ m.msgsize.toInt = size ∧
      m.msg.payload.length = p ∧ m.msg.hdr.lmonPayloadLength.toNat = q ∧
      tableLen (strTab tab).orderedEHName = b := by
  obtain ⟨s, hs, hobs⟩ := Option.map_eq_some_iff.mp hrun
  obtain ⟨note, hnote, hobs⟩ := List.mem_filterMap.mp (hobs ▸ List.mem_singleton_self _)
  cases note with
  | shippedProctab acq tab pcount m =>
    obtain ⟨hacq, rfl, rfl, rfl, rfl, rfl, rfl, rfl⟩ := by simpa [Note.observed] using hobs
    obtain ⟨A, rfl, hok⟩ := hacq
    exact ⟨s, A, tab, pcount, m, hs, hnote, hok, rfl, rfl, rfl, rfl, rfl, rfl, rfl⟩
  | _ => cases hobs

/-- A launcher with one task: its acquisition is sound. -/
theorem proctab_wellFormed_oneTask : ∃ s A tab pcount m,
    (Sys.start attachedSample (sampleTarget 0x1010 oneTask)).runAll attachedSample [.poll 100] = some s ∧
    .shippedProctab (some A) tab pcount m ∈ s.w.log ∧ (rows tab).length = 1 ∧
    WellFormed A tab pcount m ∧ A.Sound attachedSample := by
  have hrun : ((Sys.start attachedSample (sampleTarget 0x1010 oneTask)).runAll attachedSample
      [.poll 100]).map (fun s => s.w.log.filterMap Note.observed) =
        some [(some true, 1, 1, 1, 52, 24, 24, 4)] := by decide +kernel
  obtain ⟨s, A, tab, pcount, m, hs, hm, hok, hrows, hcount, hntasks, hsize, hpayload, hlen, hnames⟩ :=
    exists_shipped hrun
  have hwf : WellFormed A tab pcount m :=
    ⟨hok, by rw [hrows, hcount]; rfl, by rw [hntasks, hrows], by rw [hsize, hpayload]; rfl,
      by rw [hlen, hrows, hnames]⟩
  obtain ⟨A', hA, hiff⟩ :=
    proctab_wellFormed ⟨_, attachedSample_launched _ _, rfl⟩ (Run.of_runAll _ hs) hm
  cases hA
  exact ⟨s, A, tab, pcount, m, hs, hm, hrows, hwf, hiff.mp hwf⟩

/-- The launcher says that it has -1 tasks.  The acquisition fails, and a message that announces them
    is shipped, from eight bytes of memory. -/
theorem proctab_wellFormed_counterexample : ∃ s A tab pcount m,
    (Sys.start attachedSample (sampleTarget 0x1010 noTask)).runAll attachedSample [.poll 100] = some s ∧
    .shippedProctab (some A) tab pcount m ∈ s.w.log ∧ A.ok = false ∧ pcount.toInt = -1 ∧
    rows tab = [] ∧ m.msgsize.toInt = 8 ∧ ¬WellFormed A tab pcount m := by
  have hrun : ((Sys.start attachedSample (sampleTarget 0x1010 noTask)).runAll attachedSample
      [.poll 100]).map (fun s => s.w.log.filterMap Note.observed) =
        some [(some false, 0, -1, 0, 8, 0, 4294967276, 0)] := by decide +kernel
  obtain ⟨s, A, tab, pcount, m, hs, hm, hok, hrows, hcount, -, hsize, -⟩ :=
    exists_shipped hrun
  refine ⟨s, A, tab, pcount, m, hs, hm, hok, hcount, List.length_eq_zero_iff.mp hrows, hsize, ?_⟩
  intro hwf
  exact absurd (hok.symm.trans hwf.acquired) (by decide)

end LaunchMON.Engine
