/-
  The id of the job, from the configuration of the resource manager to the caller of the front-end API.

  1. **The configuration** says where the id is: `RM_jobid=RM_launcher|sym|NAME|TYPE`.  `fill_id` takes
     this apart, and `acquire_proctable` asks for the outcome (`ridSource`).

  2. **The memory** — what it means that the launcher holds a number at the symbol, for each type
     (`HoldsJobId`), and which strings are decimal numbers.

  3. **The way to the front end**: the engine ships what it has in `resid`, the watchdog stores it in the
     descriptor, and `LMON_fe_getResourceHandle` prints it.

  4. **What is shown** (`jobIdShown_iff`).  An `int64` is parsed as a type of its own, and no branch of
     `acquire_proctable` reads it; so nothing is shown, or what has been there before.  Of a string
     `strtol` reads the front, and nobody looks where it has stopped: a string that is no number is shown
     as the number in front of it, or as 0.
-/
import LaunchMON.Engine.RmConfig
import LaunchMON.Engine.Shipping
import LaunchMON.Frontend.Handles

namespace LaunchMON.Engine.JobId

open CBytes CText Effect Lmonp RmConfig Frontend Frontend.Handles

/-! ## The configuration -/

/-- The types of a job id, with the two names of one of them. -/
inductive JobType
  | string
  | int32
  | integer
  | int64
  deriving DecidableEq

def JobType.text : JobType → Str
  | .string => "string".toList
  | .int32 => "int32".toList
  | .integer => "integer".toList
  | .int64 => "int64".toList

/-- The value of `RM_jobid` that names a symbol of the launcher. -/
def jobidValue (name : Str) (ty : JobType) : Str := "RM_launcher|sym|".toList ++ name ++ '|' :: ty.text

/-- `is_rid_sup`, `is_rid_via_symbol`, `is_rid_via_pid` and the `dtype`, as `acquire_proctable` asks for
    them. -/
def ridSource (id : RmId) : RidSource :=
  if id.from' = .fromUnknownSource then .unsupported
  else match id.method with
    | .symbol => match id.dtype with
      | .cstring => .cstring
      | .integer32 => .integer32
      | .integer64 | .unknownType => .otherType
    | .pid => .viaPid
    | .unknownMethod => .nowhere

/-- The sources of the four types. -/
def JobType.source : JobType → RidSource
  | .string => .cstring
  | .int32 | .integer => .integer32
  | .int64 => .otherType

/-! ## The memory -/

/-- A decimal number: blanks, perhaps a sign, and digits up to the end. -/
def IsDecimal (bs : List UInt8) (v : Int) : Prop :=
  ∃ blanks ds, (∀ b ∈ blanks, b = 32 ∨ 9 ≤ b ∧ b ≤ 13) ∧ ds ≠ [] ∧ (∀ b ∈ ds, 48 ≤ b ∧ b ≤ 57) ∧
    (bs = blanks ++ ds ∧ v = digits ds ∨ bs = blanks ++ 43 :: ds ∧ v = digits ds ∨
      bs = blanks ++ 45 :: ds ∧ v = -digits ds)

section Held

variable (cfg : Config) (A : Acquisition)

/-- The string that the launcher holds at the symbol of the job id. -/
def HoldsString (s : CString) : Prop :=
  ∃ loc, peek A.mem (A.address cfg .jobId) = some loc ∧ A.stringAt (wordVA loc) = some s

/-- The launcher holds a number at the symbol of the job id. -/
def HoldsJobId : JobType → ℕ → Prop
  | .string, v => ∃ s, HoldsString cfg A s ∧ IsDecimal s.bytes v
  | .int32, v | .integer, v =>
    ∃ bs, peekBytes A.mem (A.address cfg .jobId) 4 = some bs ∧ (readInt bs).toInt = v
  | .int64, v => ∃ bs, peekBytes A.mem (A.address cfg .jobId) 8 = some bs ∧
      (((readLe64 bs).getD 0).toInt64).toInt = v

end Held

/-! ## The way to the front end -/

/-- `ship_resourcehandle_msg`. -/
def shipResourcehandleMsg (rid : Int64) : Msg :=
  ⟨setMsgHeader .fetofe FeToFeMsg.resourcehandleAvail.ctorIdx 0 0 0 0 0 8 0, le64 rid.toUInt64⟩

/-- `LMON_handle_resourcehandle_event`, with the header that has been read and the bytes behind it. -/
def lmonHandleResourcehandleEvent (hdr : Header) (rest : List UInt8) (mydesc : Elem) : Int × Elem :=
  if hdr.lmonPayloadLength + hdr.usrPayloadLength ≠ 8 then (-1, mydesc)
  else match readLe64 rest with
    | none => (-1, mydesc)
    | some rid => (0, { mydesc with resourceHandle := rid.toInt64.toInt })

/-- The descriptor behind the message with a resource handle. -/
def handled (rid : Int) (mydesc : Elem) : Elem :=
  let msg := shipResourcehandleMsg (Int64.ofInt rid)
  (lmonHandleResourcehandleEvent msg.hdr msg.payload mydesc).2

/-- What `LMON_fe_getResourceHandle` says for a handle, when the message has arrived. -/
def shown (h : Int) (s : Sess) (rid maxstring : Int) : EStateM.Result Exit Sess (LmonRc × Str × Int) :=
  lmonFeGetResourceHandle h maxstring { s with elem := Function.update s.elem h (handled rid (s.elem h)) }

/-- The engine acquires the process table in the context of a thread that is stopped, with success, and
    ships it and a resource handle. -/
structure Announces (cfg : Config) (w w' : World) (rid : Int) : Prop where
  halted : ∃ t l, w.Halted t l
  run : (do acquireAndShip cfg; shipResourcehandle cfg : EngineM Unit) w = .ok () w'
  acquired : w'.lmon.acquisition.map Acquisition.ok = some true
  shipped : w'.log.getLast? = some (.shippedResourcehandle rid)

/-- The id of the job is shown as it is held, and none is made up. -/
structure JobIdShown (cfg : Config) (A : Acquisition) (ty : JobType)
    (said : Int → EStateM.Result Exit Sess (LmonRc × Str × Int)) : Prop where
  value : ∀ v : ℕ, HoldsJobId cfg A ty v → ∀ maxstring : Int, 0 ≤ maxstring →
    ∃ s, said maxstring = .ok (.ok, (decimal v).take maxstring.toNat,
      min ((decimal v).length + 1 : Int) maxstring) s
  noValue : ty = .string → ∀ str, HoldsString cfg A str → (∀ v, ¬IsDecimal str.bytes v) →
    ∀ maxstring : Int, 0 ≤ maxstring → ∀ r s, said maxstring = .ok r s → r.1 ≠ .ok

/-- The id can be read: a string is a number; of an `int64`, there is none, or it is what the engine has
    before (-1 at its start). -/
def Readable (cfg : Config) (A : Acquisition) (left : Int) : JobType → Prop
  | .string => ∀ s, HoldsString cfg A s → ∃ v, IsDecimal s.bytes v
  | .int32 | .integer => True
  | .int64 => ∀ v : ℕ, HoldsJobId cfg A .int64 v → (Int64.ofInt left).toInt = v

/-! ## What the configuration comes to -/

/-- A part from `ix` on, up to the next bar. -/
theorem next_part (ix : ℕ) (front : Str) {part rest v : Str} (hv : v = front ++ (part ++ '|' :: rest))
    (hpart : '|' ∉ part) (hix : ix = front.length) :
    findFirstOf '|' v ix = some (ix + part.length) ∧ substr v ix (some part.length) = part ∧
      substr v (ix + part.length + 1) none = rest := by
  subst hv hix
  refine ⟨findFirstOf_append hpart front rest, ?_, ?_⟩
  · show ((front ++ (part ++ '|' :: rest)).drop front.length).take part.length = part
    rw [List.drop_left, List.take_left]
  · show (front ++ (part ++ '|' :: rest)).drop (front.length + part.length + 1) = rest
    simp [Nat.add_assoc]

/-- Three bars make four parts. -/
theorem idParts_eq {key method id dt v : Str}
    (hv : v = key ++ '|' :: (method ++ '|' :: (id ++ '|' :: dt)))
    (hkey : '|' ∉ key) (hmethod : '|' ∉ method) (hid : '|' ∉ id) :
    Rm.idParts v = (key, method, id, dt) := by
  have hv2 : v = (key ++ ['|']) ++ (method ++ '|' :: (id ++ '|' :: dt)) := by simp [hv]
  have hv3 : v = (key ++ '|' :: (method ++ ['|'])) ++ (id ++ '|' :: dt) := by simp [hv]
  obtain ⟨h1, hkey', -⟩ := next_part 0 [] hv hkey rfl
  obtain ⟨h2, hmethod', -⟩ := next_part (key.length + 1) _ hv2 hmethod (by simp)
  obtain ⟨h3, hid', hdt⟩ := next_part (key.length + 1 + method.length + 1) _ hv3 hid (by simp; omega)
  rw [Nat.zero_add] at h1
  unfold Rm.idParts
  rw [h1]
  dsimp only
  rw [h2]
  dsimp only
  rw [h3]
  dsimp only
  rw [Nat.add_sub_cancel_left, Nat.add_sub_cancel_left, hkey', hmethod', hid', hdt]

/-- The id that `fill_id` makes of the value. -/
theorem fillId_jobidValue {name : Str} (hname : '|' ∉ name) (ty : JobType) :
    Rm.fillId .new (jobidValue name ty) =
      ⟨.fromLauncher, .symbol, Rm.dtypeOf ty.text, .symbolName (some name)⟩ := by
  have hfront : "RM_launcher|sym|".toList = "RM_launcher".toList ++ '|' :: ("sym".toList ++ ['|']) := by
    decide +kernel
  have hassoc : ∀ a b c d : Str,
      a ++ '|' :: (b ++ ['|']) ++ c ++ '|' :: d = a ++ '|' :: (b ++ '|' :: (c ++ '|' :: d)) := by
    intro a b c d
    simp
  have hv : jobidValue name ty =
      "RM_launcher".toList ++ '|' :: ("sym".toList ++ '|' :: (name ++ '|' :: ty.text)) := by
    unfold jobidValue
    rw [hfront]
    exact hassoc _ _ _ _
  have hparts : Rm.idParts (jobidValue name ty) = ("RM_launcher".toList, "sym".toList, name, ty.text) :=
    idParts_eq hv (by decide +kernel) (by decide +kernel) hname
  unfold Rm.fillId
  rw [hparts]
  dsimp only
  rw [if_pos rfl, if_pos rfl]

section Preserve

variable {m : KeyValues} {key : String} (rm : Rm)

/-- The other keys do not change the id of the job. -/
theorem firstOf_jobId {f : Rm → Str → Rm} (h : ∀ rm v, (f rm v).jobId = rm.jobId) :
    (firstOf m key f rm).jobId = rm.jobId := by
  unfold firstOf
  cases m key.toList with
  | none => rfl
  | some vs => exact h rm _

theorem allOf_jobId {f : Rm → List Str → Rm} (h : ∀ rm vs, (f rm vs).jobId = rm.jobId) :
    (allOf m key f rm).jobId = rm.jobId := by
  unfold allOf
  cases m key.toList with
  | none => rfl
  | some vs => exact h rm _

end Preserve

/-- Nor do the signals. -/
theorem fillKillSingals_jobId {rm rm' : Rm} {v : Str} (h : rm.fillKillSingals v = some rm') :
    rm'.jobId = rm.jobId := by
  obtain ⟨r, -, rfl⟩ := Option.map_eq_some_iff.mp h
  rfl

/-- The id of the job is made of the first value of `RM_jobid`. -/
theorem jobId_ofValues (env : Env) {vals : Str → List Str} {v : Str} {vs : List Str}
    (hv : vals "RM_jobid".toList = v :: vs) : (Rm.ofValues env vals).jobId = Rm.fillId .new v := by
  have hrun := fillRm_eq env vals
  have hkey : keyValuesOf vals "RM_jobid".toList = some (v :: vs) := by
    rw [keyValuesOf, hv, if_neg (List.cons_ne_nil v vs)]
  unfold fillRm at hrun
  obtain ⟨rm, hkill, hrun⟩ := Option.bind_eq_some_iff.mp hrun
  have hhelper : ∀ (rm : Rm) v, (rm.fillLaunchHelper env v).jobId = rm.jobId := by
    intro rm v
    unfold Rm.fillLaunchHelper
    split <;> rfl
  -- what is filled after the signals leaves the job id alone
  have hafter : (Rm.ofValues env vals).jobId = rm.jobId := by
    rw [← Option.some.inj hrun, firstOf_jobId (f := Rm.fillLaunchString) _ fun _ _ => rfl,
      firstOf_jobId _ hhelper, firstOf_jobId (f := Rm.fillFailDetection) _ fun _ _ => rfl]
  have hbefore : ∀ rm₀ : Rm, rm₀.jobId = .new →
      (firstOf (keyValuesOf vals) "RM_jobid" Rm.fillJobId rm₀).jobId = Rm.fillId .new v := by
    intro rm₀ hnew
    rw [firstOf, hkey, Option.elim_some, Rm.fillJobId, hnew]
    rfl
  have hlaunchers : ∀ (rm : Rm) vs, (rm.fillLaunchers vs).jobId = rm.jobId := by
    intro rm vs
    unfold Rm.fillLaunchers
    split <;> rfl
  -- so do the five keys before `RM_jobid`, and the field is still new there
  have hmid : (firstOf (keyValuesOf vals) "RM_jobid" Rm.fillJobId
      (firstOf (keyValuesOf vals) "RM_launcher_so" Rm.fillLauncherSo
        (allOf (keyValuesOf vals) "RM_launcher_id" Rm.fillLauncherId
          (allOf (keyValuesOf vals) "RM_launcher" Rm.fillLaunchers
            (firstOf (keyValuesOf vals) "RM_MPIR" Rm.fillMpirType
              (firstOf (keyValuesOf vals) "RM" Rm.fillRmType .new)))))).jobId = Rm.fillId .new v := by
    refine hbefore _ ?_
    rw [firstOf_jobId (f := Rm.fillLauncherSo) _ fun _ _ => rfl,
      allOf_jobId (f := Rm.fillLauncherId) _ fun _ _ => rfl, allOf_jobId _ hlaunchers,
      firstOf_jobId (f := Rm.fillMpirType) _ fun _ _ => rfl,
      firstOf_jobId (f := Rm.fillRmType) _ fun _ _ => rfl]
    rfl
  rw [hafter]
  cases hsig : keyValuesOf vals "RM_signal_for_kill".toList with
  | none =>
    rw [hsig] at hkill
    cases hkill
    exact hmid
  | some vs =>
    rw [hsig] at hkill
    rw [fillKillSingals_jobId hkill]
    exact hmid

/-- Where the engine looks for the id. -/
theorem ridSource_jobid (env : Env) {vals : Str → List Str} {name : Str} {ty : JobType} {vs : List Str}
    (hv : vals "RM_jobid".toList = jobidValue name ty :: vs) (hname : '|' ∉ name) :
    ridSource (Rm.ofValues env vals).jobId = ty.source := by
  rw [jobId_ofValues env hv, fillId_jobidValue hname]
  cases ty <;> rfl

/-! ## Numbers in strings -/

/-- A number as `strtol` gives it. -/
def clampLong (v : Int) : Int := max (min v longMax) (-longMax - 1)

theorem digits_nonneg (bs : List UInt8) : (0 : Int) ≤ digits bs := Int.natCast_nonneg _

/-- `strtol` reads a decimal number. -/
theorem strtol_of_isDecimal {s : CString} {v : Int} (h : IsDecimal s.bytes v) :
    strtol s = clampLong v := by
  obtain ⟨blanks, ds, hblanks, hne, hds, hform⟩ := h
  have hmax : 0 ≤ longMax := by decide
  have hdrop : ∀ d rest, ¬(d = 32 ∨ 9 ≤ d ∧ d ≤ 13) →
      (blanks ++ d :: rest).dropWhile (fun b => b = 32 ∨ 9 ≤ b ∧ b ≤ 13) = d :: rest := by
    intro d rest hd
    rw [List.dropWhile_append_of_pos fun b hb => decide_eq_true (hblanks b hb)]
    exact List.dropWhile_cons_of_neg (by simpa using hd)
  have hpos := digits_nonneg ds
  unfold strtol clampLong
  -- no sign, a plus, a minus
  rcases hform with ⟨hs, rfl⟩ | ⟨hs, rfl⟩ | ⟨hs, rfl⟩
  · obtain ⟨d, ds, rfl⟩ := List.exists_cons_of_ne_nil hne
    obtain ⟨hd0, -⟩ := hds d List.mem_cons_self
    have hother : ∀ c : UInt8, c < 48 → d ≠ c := by
      rintro c hc rfl
      exact absurd hd0 (UInt8.not_le.mpr hc)
    have hnd : ¬(d = 32 ∨ 9 ≤ d ∧ d ≤ 13) := by
      rintro (h | ⟨-, h⟩)
      · exact hother 32 (by decide) h
      · exact absurd (UInt8.le_trans hd0 h) (by decide)
    rw [hs, hdrop d ds hnd]
    split
    · next heq => exact absurd (List.cons.inj heq).1 (hother 45 (by decide))
    · next heq => exact absurd (List.cons.inj heq).1 (hother 43 (by decide))
    · omega
  · rw [hs, hdrop 43 ds (by decide)]
    show min (digits ds : Int) longMax = _
    omega
  · rw [hs, hdrop 45 ds (by decide)]
    show max (-(digits ds : Int)) (-longMax - 1) = _
    omega

/-! ## The message -/

theorem handled_resourceHandle (rid : Int) (mydesc : Elem) :
    handled rid mydesc = { mydesc with resourceHandle := (Int64.ofInt rid).toInt } := by
  have hread : readLe64 (le64 (Int64.ofInt rid).toUInt64) = some (Int64.ofInt rid).toUInt64 := by
    simpa using readLe64_append (Int64.ofInt rid).toUInt64 []
  unfold handled lmonHandleResourcehandleEvent shipResourcehandleMsg
  dsimp only
  rw [hread]
  rfl

/-- What has been announced is what `acquire_proctable` has read. -/
theorem Announces.residIs {cfg : Config} {w w' : World} {rid : Int} (h : Announces cfg w w' rid)
    (hapi : cfg.apiMode = true) : (w.acquisition true).ResidIs cfg w.lmon.resid cfg.rid rid := by
  obtain ⟨t, l, hh⟩ := h.halted
  obtain ⟨u, w₂, hship, hres⟩ := bind_eq_ok h.run
  obtain ⟨u, w₁, hacq, hproc⟩ := bind_eq_ok hship
  obtain ⟨ok, w₀, hbody, rfl⟩ := acquireProctable_eq_ok hacq
  -- Neither message changes what has been acquired.
  have hlmon : ∀ {w w' : World} {u : Unit}, shipProctab cfg w = .ok u w' → w'.lmon = w.lmon := by
    intro w w' u hx
    unfold shipProctab at hx
    obtain ⟨v, w₁, hget, hx⟩ := bind_eq_ok hx
    cases hget
    cases hs : shipProctabMsg cfg.apiMode w.lmon.proctableCopy w.lmon.pcount .proctableAvail with
    | none =>
      rw [hs] at hx
      cases hx
      rfl
    | some m =>
      rw [hs] at hx
      cases hx
      rfl
  have hnote : w' = { w₂ with log := w₂.log ++ [.shippedResourcehandle w₂.lmon.resid] } := by
    unfold shipResourcehandle at hres
    rw [hapi] at hres
    cases hres
    rfl
  have hlog := h.shipped
  have hacquired := h.acquired
  rw [hnote] at hlog hacquired
  rw [List.getLast?_concat] at hlog
  cases hlog
  rw [hlmon hproc] at hacquired ⊢
  obtain rfl : ok = true := Option.some.inj hacquired
  obtain ⟨es, -, -, -, hid⟩ := acquireBody_true hh true hbody
  exact hid

/-! ## What is shown -/

theorem percentD_natCast (v : ℕ) : percentD v = decimal v := by
  rw [percentD, if_neg (by omega), Int.natAbs_natCast]

/-- The handle of a session whose daemons have been spawned. -/
structure Ready (h : Int) (s : Sess) : Prop where
  handle : Handle h
  registered : (s.elem h).registered = true
  spawned : (s.elem h).spawned = true

section Shown

variable {h : Int} {s : Sess} {rid maxstring : Int}

theorem element_ok {α : Type} {x : ElemM α} {a : α} {e : Elem} (hx : x (s.elem h) = .ok a e) :
    element h x s = .ok a ⟨Function.update s.elem h e, s.accessed ++ [h]⟩ := by
  rw [element, hx]

theorem element_error {α : Type} {x : ElemM α} {x' : Exit} {e : Elem} (hx : x (s.elem h) = .error x' e) :
    element h x s = .error x' ⟨Function.update s.elem h e, s.accessed ++ [h]⟩ := by
  rw [element, hx]

theorem returnIf_false (rc : LmonRc) (e : Elem) : (returnIf false rc : ElemM Unit) e = .ok () e := rfl

theorem returnIf_true (rc : LmonRc) (e : Elem) : (returnIf true rc : ElemM Unit) e = .error (.ret rc) e :=
  rfl

/-- Up to the test of the resource handle. -/
theorem shown_eq (hs : Ready h s) (hmax : 0 ≤ maxstring) : shown h s rid maxstring = element h (do
    returnIf (decide ((Int64.ofInt rid).toInt = lmonInit)) .edunav
    return (.ok, (percentD (Int64.ofInt rid).toInt).take maxstring.toNat,
      min ((percentD (Int64.ofInt rid).toInt).length + 1 : Int) maxstring))
    { s with elem := Function.update s.elem h (handled rid (s.elem h)) } := by
  have hget : ∀ e : Elem, (get : ElemM Elem) e = .ok e e := fun _ => rfl
  have hmin : ∀ len : Int, (if len > maxstring then maxstring else len) = min len maxstring := by
    intro len
    split <;> omega
  -- the resource handle's arrival changes none of the session's flags
  have hreg : (handled rid (s.elem h)).registered = true := by
    rw [handled_resourceHandle]
    exact hs.registered
  have hsp : (handled rid (s.elem h)).spawned = true := by
    rw [handled_resourceHandle]
    exact hs.spawned
  have hres : (handled rid (s.elem h)).resourceHandle = (Int64.ofInt rid).toInt := by
    rw [handled_resourceHandle]
  unfold shown lmonFeGetResourceHandle
  rw [decide_eq_false (show ¬maxstring < 0 by omega),
    api_good ⟨hs.handle.1, Int.le_of_lt hs.handle.2⟩ rfl]
  unfold element
  dsimp only
  rw [Function.update_self, ok_bind (hget _), hreg, Bool.not_true, ok_bind (returnIf_false _ _), hsp,
    Bool.not_true, ok_bind (returnIf_false _ _), hres, hmin]

/-- A resource handle is printed. -/
theorem shown_ok (hs : Ready h s) (hmax : 0 ≤ maxstring) (hrid : (Int64.ofInt rid).toInt ≠ lmonInit) :
    ∃ s', shown h s rid maxstring = .ok (.ok, (percentD (Int64.ofInt rid).toInt).take maxstring.toNat,
      min ((percentD (Int64.ofInt rid).toInt).length + 1 : Int) maxstring) s' := by
  rw [shown_eq hs hmax, decide_eq_false hrid]
  exact ⟨_, element_ok (ok_bind (returnIf_false _ _))⟩

/-- The one that is there from the start is not. -/
theorem shown_none (hs : Ready h s) (hmax : 0 ≤ maxstring) (hrid : (Int64.ofInt rid).toInt = lmonInit) :
    ∃ s', shown h s rid maxstring = .error (.ret .edunav) s' := by
  rw [shown_eq hs hmax, decide_eq_true hrid]
  exact ⟨_, element_error (error_bind (returnIf_true _ _))⟩

theorem shown_natCast (hs : Ready h s) (hmax : 0 ≤ maxstring) {v : ℕ} (hv : (Int64.ofInt rid).toInt = v) :
    ∃ s', shown h s rid maxstring = .ok (.ok, (decimal v).take maxstring.toNat,
      min ((decimal v).length + 1 : Int) maxstring) s' := by
  have hne : (Int64.ofInt rid).toInt ≠ lmonInit := by
    unfold lmonInit
    omega
  obtain ⟨s', h⟩ := shown_ok hs hmax hne
  rw [hv, percentD_natCast] at h
  exact ⟨s', h⟩

/-- Only one number is shown as its digits. -/
theorem eq_of_shown (hs : Ready h s) {v : ℕ} (hsaid : ∀ maxstring : Int, 0 ≤ maxstring →
    ∃ s', shown h s rid maxstring = .ok (.ok, (decimal v).take maxstring.toNat,
      min ((decimal v).length + 1 : Int) maxstring) s') : (Int64.ofInt rid).toInt = v := by
  let n := max (decimal v).length (percentD (Int64.ofInt rid).toInt).length
  obtain ⟨s₁, h₁⟩ := hsaid n (Int.natCast_nonneg n)
  by_cases hrid : (Int64.ofInt rid).toInt = lmonInit
  · obtain ⟨s₂, h₂⟩ := shown_none hs (Int.natCast_nonneg n) hrid
    cases h₁.symm.trans h₂
  · obtain ⟨s₂, h₂⟩ := shown_ok hs (Int.natCast_nonneg n) hrid
    have hsame := (EStateM.Result.ok.inj (h₂.symm.trans h₁)).1
    have htake := congrArg (fun r : LmonRc × Str × Int => r.2.1) hsame
    change (percentD _).take n = (decimal v).take n at htake
    rw [List.take_of_length_le (le_max_right _ _), List.take_of_length_le (le_max_left _ _)] at htake
    rw [← atoi_percentD (Int64.ofInt rid).toInt, htake, atoi_decimal]

end Shown

/-! ## The id of the job -/

section JobId

variable {cfg : Config} {A : Acquisition} {left rid h : Int} {s : Sess}

theorem HoldsString.unique {str str' : CString} (hs : HoldsString cfg A str)
    (hs' : HoldsString cfg A str') : str' = str := by
  obtain ⟨loc, hloc, hs⟩ := hs
  obtain ⟨loc', hloc', hs'⟩ := hs'
  cases hloc.symm.trans hloc'
  exact Option.some.inj (hs'.symm.trans hs)

theorem toInt_ofInt {v : Int} (h0 : 0 ≤ v) (hlt : v < longMax) : (Int64.ofInt v).toInt = v := by
  refine Int64.toInt_ofInt_of_le ?_ ?_
  · omega
  · unfold longMax at hlt
    omega

/-- A string is shown right exactly if it is a number. -/
theorem string_shown_iff (hid : A.ResidIs cfg left .cstring rid) (hs : Ready h s) :
    JobIdShown cfg A .string (shown h s rid) ↔ Readable cfg A left .string := by
  obtain ⟨loc, str, hloc, hstr, hrange, rfl⟩ := hid
  have hheld : HoldsString cfg A str := ⟨loc, hloc, hstr⟩
  have hrid : (Int64.ofInt (strtol str)).toInt = strtol str := toInt_ofInt (by omega) (by omega)
  constructor
  -- a text that is no number still becomes some value, and the call then succeeds with it
  · intro hshown str' hheld'
    cases hheld.unique hheld'
    by_contra hno
    obtain ⟨s', hsaid⟩ := @shown_ok h s (strtol str) 0 hs (le_refl _) (by
      rw [hrid]
      unfold lmonInit
      omega)
    exact hshown.noValue rfl str hheld (fun v hv => hno ⟨v, hv⟩) 0 (le_refl _) _ _ hsaid rfl
  · intro hread
    refine ⟨?_, ?_⟩
    · rintro v ⟨str', hheld', hv⟩ maxstring hmax
      cases hheld.unique hheld'
      have hclamp := strtol_of_isDecimal hv
      refine shown_natCast hs hmax (hrid.trans ?_)
      unfold clampLong at hclamp
      omega
    · intro _ str' hheld' hno
      obtain ⟨v, hv⟩ := hread str' hheld'
      exact absurd hv (hno v)

/-- Of 32 bits all are read. -/
theorem integer32_shown {ty : JobType} (hty : ty = .int32 ∨ ty = .integer)
    (hid : A.ResidIs cfg left .integer32 rid) (hs : Ready h s) : JobIdShown cfg A ty (shown h s rid) := by
  obtain ⟨bs, hbs, rfl⟩ := hid
  have hlt := ((readLe32 bs).getD 0).toNat_lt
  have hrid : (Int64.ofInt ((readLe32 bs).getD 0).toNat).toInt = ((readLe32 bs).getD 0).toNat := by
    refine toInt_ofInt (Int.natCast_nonneg _) ?_
    unfold longMax
    omega
  -- the engine ships the raw word; for a value that is not negative it is the value
  have hvalue : ∀ v : ℕ, HoldsJobId cfg A .int32 v → ((readLe32 bs).getD 0).toNat = v := by
    rintro v ⟨bs', hbs', hv⟩
    cases hbs.symm.trans hbs'
    unfold readInt at hv
    rw [toInt_eq] at hv
    simp only [UInt32.toUInt32_toInt32] at hv
    split at hv <;> omega
  refine ⟨fun v hv maxstring hmax => ?_, fun hstring => ?_⟩
  · refine shown_natCast hs hmax (hrid.trans ?_)
    rcases hty with rfl | rfl
    · exact congrArg _ (hvalue v hv)
    · exact congrArg _ (hvalue v hv)
  · rcases hty with rfl | rfl
    · cases hstring
    · cases hstring

/-- Of 64 bits none is read. -/
theorem int64_shown_iff (hid : A.ResidIs cfg left .otherType rid) (hs : Ready h s) :
    JobIdShown cfg A .int64 (shown h s rid) ↔ Readable cfg A left .int64 := by
  obtain rfl : rid = left := hid
  constructor
  · intro hshown v hv
    exact eq_of_shown hs (hshown.value v hv)
  · intro hread
    refine ⟨fun v hv maxstring hmax => shown_natCast hs hmax (hread v hv), fun hstring => ?_⟩
    cases hstring

end JobId

/-- **The id of the job is shown as the launcher holds it, and none is made up**, exactly if it is a number
    of 32 bits, or a string that is a number; of 64 bits, if there is no id, or it is there already. -/
theorem jobIdShown_iff {cfg : Config} (env : Env) {vals : Str → List Str} {name : Str} {ty : JobType}
    {vs : List Str} (hvals : vals "RM_jobid".toList = jobidValue name ty :: vs) (hname : '|' ∉ name)
    (hcfg : cfg.rid = ridSource (Rm.ofValues env vals).jobId) (hapi : cfg.apiMode = true) {w w' : World}
    {rid : Int} (ha : Announces cfg w w' rid) {h : Int} {s : Sess} (hs : Ready h s) :
    JobIdShown cfg (w.acquisition true) ty (shown h s rid) ↔
      Readable cfg (w.acquisition true) w.lmon.resid ty := by
  have hid := ha.residIs hapi
  rw [hcfg, ridSource_jobid env hvals hname] at hid
  cases ty with
  | string => exact string_shown_iff hid hs
  | int32 => exact iff_of_true (integer32_shown (Or.inl rfl) hid hs) trivial
  | integer => exact iff_of_true (integer32_shown (Or.inr rfl) hid hs) trivial
  | int64 => exact int64_shown_iff hid hs

/-! ## A launcher with an id -/

/-- A configuration file with one key. -/
def jobVals (ty : JobType) (key : Str) : List Str :=
  if key = "RM_jobid".toList then [jobidValue "totalview_jobid".toList ty] else []

/-- `attachedSample`, with a symbol for the id. -/
def jobSample (ty : JobType) : Config :=
  { attachedSample with
    rid := ridSource (Rm.ofValues plainEnv (jobVals ty)).jobId
    mainImage := fun s => if s = .jobId then some ⟨0x2020, true⟩ else attachedSample.mainImage s }

/-- The memory of a launcher with one task, and an id of eight bytes. -/
def jobData (id : List UInt8) : List UInt8 := oneTask.take 32 ++ id ++ oneTask.drop 40

/-- The engine in the context of the launcher. -/
def jobWorld (ty : JobType) (id : List UInt8) : World :=
  (Sys.start (jobSample ty) (sampleTarget 0x1010 (jobData id))).w.enter 100

/-- A session whose daemons have been spawned. -/
def jobSess : Sess := ⟨fun _ => { Elem.init with registered := true, spawned := true }, []⟩

theorem jobSess_ready : Ready 0 jobSess := ⟨by decide, rfl, rfl⟩

/-- What is told of an announcement: that the acquisition has succeeded, and what has been shipped. -/
def observed : EStateM.Result Exn World Unit → Option (Option Bool × Option Int)
  | .ok _ w => some (w.lmon.acquisition.map Acquisition.ok, w.log.getLast?.bind fun
    | .shippedResourcehandle rid => some rid
    | _ => none)
  | .error _ _ => none

theorem exists_announces (ty : JobType) (id : List UInt8) (rid : Int)
    (h : observed ((do acquireAndShip (jobSample ty); shipResourcehandle (jobSample ty) : EngineM Unit)
      (jobWorld ty id)) = some (some true, some rid)) :
    ∃ w', Announces (jobSample ty) (jobWorld ty id) w' rid := by
  cases hrun : (do acquireAndShip (jobSample ty); shipResourcehandle (jobSample ty) : EngineM Unit)
      (jobWorld ty id) with
  | error e w' =>
    rw [hrun] at h
    cases h
  | ok u w' =>
    rw [hrun] at h
    obtain ⟨hok, hlast⟩ := Prod.mk.inj (Option.some.inj h)
    obtain ⟨note, hnote, hrid⟩ := Option.bind_eq_some_iff.mp hlast
    refine ⟨w', ⟨100, _, ⟨rfl, rfl, rfl⟩, rfl, rfl, rfl⟩, hrun, hok, ?_⟩
    cases note with
    | shippedResourcehandle rid' =>
      cases hrid
      exact hnote
    | _ => cases hrid

/-- An id of 32 bits. -/
theorem jobIdShown_seven : ∃ w',
    Announces (jobSample .int32) (jobWorld .int32 [7, 0, 0, 0, 0, 0, 0, 0]) w' 7 ∧
    JobIdShown (jobSample .int32) ((jobWorld .int32 [7, 0, 0, 0, 0, 0, 0, 0]).acquisition true) .int32
      (shown 0 jobSess 7) := by
  obtain ⟨w', ha⟩ := exists_announces .int32 [7, 0, 0, 0, 0, 0, 0, 0] 7 (by decide +kernel)
  exact ⟨w', ha, (@jobIdShown_iff _ plainEnv (jobVals .int32) _ _ _ rfl (by decide +kernel) rfl rfl
    _ _ _ ha _ _ jobSess_ready).mpr trivial⟩

/-- An id of 64 bits: the launcher holds 5, and the front end says that there is none. -/
theorem jobId_int64_counterexample : ∃ w',
    Announces (jobSample .int64) (jobWorld .int64 [5, 0, 0, 0, 0, 0, 0, 0]) w' (-1) ∧
    HoldsJobId (jobSample .int64) ((jobWorld .int64 [5, 0, 0, 0, 0, 0, 0, 0]).acquisition true) .int64 5 ∧
    ¬JobIdShown (jobSample .int64) ((jobWorld .int64 [5, 0, 0, 0, 0, 0, 0, 0]).acquisition true) .int64
      (shown 0 jobSess (-1)) := by
  obtain ⟨w', ha⟩ := exists_announces .int64 [5, 0, 0, 0, 0, 0, 0, 0] (-1) (by decide +kernel)
  have hheld : HoldsJobId (jobSample .int64)
      ((jobWorld .int64 [5, 0, 0, 0, 0, 0, 0, 0]).acquisition true) .int64 5 :=
    ⟨[5, 0, 0, 0, 0, 0, 0, 0], by decide +kernel, by decide +kernel⟩
  refine ⟨w', ha, hheld, fun hshown => ?_⟩
  obtain ⟨s₁, h₁⟩ := hshown.value 5 hheld 20 (by decide)
  obtain ⟨s₂, h₂⟩ := @shown_none 0 jobSess (-1) 20 jobSess_ready (by decide) (by decide)
  cases h₁.symm.trans h₂

end LaunchMON.Engine.JobId
