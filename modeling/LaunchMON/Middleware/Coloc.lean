/-
  The request that starts middleware daemons beside the back-end daemons: `spawner_coloc_t` of
  `lmon_coloc_spawner.cxx`, from the front end to every daemon of the job.

  1. **The encoder** (`doFrontend`) writes the path of the daemon, its arguments and an empty string
     as end mark, each with its NUL.

  2. **The decoder** (`parseMwAssistLmonpl`) takes the path, walks on to the next string and takes it,
     as long as the string it stands on is not empty.  So it takes the end mark for an argument, and
     an empty argument for the end mark (`heard`).  `parseWithin` is the same decoder with its reads
     checked: it is `none` where the code would read behind the payload.

  3. **In between** (`assist_received`) the back-end master reads the message and broadcasts length
     and payload, so every daemon parses what the front end has built.

  The path and the arguments come back only if the last of all these strings is empty and no other is
  (`coloc_roundTrip`).
-/
import LaunchMON.Backend.Sections

namespace LaunchMON.Middleware

open Backend CBytes Fleet Lmonp

/-! ## The front end -/

/-- `spawner_coloc_t`, as the front end has it. -/
structure SpawnerColoc where
  isFe : Bool
  beMasterSockfd : Int
  daemonPath : CString
  daemonArgs : List CString

/-- The payload. -/
def SpawnerColoc.lmonpl (s : SpawnerColoc) : List UInt8 :=
  s.daemonPath.image ++ (s.daemonArgs.flatMap CString.image ++ [0])

/-- `plsize`. -/
def SpawnerColoc.plsize (s : SpawnerColoc) : ℕ :=
  s.daemonPath.strlen + 1 + (s.daemonArgs.map fun a => a.strlen + 1).sum + 1

/-- `do_frontend`, up to the write.  A size that is no `int` is more than `malloc` gives. -/
def SpawnerColoc.assistMsg (s : SpawnerColoc) (malloc : ℕ → Bool) : Except String Msg :=
  if s.isFe = false ∨ s.beMasterSockfd < 0 then .error "do_frontend invoked by non-front-end"
  else if 2 ^ 31 ≤ sizeofLmonp + s.plsize ∨ malloc (sizeofLmonp + s.plsize) = false then
    .error "malloc returned null"
  else .ok ⟨setMsgHeader .fetobe FeToBeMsg.febeAssistMwColoc.ctorIdx 0 0 0 0 0 (UInt32.ofNat s.plsize) 0,
    s.lmonpl⟩

/-- `do_frontend`. -/
def SpawnerColoc.doFrontend (s : SpawnerColoc) (malloc : ℕ → Bool) : Assist Unit := do
  let msg ← Daemon.ofExcept (s.assistMsg malloc)
  let sent ← writeLmonpLongMsg msg (UInt32.ofNat (sizeofLmonp + s.plsize))
  if sent = false then .fail "write_lmonp_long_msg failed" else return ()

theorem SpawnerColoc.length_lmonpl (s : SpawnerColoc) : s.lmonpl.length = s.plsize := by
  have hargs : ∀ args : List CString, (args.flatMap CString.image).length =
      (args.map fun a => a.strlen + 1).sum := by
    intro args
    induction args with
    | nil => rfl
    | cons a args ih =>
      rw [List.flatMap_cons, List.length_append, ih, CString.length_image, List.map_cons, List.sum_cons]
  rw [lmonpl, plsize, List.length_append, List.length_append, CString.length_image, hargs]
  exact (Nat.add_assoc _ _ _).symm

/-- What a message to the back end looks like. -/
theorem assistMsg_eq_ok {s : SpawnerColoc} {malloc : ℕ → Bool} {m : Msg}
    (h : s.assistMsg malloc = .ok m) : m.payload = s.lmonpl ∧
      m.hdr = setMsgHeader .fetobe FeToBeMsg.febeAssistMwColoc.ctorIdx 0 0 0 0 0 m.hdr.lmonPayloadLength 0 ∧
      m.hdr.lmonPayloadLength.toNat = m.payload.length := by
  unfold SpawnerColoc.assistMsg at h
  split at h
  · cases h
  · split at h
    · cases h
    · rename_i hsize
      cases h
      refine ⟨rfl, rfl, ?_⟩
      push Not at hsize
      rw [SpawnerColoc.length_lmonpl]
      exact (UInt32.toNat_ofNat').trans (Nat.mod_eq_of_lt (by omega))

/-- The message is all that the front end sends. -/
theorem doFrontend_eq {s : SpawnerColoc} {malloc : ℕ → Bool} {m : Msg} (h : s.assistMsg malloc = .ok m) :
    s.doFrontend malloc = .op (.writeLongMsg (m.hdr.bytes ++ m.payload)) fun sent =>
      if sent = false then .fail "write_lmonp_long_msg failed" else .ret () := by
  obtain ⟨hpl, hhdr, hlen⟩ := assistMsg_eq_ok h
  have husr : m.hdr.usrPayloadLength = 0 := by
    rw [hhdr]
    rfl
  have hsize : msgsize m.hdr = UInt32.ofNat (sizeofLmonp + s.plsize) := by
    rw [msgsize, husr, UInt32.add_zero, ← s.length_lmonpl, ← hpl, ← hlen, UInt32.ofNat_add,
      UInt32.ofNat_toNat]
  rw [SpawnerColoc.doFrontend, h, Daemon.ofExcept_ok_bind, writeLmonpLongMsg,
    if_neg (not_not.mpr hsize)]
  rfl

/-! ## The decoder, with its reads checked -/

/-- `get_next_cstr` on the bytes from `s` to the end of the payload: `none` where it reads behind
    them. -/
def nextWithin (s : List UInt8) : Option (Option (List UInt8)) :=
  if s.headD 0 = 0 ∧ s ≠ [] then some none
  else if 0 ∈ s then some (some ((s.dropWhile (· ≠ 0)).drop 1))
  else none

/-- The loop of `parse_mw_assist_lmonpl`: `none` if `fuel` strings are not enough, too. -/
def argsWithin : ℕ → List UInt8 → Option (List CString)
  | 0, _ => none
  | fuel + 1, trav => do
    match ← nextWithin trav with
    | none => return []
    | some trav =>
      let arg ← readCString trav
      let args ← argsWithin fuel trav
      return arg :: args

/-- `parse_mw_assist_lmonpl`. -/
def parseWithin (pl : List UInt8) : Option (CString × List CString) := do
  let path ← readCString pl
  let args ← argsWithin pl.length pl
  return (path, args)

theorem readCString_eq_some {bs : List UInt8} {s : CString} (h : readCString bs = some s) :
    bs.takeWhile (· ≠ 0) = s.bytes := by
  have hne : (fun b : UInt8 => decide (b ≠ 0)) = (· != 0) := by
    funext b
    by_cases hb : b = 0 <;> simp [hb]
  unfold readCString at h
  split at h
  · cases h
    rw [hne]
  · cases h

theorem nextWithin_eq_some {s : List UInt8} {o : Option (List UInt8)} (h : nextWithin s = some o) :
    getNextCstr s = o := by
  unfold nextWithin at h
  split at h
  · rename_i hzero
    cases h
    exact if_pos hzero.1
  · rename_i hzero
    split at h
    · rename_i hmem
      cases h
      exact if_neg fun hhead => hzero ⟨hhead, List.ne_nil_of_mem hmem⟩
    · cases h

theorem argsWithin_eq_some : ∀ (fuel : ℕ) (trav : List UInt8) (args : List CString),
    argsWithin fuel trav = some args → mwAssistArgs fuel trav = args.map CString.bytes := by
  intro fuel
  induction fuel with
  | zero => exact fun trav args h => by cases h
  | succ fuel ih =>
    intro trav args h
    rw [argsWithin, Option.bind_eq_bind, Option.bind_eq_some_iff] at h
    obtain ⟨o, ho, h⟩ := h
    rw [mwAssistArgs, nextWithin_eq_some ho]
    cases o with
    | none =>
      cases h
      rfl
    | some trav =>
      simp only [Option.bind_eq_bind, Option.bind_eq_some_iff] at h
      obtain ⟨arg, harg, args, hargs, h⟩ := h
      cases h
      show trav.takeWhile (· ≠ 0) :: mwAssistArgs fuel trav = _
      rw [readCString_eq_some harg, ih trav args hargs]
      rfl

/-- A decoder that stays within the payload computes the same. -/
theorem parseWithin_eq_some {pl : List UInt8} {path : CString} {args : List CString}
    (h : parseWithin pl = some (path, args)) :
    parseMwAssistLmonpl pl = (path.bytes, args.map CString.bytes) := by
  simp only [parseWithin, Option.bind_eq_bind, Option.bind_eq_some_iff] at h
  obtain ⟨path, hpath, args, hargs, h⟩ := h
  cases h
  rw [parseMwAssistLmonpl, readCString_eq_some hpath, argsWithin_eq_some _ _ _ hargs]

/-! ## What comes back -/

/-- The strings that the decoder takes behind `s`, if those of `rest` and the end mark follow. -/
def behind (s : CString) : List CString → List CString
  | [] => if s = .empty then [] else [.empty]
  | a :: rest => if s = .empty then [] else a :: behind a rest

/-- The last string is empty, and no other is. -/
def LastEmpty (strs : List CString) : Prop :=
  ∃ init, strs = init ++ [.empty] ∧ CString.empty ∉ init

theorem nextWithin_image (s : CString) (rest : List UInt8) :
    nextWithin (s.image ++ rest) = some (if s = .empty then none else some rest) := by
  have hmem : 0 ∈ s.image ++ rest := by simp [CString.image]
  have hdrop : ((s.image ++ rest).dropWhile (· ≠ 0)).drop 1 = rest := by
    rw [CString.image, List.append_assoc, List.dropWhile_append_of_pos]
    · rfl
    · intro b hb
      exact decide_eq_true fun h => s.noNul (h ▸ hb)
  rw [nextWithin, if_pos hmem, hdrop]
  obtain ⟨bytes, noNul⟩ := s
  cases bytes with
  | nil => rw [if_pos ⟨rfl, List.ne_nil_of_mem hmem⟩, if_pos (show (⟨[], noNul⟩ : CString) = .empty from rfl)]
  | cons b bytes =>
    have hb : b ≠ 0 := fun h => noNul (h ▸ List.mem_cons_self)
    have hhead : ¬(((⟨b :: bytes, noNul⟩ : CString).image ++ rest).headD 0 = 0 ∧
        (⟨b :: bytes, noNul⟩ : CString).image ++ rest ≠ []) := fun h => hb h.1
    rw [if_neg hhead, if_neg fun h => List.cons_ne_nil _ _ (congrArg CString.bytes h)]

/-- The decoder on the strings behind `s`. -/
theorem argsWithin_behind : ∀ (rest : List CString) (s : CString) (fuel : ℕ), rest.length + 2 ≤ fuel →
    argsWithin fuel (s.image ++ (rest.flatMap CString.image ++ [0])) = some (behind s rest) := by
  intro rest
  induction rest with
  | nil =>
    intro s fuel hfuel
    obtain ⟨fuel, rfl⟩ : ∃ k, fuel = k + 2 := Nat.exists_eq_add_of_le' hfuel
    rw [argsWithin, nextWithin_image]
    by_cases hs : s = .empty
    · rw [behind, if_pos hs, if_pos hs]
      rfl
    · rw [behind, if_neg hs, if_neg hs]
      rfl
  | cons a rest ih =>
    intro s fuel hfuel
    rw [List.length_cons] at hfuel
    obtain ⟨fuel, rfl⟩ : ∃ k, fuel = k + 1 := ⟨fuel - 1, by omega⟩
    rw [argsWithin, nextWithin_image]
    by_cases hs : s = .empty
    · rw [behind, if_pos hs, if_pos hs]
      rfl
    · rw [behind, if_neg hs, if_neg hs, List.flatMap_cons, List.append_assoc]
      show (readCString (a.image ++ _) >>= fun arg => argsWithin _ _ >>= fun args => some (arg :: args)) = _
      rw [readCString_append, ih a _ (by omega)]
      rfl

/-- **The decoder stays within the payload**, and what it finds. -/
theorem parseWithin_lmonpl (s : SpawnerColoc) :
    parseWithin s.lmonpl = some (s.daemonPath, behind s.daemonPath s.daemonArgs) := by
  have hfuel : s.daemonArgs.length + 2 ≤ s.lmonpl.length := by
    have hsum : ∀ args : List CString, args.length ≤ (args.map fun a => a.strlen + 1).sum := by
      intro args
      induction args with
      | nil => exact Nat.le_refl _
      | cons a args ih =>
        rw [List.map_cons, List.sum_cons, List.length_cons]
        omega
    have hargs := hsum s.daemonArgs
    rw [SpawnerColoc.length_lmonpl, SpawnerColoc.plsize]
    omega
  have hargs := argsWithin_behind s.daemonArgs s.daemonPath _ hfuel
  show (readCString s.lmonpl >>= fun path => argsWithin s.lmonpl.length s.lmonpl >>= fun args =>
    some (path, args)) = _
  rw [show argsWithin s.lmonpl.length s.lmonpl = _ from hargs, SpawnerColoc.lmonpl, readCString_append]
  rfl

theorem lastEmpty_cons {s : CString} (hs : s ≠ .empty) (strs : List CString) :
    LastEmpty (s :: strs) ↔ LastEmpty strs := by
  constructor
  · rintro ⟨init, heq, hinit⟩
    cases init with
    | nil => exact absurd (List.cons.inj heq).1 hs
    | cons t init =>
      obtain ⟨rfl, hrest⟩ := List.cons.inj heq
      exact ⟨init, hrest, fun hmem => hinit (List.mem_cons_of_mem _ hmem)⟩
  · rintro ⟨init, rfl, hinit⟩
    refine ⟨s :: init, rfl, fun hmem => ?_⟩
    rcases List.mem_cons.mp hmem with heq | hmem
    · exact hs heq.symm
    · exact hinit hmem

/-- The arguments come back as they are if and only if the first empty string is the last one. -/
theorem behind_eq_iff : ∀ (rest : List CString) (s : CString), behind s rest = rest ↔ LastEmpty (s :: rest) := by
  intro rest
  induction rest with
  | nil =>
    intro s
    by_cases hs : s = .empty
    · rw [behind, if_pos hs, hs]
      exact iff_of_true rfl ⟨[], rfl, List.not_mem_nil⟩
    · rw [behind, if_neg hs, lastEmpty_cons hs]
      refine iff_of_false (List.cons_ne_nil _ _) ?_
      rintro ⟨init, heq, -⟩
      exact List.append_ne_nil_of_right_ne_nil init (List.cons_ne_nil _ _) heq.symm
  | cons a rest ih =>
    intro s
    by_cases hs : s = .empty
    · rw [behind, if_pos hs, hs]
      refine iff_of_false (List.cons_ne_nil _ _).symm ?_
      rintro ⟨init, heq, hinit⟩
      cases init with
      | nil => exact List.cons_ne_nil _ _ (List.cons.inj heq).2
      | cons t init => exact hinit ((List.cons.inj heq).1 ▸ List.mem_cons_self)
    · rw [behind, if_neg hs, lastEmpty_cons hs, List.cons.injEq, ih a]
      exact and_iff_right rfl

/-! ## The daemons -/

/-- The socket of the master delivers the bytes of one message. -/
structure Hears (f : Feed) (bs : List UInt8) : Prop where
  header : f.headers 0 = (true, Header.ofBytes bs)
  payload : f.payloads 0 = some ((bs.drop sizeofLmonp).take (Header.ofBytes bs).lmonPayloadLength.toNat)

theorem Hears.message {f : Feed} {m : Msg} (h : Hears f (m.hdr.bytes ++ m.payload))
    (hlen : m.hdr.lmonPayloadLength.toNat = m.payload.length) :
    f.headers 0 = (true, m.hdr) ∧ f.payloads 0 = some m.payload := by
  obtain ⟨hheader, hpayload⟩ := h
  rw [Header.ofBytes_append] at hheader hpayload
  rw [List.drop_left' (Header.length_bytes m.hdr), hlen, List.take_length] at hpayload
  exact ⟨hheader, hpayload⟩

variable {n : ℕ} {j : Job n} {s : SpawnerColoc} {malloc : ℕ → Bool} {m : Msg}

/-- The master finds its request. -/
theorem bemasterRequest_received (h : s.assistMsg malloc = .ok m) {f : Feed}
    (hheard : Hears f (m.hdr.bytes ++ m.payload)) :
    bemasterRequest.resolve Feed.answer f =
      .ret ((m.hdr.lmonPayloadLength, m.payload), afterPayload (afterHeader f)) := by
  obtain ⟨hpl, hhdr, hlen⟩ := assistMsg_eq_ok h
  obtain ⟨hheader, hpayload⟩ := hheard.message hlen
  have hpos : m.hdr.lmonPayloadLength ≠ 0 := by
    intro hzero
    rw [hzero, hpl, SpawnerColoc.length_lmonpl] at hlen
    exact Nat.succ_ne_zero _ hlen.symm
  have hclass : m.hdr.msgclass.toNat = MsgClass.fetobe.ctorIdx := by
    rw [hhdr]
    rfl
  have htype : isFetobe m.hdr .febeAssistMwColoc = true := by
    rw [hhdr]
    rfl
  have husr : m.hdr.usrPayloadLength = 0 := by
    rw [hhdr]
    rfl
  have hread : bytesread (some m.payload) = m.hdr.lmonPayloadLength + m.hdr.usrPayloadLength := by
    rw [husr, UInt32.add_zero, bytesread, ← hlen, UInt32.ofNat_toNat]
  obtain ⟨headers, payloads, sent⟩ := f
  dsimp only at hheader hpayload
  rw [bemasterRequest, readLmonpMsgheader, Daemon.ask_bind, Daemon.resolve_op]
  dsimp only [Feed.answer]
  rw [hheader, if_neg (by rw [not_or, not_or, htype]; exact ⟨not_not.mpr hclass, by simp, hpos⟩),
    readLmonpPayloads, Daemon.ask_bind, Daemon.resolve_op]
  dsimp only [Feed.answer]
  rw [← hpayload] at hread
  refine (congrArg (fun p : Assist _ => p.resolve _ _) (if_neg (not_not.mpr hread))).trans ?_
  show Daemon.ret ((_, (payloads 0).getD []), _) = _
  rw [hpayload]
  rfl

/-- Either side of the spawner behind the two broadcasts. -/
theorem assistDaemon_eq {c : Calls} {d : PerDaemonData} {leng : UInt32} {lmonpl : List UInt8} {f : Feed}
    (hmalloc : d.isMaster = false → c.malloc leng.toNat = true) :
    (assistDaemon c d leng lmonpl).resolve Feed.answer f =
      .meet (.broadcast leng.toNat) lmonpl fun bs => .ret (parseMwAssistLmonpl bs, f) := by
  have hok : (if d.isMaster then .ok () else beslaveBuffer c leng) = .ok () := by
    cases hm : d.isMaster with
    | true => exact if_pos rfl
    | false =>
      rw [if_neg (by decide), beslaveBuffer, hmalloc hm]
      rfl
  rw [assistDaemon, hok]
  rfl

/-- Every daemon parses what the front end has built; `f` is what each has on its socket. -/
theorem spawn_ends (h : s.assistMsg malloc = .ok m) {f : Fin (n + 1) → Feed}
    (hheard : Hears (f 0) (m.hdr.bytes ++ m.payload))
    (hmalloc : ∀ i, i ≠ 0 → (j.calls i).malloc m.payload.length = true) :
    Ends (fun i => (spawn (j.calls i) (j.daemon i)).resolve Feed.answer (f i))
      [.broadcast 4, .broadcast m.payload.length]
      fun i => .ok (parseMwAssistLmonpl m.payload,
        if i = 0 then afterPayload (afterHeader (f 0)) else f i) := by
  obtain ⟨-, -, hlen⟩ := assistMsg_eq_ok h
  let rest : Fin (n + 1) → Feed := fun i => if i = 0 then afterPayload (afterHeader (f 0)) else f i
  let pl : Fin (n + 1) → List UInt8 := fun i => if i = 0 then m.payload else []
  let word : Fin (n + 1) → List UInt8 := fun i => if i = 0 then le32 m.hdr.lmonPayloadLength else []
  have hcoloc : (fun i => (spawn (j.calls i) (j.daemon i)).resolve Feed.answer (f i)) =
      fun i => .meet (.broadcast 4) (word i) fun bs =>
        (assistDaemon (j.calls i) (j.daemon i)
          (if (j.daemon i).isMaster then m.hdr.lmonPayloadLength else (readLe32 bs).getD 0)
          (pl i)).resolve Feed.answer (rest i) := by
    funext i
    rw [spawn_eq, Daemon.resolve_bind]
    by_cases hi : i = 0
    · rw [hi, Job.isMaster_zero, if_pos rfl, bemasterRequest_received h hheard]
      rfl
    · have hm : (j.daemon i).isMaster = false := Bool.eq_false_iff.mpr fun hm => hi ((j.isMaster_iff i).mp hm)
      simp only [assistTail, hm, word, pl, rest, hi, if_false]
      rfl
  have hleng : ∀ i, (if (j.daemon i).isMaster then m.hdr.lmonPayloadLength
      else (readLe32 (delivered (.broadcast 4) word i)).getD 0) = m.hdr.lmonPayloadLength := by
    intro i
    show (if _ then _ else (readLe32 (le32 m.hdr.lmonPayloadLength)).getD 0) = _
    rw [readLe32_le32]
    exact ite_self _
  rw [hcoloc]
  apply Ends.met
  simp only [hleng]
  have hmeet : ∀ i, (assistDaemon (j.calls i) (j.daemon i) m.hdr.lmonPayloadLength (pl i)).resolve
      Feed.answer (rest i) = .meet (.broadcast m.payload.length) (pl i) fun bs =>
        .ret (parseMwAssistLmonpl bs, rest i) := by
    intro i
    rw [← hlen]
    refine assistDaemon_eq fun hm => ?_
    rw [hlen]
    refine hmalloc i fun hi => ?_
    rw [(j.isMaster_iff i).mpr hi] at hm
    cases hm
  simp only [hmeet]
  apply Ends.met
  exact @Ends.returned n _ _ fun i => .ok (parseMwAssistLmonpl m.payload, rest i)

/-- Every daemon of a job parses what the front end has built. -/
theorem assist_received (h : s.assistMsg malloc = .ok m)
    (hheard : Hears j.feed (m.hdr.bytes ++ m.payload))
    (hmalloc : ∀ i, i ≠ 0 → (j.calls i).malloc m.payload.length = true) :
    ∃ rest : Fin (n + 1) → Feed, Ends j.coloc [.broadcast 4, .broadcast m.payload.length]
      fun i => .ok (parseMwAssistLmonpl m.payload, rest i) :=
  ⟨_, @spawn_ends n j s malloc m h (fun _ => j.feed) hheard hmalloc⟩

/-- **The request for middleware daemons.**  Path and arguments arrive at every daemon, and no daemon
    reads behind the payload, exactly when the last of these strings is empty and no other is. -/
theorem coloc_roundTrip (h : s.assistMsg malloc = .ok m)
    (hheard : Hears j.feed (m.hdr.bytes ++ m.payload))
    (hmalloc : ∀ i, i ≠ 0 → (j.calls i).malloc m.payload.length = true) :
    ∃ (r : Fin (n + 1) → List UInt8 × List (List UInt8)) (rest : Fin (n + 1) → Feed),
      Ends j.coloc [.broadcast 4, .broadcast m.payload.length] (fun i => .ok (r i, rest i)) ∧
      (((∀ i, r i = (s.daemonPath.bytes, s.daemonArgs.map CString.bytes)) ∧
        (parseWithin m.payload).isSome) ↔ LastEmpty (s.daemonPath :: s.daemonArgs)) := by
  obtain ⟨rest, hends⟩ := assist_received h hheard hmalloc
  refine ⟨_, rest, hends, ?_⟩
  have hparse := parseWithin_lmonpl s
  rw [(assistMsg_eq_ok h).1, hparse, parseWithin_eq_some hparse, ← behind_eq_iff]
  have hinj : Function.Injective CString.bytes := fun a b hab => CString.ext hab
  constructor
  · rintro ⟨hr, -⟩
    exact (List.map_inj_right fun _ _ hab => hinj hab).mp (Prod.mk.inj (hr 0)).2
  · intro heq
    rw [heq]
    exact ⟨fun _ => rfl, rfl⟩

/-- A front end that is connected to the master. -/
def requester (daemonPath : CString) (daemonArgs : List CString) : SpawnerColoc :=
  ⟨true, 3, daemonPath, daemonArgs⟩

/-- The request for a daemon with one argument, the empty one. -/
def emptyArg : Msg :=
  ⟨setMsgHeader .fetobe FeToBeMsg.febeAssistMwColoc.ctorIdx 0 0 0 0 0 4 0, [97, 0, 0, 0]⟩

/-- Two daemons whose master finds it. -/
def assisted : Job 1 where
  calls _ := wellCalls
  hosts _ := []
  feed :=
    { headers := fun _ => (true, emptyArg.hdr)
      payloads := fun _ => some emptyArg.payload
      sent := fun _ => true }

theorem coloc_roundTrip_emptyArg :
    ∃ (r : Fin (1 + 1) → List UInt8 × List (List UInt8)) (rest : Fin (1 + 1) → Feed),
      Ends assisted.coloc [.broadcast 4, .broadcast emptyArg.payload.length] (fun i => .ok (r i, rest i)) ∧
      (((∀ i, r i = ((CString.letter 0).bytes, [CString.empty].map CString.bytes)) ∧
        (parseWithin emptyArg.payload).isSome) ↔ LastEmpty [.letter 0, .empty]) :=
  @coloc_roundTrip 1 assisted (requester (.letter 0) [.empty]) (fun _ => true) emptyArg (by decide)
    ⟨by decide, by decide⟩ fun _ _ => rfl

/-- A daemon without arguments gets the end mark for one. -/
theorem coloc_counterexample : ∃ m, (requester (.letter 0) []).assistMsg (fun _ => true) = .ok m ∧
    parseMwAssistLmonpl m.payload ≠ ((CString.letter 0).bytes, []) :=
  ⟨⟨setMsgHeader .fetobe FeToBeMsg.febeAssistMwColoc.ctorIdx 0 0 0 0 0 3 0, [97, 0, 0]⟩, by decide, by decide⟩

end LaunchMON.Middleware
