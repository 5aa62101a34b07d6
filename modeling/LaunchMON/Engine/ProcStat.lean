/-
  `linux_ptracer_t::status` of `sdbg_linux_ptracer_impl.hxx`, which reads the state of a thread from
  `/proc/<tid>/stat`.

  The line of a thread is `pid (name) state …`.  The function takes the number and the two words behind
  it, and calls the thread stopped if the second word is `T`.

    (1) As long as the name has no white space, the second word is the state (`stateWord_eq`).  Then a
        thread that is stopped by its tracer is missed, because its state is `t`.
    (2) A name with white space is more than one word, and the second word is a part of the name.  The
        answer then says nothing about the thread: `(a T b)` always seems stopped, `(a b)` never does.

  `status_iff` has the names and states for which the answer is right.  The engine's model takes
  the answer from the state of the thread and from the letter that the kernel shows, which is what the
  function finds for names without white space (`readStatus_lwp`).
-/
import LaunchMON.Engine.Process
import LaunchMON.Lib.Strings

namespace LaunchMON.Engine

open CText

/-! ## Streams -/

/-- `fst >> snapTid`, for the stream behind it.  A stream that has failed is `none`. -/
def extractPid (fst : Option Str) : Option Str := do
  let s ← fst
  let t := s.dropWhile isSpace
  let t := if t.head? = some '-' ∨ t.head? = some '+' then t.drop 1 else t
  if t.takeWhile Char.isDigit = [] ∨ 2 ^ 31 ≤ digitsVal t then none else some (t.dropWhile Char.isDigit)

/-- `fst >> execName` and `fst >> tState`. -/
def extractWord (fst : Option Str) : Str × Option Str :=
  match fst with
  | none => ([], none)
  | some s =>
    let t := s.dropWhile isSpace
    if t = [] then ([], none) else (t.takeWhile (!isSpace ·), some (t.dropWhile (!isSpace ·)))

/-- `status`, with the contents of the file if there is one. -/
def readStatus (stat : Option Str) : TraceStatus :=
  match stat with
  | none => .esrch
  | some line =>
    let fst := extractPid (some line)
    let (_, fst) := extractWord fst
    let (tState, _) := extractWord fst
    if tState = ['T'] then .stopped else .running

/-! ## The line -/

/-- The line of a thread, with what is behind the state. -/
def statLine (pid : ℕ) (name : Str) (state : Char) (rest : Str) : Str :=
  decimal pid ++ " (".toList ++ name ++ ") ".toList ++ [state] ++ ' ' :: rest

/-- A stopped or trace-stopped thread. -/
def StoppedState (state : Char) : Prop := state = 'T' ∨ state = 't'

/-- The second word of a name in parentheses. -/
def nameWord (name : Str) : Str :=
  (((name ++ [')']).dropWhile (!isSpace ·)).dropWhile isSpace).takeWhile (!isSpace ·)

/-- The name has white space. -/
def Spaced (name : Str) : Prop := ∃ c ∈ name, isSpace c = true

instance : DecidablePred StoppedState := fun state =>
  inferInstanceAs (Decidable (state = 'T' ∨ state = 't'))

instance : DecidablePred Spaced := fun name => inferInstanceAs (Decidable (∃ c ∈ name, isSpace c = true))

/-! ## Words -/

section

variable {p : Char → Bool} {x : Char} {l r : Str}

theorem takeWhile_stop (hx : p x = false) : (l ++ x :: r).takeWhile p = l.takeWhile p := by
  induction l with
  | nil => simp [hx]
  | cons c l ih => simp only [List.cons_append, List.takeWhile_cons, ih]

theorem dropWhile_stop (hx : p x = false) : (l ++ x :: r).dropWhile p = l.dropWhile p ++ x :: r := by
  induction l with
  | nil => simp [hx]
  | cons c l ih =>
    simp only [List.cons_append, List.dropWhile_cons, ih]
    split
    · rfl
    · rfl

end

/-- The number in front of a line. -/
theorem extractPid_decimal {pid : ℕ} (hpid : pid < 2 ^ 31) (rest : Str) :
    extractPid (some (decimal pid ++ ' ' :: rest)) = some (' ' :: rest) := by
  have hne : decimal pid ≠ [] := Nat.toDigits_ne_nil
  obtain ⟨c, t, hct⟩ := List.exists_cons_of_ne_nil hne
  have hdigits : ∀ d ∈ decimal pid, d.isDigit = true :=
    fun d hd => Nat.isDigit_of_mem_toDigits (by decide) (by decide) hd
  obtain ⟨hspace, hminus, hplus⟩ := digit_first (hdigits c (hct ▸ List.mem_cons_self))
  have htake : (decimal pid ++ ' ' :: rest).takeWhile Char.isDigit = decimal pid := by
    rw [takeWhile_stop rfl]
    exact List.takeWhile_eq_self_iff.mpr hdigits
  have hdrop : (decimal pid ++ ' ' :: rest).dropWhile Char.isDigit = ' ' :: rest := by
    rw [dropWhile_stop rfl, List.dropWhile_eq_nil_iff.mpr hdigits, List.nil_append]
  have hval : digitsVal (decimal pid ++ ' ' :: rest) = pid := by
    rw [digitsVal, htake]
    exact Nat.ofDigitChars_toDigits (by decide) (by decide)
  -- decimal digits carry neither blanks nor a sign in front
  have hfront : (decimal pid ++ ' ' :: rest).dropWhile isSpace = decimal pid ++ ' ' :: rest := by
    rw [hct, List.cons_append, List.dropWhile_cons_of_neg (by rw [hspace]; decide)]
  have hsign : ¬((decimal pid ++ ' ' :: rest).head? = some '-' ∨
      (decimal pid ++ ' ' :: rest).head? = some '+') := by
    rw [hct, List.cons_append, List.head?_cons, Option.some.injEq, Option.some.injEq]
    exact not_or.mpr ⟨hminus, hplus⟩
  have hgood : ¬(decimal pid = [] ∨ 2 ^ 31 ≤ pid) :=
    not_or.mpr ⟨hne, Nat.not_le.mpr hpid⟩
  unfold extractPid
  rw [Option.bind_eq_bind, Option.bind_some]
  dsimp only
  rw [hfront, if_neg hsign, htake, hval, if_neg hgood, hdrop]

/-- A word that begins in front of a space. -/
theorem extractWord_stop {s rest : Str} (hs : s.dropWhile isSpace ≠ []) :
    extractWord (some (s ++ ' ' :: rest)) = ((s.dropWhile isSpace).takeWhile (!isSpace ·),
      some ((s.dropWhile isSpace).dropWhile (!isSpace ·) ++ ' ' :: rest)) := by
  have hfront : (s ++ ' ' :: rest).dropWhile isSpace = s.dropWhile isSpace ++ ' ' :: rest := by
    rw [List.dropWhile_append, if_neg]
    rw [List.isEmpty_iff]
    exact hs
  have hne : s.dropWhile isSpace ++ ' ' :: rest ≠ [] :=
    List.append_ne_nil_of_right_ne_nil _ (List.cons_ne_nil _ _)
  unfold extractWord
  dsimp only
  rw [hfront, if_neg hne, takeWhile_stop rfl, dropWhile_stop rfl]

/-- **The word for the state**: behind a name without white space it is the state, otherwise it is the
    second word of the name. -/
theorem stateWord_eq (name : Str) {state : Char} (hstate : isSpace state = false) (rest : Str) :
    (extractWord (extractWord (some (" (".toList ++ name ++ ") ".toList ++ [state] ++ ' ' :: rest))).2).1 =
      if Spaced name then nameWord name else [state] := by
  have hline : " (".toList ++ name ++ ") ".toList ++ [state] ++ ' ' :: rest =
      (' ' :: '(' :: name ++ [')']) ++ ' ' :: state :: ' ' :: rest := by
    simp
  have hfront : (' ' :: '(' :: name ++ [')']).dropWhile isSpace = '(' :: (name ++ [')']) := rfl
  have hword : ('(' :: (name ++ [')'])).dropWhile (!isSpace ·) = (name ++ [')']).dropWhile (!isSpace ·) := rfl
  rw [hline, extractWord_stop (by rw [hfront]; exact List.cons_ne_nil _ _), hfront, hword]
  dsimp only
  -- a blank in the name ends its word early, and the word read for the state is then the name's rest
  by_cases hspaced : Spaced name
  · obtain ⟨c, hc, hspace⟩ := hspaced
    have hmore : ((name ++ [')']).dropWhile (!isSpace ·)).dropWhile isSpace ≠ [] := by
      intro hnil
      have hall := List.dropWhile_eq_nil_iff.mp hnil
      refine absurd (hall ')' ?_) (by decide)
      rw [List.dropWhile_append, if_neg]
      · exact List.mem_append_right _ List.mem_cons_self
      · rw [List.isEmpty_iff]
        intro hnil'
        have := List.dropWhile_eq_nil_iff.mp hnil' c hc
        rw [hspace] at this
        exact Bool.noConfusion this
    rw [extractWord_stop hmore, if_pos ⟨c, hc, hspace⟩]
    rfl
  · have hnone : (name ++ [')']).dropWhile (!isSpace ·) = [] := by
      refine List.dropWhile_eq_nil_iff.mpr fun c hc => ?_
      rcases List.mem_append.mp hc with hc | hc
      · rw [Bool.eq_false_iff.mpr fun h => hspaced ⟨c, hc, h⟩]
        rfl
      · rw [List.mem_singleton.mp hc]
        rfl
    have hone : (' ' :: [state]).dropWhile isSpace = [state] := by
      rw [List.dropWhile_cons_of_pos rfl, List.dropWhile_cons_of_neg (by rw [hstate]; decide)]
    have hnext := @extractWord_stop [' ', state] rest (by rw [hone]; exact List.cons_ne_nil _ _)
    rw [hone, List.takeWhile_cons_of_pos (by rw [hstate]; rfl), List.takeWhile_nil] at hnext
    rw [hnone, List.nil_append, if_neg hspaced]
    exact congrArg Prod.fst hnext

/-! ## The answer -/

/-- What `status` says of a line. -/
theorem readStatus_eq {pid : ℕ} (hpid : pid < 2 ^ 31) (name : Str) {state : Char}
    (hstate : isSpace state = false) (rest : Str) :
    readStatus (some (statLine pid name state rest)) =
      if (if Spaced name then nameWord name else [state]) = ['T'] then .stopped else .running := by
  have hline : statLine pid name state rest =
      decimal pid ++ ' ' :: ('(' :: name ++ ") ".toList ++ [state] ++ ' ' :: rest) := by
    simp [statLine]
  rw [← stateWord_eq name hstate rest, readStatus, hline, extractPid_decimal hpid]
  rfl

/-- **`status`** is right about a well-formed line if and only if the name has no white space and the
    thread is not trace-stopped, or the name has white space and its second word is `T` exactly if the
    thread is stopped. -/
theorem status_iff (pid : ℕ) (hpid : pid < 2 ^ 31) (name : Str) (state : Char)
    (hstate : isSpace state = false) (rest : Str) :
    readStatus (some (statLine pid name state rest)) =
      (if StoppedState state then .stopped else .running) ↔
    if Spaced name then (nameWord name = ['T'] ↔ StoppedState state) else state ≠ 't' := by
  have hanswer : ∀ P Q : Prop, ∀ [Decidable P] [Decidable Q],
      ((if P then TraceStatus.stopped else .running) = (if Q then .stopped else .running) ↔ (P ↔ Q)) := by
    intro P Q _ _
    by_cases hP : P
    · by_cases hQ : Q
      · simp [hP, hQ]
      · simp [hP, hQ]
    · by_cases hQ : Q
      · simp [hP, hQ]
      · simp [hP, hQ]
  rw [readStatus_eq hpid name hstate rest, hanswer]
  by_cases hspaced : Spaced name
  · rw [if_pos hspaced, if_pos hspaced]
  -- the state itself is read: `'t'` counts as stopped but is never looked for
  · rw [if_neg hspaced, if_neg hspaced, List.singleton_inj, StoppedState]
    constructor
    · rintro h rfl
      exact absurd (h.mpr (Or.inr rfl)) (by decide)
    · intro h
      exact ⟨Or.inl, fun hst => hst.resolve_right h⟩

theorem status_iff_sleeping :
    readStatus (some (statLine 7 "srun".toList 'S' "1 7".toList)) =
      (if StoppedState 'S' then .stopped else .running) ↔
    if Spaced "srun".toList then (nameWord "srun".toList = ['T'] ↔ StoppedState 'S') else 'S' ≠ 't' :=
  status_iff 7 (by decide) "srun".toList 'S' (by decide) "1 7".toList

/-- A sleeping thread whose program is called `a T b`. -/
theorem status_counterexample :
    ¬∀ pid : ℕ, pid < 2 ^ 31 → ∀ (name : Str) (state : Char), isSpace state = false → ∀ rest : Str,
      readStatus (some (statLine pid name state rest)) =
        if StoppedState state then .stopped else .running := by
  intro h
  have hwrong := h 7 (by decide) "a T b".toList 'S' (by decide) "1".toList
  have hspaced : Spaced "a T b".toList := ⟨' ', by decide, rfl⟩
  have hword : nameWord "a T b".toList = ['T'] := by decide +kernel
  have hsleeping : ¬StoppedState 'S' := by decide
  rw [readStatus_eq (by decide) _ (by decide), if_pos hspaced, if_pos hword, if_neg hsleeping] at hwrong
  cases hwrong

/-! ## The engine's model -/

/-- The letter that the kernel shows for a thread. -/
def Lwp.stateLetter (procStatT : Bool) (l : Lwp) : Char :=
  if l.run = .stopped then (if procStatT then 'T' else 't') else 'R'

/-- The answer of the engine's model is the one that is read, for a program without white space in its
    name. -/
theorem readStatus_lwp (procStatT : Bool) (l : Lwp) {pid : ℕ} (hpid : pid < 2 ^ 31) {name : Str}
    (hname : ¬Spaced name) (rest : Str) :
    readStatus (some (statLine pid name (l.stateLetter procStatT) rest)) =
      if l.statT procStatT then .stopped else .running := by
  have hstate : isSpace (l.stateLetter procStatT) = false := by
    unfold Lwp.stateLetter
    split
    · split
      · rfl
      · rfl
    · rfl
  rw [readStatus_eq hpid name hstate, if_neg hname]
  unfold Lwp.stateLetter Lwp.statT
  by_cases h : l.run = .stopped
  · cases procStatT with
    | true => simp [h]
    | false => simp [h]
  · simp [h]

end LaunchMON.Engine
