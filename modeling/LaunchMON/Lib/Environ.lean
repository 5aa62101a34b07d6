/-
  Variables of a process, and what becomes of a list of them that may name one more than once.

  A map that is filled with `insert` keeps the first value of a name (`getElem?_firsts`).  A process that
  sets all variables of a map, one after the other, has the values of the map, and for other names what
  it has had (`exported_apply`).
-/
import LaunchMON.Lib.Strings
import Std.Data.ExtTreeMap
import Mathlib.Logic.Function.Basic

namespace CText

open Std

/-- A variable: its name and its value. -/
abbrev EnvVar := Str × Str

/-- The variables of a process. -/
abbrev Environ := Str → Option Str

/-- A name that `setenv` takes. -/
def GoodName (name : Str) : Prop := name ≠ [] ∧ '=' ∉ name

instance : DecidablePred GoodName := fun name => inferInstanceAs (Decidable (name ≠ [] ∧ '=' ∉ name))

/-- `setenv(name, value, 1)`. -/
def setenv (env : Environ) (name value : Str) : Environ :=
  if GoodName name then Function.update env name (some value) else env

/-- A `map` that is filled by `insert`. -/
def firsts (vars : List EnvVar) : ExtTreeMap Str Str := vars.foldl (fun m v => m.insertIfNew v.1 v.2) ∅

/-- `setenv` for each variable of a map, in the order of the names. -/
def exported (m : ExtTreeMap Str Str) (env : Environ) : Environ :=
  m.toList.foldl (fun env v => setenv env v.1 v.2) env

theorem getElem?_foldl_insertIfNew (vars : List EnvVar) (name : Str) : ∀ m : ExtTreeMap Str Str,
    (vars.foldl (fun m v => m.insertIfNew v.1 v.2) m)[name]? = m[name]?.or (vars.lookup name) := by
  induction vars with
  | nil =>
    intro m
    rw [List.lookup_nil, Option.or_none]
    rfl
  | cons v vars ih =>
    intro m
    obtain ⟨k, x⟩ := v
    rw [List.foldl_cons, ih, ExtTreeMap.getElem?_insertIfNew, List.lookup_cons]
    by_cases hk : k = name
    · subst hk
      rw [beq_self_eq_true]
      by_cases hm : k ∈ m
      · rw [if_neg fun h => h.2 hm, ExtTreeMap.getElem?_eq_some_getElem hm]
        rfl
      · rw [if_pos ⟨ReflOrd.compare_self, hm⟩, ExtTreeMap.getElem?_eq_none hm]
        rfl
    · rw [if_neg fun h => hk (LawfulEqOrd.eq_of_compare h.1), beq_false_of_ne (Ne.symm hk)]

/-- **The first value stays.** -/
theorem getElem?_firsts (vars : List EnvVar) (name : Str) : (firsts vars)[name]? = vars.lookup name := by
  rw [firsts, getElem?_foldl_insertIfNew, ExtTreeMap.getElem?_empty, Option.none_or]

theorem foldl_setenv_of_ne {vars : List EnvVar} {name : Str} (h : ∀ v ∈ vars, v.1 ≠ name) :
    ∀ env : Environ, vars.foldl (fun env v => setenv env v.1 v.2) env name = env name := by
  induction vars with
  | nil =>
    intro env
    rfl
  | cons v vars ih =>
    intro env
    rw [List.foldl_cons, ih fun u hu => h u (List.mem_cons_of_mem _ hu), setenv]
    split
    · exact Function.update_of_ne (h v List.mem_cons_self).symm _ _
    · rfl

/-- A variable that is named once is set. -/
theorem foldl_setenv_of_mem {vars : List EnvVar} {name value : Str} (hname : GoodName name)
    (hvars : vars.Pairwise fun u v => u.1 ≠ v.1) (h : (name, value) ∈ vars) :
    ∀ env : Environ, vars.foldl (fun env v => setenv env v.1 v.2) env name = some value := by
  induction vars with
  | nil => cases h
  | cons v vars ih =>
    intro env
    obtain ⟨hv, hvars⟩ := List.pairwise_cons.mp hvars
    rw [List.foldl_cons]
    rcases List.mem_cons.mp h with rfl | h
    · rw [foldl_setenv_of_ne fun u hu => (hv u hu).symm, setenv, if_pos hname, Function.update_self]
    · exact ih hvars h _

/-- **What a process has** when it has set the variables of a map. -/
theorem exported_apply (m : ExtTreeMap Str Str) (env : Environ) {name : Str} (hname : GoodName name) :
    exported m env name = m[name]?.or (env name) := by
  have hdistinct : m.toList.Pairwise fun u v => u.1 ≠ v.1 := by
    refine (ExtTreeMap.distinct_keys_toList (t := m)).imp fun hne heq => hne ?_
    rw [heq]
    exact ReflOrd.compare_self
  cases hget : m[name]? with
  | none =>
    refine foldl_setenv_of_ne (fun v hv heq => ?_) env
    have hsome := ExtTreeMap.mem_toList_iff_getElem?_eq_some.mp hv
    rw [heq, hget] at hsome
    cases hsome
  | some value =>
    exact foldl_setenv_of_mem hname hdistinct (ExtTreeMap.mem_toList_iff_getElem?_eq_some.mpr hget) env

end CText
