import Mathlib
import Reactive.Signal

/-!
# What inputs amount to

The cases of `Combination.of` are tried in order, so each of them also says that the ones before it
did not apply. Here every case is spelled out once, with all that is known in it. A combined signal
whose function is pure answers each of them in one step.

## Main definitions

* `Emission.value?` — the value that is shown, if any
* `Combination.Accounts` — what each outcome says of the emissions
* `Combination.answer` — what a pure function of several signals keeps and shows
* `joined` — a function of inputs of which some may have no value

## Main results

* `Combination.accounts_of` — the outcome of some emissions accounts for them
* `Signal.pull_combined` — a pull of a pure function of several signals
* `Emission.values_eq_of_present`, `joined_eq_null` — values of inputs
-/

namespace Reactive

namespace Emission

/-- The value that is shown, if any. -/
def value? (e : Emission) : Option Value :=
  match e.controlState with
  | .new | .same => some e.output
  | .init | .error | .done => none

theorem errorMessage?_eq_none_iff {e : Emission} :
    e.errorMessage? = none ↔ e.controlState ≠ .error := by
  simp [errorMessage?]

/-- What is neither absent nor at an end shows a value that is not null. -/
theorem value?_of_present {e : Emission} (hterminal : e.controlState.isTerminal = false)
    (habsent : e.isAbsent = false) : e.value? = some e.output ∧ e.output ≠ .null := by
  obtain ⟨state, output⟩ := e
  cases state with
  | init => simp [isAbsent] at habsent
  | new | same =>
    refine ⟨rfl, ?_⟩
    rintro rfl
    simp [isAbsent, Value.isNull] at habsent
  | error | done => simp [ControlState.isTerminal] at hterminal

/-- What shows a value that is not null is present. -/
theorem isAbsent_eq_false {e : Emission} (hstate : e.controlState = .new ∨ e.controlState = .same)
    (houtput : e.output ≠ .null) : e.isAbsent = false := by
  obtain ⟨state, output⟩ := e
  have hnull : output.isNull = false := by
    cases output with
    | null => exact absurd rfl houtput
    | _ => rfl
  rcases hstate with rfl | rfl
  · exact hnull
  · exact hnull

end Emission

namespace Combination

/-- What an outcome says of the emissions that it is the outcome of. -/
inductive Accounts (emissions : List Emission) : Combination → Prop
  | failed (message : String) (hfailed : ∃ e ∈ emissions, e.controlState = .error) :
    Accounts emissions (failed message)
  | finished (hfinished : ∃ e ∈ emissions, e.controlState = .done) : Accounts emissions finished
  | absent (hrunning : ∀ e ∈ emissions, e.controlState.isTerminal = false)
      (habsent : ∃ e ∈ emissions, e.isAbsent = true) : Accounts emissions absent
  | unchanged (hpresent : ∀ e ∈ emissions, e.isAbsent = false)
      (hsame : ∀ e ∈ emissions, e.controlState = .same) : Accounts emissions unchanged
  | changed (hrunning : ∀ e ∈ emissions, e.controlState.isTerminal = false)
      (hpresent : ∀ e ∈ emissions, e.isAbsent = false) :
    Accounts emissions (changed (emissions.map Emission.output))

/-- **The outcome accounts for the emissions.** -/
theorem accounts_of (emissions : List Emission) : Accounts emissions (of emissions) := by
  show Accounts emissions
    (if emissions.filterMap Emission.errorMessage? ≠ [] then
      failed ("\n".intercalate (emissions.filterMap Emission.errorMessage?))
    else if emissions.any fun e => e.controlState = .done then finished
    else if emissions.any Emission.isAbsent then absent
    else if emissions.all fun e => e.controlState = .same then unchanged
    else changed (emissions.map Emission.output))
  split
  · next herrors =>
    obtain ⟨message, hmessage⟩ := List.exists_mem_of_ne_nil _ herrors
    obtain ⟨e, he, hsome⟩ := List.mem_filterMap.mp hmessage
    refine .failed _ ⟨e, he, ?_⟩
    by_contra hstate
    rw [Emission.errorMessage?_eq_none_iff.mpr hstate] at hsome
    exact nomatch hsome
  · next herrors =>
    have herror : ∀ e ∈ emissions, e.controlState ≠ .error := by
      intro e he
      rw [← Emission.errorMessage?_eq_none_iff]
      exact List.filterMap_eq_nil_iff.mp (not_not.mp herrors) e he
    split
    · next hdone =>
      obtain ⟨e, he, hstate⟩ := List.any_eq_true.mp hdone
      exact .finished ⟨e, he, of_decide_eq_true hstate⟩
    · next hdone =>
      have hrunning : ∀ e ∈ emissions, e.controlState.isTerminal = false := by
        intro e he
        have hnot : e.controlState ≠ .done := fun hstate =>
          hdone (List.any_eq_true.mpr ⟨e, he, decide_eq_true hstate⟩)
        have hnoterror := herror e he
        cases hstate : e.controlState with
        | error => exact absurd hstate hnoterror
        | done => exact absurd hstate hnot
        | init | new | same => rfl
      split
      · next habsent => exact .absent hrunning (List.any_eq_true.mp habsent)
      · next habsent =>
        have hpresent : ∀ e ∈ emissions, e.isAbsent = false := by
          simpa using habsent
        split
        · next hsame => exact .unchanged hpresent (by simpa using hsame)
        · exact .changed hrunning hpresent

/-- Inputs that all show their values from before. -/
theorem of_eq_unchanged {emissions : List Emission}
    (hsame : ∀ e ∈ emissions, e.controlState = .same)
    (hpresent : ∀ e ∈ emissions, e.isAbsent = false) : of emissions = unchanged := by
  have herrors : emissions.filterMap Emission.errorMessage? = [] :=
    List.filterMap_eq_nil_iff.mpr fun e he => by
      rw [Emission.errorMessage?_eq_none_iff, hsame e he]
      decide
  have hdone : (emissions.any fun e => e.controlState = .done) = false := by
    refine List.any_eq_false.mpr fun e he => ?_
    rw [hsame e he]
    decide
  have habsent : emissions.any Emission.isAbsent = false :=
    List.any_eq_false.mpr fun e he => by simp [hpresent e he]
  have hall : (emissions.all fun e => e.controlState = .same) = true :=
    List.all_eq_true.mpr fun e he => decide_eq_true (hsame e he)
  simp only [of, herrors, hdone, habsent, hall]
  rfl

/-- What a pure function of several signals keeps and shows when its inputs amount to this, and
`last` is its last result. -/
def answer (f : List Value → Value) (last : Value) : Combination → Value × Emission
  | failed message => (last, .error message)
  | finished => (last, .done)
  | absent => (.null, .new .null)
  | unchanged => (last, .same last)
  | changed outputs => (f outputs, .new (f outputs))

end Combination

namespace Signal

variable {m : Type → Type} [Monad m] [LawfulMonad m]

theorem combineStep_pure (f : List Value → Value) (last : Value) (emissions : List Emission) :
    combineStep (m := m) (fun values => pure (.ok (f values))) last emissions
      = pure (.ok ((Combination.of emissions).answer f last)) := by
  rw [combineStep]
  cases Combination.of emissions with
  | changed outputs => exact pure_bind ..
  | failed _ | finished | absent | unchanged => rfl

/-- A pull of a pure function of several signals, after pulls of the signals. -/
theorem pull_combined (f : List Value → Value) (inputs : List (Signal m)) (last : Value)
    (current : Emission) :
    (combined inputs (fun values => pure (.ok (f values))) last current).pull
      = pullAll inputs >>= fun done =>
          match done.2 with
          | some crash =>
            pure (combined done.1 (fun values => pure (.ok (f values))) last current, some crash)
          | none =>
            let shown := (Combination.of (done.1.map Signal.current)).answer f last
            pure (combined done.1 (fun values => pure (.ok (f values))) shown.1 shown.2, none) := by
  rw [pull]
  refine bind_congr fun done => ?_
  obtain ⟨inputs', crash?⟩ := done
  cases crash? with
  | some crash => rfl
  | none =>
    simp only [combineStep_pure, pure_bind]

end Signal

/-! ### Values of inputs -/

/-- A function of inputs. It is null if an input has no value yet, or null in its place. -/
def joined (f : List Value → Value) (inputs : List (Option Value)) : Value :=
  if inputs.any fun value? => value? = none || value? = some .null then .null
  else f (inputs.filterMap id)

/-- All inputs show values that are not null. -/
theorem joined_map_some (f : List Value → Value) {values : List Value} (h : .null ∉ values) :
    joined f (values.map some) = f values := by
  rw [joined, if_neg]
  · simp
  · simpa using h

/-- Emissions that are present show their outputs, and none of these is null. -/
theorem Emission.values_eq_of_present {emissions : List Emission}
    (hrunning : ∀ e ∈ emissions, e.controlState.isTerminal = false)
    (hpresent : ∀ e ∈ emissions, e.isAbsent = false) :
    emissions.map value? = (emissions.map output).map some ∧ .null ∉ emissions.map output := by
  constructor
  · rw [List.map_map]
    exact List.map_congr_left fun e he => (value?_of_present (hrunning e he) (hpresent e he)).1
  · intro hnull
    obtain ⟨e, he, houtput⟩ := List.mem_map.mp hnull
    exact (value?_of_present (hrunning e he) (hpresent e he)).2 houtput

/-- An absent input makes the function null. -/
theorem joined_eq_null (f : List Value → Value) {emissions : List Emission}
    (h : ∃ e ∈ emissions, e.isAbsent = true) :
    joined f (emissions.map Emission.value?) = .null := by
  obtain ⟨⟨state, output⟩, he, habsent⟩ := h
  rw [joined, if_pos]
  rw [List.any_map, List.any_eq_true]
  refine ⟨_, he, ?_⟩
  cases state with
  | init => rfl
  | new | same => simpa [Emission.isAbsent, Emission.value?] using habsent
  | error | done => simp [Emission.isAbsent] at habsent

end Reactive
