import Reactive.Proofs.Combination
import Reactive.Proofs.Writes

/-!
# What combined signals replay

A combined signal takes in what its inputs show when all of them show values and one of them is
new, or when one of them shows that it has none. When all inputs show their values from before it
replays what it came to when it last took something in. So long as no input fails or is complete
this cannot be told from computing again. But inputs may fail for a while, and a value that is new
while another input fails is not taken in. If afterwards all inputs go on with their values from
before, what is replayed does not account for it.

Here the inputs are any signals. After every pull of the combined signal it is looked at what the
inputs show; this is a cycle. Cycles are listed with the latest first.

## Main definitions

* `Cycle`, `Cycle.takenIn`
* `Cycle.latest` — the latest new output of each input
* `Cycle.heard` — the values of the inputs in the latest cycle that was taken in
* `Cycle.Faithful` — inputs that repeat their latest new output
* `Cycle.Missed` — something new was not taken in

## Main results

* `Cycle.heard_eq_latest` — if nothing is missed, the latest outputs were taken in
* `Signal.Remembers`, `Signal.satisfiesM_pull_remembers` — what a combined signal keeps
* `Signal.replay_of_play` — what a combined signal shows while all inputs show values
* `Signal.change_lost` — a new value that is not accounted for
-/

namespace Reactive

variable {m : Type → Type}

/-! ### Cycles -/

/-- What is seen of the inputs after a pull of a combined signal. -/
structure Cycle where
  shown : List Emission
  /-- An input crashed, so that the pull was given up. -/
  crashed : Bool
  deriving DecidableEq

namespace Cycle

/-- Was what the inputs show taken in? It was if one of them is new and all have values, or if one
of them shows that it has none. -/
def takenIn (c : Cycle) : Bool :=
  !c.crashed &&
    match Combination.of c.shown with
    | .absent | .changed _ => true
    | .failed _ | .finished | .unchanged => false

/-- The latest new output of each of `n` inputs. -/
def latest (n : Nat) : List Cycle → List (Option Value)
  | [] => List.replicate n none
  | c :: earlier => (c.shown.zip (latest n earlier)).map fun p =>
      if p.1.controlState = .new then some p.1.output else p.2

/-- The values that each of `n` inputs had in the latest cycle that was taken in. -/
def heard (n : Nat) : List Cycle → List (Option Value)
  | [] => List.replicate n none
  | c :: earlier => if c.takenIn then c.shown.map Emission.value? else heard n earlier

/-- What is the same as before is the latest new output that was seen in these cycles, for each of
`n` inputs. So an input shows something new first, and this was not seen before it was combined. -/
def Faithful (n : Nat) : List Cycle → Prop
  | [] => True
  | c :: earlier => Faithful n earlier ∧
      ∀ p ∈ c.shown.zip (latest n earlier), p.1.controlState = .same → p.2 = some p.1.output

/-- Since the latest cycle that was taken in, one of `n` inputs showed another new output than the
one that it had, or in that cycle one of them had gone back to having none. -/
def Missed (n : Nat) : List Cycle → Prop
  | [] => False
  | c :: earlier =>
    if c.takenIn then
      ∃ p ∈ c.shown.zip (latest n earlier), p.1.controlState = .init ∧ p.2 ≠ none
    else
      (∃ p ∈ c.shown.zip (latest n earlier), p.1.controlState = .new ∧ p.2 ≠ some p.1.output) ∨
        Missed n earlier

instance decidableFaithful (n : Nat) : (cycles : List Cycle) → Decidable (Faithful n cycles)
  | [] => inferInstanceAs (Decidable True)
  | _ :: earlier =>
    have := decidableFaithful n earlier
    inferInstanceAs (Decidable (_ ∧ _))

instance decidableMissed (n : Nat) : (cycles : List Cycle) → Decidable (Missed n cycles)
  | [] => inferInstanceAs (Decidable False)
  | c :: earlier =>
    have := decidableMissed n earlier
    inferInstanceAs (Decidable (if c.takenIn then _ else _ ∨ _))

variable {n : Nat} {c : Cycle} {cycles : List Cycle}

theorem length_latest (h : ∀ c ∈ cycles, c.shown.length = n) : (latest n cycles).length = n := by
  induction cycles with
  | nil => exact List.length_replicate
  | cons c earlier ih =>
    obtain ⟨hc, hearlier⟩ := List.forall_mem_cons.mp h
    simp [latest, hc, ih hearlier]

/-- In a cycle that was taken in no input has come to an end. -/
theorem running_of_takenIn (h : c.takenIn = true) :
    ∀ e ∈ c.shown, e.controlState.isTerminal = false := by
  have haccounts := Combination.accounts_of c.shown
  rw [takenIn, Bool.and_eq_true] at h
  cases hof : Combination.of c.shown with
  | failed _ | finished | unchanged =>
    rw [hof] at h
    cases h.2
  | absent =>
    rw [hof] at haccounts
    cases haccounts with | absent hrunning _ => exact hrunning
  | changed outputs =>
    rw [hof] at haccounts
    cases haccounts with | changed hrunning _ => exact hrunning

/-- **If nothing is missed, the latest outputs were taken in.** The induction is on the cycles; a
cycle that was not taken in changes neither side. -/
theorem heard_eq_latest (hlength : ∀ c ∈ cycles, c.shown.length = n)
    (hfaithful : Faithful n cycles) (hmissed : ¬ Missed n cycles) :
    heard n cycles = latest n cycles := by
  induction cycles with
  | nil => rfl
  | cons c earlier ih =>
    obtain ⟨hc, hearlier⟩ := List.forall_mem_cons.mp hlength
    obtain ⟨hbefore, hrepeats⟩ := hfaithful
    have hzip : c.shown.length = (latest n earlier).length := hc.trans (length_latest hearlier).symm
    rw [heard, latest]
    by_cases htaken : c.takenIn = true
    · rw [Missed, if_pos htaken] at hmissed
      rw [if_pos htaken]
      have hrunning := running_of_takenIn htaken
      calc c.shown.map Emission.value?
          = ((c.shown.zip (latest n earlier)).map Prod.fst).map Emission.value? := by
            rw [List.map_fst_zip hzip.le]
        _ = (c.shown.zip (latest n earlier)).map fun p => p.1.value? := List.map_map
        _ = _ := List.map_congr_left fun p hp => ?_
      have hstill := hrunning p.1 (List.of_mem_zip hp).1
      cases hstate : p.1.controlState with
      | init =>
        have hnone : p.2 = none := by
          by_contra hsome
          exact hmissed ⟨p, hp, hstate, hsome⟩
        simp [Emission.value?, hstate, hnone]
      | new => simp [Emission.value?, hstate]
      | same => simp [Emission.value?, hstate, hrepeats p hp hstate]
      | error | done =>
        rw [hstate] at hstill
        cases hstill
    · rw [Missed, if_neg htaken, not_or] at hmissed
      rw [if_neg htaken, ih hearlier hbefore hmissed.2]
      calc latest n earlier
          = (c.shown.zip (latest n earlier)).map Prod.snd := (List.map_snd_zip hzip.ge).symm
        _ = _ := List.map_congr_left fun p hp => ?_
      split
      · next hnew =>
        by_contra hother
        exact hmissed.1 ⟨p, hp, hnew, hother⟩
      · rfl

/-- While all inputs show their values from before, these are the latest outputs. -/
theorem latest_eq_of_same (hlength : ∀ c ∈ cycles, c.shown.length = n)
    (hc : c.shown.length = n) (hfaithful : Faithful n (c :: cycles))
    (hsame : ∀ e ∈ c.shown, e.controlState = .same) :
    latest n cycles = (c.shown.map Emission.output).map some := by
  have hzip : c.shown.length = (latest n cycles).length := hc.trans (length_latest hlength).symm
  calc latest n cycles
      = (c.shown.zip (latest n cycles)).map Prod.snd := (List.map_snd_zip hzip.ge).symm
    _ = (c.shown.zip (latest n cycles)).map fun p => some p.1.output :=
        List.map_congr_left fun p hp => hfaithful.2 p hp (hsame p.1 (List.of_mem_zip hp).1)
    _ = ((c.shown.zip (latest n cycles)).map Prod.fst).map fun e => some e.output :=
        (List.map_map (f := Prod.fst) (g := fun e : Emission => some e.output)).symm
    _ = (c.shown.map Emission.output).map some := by
        rw [List.map_fst_zip hzip.le, List.map_map]
        rfl

/-! ### What inputs that show values amount to -/

/-- All inputs show values, and none of these is null. -/
def ShowsValues (c : Cycle) : Prop :=
  ∀ e ∈ c.shown, (e.controlState = .new ∨ e.controlState = .same) ∧ e.output ≠ .null

namespace ShowsValues

theorem isAbsent_eq_false (h : c.ShowsValues) : ∀ e ∈ c.shown, e.isAbsent = false := by
  intro e he
  obtain ⟨hstate, houtput⟩ := h e he
  exact Emission.isAbsent_eq_false hstate houtput

theorem null_notMem (h : c.ShowsValues) : .null ∉ c.shown.map Emission.output := by
  intro hmem
  obtain ⟨e, he, houtput⟩ := List.mem_map.mp hmem
  exact (h e he).2 houtput

/-- If one of the values is new there is something new. -/
theorem of_eq_changed (h : c.ShowsValues) (hnew : ∃ e ∈ c.shown, e.controlState = .new) :
    Combination.of c.shown = .changed (c.shown.map Emission.output) := by
  have haccounts := Combination.accounts_of c.shown
  cases hof : Combination.of c.shown with
  | failed message =>
    rw [hof] at haccounts
    obtain ⟨_, e, he, hstate⟩ := haccounts
    simpa [hstate] using (h e he).1
  | finished =>
    rw [hof] at haccounts
    cases haccounts with | finished hfinished =>
    obtain ⟨e, he, hstate⟩ := hfinished
    simpa [hstate] using (h e he).1
  | absent =>
    rw [hof] at haccounts
    cases haccounts with | absent _ habsent =>
    obtain ⟨e, he, hnone⟩ := habsent
    rw [h.isAbsent_eq_false e he] at hnone
    cases hnone
  | unchanged =>
    rw [hof] at haccounts
    cases haccounts with | unchanged _ hsame =>
    obtain ⟨e, he, hstate⟩ := hnew
    rw [hsame e he] at hstate
    cases hstate
  | changed outputs =>
    rw [hof] at haccounts
    cases haccounts
    rfl

end ShowsValues

/-- What a combined signal keeps is the function of what it has heard. -/
theorem answer_eq_joined (f : List Value → Value) (n : Nat) (shown : List Emission)
    (cycles : List Cycle) :
    ((Combination.of shown).answer f (joined f (heard n cycles))).1
      = joined f (heard n (⟨shown, false⟩ :: cycles)) := by
  have haccounts := Combination.accounts_of shown
  rw [heard, takenIn]
  dsimp only
  cases hof : Combination.of shown with
  | failed _ | finished | unchanged => rfl
  | absent =>
    rw [hof] at haccounts
    cases haccounts with | absent _ habsent => exact (joined_eq_null f habsent).symm
  | changed outputs =>
    rw [hof] at haccounts
    cases haccounts with | changed hrunning hpresent =>
    obtain ⟨hshown, hnull⟩ := Emission.values_eq_of_present hrunning hpresent
    show f _ = joined f (shown.map Emission.value?)
    rw [hshown, joined_map_some f hnull]

end Cycle

/-! ### Pulls -/

/-- What a signal is combined of. -/
def Signal.inputs : Signal m → List (Signal m)
  | combined inputs _ _ _ => inputs
  | generated _ _ | observed _ _ _ _ | mapped _ _ _ _ | foreign _ _ => []

/-- The cycle of a pull. -/
def Cycle.of (done : Signal m × Option Crash) : Cycle :=
  ⟨done.1.inputs.map Signal.current, done.2.isSome⟩

namespace Signal

variable [Monad m] [LawfulMonad m] {f : List Value → Value} {n : Nat}

/-- A combined signal of `n` inputs that keeps the function of what it has heard. -/
structure Remembers (f : List Value → Value) (n : Nat) (cycles : List Cycle) (s : Signal m) :
    Prop where
  kept : ∃ inputs current, inputs.length = n ∧
    s = combined inputs (fun values => pure (.ok (f values))) (joined f (Cycle.heard n cycles))
      current
  length : ∀ c ∈ cycles, c.shown.length = n

omit [LawfulMonad m] in
/-- A new combined signal keeps null. -/
theorem remembers_combine {inputs : List (Signal m)} (h : inputs ≠ []) :
    (combine (fun values => pure (.ok (f values))) inputs).Remembers f inputs.length [] where
  kept := by
    refine ⟨inputs, .init, rfl, ?_⟩
    obtain ⟨first, rest, rfl⟩ := List.exists_cons_of_ne_nil h
    rfl
  length := by rintro _ ⟨⟩

/-- Pulling signals leaves as many. -/
theorem satisfiesM_length_pullAll (signals : List (Signal m)) :
    SatisfiesM (fun done => done.1.length = signals.length) (pullAll signals) := by
  induction signals with
  | nil => exact SatisfiesM.pure rfl
  | cons s rest ih =>
    rw [pullAll]
    refine SatisfiesM.trivial.bind fun done _ => ?_
    obtain ⟨s', crash?⟩ := done
    cases crash? with
    | some crash => exact SatisfiesM.pure rfl
    | none => exact ih.bind fun later hlater => SatisfiesM.pure (congrArg Nat.succ hlater)

/-- What a pull of a combined signal leaves: it keeps the function of what it has heard, and if no
input crashed it has answered what the inputs show. -/
structure Answers (f : List Value → Value) (n : Nat) (cycles : List Cycle)
    (done : Signal m × Option Crash) : Prop where
  remembers : done.1.Remembers f n (Cycle.of done :: cycles)
  current : done.2 = none → done.1.current
    = ((Combination.of (Cycle.of done).shown).answer f (joined f (Cycle.heard n cycles))).2

/-- **What a combined signal keeps.** -/
theorem satisfiesM_pull_remembers {cycles : List Cycle} {s : Signal m}
    (h : s.Remembers f n cycles) : SatisfiesM (Answers f n cycles) s.pull := by
  obtain ⟨⟨inputs, current, hinputs, rfl⟩, hlength⟩ := h
  rw [pull_combined]
  refine (satisfiesM_length_pullAll inputs).bind fun done hdone => ?_
  obtain ⟨inputs', crash?⟩ := done
  have hlength' : (inputs'.map Signal.current).length = n := by
    rw [List.length_map]
    exact hdone.trans hinputs
  cases crash? with
  | some crash =>
    refine SatisfiesM.pure ⟨⟨⟨inputs', current, hdone.trans hinputs, rfl⟩, ?_⟩, by rintro ⟨⟩⟩
    exact List.forall_mem_cons.mpr ⟨hlength', hlength⟩
  | none =>
    dsimp only
    rw [Cycle.answer_eq_joined]
    refine SatisfiesM.pure ⟨⟨⟨inputs', _, hdone.trans hinputs, rfl⟩, ?_⟩, fun _ => rfl⟩
    exact List.forall_mem_cons.mpr ⟨hlength', hlength⟩

/-! ### Runs -/

/-- What a combined signal shows after a pull when all its inputs show values. If one of them is
new this is the function of their outputs, and it is new. Otherwise it is the function of what was
heard, and if nothing was missed this is the function of their outputs as well. -/
structure Replays (f : List Value → Value) (n : Nat) (earlier : List (Signal m × Option Crash))
    (done : Signal m × Option Crash) : Prop where
  new : (∃ e ∈ (Cycle.of done).shown, e.controlState = .new) →
    done.1.current = .new (f ((Cycle.of done).shown.map Emission.output))
  same : (∀ e ∈ (Cycle.of done).shown, e.controlState = .same) →
    done.1.current = .same (joined f (Cycle.heard n (earlier.map Cycle.of)))
  upToDate : (∀ e ∈ (Cycle.of done).shown, e.controlState = .same) →
    Cycle.Faithful n ((done :: earlier).map Cycle.of) → ¬ Cycle.Missed n (earlier.map Cycle.of) →
    done.1.current = .same (f ((Cycle.of done).shown.map Emission.output))

omit [LawfulMonad m] in
/-- While all inputs show values, what they amount to depends on whether one of them is new. -/
theorem Answers.replays {earlier : List (Signal m × Option Crash)} {done : Signal m × Option Crash}
    (h : Answers f n (earlier.map Cycle.of) done) (hcrash : done.2 = none)
    (hvalues : (Cycle.of done).ShowsValues) : Replays f n earlier done := by
  have hcurrent := h.current hcrash
  obtain ⟨hc, hlength⟩ := List.forall_mem_cons.mp h.remembers.length
  have hsame : (∀ e ∈ (Cycle.of done).shown, e.controlState = .same) →
      done.1.current = .same (joined f (Cycle.heard n (earlier.map Cycle.of))) := by
    intro hsame
    rw [hcurrent, Combination.of_eq_unchanged hsame hvalues.isAbsent_eq_false]
    rfl
  refine ⟨fun hnew => ?_, hsame, fun hall hfaithful hmissed => ?_⟩
  · rw [hcurrent, hvalues.of_eq_changed hnew]
    rfl
  · rw [hsame hall, Cycle.heard_eq_latest hlength hfaithful.1 hmissed,
      Cycle.latest_eq_of_same hlength hc hfaithful hall, joined_map_some f hvalues.null_notMem]

/-- A combined signal after some pulls, all of which it has answered. -/
structure Answered (f : List Value → Value) (n : Nat) (earlier : List (Signal m × Option Crash))
    (s : Signal m) : Prop where
  remembers : s.Remembers f n (earlier.map Cycle.of)
  answers : ∀ done before, done :: before <:+ earlier → Answers f n (before.map Cycle.of) done

/-- A pull of a combined signal is answered. -/
theorem satisfiesM_pull_answered {earlier : List (Signal m × Option Crash)} {s : Signal m}
    (h : s.Answered f n earlier) :
    SatisfiesM (fun done => done.1.Answered f n (done :: earlier)) s.pull := by
  refine (satisfiesM_pull_remembers h.remembers).imp fun hdone => ⟨hdone.remembers, ?_⟩
  intro done' before hsuffix
  rcases List.suffix_cons_iff.mp hsuffix with heq | hsuffix
  · obtain ⟨rfl, rfl⟩ := List.cons_eq_cons.mp heq
    exact hdone
  · exact h.answers done' before hsuffix

/-- **What combined signals replay.** Signals of any kind, at least one, are combined by a pure
function. However often the result is pulled, and whatever happens in between: while all inputs show
values that are not null, a new value among them makes it show the function of their outputs, and
otherwise it replays the function of what it has heard. If the inputs repeat their latest new
outputs, all of them new since they were combined, and nothing was missed, this is the function of
their outputs too. -/
theorem replay_of_play (f : List Value → Value) {inputs : List (Signal m)} (h : inputs ≠ [])
    (turns : List (Turn m)) :
    SatisfiesM (fun dones => ∀ done earlier, done :: earlier <:+ dones.reverse →
        done.2 = none → (Cycle.of done).ShowsValues → Replays f inputs.length earlier done)
      ((combine (fun values => pure (.ok (f values))) inputs).play turns) := by
  have hnew :
      (combine (fun values => pure (.ok (f values))) inputs).Answered f inputs.length [] := by
    refine ⟨remembers_combine h, fun done before hsuffix => ?_⟩
    cases List.suffix_nil.mp hsuffix
  refine (satisfiesM_play (fun _ _ => satisfiesM_pull_answered) turns hnew).imp fun hdones => ?_
  obtain ⟨_, hanswered⟩ := hdones
  rw [List.append_nil] at hanswered
  exact fun done earlier hsuffix => (hanswered.answers done earlier hsuffix).replays

/-- A signal that shows what comes next on a tape. Others may read from the same tape. -/
def taped : Signal (StateM (List Emission)) :=
  foreign ⟨modifyGet fun tape => (.ok (tape.headD .init), tape.tail), pure ()⟩ .init

/-- What comes of three pulls of two signals that read from a tape in turns, and are made a list. -/
def tapedRun (tape : List Emission) : List (Signal (StateM (List Emission)) × Option Crash) :=
  (((combine (fun values => pure (.ok (.array values))) [taped, taped]).play
    [.pull, .pull, .pull]).run tape).1

/-- The second signal fails once, and meanwhile the first has nothing new. -/
def blip : List Emission :=
  [.new (.nat 1), .new (.nat 10), .same (.nat 1), .error "blip", .same (.nat 1), .same (.nat 10)]

theorem replay_of_play_blip :
    [taped, taped] ≠ [] ∧
      (∀ done earlier, done :: earlier <:+ (tapedRun blip).reverse → done.2 = none →
        (Cycle.of done).ShowsValues → Replays .array 2 earlier done) ∧
      Cycle.Faithful 2 ((tapedRun blip).reverse.map Cycle.of) ∧
      ¬ Cycle.Missed 2 ((tapedRun blip).reverse.map Cycle.of) ∧
      ((tapedRun blip).map fun done => done.1.current)
        = [.new (.array [.nat 1, .nat 10]), .error "blip", .same (.array [.nat 1, .nat 10])] :=
  ⟨List.cons_ne_nil _ _,
    satisfiesM_iff_run.mp (replay_of_play .array (List.cons_ne_nil taped [taped])
      [.pull, .pull, .pull]) blip,
    by decide +kernel, by decide +kernel, by decide +kernel⟩

/-- What is seen of a run in the end, below and above. -/
def tapedEnd (tape : List Emission) : Option (Cycle × Emission) :=
  (tapedRun tape).getLast?.map fun done => (Cycle.of done, done.1.current)

/-- The second signal fails once, and meanwhile the first has something new. -/
def change : List Emission :=
  [.new (.nat 1), .new (.nat 10), .new (.nat 2), .error "blip", .same (.nat 2), .same (.nat 10)]

/-- The first signal goes back to having nothing to show, and then shows what it had. -/
def gap : List Emission :=
  [.new (.nat 1), .new (.nat 10), .init, .same (.nat 10), .same (.nat 1), .same (.nat 10)]

/-- **A change may get lost.** Both inputs repeat their latest new outputs, and in the end they show
two and ten. What is shown above is the list of one and ten. And when an input had nothing to show
for a while, null is shown above, although both inputs show values again. -/
theorem change_lost :
    (Cycle.Faithful 2 ((tapedRun change).reverse.map Cycle.of) ∧
      tapedEnd change = some (⟨[.same (.nat 2), .same (.nat 10)], false⟩,
        .same (.array [.nat 1, .nat 10])) ∧
      Value.array [.nat 1, .nat 10] ≠ .array [.nat 2, .nat 10]) ∧
    Cycle.Faithful 2 ((tapedRun gap).reverse.map Cycle.of) ∧
      tapedEnd gap = some (⟨[.same (.nat 1), .same (.nat 10)], false⟩, .same .null) := by
  decide +kernel

end Signal

end Reactive
