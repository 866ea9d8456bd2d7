import Reactive.Proofs.BaseSignals
import Reactive.Proofs.Coupling

/-!
# What pulls of a generator show

A signal with a generator remembers little: that it has not been pulled, the last value that was
new, or how it ended. With this much the rules of the signal fit into a few lines, and there is no
automaton and no model in them. Pulls of the signal are what these rules give, whatever the
generator and the comparison do in whatever monad they run in, as long as the comparison does not
crash.

## Main definitions

* `SafeGenerator` — a generator whose comparison does not crash
* `SafeGenerator.Phase`, `pull`, `verdicts` — the rules
* `Generator.definition` — the automaton behind the signal, as a definition
* `SafeGenerator.Phase.Stands` — what the automaton is like in a phase
* `SafeGenerator.Obeys` — rules in which comparisons may break off

## Main results

* `Generator.settle_pull`, `settle_temp` — the two transitions of a pull
* `SafeGenerator.coupled_pull_unless` — one pull, if the comparison may break off
* `SafeGenerator.coupled_pull` — one pull, if it cannot
* `SafeGenerator.watch_generate` — a new signal and any number of pulls
-/

namespace Reactive

variable {m : Type → Type}

/-! ### The rules -/

/-- A generator whose comparison does not crash. -/
structure SafeGenerator (m : Type → Type) where
  /-- Gives the next value, fails with a cause or crashes. -/
  next : m (Except Crash (Except String Value))
  /-- Is the first value as good as the second? Equality of values if absent. -/
  equals : Option (Value → Value → m Bool) := none
  /-- A value that completes the signal. -/
  sentinel : Option Value := none

namespace SafeGenerator

/-- Where a signal stands, as far as it matters for what follows. -/
inductive Phase where
  /-- It has not been pulled. -/
  | fresh
  /-- Its last new value is `last`. -/
  | running (last : Value)
  | ended (ending : Ending)
  deriving DecidableEq

variable [Monad m]

/-- The same with a comparison that might crash. -/
def toGenerator (g : SafeGenerator m) : Generator m :=
  ⟨g.next, g.equals.map fun equals a b => Except.ok <$> equals a b, g.sentinel⟩

/-- Compares a value with the last one. -/
def isSame (g : SafeGenerator m) (value last : Value) : m Bool :=
  match g.equals with
  | some equals => equals value last
  | none => pure (value.alike last)

/-- Judges a value that was generated, where `last?` is the last new value if there is one. -/
def judge (g : SafeGenerator m) (last? : Option Value) (value : Value) : m (Phase × Verdict) :=
  if g.sentinel.any fun sentinel => sentinel.alike value then
    pure (.ended .completed, .ended .completed)
  else
    match last? with
    | none => pure (.running value, .new value)
    | some last => do
      if ← g.isSame value last then pure (.running last, .same last)
      else pure (.running value, .new value)

/-- Generates and judges. A failure ends the signal, and so does a crash. -/
def advance (g : SafeGenerator m) (pull : PullPhase) (last? : Option Value) :
    m (Phase × Verdict) := do
  match ← g.next with
  | .ok (.ok value) => g.judge last? value
  | .ok (.error cause) =>
    pure (.ended (.generatorFailed pull cause), .ended (.generatorFailed pull cause))
  | .error crash =>
    pure (.ended (.generatorFailed pull crash.message),
      .ended (.generatorFailed pull crash.message))

/-- **The rules.** A signal that has ended does nothing any more. -/
def pull (g : SafeGenerator m) : Phase → m (Phase × Verdict)
  | .fresh => g.advance .first none
  | .running last => g.advance .subsequent (some last)
  | .ended ending => pure (.ended ending, .ended ending)

/-- What several pulls find. -/
def verdicts (g : SafeGenerator m) : Nat → Phase → m (List Verdict)
  | 0, _ => pure []
  | count + 1, phase => do
    let ruled ← g.pull phase
    let later ← g.verdicts count ruled.1
    pure (ruled.2 :: later)

end SafeGenerator

namespace Generator

open BaseSignal

variable [Monad m]

/-! ### The automaton -/

/-- What the automaton behind a generator is compiled from. -/
def definition (m : Type → Type) [Monad m] : Definition m (Generator m) Unit Emission :=
  BaseSignal.definition transitions initialModel

theorem problems_definition : (definition m).problems = [] := rfl

/-- The states in which a call ends. -/
theorem followUp?_eq_none {state : String}
    (h : state ∈ [initState, newState, sameState, errorState, doneState]) :
    (definition m).followUp? state = none := by
  simp only [List.mem_cons, List.not_mem_nil, or_false] at h
  rcases h with rfl | rfl | rfl | rfl | rfl <;> rfl

/-- The model after the generator was called. -/
def stored (phase : PullPhase) (outcome : Except String Value) (model : Value) : Value :=
  match outcome with
  | .ok value => assign [("value", value), ("error", .null)] model
  | .error cause =>
    assign [("value", .null), ("error", .string (SignalFault.generator phase cause).message)] model

theorem isObject_stored (phase : PullPhase) (outcome : Except String Value) (model : Value) :
    (stored phase outcome model).isObject = model.isObject := by
  cases outcome <;> exact isObject_assign ..

/-- Storing an outcome leaves the other members as they were. -/
theorem field_stored {model : Value} (h : model.isObject = true) {key : String}
    (hvalue : "value" ≠ key) (herror : "error" ≠ key) (phase : PullPhase)
    (outcome : Except String Value) : field (stored phase outcome model) key = field model key := by
  cases outcome <;> simp [stored, field_assign h, hvalue, herror]

theorem field_stored_ok {model : Value} (h : model.isObject = true) (phase : PullPhase)
    (value : Value) : field (stored phase (.ok value) model) "value" = value ∧
      field (stored phase (.ok value) model) "error" = .null := by
  constructor <;> simp [stored, field_assign h]

theorem field_stored_error {model : Value} (h : model.isObject = true) (phase : PullPhase)
    (cause : String) : field (stored phase (.error cause) model) "error"
      = .string (SignalFault.generator phase cause).message := by
  simp [stored, field_assign h]

/-- What becomes of a stored outcome. -/
def judge (g : Generator m) (s : Standing) : m (Standing × Except Halt (Option Emission)) := do
  if !(field s.model "error").isNull then
    pure ((definition m).move s (.state errorState) autoEvent 1 s.model,
      .ok (some (.error (textField s.model "error"))))
  else if g.isSentinel (field s.model "value") then
    pure ((definition m).move s (.state doneState) autoEvent 1 (assign [("cache", .null)] s.model),
      .ok (some .done))
  else
    match ← isNew.check s.model () g with
    | .error crash => pure (s, .error (.crashed crash))
    | .ok true =>
      pure ((definition m).move s (.state newState) autoEvent 1
          (assign [("cache", field s.model "value"), ("primed", .bool true)] s.model),
        .ok (some (.new (field s.model "value"))))
    | .ok false =>
      pure ((definition m).move s (.state sameState) autoEvent 1 s.model,
        .ok (some (.same (field s.model "cache"))))

/-- Before the first value nothing is compared. -/
theorem check_isNew_of_not_primed {g : Generator m} {model : Value} (h : isPrimed model = false) :
    isNew.check model () g = pure (.ok true) := by
  simp only [isNew, h, Bool.false_eq_true, if_false]

variable [LawfulMonad m]

/-- A start fires one transition. -/
theorem start_eq (g : Generator m) : g.start
    = pure ((definition m).realize g (started (transitions (m := m)) initialModel), .init) :=
  start_realize problems_definition rfl (followUp?_eq_none (by simp)) g ()

/-- The first transition of a pull calls the generator, and the call goes on. -/
theorem settle_pull {g : Generator m} {s : Standing} {state : String} {phase : PullPhase}
    (hmodel : s.model.isObject = true)
    (hhandler : (definition m).handler? s.current pullEvent
      = some (state, [branch tempState none (some (generate phase))])) (remaining : Nat) :
    (definition m).settle g () (remaining + 1) 0 pullEvent s
      = g.outcome >>= fun outcome => (definition m).settle g () remaining 1 autoEvent
          ((definition m).move s (.state tempState) pullEvent 0
            (stored phase outcome s.model)) := by
  have hauto : (definition m).followUp? tempState = some autoEvent := rfl
  rw [Definition.settle_of_handler hhandler, Definition.attempt]
  simp only [branch, Definition.fire, generate, bind_assoc]
  refine bind_congr fun outcome => ?_
  cases outcome with
  | ok value =>
    simp only [pure_bind, apply_update hmodel, stored]
    exact Definition.follow_fires_automatic hauto
  | error cause =>
    simp only [pure_bind, apply_update hmodel, stored]
    exact Definition.follow_fires_automatic hauto

/-- The second transition of a pull judges what is stored, and ends the call. -/
theorem settle_temp {g : Generator m} {s : Standing} (hstate : s.current = tempState)
    (hmodel : s.model.isObject = true) (remaining : Nat) :
    (definition m).settle g () remaining 1 autoEvent s = judge g s := by
  have hhandler : (definition m).handler? s.current autoEvent
      = some (tempState, [branch errorState (some hasError) (some emitError),
        branch doneState (some isDone) (some enterDone),
        branch newState (some isNew) (some enterNew),
        branch sameState none (some enterSame)]) := by
    rw [hstate]
    rfl
  rw [Definition.settle_of_handler hhandler, judge,
    attempt_of_check rfl]
  split
  · exact fire_output_resting rfl (followUp?_eq_none (by simp)) remaining 1
  · rw [attempt_of_check rfl]
    split
    · exact fire_update_resting hmodel rfl (followUp?_eq_none (by simp)) remaining 1
    · show (isNew.check s.model () g >>= _) >>= _ = _
      rw [bind_assoc]
      refine bind_congr fun verdict => ?_
      match verdict with
      | .error crash => exact pure_bind ..
      | .ok true => exact fire_update_resting hmodel rfl (followUp?_eq_none (by simp)) remaining 1
      | .ok false => exact fire_output_resting rfl (followUp?_eq_none (by simp)) remaining 1

/-- A pull of a signal that has failed. -/
theorem settle_error {g : Generator m} {s : Standing} (hstate : s.current = errorState)
    (remaining : Nat) : (definition m).settle g () remaining 0 pullEvent s
      = pure ((definition m).move s (.state errorState) pullEvent 0 s.model,
          .ok (some (.error (textField s.model "error")))) := by
  have hhandler : (definition m).handler? s.current pullEvent
      = some (errorState, [branch errorState none (some emitError)]) := by
    rw [hstate]
    rfl
  exact settle_emit hhandler rfl (followUp?_eq_none (by simp)) remaining 0

/-- A pull of a signal that is complete. -/
theorem settle_done {g : Generator m} {s : Standing} (hstate : s.current = doneState)
    (remaining : Nat) : (definition m).settle g () remaining 0 pullEvent s
      = pure ((definition m).move s (.state doneState) pullEvent 0 s.model, .ok (some .done)) := by
  have hhandler : (definition m).handler? s.current pullEvent
      = some (doneState, [branch doneState none (some (emit .done))]) := by
    rw [hstate]
    rfl
  exact settle_emit hhandler rfl (followUp?_eq_none (by simp)) remaining 0

end Generator

namespace SafeGenerator

open BaseSignal

/-! ### Standings and phases -/

/-- What the automaton is like, and what it shows, in a phase. -/
def Phase.Stands (s : Standing) (current : Emission) : Phase → Prop
  | .fresh =>
    s.current = initState ∧ s.model.isObject = true ∧ isPrimed s.model = false ∧ current = .init
  | .running last =>
    (s.current = newState ∨ s.current = sameState) ∧ s.model.isObject = true ∧
      isPrimed s.model = true ∧ field s.model "cache" = last ∧
      (current = .new last ∨ current = .same last)
  | .ended .completed => s.current = doneState ∧ current = .done
  | .ended ending =>
    s.current = errorState ∧ ending.emission = .error (textField s.model "error") ∧
      current = ending.emission

variable [Monad m] [LawfulMonad m]

/-- What a pull of the automaton in a standing has to do with a pull by the rules. -/
def Agrees (phase : Phase) (done : Standing × Except Halt (Option Emission))
    (ruled : Phase × Verdict) : Prop :=
  done.2 = .ok (some ruled.2.emission) ∧ ruled.1.Stands done.1 ruled.2.emission ∧
    ∀ last, ruled.2 = .same last → phase = .running last

/-! ### Comparisons that break off

The comparison of a generator may crash. What a pull does until then is said by the same rules, with
comparisons that may break off: to the rules this is an exception, of one kind or another. If there
are no kinds of exceptions, nothing breaks off. -/

section

variable {κ : Type} {toCrash : κ → Crash} {g : Generator m} {r : SafeGenerator (ExceptT κ m)}

/-- A generator obeys some rules. What is an exception to the rules is a crash of its comparison. -/
structure Obeys (g : Generator m) (toCrash : κ → Crash) (r : SafeGenerator (ExceptT κ m)) :
    Prop where
  next : r.next = ExceptT.lift g.next
  sentinel : r.sentinel = g.sentinel
  compare : ∀ value last,
    g.compare value last = Except.mapError toCrash <$> (r.isSame value last).run

/-- What a pull of the automaton has to do with a pull by the rules, if there may be exceptions.
These leave the automaton in the middle of the pull. -/
def AgreesUnless (toCrash : κ → Crash) (phase : Phase)
    (done : Standing × Except Halt (Option Emission)) : Except κ (Phase × Verdict) → Prop
  | .ok ruled => Agrees phase done ruled
  | .error exception =>
    done.1.current = tempState ∧ done.2 = .error (.crashed (toCrash exception))

/-- After the first value a value is new if it is not the same as the last. -/
theorem check_isNew_of_primed (hobeys : Obeys g toCrash r) {model : Value}
    (h : isPrimed model = true) : Generator.isNew.check model () g
      = (fun result => (result.map not).mapError toCrash) <$>
          (r.isSame (field model "value") (field model "cache")).run := by
  simp only [Generator.isNew, h, if_true, hobeys.compare, bind_map_left]
  rw [map_eq_pure_bind]
  refine bind_congr fun result => ?_
  cases result <;> rfl

/-- Judging a value that was stored. -/
theorem coupled_judge (hobeys : Obeys g toCrash r) {s : Standing} {phase : Phase}
    {last? : Option Value} (htemp : s.current = tempState) (hmodel : s.model.isObject = true)
    (herror : field s.model "error" = .null) (hprimed : isPrimed s.model = last?.isSome)
    (hlast : ∀ last, last? = some last → field s.model "cache" = last ∧ phase = .running last) :
    Coupled (AgreesUnless toCrash phase) (Generator.judge g s)
      (r.judge last? (field s.model "value")).run := by
  have hnew : ∀ value, Agrees phase
      ((Generator.definition m).move s (.state newState) autoEvent 1
        (assign [("cache", value), ("primed", .bool true)] s.model), .ok (some (.new value)))
      (.running value, .new value) := by
    intro value
    have hprimed' : isPrimed (assign [("cache", value), ("primed", .bool true)] s.model) = true := by
      simp [isPrimed, field_assign hmodel]
    have hcache : field (assign [("cache", value), ("primed", .bool true)] s.model) "cache"
        = value := by
      simp [field_assign hmodel]
    refine ⟨rfl, ?_, by rintro _ ⟨⟩⟩
    exact ⟨Or.inl rfl, (isObject_assign _ _).trans hmodel, hprimed', hcache, Or.inl rfl⟩
  unfold Generator.judge judge
  rw [herror, if_neg (by simp [Value.isNull]), hobeys.sentinel,
    show g.isSentinel (field s.model "value")
      = g.sentinel.any fun sentinel => sentinel.alike (field s.model "value") from rfl]
  split
  · exact Coupled.pure ⟨rfl, ⟨rfl, rfl⟩, by rintro _ ⟨⟩⟩
  · cases last? with
    | none =>
      rw [Generator.check_isNew_of_not_primed hprimed, pure_bind]
      exact Coupled.pure (hnew _)
    | some last =>
      obtain ⟨hcache, hphase⟩ := hlast last rfl
      have hsame : Agrees phase
          ((Generator.definition m).move s (.state sameState) autoEvent 1 s.model,
            .ok (some (.same last))) (.running last, .same last) :=
        ⟨rfl, ⟨Or.inr rfl, hmodel, hprimed, hcache, Or.inr rfl⟩, fun _ he =>
          (Verdict.same.inj he) ▸ hphase⟩
      rw [check_isNew_of_primed hobeys hprimed, hcache, bind_map_left, ExceptT.run_bind]
      refine Coupled.bind_left fun result => ?_
      rcases result with exception | _ | _
      · exact Coupled.pure ⟨htemp, rfl⟩
      · exact Coupled.pure (hnew _)
      · exact Coupled.pure hsame

omit [LawfulMonad m] in
/-- Judging a failure that was stored. -/
theorem judge_failed (phase : Phase) {s : Standing} {pull : PullPhase} {cause : String}
    (herror : field s.model "error" = .string (SignalFault.generator pull cause).message) :
    ∃ done, Generator.judge g s = pure done ∧
      Agrees phase done
        (.ended (.generatorFailed pull cause), .ended (.generatorFailed pull cause)) := by
  have htext : textField s.model "error" = (SignalFault.generator pull cause).message := by
    rw [textField, herror]
    rfl
  have hemission := Ending.emission_generatorFailed pull cause
  unfold Generator.judge
  rw [herror, htext, if_pos (by simp [Value.isNull]), ← hemission]
  refine ⟨_, rfl, rfl, ⟨rfl, ?_, rfl⟩, by rintro _ ⟨⟩⟩
  show (Ending.generatorFailed pull cause).emission = .error (textField s.model "error")
  rw [hemission, htext]

/-- The outcome of the generator, where a crash counts as a failure. -/
theorem outcome_eq (g : Generator m) : g.outcome
    = (fun result => match result with
        | .ok outcome => outcome
        | .error crash => .error crash.message) <$> g.next := by
  rw [Generator.outcome, map_eq_pure_bind]
  refine bind_congr fun result => ?_
  cases result <;> rfl

/-- Calling the generator and judging what it gave. -/
theorem coupled_advance (hobeys : Obeys g toCrash r) {s : Standing} {phase : Phase} {state : String}
    {last? : Option Value} {pull : PullPhase} (hmodel : s.model.isObject = true)
    (hhandler : (Generator.definition m).handler? s.current pullEvent
      = some (state, [branch tempState none (some (Generator.generate pull))]))
    (hprimed : isPrimed s.model = last?.isSome)
    (hlast : ∀ last, last? = some last → field s.model "cache" = last ∧ phase = .running last) :
    Coupled (AgreesUnless toCrash phase)
      ((Generator.definition m).settle g () 10000 0 pullEvent s) (r.advance pull last?).run := by
  let judged (outcome : Except String Value) := (Generator.definition m).move s (.state tempState)
    pullEvent 0 (Generator.stored pull outcome s.model)
  have hobject : ∀ outcome, (judged outcome).model.isObject = true :=
    fun outcome => (Generator.isObject_stored pull outcome s.model).trans hmodel
  have hkept : ∀ {key}, "value" ≠ key → "error" ≠ key → ∀ outcome,
      field (judged outcome).model key = field s.model key :=
    fun hvalue herror => Generator.field_stored hmodel hvalue herror pull
  have htemp : ∀ outcome,
      (Generator.definition m).settle g () 9999 1 autoEvent (judged outcome)
        = Generator.judge g (judged outcome) :=
    fun outcome => Generator.settle_temp rfl (hobject outcome) 9999
  have hfailed : ∀ cause, Coupled (AgreesUnless toCrash phase)
      (Generator.judge g (judged (.error cause)))
      (pure (.ok (.ended (.generatorFailed pull cause), .ended (.generatorFailed pull cause)))) := by
    intro cause
    obtain ⟨done, hjudge, hagrees⟩ :=
      judge_failed (g := g) (s := judged (.error cause)) phase
        (Generator.field_stored_error hmodel pull cause)
    rw [hjudge]
    exact Coupled.pure hagrees
  rw [Generator.settle_pull hmodel hhandler, outcome_eq, bind_map_left, advance, hobeys.next,
    ExceptT.run_bind, ExceptT.run_lift, bind_map_left]
  refine Coupled.bind_left fun result => ?_
  rw [htemp]
  match result with
  | .ok (.ok value) =>
    obtain ⟨hvalue, herror⟩ := Generator.field_stored_ok hmodel pull value
    have hprimed' : isPrimed (judged (.ok value)).model = last?.isSome := by
      rw [← hprimed, isPrimed, isPrimed, hkept (by simp) (by simp)]
    have hlast' : ∀ last, last? = some last →
        field (judged (.ok value)).model "cache" = last ∧ phase = .running last := by
      intro last hsome
      rw [hkept (by simp) (by simp)]
      exact hlast last hsome
    have hjudge : Coupled (AgreesUnless toCrash phase) (Generator.judge g (judged (.ok value)))
        (r.judge last? (field (judged (.ok value)).model "value")).run :=
      coupled_judge hobeys rfl (hobject _) herror hprimed' hlast'
    rwa [show field (judged (.ok value)).model "value" = value from hvalue] at hjudge
  | .ok (.error cause) => exact hfailed cause
  | .error crash => exact hfailed crash.message

/-- **One pull of the automaton**, up to an exception. Each phase has its own transition. -/
theorem coupled_settle_unless (hobeys : Obeys g toCrash r) {s : Standing} {current : Emission}
    {phase : Phase} (h : phase.Stands s current) : Coupled (AgreesUnless toCrash phase)
      ((Generator.definition m).settle g () 10000 0 pullEvent s) (r.pull phase).run := by
  match phase, h with
  | .fresh, ⟨hstate, hmodel, hprimed, _⟩ =>
    have hhandler : (Generator.definition m).handler? s.current pullEvent
        = some (initState, [branch tempState none (some (Generator.generate .first))]) := by
      rw [hstate]
      rfl
    exact coupled_advance hobeys hmodel hhandler hprimed nofun
  | .running last, ⟨hstate, hmodel, hprimed, hcache, _⟩ =>
    have hhandler : (Generator.definition m).handler? s.current pullEvent
        = some (runningState, [branch tempState none (some (Generator.generate .subsequent))]) := by
      rcases hstate with hstate | hstate <;> rw [hstate] <;> rfl
    refine coupled_advance hobeys hmodel hhandler hprimed ?_
    rintro _ ⟨⟩
    exact ⟨hcache, rfl⟩
  | .ended .completed, ⟨hstate, _⟩ =>
    rw [Generator.settle_done hstate]
    exact Coupled.pure ⟨rfl, ⟨rfl, rfl⟩, nofun⟩
  | .ended (.generatorFailed _ _), ⟨hstate, hshown, _⟩
  | .ended (.sourceFailed _), ⟨hstate, hshown, _⟩ =>
    rw [Generator.settle_error hstate, ← hshown]
    exact Coupled.pure ⟨rfl, ⟨rfl, hshown, rfl⟩, nofun⟩

/-- A signal with a generator is in a phase. -/
def Phase.Describes (g : Generator m) (signal : Signal m) (phase : Phase) : Prop :=
  ∃ s : Standing, signal = .generated ((Generator.definition m).realize g s) signal.current ∧
    phase.Stands s signal.current

/-- A signal with a generator was left in the middle of a pull. -/
def Stuck (g : Generator m) (signal : Signal m) : Prop :=
  ∃ s : Standing, signal = .generated ((Generator.definition m).realize g s) signal.current ∧
    s.current = tempState

/-- What the pull of a signal has to do with a pull by the rules, if there may be exceptions. -/
def PullsUnless (g : Generator m) (toCrash : κ → Crash) (phase : Phase) (before : Emission)
    (done : Signal m × Option Crash) : Except κ (Phase × Verdict) → Prop
  | .ok ruled => done.2 = none ∧ ruled.1.Describes g done.1 ∧
      done.1.current = ruled.2.emission ∧ ∀ last, ruled.2 = .same last → phase = .running last
  | .error exception =>
    done.2 = some (toCrash exception) ∧ Stuck g done.1 ∧ done.1.current = before

/-- **One pull of the signal**, up to an exception. -/
theorem coupled_pull_unless (hobeys : Obeys g toCrash r) {phase : Phase} {signal : Signal m}
    (h : phase.Describes g signal) :
    Coupled (PullsUnless g toCrash phase signal.current) signal.pull (r.pull phase).run := by
  obtain ⟨s, hsignal, hstands⟩ := h
  rw [hsignal, Signal.pull, Generator.definition, drive_realize Generator.problems_definition,
    bind_map_left, ← bind_pure (r.pull phase).run]
  refine (coupled_settle_unless hobeys hstands).bind ?_
  rintro ⟨s', result⟩ (exception | ruled) hagrees
  · obtain ⟨htemp, hresult⟩ := hagrees
    obtain rfl : result = .error (.crashed (toCrash exception)) := hresult
    exact Coupled.pure ⟨rfl, ⟨s', rfl, htemp⟩, rfl⟩
  · obtain ⟨hresult, hstands', hsame⟩ := hagrees
    obtain rfl : result = .ok (some ruled.2.emission) := hresult
    exact Coupled.pure ⟨rfl, ⟨s', rfl, hstands'⟩, rfl, hsame⟩

end

/-! ### Comparisons that cannot crash -/

/-- The same rules where there might be exceptions. -/
def lift (κ : Type) (g : SafeGenerator m) : SafeGenerator (ExceptT κ m) where
  next := ExceptT.lift g.next
  equals := g.equals.map fun equals a b => ExceptT.lift (equals a b)
  sentinel := g.sentinel

theorem run_isSame_lift (κ : Type) (g : SafeGenerator m) (value last : Value) :
    ((g.lift κ).isSame value last).run = Except.ok <$> g.isSame value last := by
  rw [isSame, isSame, lift]
  cases g.equals with
  | none => exact (map_pure Except.ok _).symm
  | some equals => rfl

/-- There are none. -/
theorem run_pull_lift (κ : Type) (g : SafeGenerator m) (phase : Phase) :
    ((g.lift κ).pull phase).run = Except.ok <$> g.pull phase := by
  have hjudge : ∀ last? value,
      ((g.lift κ).judge last? value).run = Except.ok <$> g.judge last? value := by
    intro last? value
    unfold judge
    rw [show (g.lift κ).sentinel = g.sentinel from rfl]
    split
    · exact (map_pure Except.ok _).symm
    · cases last? with
      | none => exact (map_pure Except.ok _).symm
      | some last =>
        rw [ExceptT.run_bind, run_isSame_lift, bind_map_left, map_bind]
        refine bind_congr fun same => ?_
        cases same with
        | true => exact (map_pure Except.ok _).symm
        | false => exact (map_pure Except.ok _).symm
  have hadvance : ∀ pull last?,
      ((g.lift κ).advance pull last?).run = Except.ok <$> g.advance pull last? := by
    intro pull last?
    rw [advance, advance, ExceptT.run_bind, show (g.lift κ).next = ExceptT.lift g.next from rfl,
      ExceptT.run_lift, bind_map_left, map_bind]
    refine bind_congr fun result => ?_
    rcases result with crash | cause | value
    · exact (map_pure Except.ok _).symm
    · exact (map_pure Except.ok _).symm
    · exact hjudge last? value
  cases phase with
  | fresh => exact hadvance .first none
  | running last => exact hadvance .subsequent (some last)
  | ended ending => exact (map_pure Except.ok _).symm

theorem obeys_lift (g : SafeGenerator m) : Obeys g.toGenerator Empty.elim (g.lift Empty) where
  next := rfl
  sentinel := rfl
  compare value last := by
    rw [run_isSame_lift, Functor.map_map, Generator.compare, isSame, toGenerator]
    cases g.equals with
    | none => exact (map_pure Except.ok _).symm
    | some equals => rfl

/-! ### Signals -/

/-- A signal is one of this generator, in a phase. -/
def Represents (g : SafeGenerator m) (phase : Phase) (signal : Signal m) : Prop :=
  ∃ s : Standing,
    signal = .generated ((Generator.definition m).realize g.toGenerator s) signal.current ∧
      phase.Stands s signal.current

/-- A new signal is in the phase `fresh`. -/
theorem generate_toGenerator (g : SafeGenerator m) :
    ∃ signal : Signal m, Signal.generate g.toGenerator = pure signal ∧
      g.Represents .fresh signal ∧ signal.current = .init := by
  refine ⟨.generated ((Generator.definition m).realize g.toGenerator
    (started (Generator.transitions (m := m)) Generator.initialModel)) .init, ?_, ⟨_, rfl, ?_⟩, rfl⟩
  · rw [Signal.generate, Generator.start_eq, pure_bind]
  · exact ⟨rfl, rfl, rfl, rfl⟩

/-- **One pull of the signal.** It shows the same as before only if its last new value is that. -/
theorem coupled_pull (g : SafeGenerator m) {phase : Phase} {signal : Signal m}
    (h : g.Represents phase signal) :
    Coupled (fun done ruled => done.2 = none ∧ g.Represents ruled.1 done.1 ∧
        done.1.current = ruled.2.emission ∧ ∀ last, ruled.2 = .same last → phase = .running last)
      signal.pull (g.pull phase) := by
  have hlifted := coupled_pull_unless g.obeys_lift (show phase.Describes g.toGenerator signal from h)
  rw [run_pull_lift] at hlifted
  exact hlifted.of_ok fun _ _ hpulls => hpulls

/-- Any number of pulls. The induction is on their number. -/
theorem watch_represents (g : SafeGenerator m) (count : Nat) {phase : Phase} {signal : Signal m}
    (h : g.Represents phase signal) : signal.watch count
      = (List.map fun verdict => (verdict.emission, none)) <$> g.verdicts count phase := by
  induction count generalizing phase signal with
  | zero => rw [Signal.watch, verdicts, map_pure, List.map_nil]
  | succ count ih =>
    have hcoupled : Coupled Eq (signal.watch (count + 1))
        ((List.map fun verdict => (verdict.emission, none)) <$> g.verdicts (count + 1) phase) := by
      rw [Signal.watch, verdicts, map_bind]
      refine (g.coupled_pull h).bind ?_
      intro done ruled ⟨hcrash, hrepresents, hshown, _⟩
      rw [ih hrepresents, bind_map_left, map_bind]
      refine Coupled.bind_left fun later => ?_
      rw [map_pure, List.map_cons, ← hshown, hcrash]
      exact Coupled.pure rfl
    exact hcoupled.eq

/-- An ended signal repeats itself. -/
theorem verdicts_ended (g : SafeGenerator m) (count : Nat) (ending : Ending) :
    g.verdicts count (.ended ending) = pure (List.replicate count (.ended ending)) := by
  induction count with
  | zero => rfl
  | succ count ih =>
    rw [verdicts, pull, pure_bind, ih, pure_bind]
    rfl

/-- **A signal with a generator shows what the rules say.** At first there is no value. Each pull
generates once, up to the end of the signal, which is then repeated without generating. What is
shown is the emission of a verdict, and so never a failure of the automaton. -/
theorem watch_generate (g : SafeGenerator m) (count : Nat) :
    (do
        let signal ← Signal.generate g.toGenerator
        let later ← signal.watch count
        pure (signal.current, later))
      = (fun verdicts => (.init, verdicts.map fun verdict => (verdict.emission, none))) <$>
          g.verdicts count .fresh
    ∧ (∀ ending, g.verdicts count (.ended ending) = pure (List.replicate count (.ended ending)))
    ∧ ∀ (verdict : Verdict) (cause : String),
        verdict.emission ≠ .error (SignalFault.automaton cause).message := by
  refine ⟨?_, g.verdicts_ended count, Verdict.emission_ne_automaton⟩
  obtain ⟨signal, hgenerate, hrepresents, hinit⟩ := g.generate_toGenerator
  rw [hgenerate, pure_bind, g.watch_represents count hrepresents, hinit, bind_map_left,
    map_eq_pure_bind]

/-- Gives the number seven twice and then the text that completes the signal, counting its calls. -/
def sevens : SafeGenerator (StateM Nat) where
  next := do
    let calls ← get
    set (calls + 1)
    pure (.ok (.ok (if calls < 2 then .nat 7 else .string "end")))
  sentinel := some (.string "end")

theorem watch_generate_sevens :
    (do
        let signal ← Signal.generate sevens.toGenerator
        let later ← signal.watch 4
        pure (signal.current, later) : StateM Nat (Emission × List (Emission × Option Crash))).run 0
      = ((.init, [(.new (.nat 7), none), (.same (.nat 7), none), (.done, none), (.done, none)]),
          3) := by
  rw [(sevens.watch_generate 4).1]
  rfl

end SafeGenerator

end Reactive
