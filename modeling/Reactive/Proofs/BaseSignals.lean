import Reactive.Proofs.Merging
import Reactive.Proofs.Refinement
import Reactive.Signal

/-!
# Base signals as definitions

The automaton behind a base signal is the automaton of a definition without problems, so what a
pull does can be read off the definition. This is done here once for both kinds of base signals.
What they emit is described by verdicts, which leave no room for a failure of the automaton.

## Main definitions

* `Ending`, `Verdict`, `Verdict.emission`
* `Signal.watch` — the emissions of several pulls
* `BaseSignal.definition` — what the automaton of a base signal is compiled from
* `BaseSignal.assign` — a model with some members written

## Main results

* `Verdict.emission_ne_automaton` — no verdict is a failure of the automaton
* `BaseSignal.apply_update`, `field_assign` — updates never fail, and their effect
* `BaseSignal.fire_update_resting`, `fire_output_resting` — the last transition of a call
* `BaseSignal.start_realize`, `drive_realize` — starts and pulls in terms of the definition
-/

namespace Reactive

/-! ### Verdicts -/

/-- How a base signal ends. -/
inductive Ending where
  /-- The generator failed, at the first pull or at a later one. -/
  | generatorFailed (phase : PullPhase) (cause : String)
  /-- The source pushed an error. -/
  | sourceFailed (cause : String)
  | completed
  deriving DecidableEq

/-- What a pull of a base signal finds. -/
inductive Verdict where
  /-- There is no value yet. -/
  | absent
  | new (value : Value)
  | same (value : Value)
  | ended (ending : Ending)
  deriving DecidableEq

/-- What an ended signal shows. -/
def Ending.emission : Ending → Emission
  | generatorFailed .first cause =>
    .error ("first pull > error while executing generating function: " ++ cause)
  | generatorFailed .subsequent cause =>
    .error ("subsequent pull > error while executing generating function: " ++ cause)
  | sourceFailed cause => .error ("behavior > error emitted by the source behavior: " ++ cause)
  | completed => .done

/-- The texts are those of the faults. -/
theorem Ending.emission_generatorFailed (phase : PullPhase) (cause : String) :
    (generatorFailed phase cause).emission
      = .error (SignalFault.generator phase cause).message := by
  cases phase <;> rfl

/-- What a signal shows after a verdict. -/
def Verdict.emission : Verdict → Emission
  | absent => .init
  | new value => .new value
  | same value => .same value
  | ended ending => ending.emission

/-- The same as before is shown only by the verdict that says so. -/
theorem Verdict.eq_same {verdict : Verdict} (h : verdict.emission.controlState = .same) :
    ∃ value, verdict = .same value := by
  match verdict with
  | .same value => exact ⟨value, rfl⟩
  | .absent | .new _ | .ended .completed | .ended (.sourceFailed _)
  | .ended (.generatorFailed .first _) | .ended (.generatorFailed .subsequent _) => exact nomatch h

/-- Errors with texts that begin differently are different. -/
private theorem error_ne_error {s t : String} (h : s.toList.take 2 ≠ t.toList.take 2) :
    Emission.error s ≠ Emission.error t := by
  intro he
  injection he with _ he
  injection he with he
  exact h (congrArg (fun text => text.toList.take 2) he)

/-- **No verdict is a failure of the automaton.** -/
theorem Verdict.emission_ne_automaton (verdict : Verdict) (cause : String) :
    verdict.emission ≠ .error (SignalFault.automaton cause).message := by
  have hmessage : (SignalFault.automaton cause).message = "signal automaton failed: " ++ cause :=
    rfl
  rw [hmessage]
  cases verdict with
  | absent | new _ | same _ => nofun
  | ended ending =>
    cases ending with
    | completed => nofun
    | sourceFailed reason => exact error_ne_error (by simp)
    | generatorFailed phase reason =>
      cases phase with
      | first => exact error_ne_error (by simp)
      | subsequent => exact error_ne_error (by simp)

/-! ### Pulling several times -/

/-- What a signal shows after each of several pulls, and whether the pull crashed. -/
def Signal.watch {m : Type → Type} [Monad m] : Nat → Signal m → m (List (Emission × Option Crash))
  | 0, _ => pure []
  | count + 1, s => do
    let done ← s.pull
    let later ← watch count done.1
    pure ((done.1.current, done.2) :: later)

namespace BaseSignal

variable {m : Type → Type} {S E : Type}

/-- What the automaton of a base signal is compiled from. -/
def definition (transitions : List (Transition m S E Emission)) (model : Value) :
    Definition m S E Emission where
  states := states
  events := [pullEvent]
  transitions
  model
  config

/-! ### Models -/

/-- A model with some members written. What is no object stays as it is. -/
def assign (fields : List (String × Value)) : Value → Value
  | .object members => .object (OrderedMap.override members (OrderedMap.ofList fields))
  | other => other

@[simp] theorem isObject_assign (fields : List (String × Value)) (model : Value) :
    (assign fields model).isObject = model.isObject := by
  cases model <;> rfl

/-- **Updates never fail.** -/
theorem apply_update {model : Value} (h : model.isObject = true) (fields : List (String × Value)) :
    Patch.apply (update fields) model = .ok (assign fields model) := by
  cases model with
  | object members =>
    have hparse : Pointer.parse "" = .ok [] := rfl
    exact Patch.apply_members hparse (OrderedMap.ofList fields) (Value.get?_nil (.object members))
  | _ => simp [Value.isObject] at h

/-- What is written is read back, and other members stay as they were. -/
theorem field_assign {model : Value} (h : model.isObject = true) (fields : List (String × Value))
    (key : String) : field (assign fields model) key
      = ((fields.reverse.find? fun f => f.1 = key).map Prod.snd).getD (field model key) := by
  cases model with
  | object members =>
    have hwritten : OrderedMap.find? (OrderedMap.ofList fields) key
        = (fields.reverse.find? fun f => f.1 = key).map Prod.snd := by
      rw [OrderedMap.ofList, OrderedMap.find?_foldl_insert Prod.fst Prod.snd]
      simp
    show (OrderedMap.find? (OrderedMap.override members _) key).getD .null = _
    rw [OrderedMap.find?_override (OrderedMap.sorted_ofList fields), hwritten]
    cases fields.reverse.find? fun f => f.1 = key <;> rfl
  | _ => simp [Value.isObject] at h

/-! ### Branches -/

section Branches

variable [Monad m] {settings : S} {data : E} {event target : String} {s : Standing}
  {guard : Option (Guard m S E)}

/-- A branch whose guard decides at once. -/
theorem attempt_of_check [LawfulMonad m] {guard : Guard m S E} {passes : Bool}
    (h : guard.check s.model data settings = pure (.ok passes))
    (action : Option (Action m S E Emission)) (rest : List (Branch m S E Emission)) :
    Definition.attempt settings data event s (branch target (some guard) action :: rest)
      = if passes then
          Definition.fire settings data event s (branch target (some guard) action)
        else Definition.attempt settings data event s rest := by
  rw [Definition.attempt]
  simp only [branch, h, pure_bind]
  cases passes <;> rfl

/-- An action that writes members and emits. -/
theorem fire_update [LawfulMonad m] (hmodel : s.model.isObject = true)
    {run : Value → E → ActionResult Emission} {fields : List (String × Value)}
    {output : Option Emission} (h : run s.model data = ⟨update fields, output⟩) :
    Definition.fire settings data event s (branch target guard (some (pureAction run)))
      = pure (.fires (.state target) (assign fields s.model) output) := by
  simp only [Definition.fire, branch, pureAction, pure_bind, h, apply_update hmodel]

/-- An action that only emits. -/
theorem fire_output [LawfulMonad m] {run : Value → E → ActionResult Emission} {emission : Emission}
    (h : run s.model data = .ofOutput emission) :
    Definition.fire settings data event s (branch target guard (some (pureAction run)))
      = pure (.fires (.state target) s.model (some emission)) := by
  have hnothing : Patch.apply [] s.model = .ok s.model := rfl
  simp only [Definition.fire, branch, pureAction, pure_bind, h, ActionResult.ofOutput, hnothing]

variable {d : Definition m S E Emission}

/-- A branch that writes members and emits, and leads to where a call ends. -/
theorem fire_update_resting [LawfulMonad m] (hmodel : s.model.isObject = true)
    {run : Value → E → ActionResult Emission} {fields : List (String × Value)}
    {output : Option Emission} (h : run s.model data = ⟨update fields, output⟩)
    (hresting : d.followUp? target = none) (remaining depth : Nat) :
    Definition.fire settings data event s (branch target guard (some (pureAction run))) >>=
        d.follow settings data remaining depth event s
      = pure (d.move s (.state target) event depth (assign fields s.model), .ok output) := by
  rw [fire_update hmodel h, pure_bind]
  exact Definition.follow_fires_resting hresting

/-- A branch that only emits, and leads to where a call ends. -/
theorem fire_output_resting [LawfulMonad m] {run : Value → E → ActionResult Emission}
    {emission : Emission} (h : run s.model data = .ofOutput emission)
    (hresting : d.followUp? target = none) (remaining depth : Nat) :
    Definition.fire settings data event s (branch target guard (some (pureAction run))) >>=
        d.follow settings data remaining depth event s
      = pure (d.move s (.state target) event depth s.model, .ok (some emission)) := by
  rw [fire_output h, pure_bind]
  exact Definition.follow_fires_resting hresting

end Branches

/-! ### Calls -/

variable [Monad m] [LawfulMonad m]

/-- A pull in terms of the definition. -/
theorem drive_realize {transitions : List (Transition m S E Emission)} {model : Value}
    (h : (definition transitions model).problems = []) (settings : S) (s : Standing) (data : E)
    (current : Emission) : drive ((definition transitions model).realize settings s) data current
      = (fun done => ((definition transitions model).realize settings done.1,
          emissionOf current done.2)) <$>
        (definition transitions model).settle settings data 10000 0 pullEvent s := by
  have hsend : Prod.snd <$> Automaton.settleLog data 10000 0 pullEvent s.log
        ((definition transitions model).realize settings s)
      = ((definition transitions model).realize settings s).send pullEvent data :=
    Automaton.map_snd_settleLog data 10000 0 pullEvent s.log _
  rw [drive, ← hsend, Definition.settleLog_realize h, Functor.map_map, bind_map_left,
    map_eq_pure_bind]
  rfl

/-- A call that only emits. -/
theorem settle_emit {d : Definition m S E Emission} {settings : S} {data : E} {s : Standing}
    {event state target : String} {run : Value → E → ActionResult Emission} {emission : Emission}
    (hhandler : d.handler? s.current event
      = some (state, [branch target none (some (pureAction run))]))
    (hrun : run s.model data = .ofOutput emission) (hresting : d.followUp? target = none)
    (remaining depth : Nat) : d.settle settings data remaining depth event s
      = pure (d.move s (.state target) event depth s.model, .ok (some emission)) := by
  rw [Definition.settle_of_handler hhandler]
  exact fire_output_resting hrun hresting remaining depth

/-- The standing of a base signal that was just started. -/
def started (transitions : List (Transition m S E Emission)) (model : Value) : Standing :=
  (definition transitions model).move (.initial model) (.state initState) initEvent 0 model

/-- Starting shows that there is no value yet. -/
theorem start_realize {transitions : List (Transition m S E Emission)} {model : Value}
    (h : (definition transitions model).problems = [])
    (hhandler : (definition transitions model).handler? rootState initEvent
      = some (rootState, [branch initState none (some (emit .init))]))
    (hresting : (definition transitions model).followUp? initState = none) (settings : S)
    (data : E) : start transitions model settings data
      = pure ((definition transitions model).realize settings (started transitions model),
          .init) := by
  have hstart : Prod.snd <$> Automaton.settleLog data 10000 0 initEvent []
        ((definition transitions model).realize settings (.initial model))
      = (Automaton.ofTable (.compile states transitions) model settings config).startWith data :=
    Automaton.map_snd_settleLog data 10000 0 initEvent [] _
  have hsettle : (definition transitions model).settle settings data 10000 0 initEvent
        (.initial model) = pure (started transitions model, .ok (some .init)) :=
    settle_emit hhandler rfl hresting 10000 0
  have hrealize := Definition.settleLog_realize h settings data 10000 0 initEvent (.initial model)
  rw [hsettle, map_pure] at hrealize
  rw [start, ← hstart]
  show Prod.snd <$> Automaton.settleLog data 10000 0 initEvent (Standing.initial model).log _ >>= _
    = _
  rw [hrealize, map_pure, pure_bind]
  rfl

end BaseSignal

end Reactive
