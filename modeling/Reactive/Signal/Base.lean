import Reactive.Automaton
import Reactive.Emission

/-!
# What base signals share

A base signal gets its values from outside: from a generator, or from a mailbox. Each is driven by
an automaton of its own, in which a pull is an event and the emission is the output. Both automata
have the same states:

* `init` — no value yet;
* `temp` — a pull is being judged, left at once by an automatic transition;
* `new` and `same`, in the group `running` — the last pull gave a value;
* `error` and `done` — the signal is at its end.

## Main definitions

* `Equality` — a comparison of values supplied by the user
* `PullPhase`, `SignalFault` and their wording
* `BaseSignal.states`, and the name of each
* `BaseSignal.field`, `update`, `emit` — the vocabulary of guards and actions
* `BaseSignal.start`, `drive` — a call of the automaton, as an emission
-/

namespace Reactive

/-- A comparison of values in place of equality: is the first as good as the second? -/
abbrev Equality (m : Type → Type) : Type := Value → Value → m (Except Crash Bool)

/-- Which pull of a signal is meant. -/
inductive PullPhase where
  | first
  | subsequent
  deriving DecidableEq

/-- The phase in words. -/
def PullPhase.name : PullPhase → String
  | first => "first pull"
  | subsequent => "subsequent pull"

/-- A failure inside a base signal, which becomes the message of an emission. -/
inductive SignalFault where
  /-- The generator failed or crashed. -/
  | generator (phase : PullPhase) (cause : String)
  /-- The source pushed an error. -/
  | source (cause : String)
  /-- The automaton behind the signal failed. -/
  | automaton (cause : String)
  deriving DecidableEq

/-- A fault in words. -/
def SignalFault.message : SignalFault → String
  | generator phase cause =>
    let pull := phase.name
    s!"{pull} > error while executing generating function: {cause}"
  | source cause => s!"behavior > error emitted by the source behavior: {cause}"
  | automaton cause => s!"signal automaton failed: {cause}"

namespace BaseSignal

/-! ### States -/

/-- No value yet. -/
def initState : String := "init"

/-- A pull is being judged. -/
def tempState : String := "temp"

/-- The group of the states with a value. -/
def runningState : String := "running"

/-- The last pull gave a new value. -/
def newState : String := "new"

/-- The last pull gave the value from before. -/
def sameState : String := "same"

/-- The signal has failed. -/
def errorState : String := "error"

/-- The signal is complete. -/
def doneState : String := "done"

/-- The event of a pull. -/
def pullEvent : String := "pull"

/-- The states of a base signal. -/
def states : StateTree :=
  [.leaf initState, .leaf tempState, .group runningState [.leaf newState, .leaf sameState],
    .leaf errorState, .leaf doneState]

/-- Base signals keep no trace. -/
def config : Config := { traceCapacity := 0 }

variable {m : Type → Type} {S E : Type}

/-! ### Guards and actions -/

/-- A member of the model, null if there is none. -/
def field (model : Value) (key : String) : Value := (model.member? key).getD .null

/-- A member of the model that is a string, as text; anything else as the empty text. -/
def textField (model : Value) (key : String) : String := (field model key).asString?.getD ""

/-- Has the model recorded that a value was emitted? -/
def isPrimed (model : Value) : Bool := field model "primed" = .bool true

/-- Writes members of the model. -/
def update (fields : List (String × Value)) : List Patch.Operation :=
  match Patch.ofFields "" (.ofFields fields) with
  | .ok ops => ops
  | .error _ => []

/-- A branch from guard and action. -/
def branch (target : String) (guard : Option (Guard m S E))
    (action : Option (Action m S E Emission)) : Branch m S E Emission :=
  ⟨.state target, guard, action⟩

variable [Monad m]

/-- A guard that cannot crash. -/
def pureGuard (check : Value → E → Bool) : Guard m S E :=
  ⟨fun model data _ => pure (.ok (check model data))⟩

/-- An action that cannot crash. -/
def pureAction (run : Value → E → ActionResult Emission) : Action m S E Emission :=
  ⟨fun model data _ => pure (.ok (run model data))⟩

/-- An action that only emits. -/
def emit (emission : Emission) : Action m S E Emission :=
  pureAction fun _ _ => .ofOutput emission

/-! ### Driving -/

/-- Makes an emission of what a call of the automaton returned. No output keeps the present
emission, and a failure of the automaton is a fault of the signal. -/
def emissionOf (current : Emission) : Except Halt (Option Emission) → Except Crash Emission
  | .ok (some emission) => .ok emission
  | .ok none => .ok current
  | .error (.failed error) => .ok (.error (SignalFault.automaton error.message).message)
  | .error (.crashed crash) => .error crash

/-- Starts the automaton of a base signal. -/
def start (transitions : List (Transition m S E Emission)) (model : Value) (settings : S)
    (data : E) : m (Automaton m S E Emission × Emission) := do
  let automaton := Automaton.ofTable (.compile states transitions) model settings config
  let (automaton, result) ← automaton.startWith data
  match emissionOf .init result with
  | .ok emission => pure (automaton, emission)
  | .error _ => pure (automaton, .init)

/-- Sends a pull to the automaton of a base signal. -/
def drive (automaton : Automaton m S E Emission) (data : E) (current : Emission) :
    m (Automaton m S E Emission × Except Crash Emission) := do
  let (automaton, result) ← automaton.send pullEvent data
  pure (automaton, emissionOf current result)

end BaseSignal

end Reactive
