import Reactive.Value.Text

/-!
# Emissions

What a signal shows after a pull: whether its value is new, the same as before, missing, or at an
end, and the value itself. An error carries its message as a string.

## Main definitions

* `ControlState`, `Emission`
* `Emission.errorMessage?`, `Emission.isAbsent`
-/

namespace Reactive

/-- The outcome of a pull. -/
inductive ControlState where
  /-- Not pulled yet, or nothing to show yet. -/
  | init
  /-- A first value, or one different from before. -/
  | new
  /-- The value from before. -/
  | same
  /-- The signal failed. -/
  | error
  /-- The signal is complete. -/
  | done
  deriving DecidableEq

namespace ControlState

/-- The name of a control state. -/
def name : ControlState → String
  | init => "init"
  | new => "new"
  | same => "same"
  | error => "error"
  | done => "done"

/-- A signal of its own that has failed or is complete stays so. -/
def isTerminal : ControlState → Bool
  | error | done => true
  | init | new | same => false

end ControlState

/-- What a signal shows. -/
structure Emission where
  controlState : ControlState
  /-- Null where there is nothing to show. -/
  output : Value
  deriving DecidableEq

namespace Emission

/-- Nothing to show yet. -/
def init : Emission := ⟨.init, .null⟩

/-- A new value. -/
def new (output : Value) : Emission := ⟨.new, output⟩

/-- The value from before. -/
def same (output : Value) : Emission := ⟨.same, output⟩

/-- A failure with its message. -/
def error (message : String) : Emission := ⟨.error, .string message⟩

/-- Completion. -/
def done : Emission := ⟨.done, .null⟩

/-- The message of a failure; one that is no string is written compactly. -/
def errorMessage? (e : Emission) : Option String :=
  if e.controlState = .error then some e.output.display else none

/-- Is there no value yet, or a null in its place? Failure and completion are not absence. -/
def isAbsent (e : Emission) : Bool :=
  match e.controlState with
  | .init => true
  | .new | .same => e.output.isNull
  | .error | .done => false

end Emission

end Reactive
