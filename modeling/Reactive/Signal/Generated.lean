import Reactive.Signal.Base

/-!
# Signals with a generator

Each pull calls the generator once and judges the outcome against the last value emitted:

1. a failure or a crash of the generator ends the signal with an error that names the pull;
2. a value equal to the sentinel completes it;
3. a first value, or one that compares as different from the last, is new;
4. any other value is the same as before, and the value from before is emitted again.

A signal at its end repeats its emission and does not call the generator again.

## Main definitions

* `Generator`
* `Generator.transitions` — the automaton behind such a signal
-/

namespace Reactive

/-- Where the values of a signal come from, and how they are judged. -/
structure Generator (m : Type → Type) where
  /-- Gives the next value, or fails with a cause. -/
  next : m (Except Crash (Except String Value))
  /-- Compares a value with the last one emitted; equality of values if absent. -/
  equals : Option (Equality m) := none
  /-- A value that completes the signal. -/
  sentinel : Option Value := none

namespace Generator

open BaseSignal

variable {m : Type → Type} [Monad m]

/-- Calls the generator. A crash is a failure whose cause is the message of the crash. -/
def outcome (g : Generator m) : m (Except String Value) := do
  match ← g.next with
  | .ok result => pure result
  | .error crash => pure (.error crash.message)

/-- Compares two values. -/
def compare (g : Generator m) (a b : Value) : m (Except Crash Bool) :=
  match g.equals with
  | some equals => equals a b
  | none => pure (.ok (a.alike b))

/-- Is this the value that completes the signal? -/
def isSentinel (g : Generator m) (v : Value) : Bool := g.sentinel.any fun s => s.alike v

/-- The model before the first pull. -/
def initialModel : Value :=
  .ofFields [("cache", .null), ("value", .null), ("error", .null), ("primed", .bool false)]

/-- Calls the generator and stores what it gave. -/
def generate (phase : PullPhase) : Action m (Generator m) Unit Emission :=
  ⟨fun _ _ g => do
    let (value, error) :=
      match ← g.outcome with
      | .ok value => (value, Value.null)
      | .error cause => (Value.null, .string (SignalFault.generator phase cause).message)
    pure (.ok ⟨update [("value", value), ("error", error)], none⟩)⟩

/-- A failure is stored. -/
def hasError : Guard m (Generator m) Unit :=
  pureGuard fun model _ => !(field model "error").isNull

/-- The stored value completes the signal. -/
def isDone : Guard m (Generator m) Unit :=
  ⟨fun model _ g => pure (.ok (g.isSentinel (field model "value")))⟩

/-- The stored value is the first, or differs from the last. -/
def isNew : Guard m (Generator m) Unit :=
  ⟨fun model _ g => do
    if isPrimed model then
      match ← g.compare (field model "value") (field model "cache") with
      | .ok same => pure (.ok (!same))
      | .error crash => pure (.error crash)
    else pure (.ok true)⟩

/-- Emits the stored failure. -/
def emitError : Action m (Generator m) Unit Emission :=
  pureAction fun model _ => .ofOutput (.error (textField model "error"))

/-- Completes the signal and forgets the last value. -/
def enterDone : Action m (Generator m) Unit Emission :=
  pureAction fun _ _ => ⟨update [("cache", .null)], some .done⟩

/-- Emits the stored value and remembers it. -/
def enterNew : Action m (Generator m) Unit Emission :=
  pureAction fun model _ =>
    let value := field model "value"
    ⟨update [("cache", value), ("primed", .bool true)], some (.new value)⟩

/-- Emits the last value again. -/
def enterSame : Action m (Generator m) Unit Emission :=
  pureAction fun model _ => .ofOutput (.same (field model "cache"))

/-- The transitions of a signal with a generator. The states `new` and `same` share the
transition of their group. -/
def transitions : List (Transition m (Generator m) Unit Emission) :=
  [⟨rootState, some initEvent, [branch initState none (some (emit .init))]⟩,
    ⟨initState, some pullEvent, [branch tempState none (some (generate .first))]⟩,
    ⟨runningState, some pullEvent, [branch tempState none (some (generate .subsequent))]⟩,
    ⟨tempState, none,
      [branch errorState (some hasError) (some emitError),
        branch doneState (some isDone) (some enterDone),
        branch newState (some isNew) (some enterNew),
        branch sameState none (some enterSame)]⟩,
    ⟨errorState, some pullEvent, [branch errorState none (some emitError)]⟩,
    ⟨doneState, some pullEvent, [branch doneState none (some (emit .done))]⟩]

/-- The started automaton of a generator, and what it shows. -/
def start (g : Generator m) : m (Automaton m (Generator m) Unit Emission × Emission) :=
  BaseSignal.start transitions initialModel g ()

end Generator

end Reactive
