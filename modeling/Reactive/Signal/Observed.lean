import Reactive.Exchange
import Reactive.Signal.Base

/-!
# Signals with a source

Such a signal has a mailbox, which is subscribed once to a source. Each pull collects what is in
the mailbox and judges it:

1. an error ends the signal with an error, a completion completes it;
2. a fresh value is new, unless a comparison is given and the value compares as equal to the last
   one emitted;
3. any other value is the same as before, and the value from before is emitted again;
4. an empty mailbox leaves the signal without a value.

A signal at its end repeats its emission.

## Main definitions

* `Observer`
* `Observer.transitions` — the automaton behind such a signal
-/

namespace Reactive

/-- How the values of a source are judged. -/
structure Observer (m : Type → Type) where
  /-- Compares a value with the last one emitted; if absent, what is pushed is always new. -/
  equals : Option (Equality m) := none

namespace Observer

open BaseSignal

variable {m : Type → Type} [Monad m]

/-- The model before the first pull. -/
def initialModel : Value :=
  .ofFields [("cache", .null), ("error", .null), ("primed", .bool false)]

/-- An error was collected. -/
def isError : Guard m (Observer m) Slot :=
  pureGuard fun _ slot => match slot with
    | .error _ => true
    | _ => false

/-- A completion was collected. -/
def isCompleted : Guard m (Observer m) Slot :=
  pureGuard fun _ slot => slot = .completed

/-- A fresh value was collected, and it is the first or differs from the last as far as the
comparison, if there is one, can tell. -/
def isNew : Guard m (Observer m) Slot :=
  ⟨fun model slot observer => do
    match slot with
    | .value v true =>
      match observer.equals with
      | some equals =>
        if isPrimed model then
          match ← equals v (field model "cache") with
          | .ok same => pure (.ok (!same))
          | .error crash => pure (.error crash)
        else pure (.ok true)
      | none => pure (.ok true)
    | _ => pure (.ok false)⟩

/-- A value was collected, fresh or not. -/
def hasValue : Guard m (Observer m) Slot :=
  pureGuard fun _ slot => match slot with
    | .value _ _ => true
    | _ => false

/-- Emits the collected error and stores its message. -/
def enterError : Action m (Observer m) Slot Emission :=
  pureAction fun _ slot =>
    let cause := match slot with
      | .error cause => cause
      | _ => ""
    let message := (SignalFault.source cause).message
    ⟨update [("error", .string message)], some (.error message)⟩

/-- Emits the stored error. -/
def repeatError : Action m (Observer m) Slot Emission :=
  pureAction fun model _ => .ofOutput (.error (textField model "error"))

/-- Emits the collected value and remembers it. -/
def enterNew : Action m (Observer m) Slot Emission :=
  pureAction fun _ slot =>
    let value := match slot with
      | .value v _ => v
      | _ => .null
    ⟨update [("cache", value), ("primed", .bool true)], some (.new value)⟩

/-- Emits the last value again. -/
def enterSame : Action m (Observer m) Slot Emission :=
  pureAction fun model _ => .ofOutput (.same (field model "cache"))

/-- The transitions of a signal with a source. The states `new` and `same` share the transition
of their group. -/
def transitions : List (Transition m (Observer m) Slot Emission) :=
  [⟨rootState, some initEvent, [branch initState none (some (emit .init))]⟩,
    ⟨initState, some pullEvent, [branch tempState none none]⟩,
    ⟨runningState, some pullEvent, [branch tempState none none]⟩,
    ⟨tempState, none,
      [branch errorState (some isError) (some enterError),
        branch doneState (some isCompleted) (some (emit .done)),
        branch newState (some isNew) (some enterNew),
        branch sameState (some hasValue) (some enterSame),
        branch initState none (some (emit .init))]⟩,
    ⟨errorState, some pullEvent, [branch errorState none (some repeatError)]⟩,
    ⟨doneState, some pullEvent, [branch doneState none (some (emit .done))]⟩]

/-- The started automaton of an observer, and what it shows. -/
def start (observer : Observer m) :
    m (Automaton m (Observer m) Slot Emission × Emission) :=
  BaseSignal.start transitions initialModel observer .empty

end Observer

end Reactive
