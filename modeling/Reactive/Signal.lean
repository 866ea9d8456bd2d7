import Reactive.Signal.Generated
import Reactive.Signal.Observed

/-!
# Signals

A signal is pulled, and then shows an emission. Every pull tells whether the value is new or the
same as before, and whoever builds on the signal uses this to compute only when something changed.

A base signal has a generator or a source, and an automaton of its own, whose ends are final. On
top of them signals are mapped and combined. A mapped or combined signal has no end of its own: if
what is below shows values again, so does it. A signal may also be foreign, that is, given by what
a pull of it does.

## Main definitions

* `Signal`, `Signal.current`, `Signal.pull`
* `Signal.generate`, `observe`, `map`, `combine`, `foreign` — new signals
* `Combination` — what the emissions of several signals amount to
* `Signal.release` — ends all subscriptions
-/

namespace Reactive

/-- A signal that is not built here. -/
structure ForeignSignal (m : Type → Type) where
  /-- Advances the signal and gives what it then shows. -/
  pull : m (Except Crash Emission)
  /-- Lets go of whatever the signal holds. -/
  release : m Unit

/-- A value that is recomputed when it is pulled. -/
inductive Signal (m : Type → Type) where
  /-- The values of a generator. -/
  | generated (automaton : Automaton m (Generator m) Unit Emission) (current : Emission)
  /-- What is collected from a mailbox by `collect`. -/
  | observed (automaton : Automaton m (Observer m) Slot Emission) (collect : m Slot)
      (subscription : Subscription m) (current : Emission)
  /-- A function of another signal, with its last result. -/
  | mapped (source : Signal m) (f : Value → m (Except Crash Value)) (last : Value)
      (current : Emission)
  /-- A function of several signals, with its last result. -/
  | combined (inputs : List (Signal m)) (f : List Value → m (Except Crash Value))
      (last : Value) (current : Emission)
  /-- A signal given by what a pull does. -/
  | foreign (signal : ForeignSignal m) (current : Emission)

/-- What the emissions of several signals amount to. Of two outcomes that apply the first
counts. -/
inductive Combination where
  /-- Some failed, with these messages, one to a line. -/
  | failed (message : String)
  /-- Some are complete. -/
  | finished
  /-- Some have no value. -/
  | absent
  /-- All have their values from before. -/
  | unchanged
  /-- There is something new among these values. -/
  | changed (outputs : List Value)
  deriving DecidableEq

/-- What some emissions amount to. -/
def Combination.of (emissions : List Emission) : Combination :=
  let errors := emissions.filterMap Emission.errorMessage?
  if errors ≠ [] then .failed ("\n".intercalate errors)
  else if emissions.any fun e => e.controlState = .done then .finished
  else if emissions.any Emission.isAbsent then .absent
  else if emissions.all fun e => e.controlState = .same then .unchanged
  else .changed (emissions.map Emission.output)

namespace Signal

variable {m : Type → Type}

/-- What a signal shows. -/
def current : Signal m → Emission
  | generated _ current | observed _ _ _ current | mapped _ _ _ current
  | combined _ _ _ current | foreign _ current => current

variable [Monad m]

/-! ### Pulling -/

/-- What a mapped signal keeps and shows after its source showed an emission. -/
def mapStep (f : Value → m (Except Crash Value)) (last : Value) (below : Emission) :
    m (Except Crash (Value × Emission)) :=
  match below.controlState with
  | .new => do
    match ← f below.output with
    | .ok result => pure (.ok (result, .new result))
    | .error crash => pure (.error crash)
  | .same => pure (.ok (last, .same last))
  | .init | .error | .done => pure (.ok (last, below))

/-- What a combined signal keeps and shows after its inputs showed some emissions. -/
def combineStep (f : List Value → m (Except Crash Value)) (last : Value)
    (emissions : List Emission) : m (Except Crash (Value × Emission)) :=
  match Combination.of emissions with
  | .failed message => pure (.ok (last, .error message))
  | .finished => pure (.ok (last, .done))
  | .absent => pure (.ok (.null, .new .null))
  | .unchanged => pure (.ok (last, .same last))
  | .changed outputs => do
    match ← f outputs with
    | .ok result => pure (.ok (result, .new result))
    | .error crash => pure (.error crash)

mutual

/-- Advances a signal. Everything below it is advanced first, in order. A crash ends the pull and
is given back; what had advanced before stays so, and the rest is left as it was. -/
def pull : Signal m → m (Signal m × Option Crash)
  | generated automaton current => do
    match ← BaseSignal.drive automaton () current with
    | (automaton', .ok emission) => pure (generated automaton' emission, none)
    | (automaton', .error crash) => pure (generated automaton' current, some crash)
  | observed automaton collect subscription current => do
    let slot ← collect
    match ← BaseSignal.drive automaton slot current with
    | (automaton', .ok emission) =>
      pure (observed automaton' collect subscription emission, none)
    | (automaton', .error crash) =>
      pure (observed automaton' collect subscription current, some crash)
  | mapped source f last current => do
    match ← source.pull with
    | (source', some crash) => pure (mapped source' f last current, some crash)
    | (source', none) =>
      match ← mapStep f last source'.current with
      | .ok (last', emission) => pure (mapped source' f last' emission, none)
      | .error crash => pure (mapped source' f last current, some crash)
  | combined inputs f last current => do
    match ← pullAll inputs with
    | (inputs', some crash) => pure (combined inputs' f last current, some crash)
    | (inputs', none) =>
      match ← combineStep f last (inputs'.map Signal.current) with
      | .ok (last', emission) => pure (combined inputs' f last' emission, none)
      | .error crash => pure (combined inputs' f last current, some crash)
  | foreign signal current => do
    match ← signal.pull with
    | .ok emission => pure (foreign signal emission, none)
    | .error crash => pure (foreign signal current, some crash)

/-- Advances several signals in order, up to the first that crashes. -/
def pullAll : List (Signal m) → m (List (Signal m) × Option Crash)
  | [] => pure ([], none)
  | s :: rest => do
    match ← s.pull with
    | (s', some crash) => pure (s' :: rest, some crash)
    | (s', none) =>
      let (rest', crash?) ← pullAll rest
      pure (s' :: rest', crash?)

end

/-! ### Releasing -/

mutual

/-- Ends the subscriptions of a signal and of everything below it. -/
def release : Signal m → m Unit
  | generated _ _ => pure ()
  | observed _ _ subscription _ => subscription.release
  | mapped source _ _ _ => source.release
  | combined inputs _ _ _ => releaseAll inputs
  | foreign signal _ => signal.release

/-- Ends the subscriptions of several signals, in order. -/
def releaseAll : List (Signal m) → m Unit
  | [] => pure ()
  | s :: rest => do
    s.release
    releaseAll rest

end

/-! ### New signals -/

/-- A signal with a generator. -/
def generate (g : Generator m) : m (Signal m) := do
  let (automaton, emission) ← g.start
  pure (generated automaton emission)

/-- A signal with a source, which is subscribed to at once. -/
def observe [MonadStateOf Exchange m] (source : Source m) (observer : Observer m) :
    m (Signal m) := do
  let mailbox ← modifyGetThe Exchange Exchange.openMailbox
  let subscription ← source.subscribe mailbox
  let (automaton, emission) ← observer.start
  pure (observed automaton (modifyGetThe Exchange fun x => x.collect mailbox) subscription emission)

/-- A function of another signal. It is computed when the source has a new value. -/
def map (source : Signal m) (f : Value → m (Except Crash Value)) : Signal m :=
  mapped source f .null .init

/-- A function of several signals. It is computed when all have values and one of them is new. -/
def combine (f : List Value → m (Except Crash Value)) (inputs : List (Signal m)) : Signal m :=
  combined inputs f .null .init

end Signal

end Reactive
