import Reactive.Table
import Reactive.Trace

/-!
# Automata

An automaton rests in a state and has a model. It starts in the root. Sending an event makes it
try the branches that handle the event in the present state. If one passes, its action runs, the
model is updated, the state is left and the target is entered. If the entered state is automatic
the automaton goes on by itself, until it rests in a state that is not, until no guard passes, or
until it has taken more automatic transitions in a row than its configuration allows.

A call returns the output of the last action it ran if it ended in a state that is not automatic.
A call whose event has no handler is counted as dropped. A call may also halt: because of a failed
update of the model, because of the limit, or because of a crash in supplied code. What earlier
transitions of the call did stays, and of the failing transition nothing is seen.

## Main definitions

* `Automaton`, `Definition.build`
* `Automaton.step` — at most one transition
* `Automaton.settle` — transitions until the automaton rests
* `Automaton.send`, `Automaton.startWith`
-/

namespace Reactive

/-- Why a call of an automaton failed. -/
inductive RunError where
  /-- More than `limit` automatic transitions in a row; `state` was entered last. -/
  | cascadeLimitExceeded (state : String) (limit : UInt64)
  /-- In `state`, the update asked for by a branch for `event` could not be applied. -/
  | modelUpdate (state event : String) (cause : Patch.Error)
  deriving DecidableEq

/-- A failure in words. -/
def RunError.message : RunError → String
  | cascadeLimitExceeded state limit =>
    let steps := limit.toNat
    s!"Automatic transitions did not settle within {steps} steps (last entered '{state}')"
  | modelUpdate state event cause =>
    let reason := cause.message
    s!"Model update for event '{event}' in state '{state}' failed: {reason}"

/-- Why a call of an automaton ended early. -/
inductive Halt where
  | failed (error : RunError)
  | crashed (crash : Crash)
  deriving DecidableEq

/-- A running automaton. -/
structure Automaton (m : Type → Type) (S E O : Type) where
  table : Table m S E O
  /-- The state the automaton rests in. -/
  current : String
  model : Value
  settings : S
  config : Config
  trace : Trace Firing
  /-- How many events found no handler. -/
  dropped : Nat

variable {m : Type → Type} {S E O : Type}

/-- The automaton of a list of states and transitions, in the root. -/
def Automaton.ofTable (table : Table m S E O) (model : Value) (settings : S) (config : Config) :
    Automaton m S E O where
  table
  current := rootState
  model
  settings
  config
  trace := .ofCapacity config.traceCapacity
  dropped := 0

/-- The automaton of a definition without problems, if there is room for its trace. -/
def Definition.build (definition : Definition m S E O) (settings : S) :
    Except BuildError (Automaton m S E O) :=
  match definition.problems with
  | [] =>
    if Trace.isReservable definition.config.traceCapacity then
      .ok (.ofTable (.compile definition.states definition.transitions) definition.model settings
        definition.config)
    else .error .traceTooLarge
  | problems => .error (.invalidDefinition problems)

namespace Automaton

/-! ### Looking at an automaton -/

/-- Has the first transition fired? -/
def isStarted (a : Automaton m S E O) : Bool := a.current ≠ rootState

/-- Is this the name of an active state? -/
def isActive (a : Automaton m S E O) (name : String) : Bool :=
  (a.table.record? name).any StateRecord.active

/-- The state that was last left in a given state. -/
def lastSeen? (a : Automaton m S E O) (name : String) : Option String :=
  (a.table.record? name).bind StateRecord.lastSeen

/-! ### One transition -/

/-- Counts a dropped event. -/
def drop (a : Automaton m S E O) : Automaton m S E O := { a with dropped := a.dropped + 1 }

/-- Leaves the present state for a target, with a new model, and traces the firing. -/
def move (a : Automaton m S E O) (target : Target) (event : String) (depth : Nat)
    (model : Value) : Automaton m S E O :=
  let left := a.table.leave a.current
  let entered := left.destination target
  { a with
    table := left.activate entered
    current := entered
    model
    trace := a.trace.record ⟨a.current, event, entered, .ofNat depth⟩ }

/-- What became of one event. -/
inductive Step (m : Type → Type) (S E O : Type) where
  /-- Nothing handles it. -/
  | unhandled
  /-- No guard passes. -/
  | blocked
  /-- A guard or an action crashed, or the model could not be updated. -/
  | halted (halt : Halt)
  /-- A branch fired, which left this automaton and this output. -/
  | fired (next : Automaton m S E O) (output : Option O)

variable [Monad m]

/-- Handles one event, as the transition number `depth` of a call. -/
def step (a : Automaton m S E O) (event : String) (data : E) (depth : Nat) :
    m (Step m S E O) := do
  match a.table.resolve? a.current event with
  | none => pure .unhandled
  | some (_, branches) =>
    match ← firstPassing a.model data a.settings branches with
    | .error crash => pure (.halted (.crashed crash))
    | .ok none => pure .blocked
    | .ok (some branch) =>
      match ← branch.run a.model data a.settings with
      | .error crash => pure (.halted (.crashed crash))
      | .ok result =>
        match Patch.apply result.update a.model with
        | .error cause => pure (.halted (.failed (.modelUpdate a.current event cause)))
        | .ok model => pure (.fired (a.move branch.target event depth model) result.output)

/-! ### Calls -/

/-- Handles an event, and then the events that automatic states call for, `remaining` of them at
most. The automaton stands behind `depth` transitions of the same call. -/
def settle (data : E) :
    (remaining depth : Nat) → String → Automaton m S E O →
      m (Automaton m S E O × Except Halt (Option O))
  | remaining, depth, event, a => do
    match ← a.step event data depth with
    | .unhandled => pure (if depth = 0 then a.drop else a, .ok none)
    | .blocked => pure (a, .ok none)
    | .halted halt => pure (a, .error halt)
    | .fired next output =>
      match next.table.cascadeEvent? next.current with
      | none => pure (next, .ok output)
      | some event' =>
        match remaining with
        | 0 =>
          pure (next,
            .error (.failed (.cascadeLimitExceeded next.current next.config.maxCascadeDepth)))
        | remaining + 1 => settle data remaining (depth + 1) event' next

/-- Sends an event with its data. -/
def send (a : Automaton m S E O) (event : String) (data : E) :
    m (Automaton m S E O × Except Halt (Option O)) :=
  settle data a.config.maxCascadeDepth.toNat 0 event a

/-- Sends `init` to an automaton that has not started; after that it is dropped. -/
def startWith (a : Automaton m S E O) (data : E) :
    m (Automaton m S E O × Except Halt (Option O)) :=
  if a.current = rootState then a.send initEvent data else pure (a.drop, .ok none)

end Automaton

end Reactive
