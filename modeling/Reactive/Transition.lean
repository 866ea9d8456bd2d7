import Reactive.Crash
import Reactive.Patch

/-!
# Transitions

A transition leaves a state for an event. It has branches, which are tried in order: the first one
whose guard passes fires, and a branch without a guard always passes. A branch that fires runs its
action, which may change the model and may produce an output, and leads to its target.

A transition without an event is automatic. It is handled under the name `auto`, which no sent
event may be declared by.

Guards and actions see the model, the data of the event and the settings of the automaton. All
three types below are over the monad `m` in which they run, the settings `S`, the data of events
`E` and the outputs `O`.

## Main definitions

* `Target`, `Guard`, `ActionResult`, `Action`, `Branch`, `Transition`
* `Branch.passes`, `Branch.run`, `firstPassing`
-/

namespace Reactive

/-- The event that starts an automaton, and that is sent to a group with a transition for it when
the group is entered. -/
def initEvent : String := "init"

/-- The name under which transitions without an event are handled. -/
def autoEvent : String := "auto"

/-- Where a transition leads. -/
inductive Target where
  /-- To the named state. -/
  | state (name : String)
  /-- Back to the state that was last left inside the named group, or to the group itself if none
  was. -/
  | history (group : String)
  deriving DecidableEq

/-- The name in a target. -/
def Target.name : Target → String
  | state name | history name => name

/-- What an action asks for. -/
structure ActionResult (O : Type) where
  /-- Changes of the model. -/
  update : List Patch.Operation
  /-- What the call is to return, if anything. -/
  output : Option O

namespace ActionResult

variable {O : Type}

/-- No change and no output. -/
def none : ActionResult O := ⟨[], Option.none⟩

/-- An output only. -/
def ofOutput (output : O) : ActionResult O := ⟨[], some output⟩

end ActionResult

/-- A condition on the model, the data of the event and the settings. -/
structure Guard (m : Type → Type) (S E : Type) where
  check : Value → E → S → m (Except Crash Bool)

/-- What a branch does when it fires, given the model, the data of the event and the settings. -/
structure Action (m : Type → Type) (S E O : Type) where
  run : Value → E → S → m (Except Crash (ActionResult O))

/-- One way a transition may go. -/
structure Branch (m : Type → Type) (S E O : Type) where
  target : Target
  guard : Option (Guard m S E) := none
  action : Option (Action m S E O) := none

/-- What may happen in a state at an event. -/
structure Transition (m : Type → Type) (S E O : Type) where
  source : String
  /-- No event makes the transition automatic. -/
  event : Option String
  /-- The ways to go, in the order in which they are tried. -/
  branches : List (Branch m S E O)

variable {m : Type → Type} {S E O : Type}

namespace Transition

/-- Does the transition fire without an event? -/
def isAutomatic (t : Transition m S E O) : Bool := t.event.isNone

/-- Is this a transition for the event `init`? -/
def isInitial (t : Transition m S E O) : Bool := t.event = some initEvent

/-- The name of the event under which the transition is handled. -/
def eventName (t : Transition m S E O) : String := t.event.getD autoEvent

/-- A transition with one branch that always passes and does nothing. -/
def simple (source event : String) (target : Target) : Transition m S E O :=
  ⟨source, some event, [⟨target, none, none⟩]⟩

/-- A transition with one guarded branch that does nothing. -/
def guarded (source event : String) (target : Target) (guard : Guard m S E) :
    Transition m S E O :=
  ⟨source, some event, [⟨target, some guard, none⟩]⟩

end Transition

section

variable [Monad m]

/-- Does the guard of the branch let it fire? No guard always does. -/
def Branch.passes (branch : Branch m S E O) (model : Value) (data : E) (settings : S) :
    m (Except Crash Bool) :=
  match branch.guard with
  | some guard => guard.check model data settings
  | none => pure (.ok true)

/-- What the action of the branch asks for. No action asks for nothing. -/
def Branch.run (branch : Branch m S E O) (model : Value) (data : E) (settings : S) :
    m (Except Crash (ActionResult O)) :=
  match branch.action with
  | some action => action.run model data settings
  | none => pure (.ok .none)

/-- The first branch whose guard passes. Guards behind it are not evaluated, nor those behind a
guard that crashes. -/
def firstPassing (model : Value) (data : E) (settings : S) :
    List (Branch m S E O) → m (Except Crash (Option (Branch m S E O)))
  | [] => pure (.ok none)
  | branch :: rest => do
    match ← branch.passes model data settings with
    | .error crash => pure (.error crash)
    | .ok true => pure (.ok (some branch))
    | .ok false => firstPassing model data settings rest

end

end Reactive
