import Reactive.Proofs.Lineage
import Reactive.Proofs.Run

/-!
# What a definition says

A definition can be carried out as it stands, without a table: the handler of an event is looked
for in the list of transitions, along the lineage of the present state in the nested tree, and the
history of a group is read off the log of everything that has fired.

This is slow and it is meant to be read. A `Standing` holds nothing that is derived: no links to
parents, no marks of what was seen last, no flags.

## What is deliberately absent

Traces are not kept here, since the log holds more. Nor is anything validated: a transition from or
to a name that is not declared has a meaning too, even if no accepted definition has one.

## Main definitions

* `Definition.branchesOf?`, `handler?` — which branches are tried for an event
* `StateTree.lastLeft?`, `Definition.destination` — where a target leads
* `Definition.followUp?` — the event that a state calls for when it is entered
* `Definition.attempt` — the branches in order, up to the first whose guard passes
* `Definition.settle`, `call`, `run` — whole calls

## Main results

* `settle_of_handler`, `follow_fires_resting`, `follow_fires_automatic` — one transition of a call
-/

namespace Reactive

/-- The state most recently left that lies in a group, of the states `left`, the latest first. -/
def StateTree.lastLeft? (tree : StateTree) (left : List String) (group : String) :
    Option String :=
  left.find? fun state => group ∈ tree.lineage state

theorem StateTree.lastLeft?_cons (tree : StateTree) (state : String) (left : List String)
    (group : String) : tree.lastLeft? (state :: left) group
      = if group ∈ tree.lineage state then some state else tree.lastLeft? left group := by
  rw [lastLeft?, List.find?_cons]
  split <;> simp_all [lastLeft?]

/-- Where a run of a definition stands. -/
structure Standing where
  current : String
  model : Value
  /-- Everything that has fired, the latest first. -/
  log : List Firing
  /-- How many events found no handler. -/
  dropped : Nat

namespace Standing

/-- Nothing has happened yet. -/
def initial (model : Value) : Standing := ⟨rootState, model, [], 0⟩

/-- Counts a dropped event. -/
def drop (s : Standing) : Standing := { s with dropped := s.dropped + 1 }

/-- The states that have been left, the latest first. -/
def left (s : Standing) : List String := s.log.map Firing.source

end Standing

/-- What became of the branches for one event. -/
inductive Attempt (O : Type) where
  /-- No guard passes. -/
  | blocked
  /-- A guard or an action crashed, or the model could not be updated. -/
  | halted (halt : Halt)
  /-- A branch fires, which leads to a target and leaves a new model. -/
  | fires (target : Target) (model : Value) (output : Option O)

namespace Definition

variable {m : Type → Type} {S E O : Type}

/-! ### Looking up -/

/-- The branches for an event in a state itself: those of all transitions from the state for the
event, in the order of the list. A transition without an event is for the event `auto`. -/
def branchesOf? (d : Definition m S E O) (state event : String) :
    Option (List (Branch m S E O)) :=
  match d.transitions.filter fun t => t.source = state ∧ t.eventName = event with
  | [] => none
  | matching => some (matching.flatMap Transition.branches)

/-- The state that handles an event in a given state, with its branches: the first on the lineage
that has a transition for the event, where the root counts for itself only. -/
def handler? (d : Definition m S E O) (state event : String) :
    Option (String × List (Branch m S E O)) :=
  ((d.states.lineage state).filter fun h => h ≠ rootState ∨ state = rootState).findSome? fun h =>
    (d.branchesOf? h event).map fun branches => (h, branches)

/-- Is there a transition from the state that is declared with this event, or without one? -/
def hasTransition (d : Definition m S E O) (state : String) (event : Option String) : Bool :=
  d.transitions.any fun t => t.source = state && t.event = event

/-- The event that a state calls for when it is entered. A state with a transition without event
and a group with a transition for `init` go on: for `init` if they have a transition for it. -/
def followUp? (d : Definition m S E O) (state : String) : Option String :=
  let initial := d.hasTransition state (some initEvent)
  if d.hasTransition state none || (d.states.isGroup state && initial) then
    some (if initial then initEvent else autoEvent)
  else none

/-- The state that a target leads to, after the states `left` were left. The history of a group
leads to the state most recently left in it, or to the group itself if there is none. -/
def destination (d : Definition m S E O) (left : List String) : Target → String
  | .state name => name
  | .history group => (d.states.lastLeft? left group).getD group

/-- Leaves the present state for a target, with a new model. The present state counts as left
when the target is looked up. -/
def move (d : Definition m S E O) (s : Standing) (target : Target) (event : String) (depth : Nat)
    (model : Value) : Standing :=
  let entered := d.destination (s.current :: s.left) target
  { s with
    current := entered
    model
    log := ⟨s.current, event, entered, .ofNat depth⟩ :: s.log }

/-! ### Carrying out -/

variable [Monad m]

/-- Runs the action of a branch and applies the update that it asks for, which may fail. -/
def fire (settings : S) (data : E) (event : String) (s : Standing) (branch : Branch m S E O) :
    m (Attempt O) :=
  match branch.action with
  | none => pure (.fires branch.target s.model none)
  | some action => do
    match ← action.run s.model data settings with
    | .error crash => pure (.halted (.crashed crash))
    | .ok asked =>
      match Patch.apply asked.update s.model with
      | .error cause => pure (.halted (.failed (.modelUpdate s.current event cause)))
      | .ok model => pure (.fires branch.target model asked.output)

/-- Goes through branches in order. The first that has no guard, or whose guard passes, fires, and
nothing behind it is evaluated. -/
def attempt (settings : S) (data : E) (event : String) (s : Standing) :
    List (Branch m S E O) → m (Attempt O)
  | [] => pure .blocked
  | branch :: rest =>
    match branch.guard with
    | none => fire settings data event s branch
    | some guard => do
      match ← guard.check s.model data settings with
      | .error crash => pure (.halted (.crashed crash))
      | .ok true => fire settings data event s branch
      | .ok false => attempt settings data event s rest

/-- Handles an event, and then the events that entered states call for, at most `remaining` of
them, behind `depth` transitions of the same call. -/
def settle (d : Definition m S E O) (settings : S) (data : E) :
    (remaining depth : Nat) → String → Standing → m (Standing × Except Halt (Option O))
  | remaining, depth, event, s =>
    match d.handler? s.current event with
    | none => pure (if depth = 0 then s.drop else s, .ok none)
    | some (_, branches) => do
      match ← attempt settings data event s branches with
      | .blocked => pure (s, .ok none)
      | .halted halt => pure (s, .error halt)
      | .fires target model output =>
        let next := d.move s target event depth model
        match d.followUp? next.current with
        | none => pure (next, .ok output)
        | some event' =>
          match remaining with
          | 0 =>
            pure (next, .error (.failed
              (.cascadeLimitExceeded next.current d.config.maxCascadeDepth)))
          | remaining + 1 => d.settle settings data remaining (depth + 1) event' next

/-- Makes a call. Starting is sending `init` in the root, and elsewhere a dropped event. -/
def call (d : Definition m S E O) (settings : S) (s : Standing) :
    Call E → m (Standing × Except Halt (Option O))
  | .start data =>
    if s.current = rootState then
      d.settle settings data d.config.maxCascadeDepth.toNat 0 initEvent s
    else pure (s.drop, .ok none)
  | .send event data => d.settle settings data d.config.maxCascadeDepth.toNat 0 event s

/-- Makes calls one after the other. Given are the standing after each call and its result. -/
def run (d : Definition m S E O) (settings : S) :
    List (Call E) → Standing → m (List (Standing × Except Halt (Option O)))
  | [], _ => pure []
  | c :: rest, s => do
    let done ← d.call settings s c
    let later ← d.run settings rest done.1
    pure (done :: later)

/-! ### Single transitions -/

variable {d : Definition m S E O}

/-- What follows an attempt. -/
def follow (d : Definition m S E O) (settings : S) (data : E) (remaining depth : Nat)
    (event : String) (s : Standing) : Attempt O → m (Standing × Except Halt (Option O))
  | .blocked => pure (s, .ok none)
  | .halted halt => pure (s, .error halt)
  | .fires target model output =>
    let next := d.move s target event depth model
    match d.followUp? next.current with
    | none => pure (next, .ok output)
    | some event' =>
      match remaining with
      | 0 =>
        pure (next, .error (.failed
          (.cascadeLimitExceeded next.current d.config.maxCascadeDepth)))
      | remaining + 1 => d.settle settings data remaining (depth + 1) event' next

theorem settle_of_handler {settings : S} {data : E} {event state : String} {s : Standing}
    {branches : List (Branch m S E O)} (h : d.handler? s.current event = some (state, branches))
    (remaining depth : Nat) : d.settle settings data remaining depth event s
      = attempt settings data event s branches >>=
        d.follow settings data remaining depth event s := by
  rw [settle, h]
  rfl

/-- Entering a state that is not automatic ends a call. -/
theorem follow_fires_resting {target : String} (h : d.followUp? target = none) {settings : S}
    {data : E} {remaining depth : Nat} {event : String} {s : Standing} {model : Value}
    {output : Option O} :
    d.follow settings data remaining depth event s (.fires (.state target) model output)
      = pure (d.move s (.state target) event depth model, .ok output) := by
  have hcurrent : d.followUp? (d.move s (.state target) event depth model).current = none := h
  simp only [follow, hcurrent]

/-- Entering an automatic state goes on. -/
theorem follow_fires_automatic {target next : String} (h : d.followUp? target = some next)
    {settings : S} {data : E} {remaining depth : Nat} {event : String} {s : Standing}
    {model : Value} {output : Option O} :
    d.follow settings data (remaining + 1) depth event s (.fires (.state target) model output)
      = d.settle settings data remaining (depth + 1) next
          (d.move s (.state target) event depth model) := by
  have hcurrent : d.followUp? (d.move s (.state target) event depth model).current = some next := h
  simp only [follow, hcurrent]

end Definition

end Reactive
