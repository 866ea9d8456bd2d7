import Reactive.Definition

/-!
# Tables of states

The tree of states and the list of transitions of a definition are compiled into a table: one
record for each state and one for the root, linked to its parent by name, and the branches of all
transitions from one state at one event, in the order of the list.

A state that handles no event of some name inherits the handler of the nearest group around it
that has one. The handlers of the root are not inherited: they serve only an automaton that has
not started.

The records also hold what happens at run time. Leaving a state marks it as last seen in its own
record and in those of everything around it; entering one makes it active. Entering a state that
is automatic calls for another event at once.

## Main definitions

* `StateRecord`, `Table`, `Table.compile`
* `Table.ancestors`, `Table.resolve?`
* `Table.leave`, `Table.destination`, `Table.activate`
* `Table.cascadeEvent?`
-/

namespace Reactive

/-- What is known of a state. -/
structure StateRecord where
  name : String
  /-- The group directly around the state, or the root; the root itself has none. -/
  parent : Option String
  isGroup : Bool
  /-- Entering the state calls for another event: it has a transition without an event, or it is
  a group with a transition for `init`. -/
  isAutomatic : Bool
  /-- The state has a transition for `init`. -/
  isInitial : Bool
  /-- The state that was last left in this state, itself included. -/
  lastSeen : Option String
  active : Bool
  deriving DecidableEq

/-- The compiled form of states and transitions. -/
structure Table (m : Type → Type) (S E O : Type) where
  /-- The records of the states, by name. -/
  records : OrderedMap StateRecord
  /-- The branches to try, by state and then by event. -/
  handlers : OrderedMap (OrderedMap (List (Branch m S E O)))

namespace Table

variable {m : Type → Type} {S E O : Type}

/-! ### Compiling -/

/-- The record of a state before any run. -/
def recordOf (transitions : List (Transition m S E O)) (name : String) (parent : Option String)
    (isGroup : Bool) : StateRecord :=
  let isInitial := transitions.any fun t => t.source = name && t.isInitial
  let hasEventless := transitions.any fun t => t.source = name && t.isAutomatic
  { name, parent, isGroup, isInitial
    isAutomatic := hasEventless || (isGroup && isInitial && name ≠ rootState)
    lastSeen := none
    active := false }

/-- The records of a tree, the root being active. -/
def recordsOf (transitions : List (Transition m S E O)) (states : StateTree) :
    OrderedMap StateRecord :=
  let root := { recordOf transitions rootState none true with active := true }
  states.declarations.foldl
    (fun records d =>
      records.insert d.name (recordOf transitions d.name (some d.parent) d.isGroup))
    [(rootState, root)]

/-- Puts the branches of a transition behind those its state has for the same event. -/
def addHandler (handlers : OrderedMap (OrderedMap (List (Branch m S E O))))
    (t : Transition m S E O) : OrderedMap (OrderedMap (List (Branch m S E O))) :=
  let ofState := (handlers.find? t.source).getD []
  let ofEvent := (ofState.find? t.eventName).getD []
  handlers.insert t.source (ofState.insert t.eventName (ofEvent ++ t.branches))

/-- The table of some states and transitions. -/
def compile (states : StateTree) (transitions : List (Transition m S E O)) : Table m S E O :=
  ⟨recordsOf transitions states, transitions.foldl addHandler []⟩

/-! ### Looking up -/

/-- The record of a state. -/
def record? (table : Table m S E O) (name : String) : Option StateRecord :=
  table.records.find? name

/-- The records on the way up from a state, for at most `fuel` steps. -/
def climb (table : Table m S E O) : (fuel : Nat) → (name : String) → List StateRecord
  | 0, _ => []
  | fuel + 1, name =>
    match ((table.record? name).bind StateRecord.parent).bind table.record? with
    | some above => above :: table.climb fuel above.name
    | none => []

/-- Everything around a state, the nearest first and the root last. A way up that repeats no
state is shorter than the table. -/
def ancestors (table : Table m S E O) (name : String) : List StateRecord :=
  table.climb table.records.length name

/-- The branches that a state itself has for an event. -/
def branches? (table : Table m S E O) (state event : String) : Option (List (Branch m S E O)) :=
  (table.handlers.find? state).bind fun byEvent => byEvent.find? event

/-- The state that handles an event in a given state, and the branches it tries: the state itself
if it has any, or else the nearest group around it that has. -/
def resolve? (table : Table m S E O) (state event : String) :
    Option (String × List (Branch m S E O)) :=
  match table.branches? state event with
  | some branches => (table.record? state).map fun record => (record.name, branches)
  | none =>
    ((table.ancestors state).filter fun record => record.name ≠ rootState).findSome? fun record =>
      (table.branches? record.name event).map fun branches => (record.name, branches)

/-- The event that a state just entered calls for, if it is automatic. -/
def cascadeEvent? (table : Table m S E O) (name : String) : Option String :=
  match table.record? name with
  | some record =>
    if record.isAutomatic then some (if record.isInitial then initEvent else autoEvent) else none
  | none => none

/-! ### Leaving and entering -/

/-- Changes the record of one state. -/
def modify (table : Table m S E O) (name : String) (change : StateRecord → StateRecord) :
    Table m S E O :=
  { table with records := table.records.modify name change }

/-- A change is seen in the record of its own state and in no other. -/
theorem record?_modify (table : Table m S E O) (name : String)
    (change : StateRecord → StateRecord) (other : String) :
    (table.modify name change).record? other =
      if other = name then (table.record? other).map change else table.record? other :=
  OrderedMap.find?_modify _ _ _ _

/-- Leaves a state: it is marked as last seen in itself and in everything around it, and it is
active no more. -/
def leave (table : Table m S E O) (name : String) : Table m S E O :=
  let around := name :: (table.ancestors name).map StateRecord.name
  let marked := around.foldl
    (fun table n => table.modify n fun record => { record with lastSeen := some name }) table
  marked.modify name fun record => { record with active := false }

/-- The state that a target leads to. -/
def destination (table : Table m S E O) : Target → String
  | .state name => name
  | .history group => ((table.record? group).bind StateRecord.lastSeen).getD group

/-- Makes a state active. -/
def activate (table : Table m S E O) (name : String) : Table m S E O :=
  table.modify name fun record => { record with active := true }

end Table

end Reactive
