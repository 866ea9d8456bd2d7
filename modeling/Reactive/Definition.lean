import Reactive.StateTree
import Reactive.Transition

/-!
# Definitions of automata

A definition is everything that makes an automaton: its states, its events, its transitions, the
model it starts with and its limits. Not every definition makes sense. `Definition.problems` lists
all that is wrong with one, in a fixed order: first the states, depth first, then the model, then
the transitions in order, each with its source, its event and its targets.

A transition may also be drafted piece by piece. A finished draft needs a source, and a target or
at least one branch; its own target, guard and action make up a branch that is tried before the
others.

## Main definitions

* `Config`, `Definition`
* `Problem`, `BuildError`, and their messages
* `Draft`, `Draft.finish`
* `Definition.problems`
-/

namespace Reactive

/-- Limits of an automaton. -/
structure Config where
  /-- How many automatic transitions in a row are allowed before a call is given up. -/
  maxCascadeDepth : UInt64 := 10000
  /-- How many firings the trace keeps; zero disables it. -/
  traceCapacity : UInt64 := 64
  deriving DecidableEq

/-- Everything that makes an automaton. -/
structure Definition (m : Type → Type) (S E O : Type) where
  states : StateTree := []
  /-- The events that may be sent; `init` is always one of them. -/
  events : List String := []
  transitions : List (Transition m S E O) := []
  /-- The model to start with, which has to be an object. -/
  model : Value := .emptyObject
  config : Config := {}

/-! ### What can be wrong -/

/-- Something wrong with a definition. -/
inductive Problem where
  /-- A transition is for an event that is not declared. -/
  | unknownEvent (source event : String)
  /-- A transition names the event of automatic transitions. -/
  | reservedEvent (source event : String)
  /-- A transition leaves a state that is not declared. -/
  | unknownSource (state : String)
  /-- A transition leads to a state that is not declared. -/
  | unknownTarget (source state : String)
  /-- A transition leads to the history of a state that is no group. -/
  | historyOfLeaf (source state : String)
  /-- A name is declared a second time. -/
  | duplicateState (state : String)
  /-- The name of the root is declared. -/
  | reservedName (state : String)
  /-- The model is not an object but a value of this kind. -/
  | modelNotObject (found : String)
  deriving DecidableEq

/-- A problem in words. -/
def Problem.message : Problem → String
  | unknownEvent source event => s!"Transition from '{source}' uses undeclared event '{event}'"
  | reservedEvent source event =>
    s!"Transition from '{source}' uses reserved event '{event}'; " ++
      "omit the event for an automatic transition"
  | unknownSource state => s!"Transition source '{state}' is not a declared state"
  | unknownTarget source state =>
    s!"Transition from '{source}' targets undeclared state '{state}'"
  | historyOfLeaf source state =>
    s!"Transition from '{source}' targets the history of '{state}', which is not a group"
  | duplicateState state => s!"State '{state}' is declared more than once"
  | reservedName state => s!"State name '{state}' is reserved"
  | modelNotObject found => s!"Initial model must be a JSON object, found {found}"

/-- Why a transition or an automaton could not be built. -/
inductive BuildError where
  /-- A draft has no source. -/
  | missingSource
  /-- A draft has neither a target nor a branch. -/
  | missingTarget
  /-- A value is no nested object of states. -/
  | invalidStateTree
  /-- A definition has these problems. -/
  | invalidDefinition (problems : List Problem)
  /-- No room can be set aside for a trace of the configured capacity. -/
  | traceTooLarge
  deriving DecidableEq

/-- A build error in words. -/
def BuildError.message : BuildError → String
  | missingSource => "Transition source state not specified. Call .from(state)"
  | missingTarget => "Transition target not specified. Call .to(target) or add a .branch(..)"
  | invalidStateTree => "State tree is not a nested object of states"
  | invalidDefinition problems =>
    let count := problems.length
    let list := "; ".intercalate (problems.map Problem.message)
    s!"Automaton definition has {count} problem(s): {list}"
  | traceTooLarge => "capacity overflow"

/-! ### Drafts of transitions -/

variable {m : Type → Type} {S E O : Type}

/-- A transition in the making. -/
structure Draft (m : Type → Type) (S E O : Type) where
  source : Option String := none
  event : Option String := none
  target : Option Target := none
  guard : Option (Guard m S E) := none
  action : Option (Action m S E O) := none
  branches : List (Branch m S E O) := []

/-- The transition of a draft. The draft's own target, if it has one, makes the first branch. -/
def Draft.finish (draft : Draft m S E O) : Except BuildError (Transition m S E O) :=
  match draft.source, draft.target, draft.branches with
  | none, _, _ => .error .missingSource
  | some _, none, [] => .error .missingTarget
  | some source, none, branches => .ok ⟨source, draft.event, branches⟩
  | some source, some target, branches =>
    .ok ⟨source, draft.event, ⟨target, draft.guard, draft.action⟩ :: branches⟩

/-! ### Problems of definitions -/

namespace Definition

/-- Is a declared state a group? Of several declarations of a name the last one counts, and the
name of the root counts as undeclared. -/
def isGroup? (declared : List Declaration) (name : String) : Option Bool :=
  if name = rootState then none
  else (declared.reverse.find? fun d => d.name = name).map Declaration.isGroup

/-- The problems with the names of `rest`, where the names in `earlier` were declared before. A
repeated name is reported once, where it occurs for the second time. -/
def nameProblems (earlier : List String) : List Declaration → List Problem
  | [] => []
  | d :: rest =>
    let own :=
      if d.name = rootState then [Problem.reservedName d.name]
      else if earlier.count d.name = 1 then [Problem.duplicateState d.name]
      else []
    own ++ nameProblems (d.name :: earlier) rest

/-- The problem with the model, if it is no object. -/
def modelProblems (model : Value) : List Problem :=
  if model.isObject then [] else [.modelNotObject model.kind]

/-- The problem with the source of a transition. -/
def sourceProblems (declared : List Declaration) (source : String) : List Problem :=
  if source = rootState ∨ (isGroup? declared source).isSome then [] else [.unknownSource source]

/-- The problem with the event of a transition. -/
def eventProblems (events : List String) (source : String) : Option String → List Problem
  | none => []
  | some event =>
    if event = autoEvent then [.reservedEvent source event]
    else if event = initEvent ∨ event ∈ events then []
    else [.unknownEvent source event]

/-- The problem with the target of a branch. -/
def targetProblems (declared : List Declaration) (source : String) (target : Target) :
    List Problem :=
  match target, isGroup? declared target.name with
  | _, none => [.unknownTarget source target.name]
  | .history group, some false => [.historyOfLeaf source group]
  | _, some _ => []

/-- The problems with a transition: its source, its event and the targets of its branches. -/
def transitionProblems (declared : List Declaration) (events : List String)
    (t : Transition m S E O) : List Problem :=
  sourceProblems declared t.source ++ eventProblems events t.source t.event ++
    t.branches.flatMap fun branch => targetProblems declared t.source branch.target

/-- Everything that is wrong with a definition. -/
def problems (definition : Definition m S E O) : List Problem :=
  let declared := definition.states.declarations
  nameProblems [] declared ++ modelProblems definition.model ++
    definition.transitions.flatMap (transitionProblems declared definition.events)

end Definition

end Reactive
