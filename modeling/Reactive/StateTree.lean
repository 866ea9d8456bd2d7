import Reactive.Value

/-!
# Trees of states

States are declared as a tree of names. A group holds other states, possibly none; a leaf holds
no place for any. Transitions name states by their bare names, so a well-formed tree uses a name
once, whatever the depth.

A tree is flattened into its declarations: depth first, a group before what it holds, each with
the name of the directly enclosing group. The rest of the library reads a tree through that list.

## Main definitions

* `StateNode`, `StateTree`
* `Declaration`, `StateTree.declarations`, `StateTree.names`
* `StateTree.ofValue?` — the tree that a nested object describes
-/

namespace Reactive

/-- The name of the state that every automaton starts in, before its first transition. It lies
above all declared states. -/
def rootState : String := "<root>"

/-- A declared state. -/
inductive StateNode where
  /-- A state without states in it. -/
  | leaf (name : String)
  /-- A state that holds others. -/
  | group (name : String) (children : List StateNode)

/-- The states declared at one level, in order. -/
abbrev StateTree := List StateNode

namespace StateNode

/-- The name of a state. -/
def name : StateNode → String
  | leaf name | group name _ => name

/-- Can the state hold others? -/
def isGroup : StateNode → Bool
  | leaf _ => false
  | group _ _ => true

end StateNode

/-- One state as its tree declares it: its name, the group directly around it, and whether it is
a group itself. -/
structure Declaration where
  name : String
  parent : String
  isGroup : Bool
  deriving DecidableEq

mutual

/-- The declarations of a state and of everything in it, under a given parent. -/
def StateNode.declarations (parent : String) : StateNode → List Declaration
  | .leaf name => [⟨name, parent, false⟩]
  | .group name children => ⟨name, parent, true⟩ :: declarationsUnder name children

/-- The declarations of the states of one level, in order, under a given parent. -/
def declarationsUnder (parent : String) : List StateNode → List Declaration
  | [] => []
  | node :: rest => node.declarations parent ++ declarationsUnder parent rest

end

namespace StateTree

/-- Everything a tree declares, depth first, groups before what they hold. -/
def declarations (tree : StateTree) : List Declaration := declarationsUnder rootState tree

/-- Every declared name, in the order of declaration. -/
def names (tree : StateTree) : List String := (declarations tree).map Declaration.name

end StateTree

/-! ### Trees from values

In a nested object a member whose value is an object with members is a group, and every other
member is a leaf. -/

mutual

/-- The state that one member of a nested object declares. -/
def StateNode.ofMember (name : String) : Value → StateNode
  | .object (first :: rest) => .group name (nodesOfMembers (first :: rest))
  | _ => .leaf name

/-- The states that the members of an object declare. -/
def nodesOfMembers : List (String × Value) → List StateNode
  | [] => []
  | (name, value) :: rest => StateNode.ofMember name value :: nodesOfMembers rest

end

/-- The tree that a nested object describes; a value that is no object describes none. -/
def StateTree.ofValue? : Value → Option StateTree
  | .object members => some (nodesOfMembers members)
  | _ => none

end Reactive
