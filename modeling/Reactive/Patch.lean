import Reactive.Pointer

/-!
# Patches

A model changes by a list of operations, each of which adds, replaces or removes the value at a
path. A list is applied as a whole. Its paths are read first, so that a malformed one is reported
whatever the operations before it would do; then the operations run in order, each on the result
of the one before. If one of them fails there is no result, and the model stays as it was.

## Main definitions

* `Patch.Operation`, `Patch.Error`, `Patch.Error.message`
* `Patch.apply`, and `Patch.amend` on a model that is held
* `Patch.ofFields` — one addition for every member of an object
-/

namespace Reactive

namespace Patch

/-- One change to a model. -/
inductive Operation where
  /-- Puts a member into an object, over an old one, or inserts an item into an array. -/
  | add (path : String) (value : Value)
  /-- Writes over a value that is there. -/
  | replace (path : String) (value : Value)
  /-- Takes a member or an item away. -/
  | remove (path : String)
  deriving DecidableEq

namespace Operation

/-- The path an operation works at. -/
def path : Operation → String
  | add path _ | replace path _ | remove path => path

/-- The name of what an operation does. -/
def kind : Operation → String
  | add _ _ => "add"
  | replace _ _ => "replace"
  | remove _ => "remove"

end Operation

/-- Why a patch could not be applied or derived. -/
inductive Error where
  /-- The path is not the text of a pointer. -/
  | malformedPath (path : String) (fault : Pointer.Fault)
  /-- The path points to the whole model, which cannot be removed. -/
  | rootRemoval (path : String)
  /-- There is nothing to add to. -/
  | missingParent (path : String)
  /-- There is nothing to replace. -/
  | nothingToReplace (path : String)
  /-- There is nothing to remove. -/
  | nothingToRemove (path : String)
  /-- The value to add to has no parts. -/
  | notAContainer (path : String)
  /-- The last token is no position at which an item can be inserted. -/
  | invalidIndex (path : String) (index : String)
  /-- Additions were to be derived from a value of this kind, which has no members. -/
  | notAnObject (found : String)
  deriving DecidableEq

/-- What went wrong, in words. -/
def Error.message : Error → String
  | malformedPath path fault =>
    let reason := fault.message
    s!"Invalid path '{path}': {reason}"
  | rootRemoval path => s!"Invalid path '{path}': the model root cannot be removed"
  | missingParent path => s!"Parent of '{path}' does not exist"
  | nothingToReplace path => s!"Nothing to replace at '{path}'"
  | nothingToRemove path => s!"Nothing to remove at '{path}'"
  | notAContainer path =>
    s!"Value at the parent of '{path}' is neither an object nor an array"
  | invalidIndex path index => s!"Array index '{index}' in '{path}' is out of bounds or malformed"
  | notAnObject found =>
    s!"Expected a JSON object to derive update operations from, got {found}"

/-! ### One operation -/

/-- Puts a value under a token into a container. In an array the token `-` stands for the place
behind the last item, and a numeral for the place before the item of that number. The path is
for the error only. -/
def addChild (path : String) (container : Value) (token : String) (value : Value) :
    Except Error Value :=
  match container with
  | .object members => .ok (.object (OrderedMap.insert members token value))
  | .array items =>
    if token = "-" then .ok (.array (items ++ [value]))
    else
      match Pointer.arrayIndex? token with
      | some index =>
        if index ≤ items.length then .ok (.array (items.insertIdx index value))
        else .error (.invalidIndex path token)
      | none => .error (.invalidIndex path token)
  | _ => .error (.notAContainer path)

/-- Takes what a token names out of a container. -/
def removeChild (container : Value) (token : String) : Option Value :=
  match container with
  | .object members =>
    if (OrderedMap.find? members token).isSome then
      some (.object (OrderedMap.erase members token))
    else none
  | .array items =>
    match Pointer.arrayIndex? token with
    | some index => if index < items.length then some (.array (items.eraseIdx index)) else none
    | none => none
  | _ => none

/-- Runs an operation whose path reads as the pointer `tokens`. -/
def Operation.run (op : Operation) (tokens : Pointer) (model : Value) : Except Error Value :=
  match op with
  | .add path value =>
    match tokens.getLast? with
    | none => .ok value
    | some last =>
      match model.get? tokens.dropLast with
      | none => .error (.missingParent path)
      | some container => do
        let changed ← addChild path container last value
        return model.set tokens.dropLast changed
  | .replace path value =>
    if (model.get? tokens).isSome then .ok (model.set tokens value)
    else .error (.nothingToReplace path)
  | .remove path =>
    match tokens.getLast? with
    | none => .error (.rootRemoval path)
    | some last =>
      match (model.get? tokens.dropLast).bind fun container => removeChild container last with
      | some changed => .ok (model.set tokens.dropLast changed)
      | none => .error (.nothingToRemove path)

/-! ### Patches -/

/-- Reads the path of an operation. -/
def Operation.pointer (op : Operation) : Except Error Pointer :=
  match Pointer.parse op.path with
  | .ok tokens => .ok tokens
  | .error fault => .error (.malformedPath op.path fault)

/-- Reads the paths of a list of operations; the first malformed one is the error. -/
def locate (ops : List Operation) : Except Error (List (Operation × Pointer)) :=
  ops.mapM fun op => do return (op, ← op.pointer)

/-- Runs located operations in order, each on the result of the one before. -/
def runAll (located : List (Operation × Pointer)) (model : Value) : Except Error Value :=
  located.foldlM (fun doc entry => entry.1.run entry.2 doc) model

/-- The model after a list of operations, or why there is none. -/
def apply (ops : List Operation) (model : Value) : Except Error Value := do
  let located ← locate ops
  runAll located model

/-- Applies a list of operations to the model that is held. They run on a copy, which takes the
place of the model when all of them have succeeded. -/
def amend (ops : List Operation) : ExceptT Error (StateM Value) Unit := do
  let located ← MonadExcept.ofExcept (locate ops)
  let changed ← MonadExcept.ofExcept (runAll located (← get))
  set changed

/-- One addition for every member of an object, in key order, at the parent path `parent`. -/
def ofFields (parent : String) : Value → Except Error (List Operation)
  | .object members =>
    .ok (members.map fun member =>
      .add (parent ++ "/" ++ Pointer.escapeToken member.1) member.2)
  | other => .error (.notAnObject other.kind)

end Patch

end Reactive
