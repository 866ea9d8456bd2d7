import Reactive.Automaton
import Reactive.Emission
import Reactive.Timestamp.Reading

/-!
# Written forms

Operations, targets, configurations, records of states, traces and emissions can be written as
values and read back. A structure is written as an object with a member for each field; members of
other names are ignored when it is read. A member that is missing, or of another kind than it
should be, makes the whole unreadable, with two exceptions: the fields of a configuration have
defaults, and the names that a record of a state may lack are null or missing.

A structure is also read from an array of its fields in order. Such an array has neither more nor
fewer items than there are fields, but that of a configuration may break off.

A count is a whole number below `2 ^ 64`.

## Main definitions

* `Patch.Operation.toValue`, `Patch.Operation.ofValue?` — told apart by the member `op`
* `Config.toValue`, `Config.ofValue?`
* `Target.toValue`, `Target.ofValue?` — an object with one member, named for the kind of target
* `StateRecord.toValue`, `StateRecord.ofValue?`
* `TimedFiring.toValue`, `Trace.toValue` and their readers
* `ControlState.toValue`, `Emission.toValue` and their readers
-/

namespace Reactive

namespace Value

/-- A count as a value. -/
def ofCount (n : UInt64) : Value := .nat n.toNat

/-- Reads a count. -/
def asCount? : Value → Option UInt64
  | .number (.whole n) => if 0 ≤ n ∧ n < UInt64.size then some (.ofNat n.toNat) else none
  | _ => none

@[simp] theorem asCount?_ofCount (n : UInt64) : (ofCount n).asCount? = some n := by
  have h : ((n.toNat : Nat) : Int) < UInt64.size := Int.ofNat_lt.mpr n.toNat_lt_size
  have h₀ : (0 : Int) ≤ (n.toNat : Nat) := Int.natCast_nonneg _
  rw [ofCount, nat, asCount?, if_pos ⟨h₀, h⟩]
  simp

/-- A structure with fields of these names as an object: an array of its fields in order gets their
names, and an object is left as it is. -/
def withNames? (names : List String) : Value → Option Value
  | .object members => some (.object members)
  | .array items =>
    if items.length = names.length then some (.ofFields (names.zip items)) else none
  | _ => none

/-- A name that may be missing as a value. -/
def ofName? (name : Option String) : Value := (name.map Value.string).getD .null

/-- The string under a key. -/
def stringAt? (v : Value) (key : String) : Option String := (v.member? key).bind asString?

/-- The boolean under a key. -/
def boolAt? (v : Value) (key : String) : Option Bool := (v.member? key).bind asBool?

/-- The count under a key. -/
def countAt? (v : Value) (key : String) : Option UInt64 := (v.member? key).bind asCount?

/-- The name under a key, which may be null or missing. -/
def nameAt? (v : Value) (key : String) : Option (Option String) :=
  match v.member? key with
  | none | some .null => some none
  | some (.string s) => some (some s)
  | some _ => none

end Value

/-! ### Operations -/

namespace Patch.Operation

/-- The written form of an operation. -/
def toValue : Operation → Value
  | add path value =>
    .ofFields [("op", .string "add"), ("path", .string path), ("value", value)]
  | replace path value =>
    .ofFields [("op", .string "replace"), ("path", .string path), ("value", value)]
  | remove path => .ofFields [("op", .string "remove"), ("path", .string path)]

/-- The name of an operation: the member `op` of an object, or the first item of an array. -/
def kindOf? : Value → Option String
  | .array items => items.head?.bind Value.asString?
  | v => v.stringAt? "op"

/-- Reads an operation. Its path may be any text. -/
def ofValue? (v : Value) : Option Operation := do
  let op ← kindOf? v
  let v ← v.withNames? (if op = "remove" then ["op", "path"] else ["op", "path", "value"])
  let path ← v.stringAt? "path"
  if op = "add" then return .add path (← v.member? "value")
  else if op = "replace" then return .replace path (← v.member? "value")
  else if op = "remove" then return .remove path
  else none

end Patch.Operation

/-- Reads a list of operations. -/
def Patch.operations? (v : Value) : Option (List Patch.Operation) :=
  v.asArray?.bind fun items => items.mapM Patch.Operation.ofValue?

/-! ### Configurations -/

namespace Config

/-- The written form of a configuration. -/
def toValue (c : Config) : Value :=
  .ofFields [("max_cascade_depth", .ofCount c.maxCascadeDepth),
    ("trace_capacity", .ofCount c.traceCapacity)]

/-- A count under a key, with a default for a missing member. -/
def countOr? (members : List (String × Value)) (key : String) (default : UInt64) :
    Option UInt64 :=
  match OrderedMap.find? members key with
  | some v => v.asCount?
  | none => some default

/-- Reads a configuration from some of its fields. What is missing has its default. -/
def ofMembers? (members : List (String × Value)) : Option Config := do
  let depth ← countOr? members "max_cascade_depth" ({} : Config).maxCascadeDepth
  let capacity ← countOr? members "trace_capacity" ({} : Config).traceCapacity
  return ⟨depth, capacity⟩

/-- Reads a configuration. -/
def ofValue? : Value → Option Config
  | .object members => ofMembers? members
  | .array items =>
    if items.length ≤ 2 then ofMembers? (["max_cascade_depth", "trace_capacity"].zip items)
    else none
  | _ => none

end Config

/-! ### Targets -/

namespace Target

/-- The written form of a target. -/
def toValue : Target → Value
  | state name => .object [("State", .string name)]
  | history group => .object [("History", .string group)]

/-- Reads a target. -/
def ofValue? : Value → Option Target
  | .object [(kind, .string name)] =>
    if kind = "State" then some (.state name)
    else if kind = "History" then some (.history name)
    else none
  | _ => none

end Target

/-! ### Records of states -/

namespace StateRecord

/-- The written form of a record. -/
def toValue (r : StateRecord) : Value :=
  .ofFields [("name", .string r.name), ("parent", .ofName? r.parent),
    ("is_group", .bool r.isGroup), ("is_automatic", .bool r.isAutomatic),
    ("is_initial", .bool r.isInitial), ("last_seen", .ofName? r.lastSeen),
    ("active", .bool r.active)]

/-- Reads a record. -/
def ofValue? (v : Value) : Option StateRecord := do
  let v ← v.withNames?
    ["name", "parent", "is_group", "is_automatic", "is_initial", "last_seen", "active"]
  let name ← v.stringAt? "name"
  let parent ← v.nameAt? "parent"
  let isGroup ← v.boolAt? "is_group"
  let isAutomatic ← v.boolAt? "is_automatic"
  let isInitial ← v.boolAt? "is_initial"
  let lastSeen ← v.nameAt? "last_seen"
  let active ← v.boolAt? "active"
  return { name, parent, isGroup, isAutomatic, isInitial, lastSeen, active }

end StateRecord

/-! ### Traces -/

namespace TimedFiring

/-- The written form of a firing with its time. -/
def toValue (f : TimedFiring) : Value :=
  .ofFields [("from", .string f.source), ("event", .string f.event), ("to", .string f.target),
    ("timestamp", .string f.time.text), ("cascade_depth", .ofCount f.depth)]

/-- Reads a firing with its time. -/
def ofValue? (v : Value) : Option TimedFiring := do
  let v ← v.withNames? ["from", "event", "to", "timestamp", "cascade_depth"]
  let source ← v.stringAt? "from"
  let event ← v.stringAt? "event"
  let target ← v.stringAt? "to"
  let time ← (v.stringAt? "timestamp").bind Timestamp.parse?
  let depth ← v.countAt? "cascade_depth"
  return { source, event, target, depth, time }

end TimedFiring

namespace Trace

/-- The written form of a trace. -/
def toValue (t : Trace TimedFiring) : Value :=
  .ofFields [("capacity", .ofCount t.capacity),
    ("records", .array (t.entries.map TimedFiring.toValue))]

/-- Reads a trace. It may hold more than its capacity. -/
def ofValue? (v : Value) : Option (Trace TimedFiring) := do
  let v ← v.withNames? ["capacity", "records"]
  let capacity ← v.countAt? "capacity"
  let records ← (v.member? "records").bind Value.asArray?
  let entries ← records.mapM TimedFiring.ofValue?
  return ⟨capacity, entries⟩

end Trace

/-! ### Emissions -/

namespace ControlState

/-- The written form of a control state, its name. -/
def toValue (c : ControlState) : Value := .string c.name

/-- The control state of a name. -/
def ofName? (name : String) : Option ControlState :=
  [init, new, same, error, done].find? fun c => c.name = name

/-- Reads a control state: its name, or an object with this name as its only member, a null. -/
def ofValue? : Value → Option ControlState
  | .string name => ofName? name
  | .object [(name, .null)] => ofName? name
  | _ => none

end ControlState

namespace Emission

/-- The written form of an emission. -/
def toValue (e : Emission) : Value :=
  .ofFields [("control_state", e.controlState.toValue), ("output", e.output)]

/-- Reads an emission. -/
def ofValue? (v : Value) : Option Emission := do
  let v ← v.withNames? ["control_state", "output"]
  let controlState ← (v.member? "control_state").bind ControlState.ofValue?
  let output ← v.member? "output"
  return ⟨controlState, output⟩

end Emission

end Reactive
