import Reactive.Signal
import Reactive.Text.Printable

/-!
# Texts for inspection

A value, a subject, the settings of a generator and a subscription can be shown to a developer. A
structure is shown by its name and its fields, an optional part as `Some(..)` or `None`, and a
function by two dots. In a string that is shown, quotation marks, backslashes, the usual control
characters and every character that cannot be printed by itself are escaped.

## Main definitions

* `Inspect.string`, `Inspect.optional`, `Inspect.fields`
* `Value.inspect`, `Subject.inspect`, `Generator.inspect`, `Subscription.inspect`
-/

namespace Reactive

namespace Inspect

/-- One character of a string that is shown. -/
def escapeChar (c : Char) : String :=
  if c = '"' then "\\\""
  else if c = '\\' then "\\\\"
  else if c = '\n' then "\\n"
  else if c = '\r' then "\\r"
  else if c = '\t' then "\\t"
  else if c = '\x00' then "\\0"
  else if isPrintable c then c.toString
  else "\\u\x7b" ++ String.ofList (Nat.toDigits 16 c.toNat) ++ "\x7d"

/-- A string between quotation marks. -/
def string (s : String) : String :=
  "\"" ++ s.foldl (fun out c => out ++ escapeChar c) "" ++ "\""

/-- A part that may be missing. -/
def optional {α : Type} (render : α → String) : Option α → String
  | some a => "Some(" ++ render a ++ ")"
  | none => "None"

/-- A structure with its fields. -/
def fields (name : String) (parts : List (String × String)) : String :=
  name ++ " \x7b " ++ ", ".intercalate (parts.map fun part => part.1 ++ ": " ++ part.2) ++ " \x7d"

end Inspect

namespace Value

mutual

/-- The text of a value for inspection. -/
def inspect : Value → String
  | .null => "Null"
  | .bool true => "Bool(true)"
  | .bool false => "Bool(false)"
  | .number n => "Number(" ++ n.text ++ ")"
  | .string s => "String(" ++ Inspect.string s ++ ")"
  | .array items => "Array [" ++ ", ".intercalate (inspectItems items) ++ "]"
  | .object members => "Object \x7b" ++ ", ".intercalate (inspectMembers members) ++ "\x7d"

/-- The texts of the items of an array. -/
def inspectItems : List Value → List String
  | [] => []
  | v :: rest => inspect v :: inspectItems rest

/-- The texts of the members of an object. -/
def inspectMembers : List (String × Value) → List String
  | [] => []
  | (key, v) :: rest => (Inspect.string key ++ ": " ++ inspect v) :: inspectMembers rest

end

end Value

/-- The text of the end of a subject. -/
def Terminal.inspect : Terminal → String
  | error cause => "Error(" ++ Inspect.string cause ++ ")"
  | completed => "Completed"

/-- The text of a subject: its value, its end, and how many subscribers it has. -/
def Subject.inspect (s : Subject) : String :=
  Inspect.fields "BehaviorSubject"
    [("current", Inspect.optional Value.inspect s.current),
      ("terminal", Inspect.optional Terminal.inspect s.terminal),
      ("subscribers", toString s.subscribers.length)]

variable {m : Type → Type} {S E O : Type}

/-- The text of the settings of a generator. -/
def Generator.inspect (g : Generator m) : String :=
  Inspect.fields "FromFnSettings"
    [("equals", Inspect.optional (fun _ => Inspect.string "..") g.equals),
      ("done", Inspect.optional Value.inspect g.sentinel)]

/-- The text of a subscription. -/
def Subscription.inspect (s : Subscription m) : String :=
  Inspect.fields "Subscription" [("active", if s.release?.isSome then "true" else "false")]

/-- The text of the guard of a branch, if it has one. -/
def Branch.inspectGuard (b : Branch m S E O) : String :=
  Inspect.optional (fun _ => "Guard(..)") b.guard

end Reactive
