import Reactive.Value

/-!
# The text of a value

A value is written compactly, without blanks, its members in key order. In a string a quotation
mark and a backslash are escaped, and so are the control characters below the blank, five of them
by a letter and the others by four hexadecimal digits; every other character stands for itself.

`display` is the text to show to a reader: a string is shown as it is, and anything else is shown
compactly.

## Main definitions

* `Value.quote` — a string between quotation marks
* `Value.compact`, `Value.display`
-/

namespace Reactive

namespace Value

/-- The two lower-case hexadecimal digits of a number below 256. -/
def hexPair (n : Nat) : String :=
  String.ofList [Nat.digitChar (n / 16), Nat.digitChar (n % 16)]

/-- One character of a string, escaped where it has to be. -/
def escapeChar (c : Char) : String :=
  if c = '"' then "\\\""
  else if c = '\\' then "\\\\"
  else if c = '\n' then "\\n"
  else if c = '\r' then "\\r"
  else if c = '\t' then "\\t"
  else if c = '\x08' then "\\b"
  else if c = '\x0c' then "\\f"
  else if c.toNat < 32 then "\\u00" ++ hexPair c.toNat
  else c.toString

/-- A string between quotation marks. -/
def quote (s : String) : String :=
  "\"" ++ s.foldl (fun out c => out ++ escapeChar c) "" ++ "\""

mutual

/-- The compact text of a value. -/
def compact : Value → String
  | .null => "null"
  | .bool true => "true"
  | .bool false => "false"
  | .number n => n.text
  | .string s => quote s
  | .array items => "[" ++ ",".intercalate (compactItems items) ++ "]"
  | .object members => "\x7b" ++ ",".intercalate (compactMembers members) ++ "\x7d"

/-- The texts of the items of an array. -/
def compactItems : List Value → List String
  | [] => []
  | v :: rest => compact v :: compactItems rest

/-- The texts of the members of an object, each a key and a value. -/
def compactMembers : List (String × Value) → List String
  | [] => []
  | (key, v) :: rest => (quote key ++ ":" ++ compact v) :: compactMembers rest

end

/-- A string as it is, any other value compactly. -/
def display : Value → String
  | .string s => s
  | v => v.compact

end Value

end Reactive
