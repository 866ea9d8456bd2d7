import Reactive.Value

/-!
# Pointers into a value

A pointer is a list of tokens, each naming a member of an object or a position in an array. Its
text is the concatenation of the tokens, each behind a slash. Inside a token a slash is written
`~1` and a tilde `~0`. The empty text points to the value itself.

A position in an array has one spelling, the decimal numeral without leading zeros, and is less
than `2 ^ 64`. A token of any other form points to nothing in an array.

`get?` reads the value a pointer reaches, and `set` writes there. Writing is total: where the
pointer reaches nothing there is nothing to write, and the value stays as it was.

## Main definitions

* `Pointer`, `Pointer.render`, `Pointer.parse`
* `Pointer.arrayIndex?`
* `Value.child?`, `Value.get?`, `Value.setChild`, `Value.set`

## Main results

* `Pointer.unescape?_escape`, `escape_of_unescape?_eq_some` — escaping and reading back
* `Value.get?_append`, `Value.get?_set_self`
-/

namespace Reactive

/-- The tokens that lead from a value to one of its parts. -/
abbrev Pointer := List String

namespace Pointer

/-! ### Texts of pointers -/

/-- The written form of a token: a tilde is `~0` and a slash is `~1`. -/
def escape : List Char → List Char
  | [] => []
  | c :: rest =>
    if c = '~' then '~' :: '0' :: escape rest
    else if c = '/' then '~' :: '1' :: escape rest
    else c :: escape rest

/-- Reads a written token back. A tilde that is followed neither by `0` nor by `1` is refused. -/
def unescape? : List Char → Option (List Char)
  | [] => some []
  | '~' :: '0' :: rest => (unescape? rest).map ('~' :: ·)
  | '~' :: '1' :: rest => (unescape? rest).map ('/' :: ·)
  | c :: rest => if c = '~' then none else (unescape? rest).map (c :: ·)

/-- An escaped token is read back. -/
@[simp] theorem unescape?_escape (cs : List Char) : unescape? (escape cs) = some cs := by
  induction cs with
  | nil => rfl
  | cons c rest ih =>
    by_cases h : c = '~'
    · simp [escape, unescape?, h, ih]
    · by_cases h' : c = '/' <;> simp [escape, unescape?, h, h', ih]

/-- A segment without slashes that can be read is the escaped form of what is read. -/
theorem escape_of_unescape?_eq_some {segment cs : List Char} (hslash : '/' ∉ segment)
    (h : unescape? segment = some cs) : escape cs = segment := by
  fun_induction unescape? segment generalizing cs with
  | case1 =>
    obtain rfl : cs = [] := by simpa using h.symm
    rfl
  | case2 rest ih =>
    obtain ⟨tail, htail, rfl⟩ := Option.map_eq_some_iff.mp h
    simp only [escape, if_true, ih (fun hmem => hslash (by simp [hmem])) htail]
  | case3 rest ih =>
    obtain ⟨tail, htail, rfl⟩ := Option.map_eq_some_iff.mp h
    simp only [escape, if_true, ih (fun hmem => hslash (by simp [hmem])) htail]
    rfl
  | case4 => simp at h
  | case5 c rest _ _ hc ih =>
    obtain ⟨tail, htail, rfl⟩ := Option.map_eq_some_iff.mp h
    have hne : c ≠ '/' := fun he => hslash (by simp [he])
    simp only [escape, if_neg hc, if_neg hne, ih (fun hmem => hslash (by simp [hmem])) htail]

/-- A token, escaped, as text. -/
def escapeToken (token : String) : String := String.ofList (escape token.toList)

/-- The text of a pointer. -/
def render (tokens : Pointer) : String :=
  String.ofList (tokens.flatMap fun token => '/' :: escape token.toList)

/-- Why a text is not the text of a pointer. -/
inductive Fault where
  /-- It is not empty and starts with something else than a slash. -/
  | unrooted
  /-- A tilde in this segment starts no escape. -/
  | badEscape (segment : String)
  deriving DecidableEq

/-- What is wrong, in words. -/
def Fault.message : Fault → String
  | unrooted => "paths must be empty or start with '/'"
  | badEscape segment => s!"bad escape sequence in segment '{segment}'"

/-- The token that a segment between two slashes stands for. -/
def token (segment : List Char) : Except Fault String :=
  match unescape? segment with
  | some chars => .ok (String.ofList chars)
  | none => .error (.badEscape (String.ofList segment))

/-- Reads the text of a pointer. Of several bad segments the first is reported. -/
def parse (text : String) : Except Fault Pointer :=
  match text.toList with
  | [] => .ok []
  | c :: rest => if c = '/' then (rest.splitOn '/').mapM token else .error .unrooted

/-! ### Positions in an array -/

/-- The position a token stands for in an array: the token is the decimal numeral of a number
below `2 ^ 64`, with no leading zero. -/
def arrayIndex? (token : String) : Option Nat :=
  let digits := token.toList
  if digits ≠ [] ∧ digits.all Char.isDigit ∧ (digits = ['0'] ∨ digits.head? ≠ some '0') then
    let index := Nat.ofDigitChars 10 digits 0
    if index < UInt64.size then some index else none
  else none

end Pointer

namespace Value

/-! ### Reading and writing at a pointer -/

/-- The part of a value that one token names: a member of an object or an item of an array. -/
def child? : Value → String → Option Value
  | .object members, token => OrderedMap.find? members token
  | .array items, token => (Pointer.arrayIndex? token).bind fun index => items[index]?
  | _, _ => none

/-- The value that a pointer reaches. -/
def get? : Value → Pointer → Option Value
  | v, [] => some v
  | v, token :: rest => (v.child? token).bind fun child => child.get? rest

/-- Writes over the part of a value that one token names; without such a part nothing changes. -/
def setChild (v : Value) (token : String) (child : Value) : Value :=
  match v with
  | .object members => .object (OrderedMap.modify members token fun _ => child)
  | .array items =>
    match Pointer.arrayIndex? token with
    | some index => .array (items.set index child)
    | none => v
  | _ => v

/-- Writes over the value that a pointer reaches; if it reaches none nothing changes. -/
def set : Value → Pointer → Value → Value
  | _, [], new => new
  | v, token :: rest, new =>
    match v.child? token with
    | some child => v.setChild token (child.set rest new)
    | none => v

@[simp] theorem get?_nil (v : Value) : v.get? [] = some v := rfl

theorem get?_cons (v : Value) (token : String) (rest : Pointer) :
    v.get? (token :: rest) = (v.child? token).bind fun child => child.get? rest := rfl

@[simp] theorem set_nil (v new : Value) : v.set [] new = new := rfl

/-- A pointer is followed one part after the other. -/
theorem get?_append (v : Value) (p q : Pointer) :
    v.get? (p ++ q) = (v.get? p).bind fun w => w.get? q := by
  induction p generalizing v with
  | nil => rfl
  | cons token rest ih =>
    rw [List.cons_append, get?_cons, get?_cons]
    cases v.child? token with
    | none => rfl
    | some child => exact ih child

/-- What is written at a part is read there. -/
theorem child?_setChild_self {v old : Value} {token : String} (h : v.child? token = some old)
    (new : Value) : (v.setChild token new).child? token = some new := by
  cases v with
  | object members =>
    simp only [child?] at h
    simp [setChild, child?, OrderedMap.find?_modify, h]
  | array items =>
    simp only [child?, Option.bind_eq_some_iff] at h
    obtain ⟨index, hindex, hold⟩ := h
    have hlt : index < items.length := (List.getElem?_eq_some_iff.mp hold).1
    simp [setChild, child?, hindex, hlt]
  | _ => simp [child?] at h

/-- **Read after write.** What is written at a pointer that reaches something is read there. -/
theorem get?_set_self {v old : Value} {p : Pointer} (h : v.get? p = some old) (new : Value) :
    (v.set p new).get? p = some new := by
  induction p generalizing v with
  | nil => rfl
  | cons token rest ih =>
    rw [get?_cons, Option.bind_eq_some_iff] at h
    obtain ⟨child, hchild, hrest⟩ := h
    simp only [set, hchild, get?_cons, child?_setChild_self hchild, Option.bind_some]
    exact ih hrest

end Value

end Reactive
