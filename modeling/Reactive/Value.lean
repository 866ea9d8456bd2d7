import Reactive.Number
import Reactive.OrderedMap

/-!
# Values

The data that models, events and signals carry: null, booleans, numbers, strings, arrays and
objects. Identity of values is identity of their structure, and it is decidable. Where values are
compared, they count as equal if they are alike: if they differ at most in the signs of zeros.

An object holds its members as a list in key order. The type itself allows any list; a value is
`Canonical` when in every object of it the keys increase strictly, which holds of everything read
from text and is kept by every operation on objects here. Two canonical objects with the same
members are the same value.

## Main definitions

* `Value`, with `DecidableEq`
* `Value.alike` — equality of values up to the signs of zeros
* `Value.ofFields` — an object from its members in any order
* `Value.Canonical`
* `Value.kind` — what a value is, in words
-/

namespace Reactive

/-- A piece of data. -/
inductive Value where
  | null
  | bool (value : Bool)
  | number (value : Number)
  | string (value : String)
  | array (items : List Value)
  /-- The members in increasing order of their keys. -/
  | object (members : List (String × Value))

namespace Value

/-! ### Identity -/

mutual

/-- Identity of values is decided part by part. -/
def decEq : (a b : Value) → Decidable (a = b)
  | .null, .null => isTrue rfl
  | .bool a, .bool b => if h : a = b then isTrue (h ▸ rfl) else isFalse (by simp [h])
  | .number a, .number b => if h : a = b then isTrue (h ▸ rfl) else isFalse (by simp [h])
  | .string a, .string b => if h : a = b then isTrue (h ▸ rfl) else isFalse (by simp [h])
  | .array as, .array bs =>
    match decEqItems as bs with
    | isTrue h => isTrue (h ▸ rfl)
    | isFalse h => isFalse (by simp [h])
  | .object as, .object bs =>
    match decEqMembers as bs with
    | isTrue h => isTrue (h ▸ rfl)
    | isFalse h => isFalse (by simp [h])
  | .null, .bool _ | .null, .number _ | .null, .string _ | .null, .array _ | .null, .object _
  | .bool _, .null | .bool _, .number _ | .bool _, .string _ | .bool _, .array _
  | .bool _, .object _
  | .number _, .null | .number _, .bool _ | .number _, .string _ | .number _, .array _
  | .number _, .object _
  | .string _, .null | .string _, .bool _ | .string _, .number _ | .string _, .array _
  | .string _, .object _
  | .array _, .null | .array _, .bool _ | .array _, .number _ | .array _, .string _
  | .array _, .object _
  | .object _, .null | .object _, .bool _ | .object _, .number _ | .object _, .string _
  | .object _, .array _ => isFalse (by simp)

/-- Identity of the items of two arrays. -/
def decEqItems : (as bs : List Value) → Decidable (as = bs)
  | [], [] => isTrue rfl
  | a :: as, b :: bs =>
    match decEq a b with
    | isFalse h => isFalse (by simp [h])
    | isTrue h =>
      match decEqItems as bs with
      | isFalse h' => isFalse (by simp [h'])
      | isTrue h' => isTrue (h ▸ h' ▸ rfl)
  | [], _ :: _ | _ :: _, [] => isFalse (by simp)

/-- Identity of the members of two objects. -/
def decEqMembers : (as bs : List (String × Value)) → Decidable (as = bs)
  | [], [] => isTrue rfl
  | (k, a) :: as, (l, b) :: bs =>
    if hk : k = l then
      match decEq a b with
      | isFalse h => isFalse (by simp [h])
      | isTrue h =>
        match decEqMembers as bs with
        | isFalse h' => isFalse (by simp [h'])
        | isTrue h' => isTrue (hk ▸ h ▸ h' ▸ rfl)
    else isFalse (by simp [hk])
  | [], _ :: _ | _ :: _, [] => isFalse (by simp)

end

instance : DecidableEq Value := decEq

instance : Inhabited Value := ⟨.null⟩

/-! ### Equality -/

mutual

/-- The same value, but no zero in it has a minus. -/
def unsignedZeros : Value → Value
  | .number n => .number n.unsignedZero
  | .array items => .array (unsignedZerosItems items)
  | .object members => .object (unsignedZerosMembers members)
  | v => v

/-- The items of an array without the minuses of zeros. -/
def unsignedZerosItems : List Value → List Value
  | [] => []
  | v :: rest => unsignedZeros v :: unsignedZerosItems rest

/-- The members of an object without the minuses of zeros. -/
def unsignedZerosMembers : List (String × Value) → List (String × Value)
  | [] => []
  | (key, v) :: rest => (key, unsignedZeros v) :: unsignedZerosMembers rest

end

/-- Are two values equal? They are if they are identical up to the signs of zeros. -/
def alike (a b : Value) : Bool := a.unsignedZeros = b.unsignedZeros

/-! ### Building values -/

/-- The object with no members. -/
def emptyObject : Value := .object []

/-- The object with some members, given in any order; of two with one key the later counts. -/
def ofFields (fields : List (String × Value)) : Value := .object (OrderedMap.ofList fields)

/-- The whole number `n` as a value. -/
def int (n : Int) : Value := .number (.whole n)

/-- The natural number `n` as a value. -/
def nat (n : Nat) : Value := .number (.whole n)

/-! ### Reading values -/

/-- The member of an object under a key; a value that is no object has none. -/
def member? : Value → String → Option Value
  | .object members, key => OrderedMap.find? members key
  | _, _ => none

/-- The text of a string. -/
def asString? : Value → Option String
  | .string s => some s
  | _ => none

/-- The truth value of a boolean. -/
def asBool? : Value → Option Bool
  | .bool b => some b
  | _ => none

/-- The items of an array. -/
def asArray? : Value → Option (List Value)
  | .array items => some items
  | _ => none

/-- Is this the null value? -/
def isNull : Value → Bool
  | .null => true
  | _ => false

/-- Is this value an object? -/
def isObject : Value → Bool
  | .object _ => true
  | _ => false

/-- What a value is, in words with an article. -/
def kind : Value → String
  | .null => "null"
  | .bool _ => "a boolean"
  | .number _ => "a number"
  | .string _ => "a string"
  | .array _ => "an array"
  | .object _ => "an object"

@[simp] theorem isNull_eq_true_iff {v : Value} : v.isNull = true ↔ v = .null := by
  cases v <;> simp [isNull]

/-! ### Canonical values -/

mutual

/-- In every object of the value the keys increase strictly. -/
def Canonical : Value → Prop
  | .array items => CanonicalItems items
  | .object members => OrderedMap.Sorted members ∧ CanonicalMembers members
  | _ => True

/-- Every item of an array is canonical. -/
def CanonicalItems : List Value → Prop
  | [] => True
  | v :: rest => Canonical v ∧ CanonicalItems rest

/-- Every member of an object is canonical. -/
def CanonicalMembers : List (String × Value) → Prop
  | [] => True
  | (_, v) :: rest => Canonical v ∧ CanonicalMembers rest

end

theorem canonicalItems_iff {items : List Value} :
    CanonicalItems items ↔ ∀ v ∈ items, v.Canonical := by
  induction items with
  | nil => simp [CanonicalItems]
  | cons v rest ih => simp [CanonicalItems, ih]

theorem canonicalMembers_iff {members : List (String × Value)} :
    CanonicalMembers members ↔ ∀ p ∈ members, p.2.Canonical := by
  induction members with
  | nil => simp [CanonicalMembers]
  | cons p rest ih => obtain ⟨k, v⟩ := p; simp [CanonicalMembers, ih]

theorem canonical_array_iff {items : List Value} :
    (Value.array items).Canonical ↔ ∀ v ∈ items, v.Canonical :=
  canonicalItems_iff

theorem canonical_object_iff {members : List (String × Value)} :
    (Value.object members).Canonical ↔
      OrderedMap.Sorted members ∧ ∀ p ∈ members, p.2.Canonical := by
  rw [Canonical, canonicalMembers_iff]

end Value

end Reactive
