import Mathlib
import Reactive.Proofs.Effects

/-!
# The spelling of positions

Which item of an array does a token stand for? One may go through the numbers below the length of
the array, write each of them down, and stop where the token is what has been written. This is what
`spelled?` does, and it is all that tokens can do in an array. A token is read back as a number in
another way, by a test of its characters and a bound on what they add up to. Here the two are shown
to be the same, in everything that looks at an item, writes over it, takes it out, or puts another
before it.

It follows that no item has two tokens.

## What is deliberately absent

The token `-` stands for no item. Where an item is put into an array it means the place behind the
last one, which is also the place that the length of the array spells.

## Main definitions

* `Pointer.IsNumeral` — digits only, and no zero in front of others
* `Pointer.spelled?` — the number below a bound that a token spells
* `Pointer.ActsAt` — what a token does at an array
* `Pointer.SpellsAlone` — what a token can do at all

## Main results

* `Pointer.isNumeral_iff` — numerals are what numbers are written as
* `Pointer.spelled?_eq_filter` — **reading and writing agree**
* `Patch.Operation.act_add_array`, `act_replace_array`, `act_remove_array`
* `Pointer.spellsAlone`
-/

namespace Reactive

namespace Pointer

variable {token : String} {n : Nat}

/-! ### Numerals -/

/-- A decimal numeral: digits only, at least one, and no zero in front of others. -/
def IsNumeral (token : String) : Prop :=
  token.toList ≠ [] ∧ (∀ c ∈ token.toList, c.isDigit = true) ∧
    (token.toList = ['0'] ∨ token.toList.head? ≠ some '0')

/-- **Numerals are what numbers are written as.** -/
theorem isNumeral_iff : IsNumeral token ↔ ∃ n : Nat, token = n.repr := by
  constructor
  · rintro ⟨hne, hdigits, hlead⟩
    refine ⟨Nat.ofDigitChars 10 token.toList 0, String.toList_injective ?_⟩
    rw [Nat.toList_repr, toDigits_ofDigitChars_zero hne (List.all_eq_true.mpr hdigits) hlead]
  · rintro ⟨n, rfl⟩
    rw [IsNumeral, Nat.toList_repr]
    refine ⟨Nat.toDigits_ne_nil, List.all_eq_true.mp (all_isDigit_toDigits n), ?_⟩
    rcases Nat.eq_zero_or_pos n with rfl | hpos
    · exact .inl (Nat.toDigits_zero 10)
    · exact .inr (head?_toDigits_ne_zero hpos)

/-- What is no position is no numeral, or the numeral of a number that is too large. -/
theorem arrayIndex?_eq_none_iff : arrayIndex? token = none ↔
    ¬ IsNumeral token ∨ ∃ n, UInt64.size ≤ n ∧ token = n.repr := by
  rw [isNumeral_iff, Option.eq_none_iff_forall_ne_some]
  constructor
  · intro hnone
    by_cases hnumeral : ∃ n : Nat, token = n.repr
    · obtain ⟨n, rfl⟩ := hnumeral
      refine .inr ⟨n, Nat.le_of_not_lt fun hlt => hnone n ?_, rfl⟩
      exact arrayIndex?_repr hlt
    · exact .inl hnumeral
  · rintro hnone index hindex
    obtain ⟨hlt, rfl⟩ := arrayIndex?_eq_some_iff.mp hindex
    rcases hnone with hnumeral | ⟨n, hle, heq⟩
    · exact hnumeral ⟨index, rfl⟩
    · obtain rfl := Nat.repr_inj.mp heq
      exact absurd hlt (Nat.not_lt.mpr hle)

/-! ### Numbers below a bound -/

/-- The number below a bound whose numeral is the token, and that is below `2 ^ 64` too. -/
def spelled? (bound : Nat) (token : String) : Option Nat :=
  (List.range bound).find? fun n => n < UInt64.size ∧ n.repr = token

theorem spelled?_eq_some_iff {bound : Nat} :
    spelled? bound token = some n ↔ n < bound ∧ n < UInt64.size ∧ n.repr = token := by
  rw [spelled?, List.find?_range_eq_some, List.mem_range, decide_eq_true_eq]
  constructor
  · rintro ⟨hspelled, hbound, -⟩
    exact ⟨hbound, hspelled⟩
  · rintro ⟨hbound, hsize, rfl⟩
    refine ⟨⟨hsize, rfl⟩, hbound, fun earlier hlt => ?_⟩
    simp [Nat.repr_inj, Nat.ne_of_lt hlt]

/-- **Reading and writing agree.** -/
theorem spelled?_eq_filter (bound : Nat) (token : String) :
    spelled? bound token = (arrayIndex? token).filter (· < bound) := by
  refine Option.ext fun n => ?_
  rw [spelled?_eq_some_iff, Option.filter_eq_some_iff, arrayIndex?_eq_some_iff, decide_eq_true_eq]
  constructor
  · rintro ⟨hbound, hsize, rfl⟩
    exact ⟨⟨hsize, rfl⟩, hbound⟩
  · rintro ⟨⟨hsize, rfl⟩, hbound⟩
    exact ⟨hbound, hsize, rfl⟩

/-- Two tokens do not spell the same. -/
theorem spelled?_ne {other : String} (h : other ≠ token) {bound : Nat}
    (hn : spelled? bound token = some n) : spelled? bound other ≠ some n := by
  intro hother
  exact h ((spelled?_eq_some_iff.mp hother).2.2.symm.trans (spelled?_eq_some_iff.mp hn).2.2)

end Pointer

/-! ### Arrays -/

namespace Value

open Pointer (spelled?)

theorem child?_array (items : List Value) (token : String) :
    (array items).child? token = (spelled? items.length token).bind fun n => items[n]? := by
  rw [child?, Pointer.spelled?_eq_filter]
  cases Pointer.arrayIndex? token with
  | none => rfl
  | some n =>
    by_cases hlt : n < items.length
    · simp [Option.filter, hlt]
    · simp [Option.filter, hlt]

theorem setChild_array (items : List Value) (token : String) (new : Value) :
    (array items).setChild token new = match spelled? items.length token with
      | some n => array (items.set n new)
      | none => array items := by
  rw [setChild, Pointer.spelled?_eq_filter]
  cases Pointer.arrayIndex? token with
  | none => rfl
  | some n =>
    by_cases hlt : n < items.length
    · simp [Option.filter, hlt]
    · simp [Option.filter, hlt, List.set_eq_of_length_le (Nat.le_of_not_lt hlt)]

end Value

namespace Patch.Operation

open Pointer (spelled?)

theorem act_add_array (path : String) (value : Value) (token : String) (items : List Value) :
    (add path value).act token (.array items) =
      if token = "-" then .ok (.array (items ++ [value]))
      else match spelled? (items.length + 1) token with
        | some n => .ok (.array (items.insertIdx n value))
        | none => .error (.invalidIndex path token) := by
  rw [act, addChild, Pointer.spelled?_eq_filter]
  cases Pointer.arrayIndex? token with
  | none => rfl
  | some n => by_cases hle : n ≤ items.length <;> simp [Option.filter, hle]

theorem act_replace_array (path : String) (value : Value) (token : String) (items : List Value) :
    (replace path value).act token (.array items) = match spelled? items.length token with
      | some n => .ok (.array (items.set n value))
      | none => .error (.nothingToReplace path) := by
  rw [act, Value.child?_array, Value.setChild_array]
  cases hspelled : spelled? items.length token with
  | none => rfl
  | some n => simp [(Pointer.spelled?_eq_some_iff.mp hspelled).1]

theorem act_remove_array (path token : String) (items : List Value) :
    (remove path).act token (.array items) = match spelled? items.length token with
      | some n => .ok (.array (items.eraseIdx n))
      | none => .error (.nothingToRemove path) := by
  rw [act, removeChild, Pointer.spelled?_eq_filter]
  cases Pointer.arrayIndex? token with
  | none => rfl
  | some n => by_cases hlt : n < items.length <;> simp [Option.filter, hlt]

/-- What becomes of a model is what becomes of the array in it. -/
theorem run_concat_array {model : Value} {stem : Pointer} {items : List Value}
    (h : model.get? stem = some (.array items)) (op : Operation) (token : String) :
    op.run (stem ++ [token]) model = (op.act token (.array items)).map (model.set stem) := by
  rw [run_concat, h]

end Patch.Operation

/-! ### What a token can do -/

namespace Pointer

/-- What a token does in a model at an array with these items. The array is at the end of `stem`. -/
structure ActsAt (token : String) (model : Value) (stem : Pointer) (items : List Value) :
    Prop where
  /-- On the way to a place it leads to the item that it spells. -/
  get?_eq : ∀ rest, model.get? (stem ++ token :: rest)
    = (spelled? items.length token).bind fun n => items[n]?.bind fun item => item.get? rest
  /-- What is written behind it is written in this item. -/
  set_eq : ∀ rest new, model.set (stem ++ token :: rest) new
    = match spelled? items.length token with
      | some n => model.set stem (.array (items.modify n fun item => item.set rest new))
      | none => model
  /-- A value is put before the item that it spells, where the place behind the last item counts
  too, which is also that of the token `-`. -/
  add_eq : ∀ path value, (Patch.Operation.add path value).run (stem ++ [token]) model
    = if token = "-" then .ok (model.set stem (.array (items ++ [value])))
      else match spelled? (items.length + 1) token with
        | some n => .ok (model.set stem (.array (items.insertIdx n value)))
        | none => .error (.invalidIndex path token)
  replace_eq : ∀ path value, (Patch.Operation.replace path value).run (stem ++ [token]) model
    = match spelled? items.length token with
      | some n => .ok (model.set stem (.array (items.set n value)))
      | none => .error (.nothingToReplace path)
  /-- The item that it spells is taken out. -/
  remove_eq : ∀ path, (Patch.Operation.remove path).run (stem ++ [token]) model
    = match spelled? items.length token with
      | some n => .ok (model.set stem (.array (items.eraseIdx n)))
      | none => .error (.nothingToRemove path)

end Pointer

namespace Value

theorem set_array (items : List Value) (token : String) (rest : Pointer) (new : Value) :
    (array items).set (token :: rest) new = match Pointer.spelled? items.length token with
      | some n => array (items.modify n fun item => item.set rest new)
      | none => array items := by
  rw [set, child?_array]
  cases hspelled : Pointer.spelled? items.length token with
  | none => rfl
  | some n =>
    have hlt : n < items.length := (Pointer.spelled?_eq_some_iff.mp hspelled).1
    rw [Option.bind_some, List.getElem?_eq_getElem hlt]
    simp only [setChild_array, hspelled]
    rw [List.modify_eq_set, List.getElem?_eq_getElem hlt]
    rfl

end Value

namespace Pointer

theorem actsAt {model : Value} {stem : Pointer} {items : List Value}
    (h : model.get? stem = some (.array items)) (token : String) :
    ActsAt token model stem items := by
  constructor
  case get?_eq =>
    intro rest
    rw [Value.get?_append, h, Option.bind_some, Value.get?_cons, Value.child?_array,
      Option.bind_assoc]
  case set_eq =>
    intro rest new
    rw [Value.set_append h, Value.set_array]
    cases spelled? items.length token with
    | none => exact Value.set_get? h
    | some n => rfl
  case add_eq =>
    intro path value
    rw [Patch.Operation.run_concat_array h, Patch.Operation.act_add_array]
    split
    · rfl
    · cases spelled? (items.length + 1) token <;> rfl
  case replace_eq =>
    intro path value
    rw [Patch.Operation.run_concat_array h, Patch.Operation.act_replace_array]
    cases spelled? items.length token <;> rfl
  case remove_eq =>
    intro path
    rw [Patch.Operation.run_concat_array h, Patch.Operation.act_remove_array]
    cases spelled? items.length token <;> rfl

/-- A token spells one position at most, and nothing else spells it. -/
structure SpellsAlone (token : String) : Prop where
  numeral_iff : IsNumeral token ↔ ∃ n : Nat, token = n.repr
  /-- The token is read as a number below `2 ^ 64` if and only if it is its numeral. -/
  eq_some_iff : ∀ n, arrayIndex? token = some n ↔ n < UInt64.size ∧ token = n.repr
  /-- All other texts are refused, numerals of larger numbers among them. -/
  eq_none_iff : arrayIndex? token = none ↔
    ¬ IsNumeral token ∨ ∃ n, UInt64.size ≤ n ∧ token = n.repr
  /-- Below a bound just the numbers below it can be spelled: the items of an array, or the places
  between them with both ends. -/
  spelled?_eq_iff : ∀ bound n,
    spelled? bound token = some n ↔ n < bound ∧ n < UInt64.size ∧ n.repr = token
  /-- Whatever the length of an array, no other token spells the same. -/
  alone : ∀ other, other ≠ token → ∀ bound n,
    spelled? bound token = some n → spelled? bound other ≠ some n
  /-- In every array, whatever is done with a token is done with the item that it spells. -/
  acts : ∀ model stem items, Value.get? model stem = some (.array items) →
    ActsAt token model stem items
  /-- What is written behind another token is not seen. -/
  apart : ∀ other, other ≠ token → ∀ (model : Value) (stem rest rest' : Pointer) (new : Value),
    (model.set (stem ++ other :: rest') new).get? (stem ++ token :: rest)
      = model.get? (stem ++ token :: rest)

/-- **Positions have one spelling.** Whatever the token: it is a position if and only if it is the
numeral of a number below `2 ^ 64`, and in an array it leads to the item of that number, is where an
item is put in if the number is at most the length of the array, and is where one is taken out if it
is less. Two different tokens never lead to the same item. -/
theorem spellsAlone (token : String) : SpellsAlone token where
  numeral_iff := isNumeral_iff
  eq_some_iff _ := arrayIndex?_eq_some_iff
  eq_none_iff := arrayIndex?_eq_none_iff
  spelled?_eq_iff _ _ := spelled?_eq_some_iff
  alone _ hne _ _ := spelled?_ne hne
  acts _ _ _ h := actsAt h token
  apart _ hne model _ rest rest' new :=
    Value.get?_set_of_apart (apart_append_iff.mpr (apart_of_ne hne rest' rest)) model new

/-- In an array of three items `2` spells the last one, and neither `02` nor `3` spells any. -/
example : ["2", "02", "3", "-"].map (spelled? 3) = [some 2, none, none, none] := by decide

end Pointer

end Reactive
