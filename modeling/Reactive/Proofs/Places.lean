import Mathlib
import Reactive.Proofs.Positions

/-!
# Places in a value

A pointer names a place in a value. What is written there is seen there, and it is seen on the way
there; from every other place all looks as before. Two pointers are apart if neither leads through
the place of the other: they go together for a while and then take different tokens, and different
tokens name different parts of a value.

Writing is also local in the sense that it can be done in two steps: to write below a place is to
read the part at that place, write in the part, and write the part back.

## Main definitions

* `Pointer.Apart` — neither pointer leads through the place of the other

## Main results

* `Pointer.apart_iff` — pointers that are apart part at a token
* `Value.get?_set_of_apart` — **read another place**
* `Value.set_append`, `set_set`, `set_get?` — writing in two steps, twice, and what was there
* `Value.get?_position` — what a pointer sees through an array
-/

namespace Reactive

namespace Pointer

/-- Two pointers are apart: neither leads through the place of the other. -/
def Apart (p q : Pointer) : Prop := ¬ p <+: q ∧ ¬ q <+: p

/-- Pointers that start with the same token are apart if the rests are. -/
theorem apart_cons_iff {token : String} {p q : Pointer} :
    Apart (token :: p) (token :: q) ↔ p.Apart q := by
  simp [Apart, List.cons_prefix_cons]

theorem apart_append_iff {stem p q : Pointer} : Apart (stem ++ p) (stem ++ q) ↔ p.Apart q := by
  simp [Apart, List.prefix_append_right_inj]

theorem apart_of_ne {a b : String} (h : a ≠ b) (p q : Pointer) : Apart (a :: p) (b :: q) := by
  simp [Apart, List.cons_prefix_cons, h, h.symm]

/-- Pointers that are apart go together for a while and then take different tokens. -/
theorem apart_iff {p q : Pointer} : p.Apart q ↔ ∃ stem a b restP restQ,
    a ≠ b ∧ p = stem ++ a :: restP ∧ q = stem ++ b :: restQ := by
  constructor
  · intro h
    induction p generalizing q with
    | nil => exact absurd List.nil_prefix h.1
    | cons a restP ih =>
      cases q with
      | nil => exact absurd List.nil_prefix h.2
      | cons b restQ =>
        by_cases hab : a = b
        · subst hab
          obtain ⟨stem, c, d, restP', restQ', hne, rfl, rfl⟩ := ih (apart_cons_iff.mp h)
          exact ⟨a :: stem, c, d, restP', restQ', hne, rfl, rfl⟩
        · exact ⟨[], a, b, restP, restQ, hab, rfl, rfl⟩
  · rintro ⟨stem, a, b, restP, restQ, hne, rfl, rfl⟩
    exact apart_append_iff.mpr (apart_of_ne hne restP restQ)

/-- What is apart from a pointer is apart from all pointers that lead on from it. -/
theorem Apart.append {p q : Pointer} (h : p.Apart q) (rest : Pointer) : (p ++ rest).Apart q := by
  obtain ⟨stem, a, b, restP, restQ, hne, rfl, rfl⟩ := apart_iff.mp h
  exact apart_iff.mpr ⟨stem, a, b, restP ++ rest, restQ, hne, by simp, rfl⟩

end Pointer

namespace OrderedMap

variable {α : Type u}

/-- Of two changes under one name the later is seen. -/
theorem modify_modify (entries : OrderedMap α) (key : String) (change again : α → α) :
    modify (modify entries key change) key again = modify entries key (again ∘ change) := by
  induction entries with
  | nil => rfl
  | cons entry rest ih =>
    by_cases hk : key = entry.1
    · simp [modify, hk]
    · simp [modify, hk, ih]

theorem modify_eq_self {entries : OrderedMap α} {key : String} {value : α}
    (h : find? entries key = some value) : modify entries key (fun _ => value) = entries := by
  induction entries with
  | nil => rfl
  | cons entry rest ih =>
    obtain ⟨other, old⟩ := entry
    rw [find?_cons] at h
    by_cases hk : key = other
    · obtain rfl : old = value := by simpa [hk] using h
      simp [modify, hk]
    · rw [if_neg hk] at h
      simp [modify, hk, ih h]

end OrderedMap

namespace Value

/-! ### One token -/

/-- A part under another token is not touched. -/
theorem child?_setChild_of_ne {token other : String} (h : other ≠ token) (v new : Value) :
    (v.setChild token new).child? other = v.child? other := by
  cases v with
  | object members => simp [setChild, child?, OrderedMap.find?_modify, h]
  | array items =>
    cases hindex : Pointer.arrayIndex? token with
    | none => simp [setChild, hindex]
    | some index =>
      simp only [setChild, hindex, child?]
      cases hother : Pointer.arrayIndex? other with
      | none => rfl
      | some index' =>
        have hne : index ≠ index' := fun he =>
          h (Pointer.arrayIndex?_injective hother (he ▸ hindex))
        rw [Option.bind_some, Option.bind_some, List.getElem?_set_ne hne]
  | _ => rfl

theorem setChild_setChild (v : Value) (token : String) (first second : Value) :
    (v.setChild token first).setChild token second = v.setChild token second := by
  cases v with
  | object members => simp [setChild, OrderedMap.modify_modify, Function.comp_def]
  | array items => cases hindex : Pointer.arrayIndex? token <;> simp [setChild, hindex]
  | _ => rfl

theorem setChild_child? {v child : Value} {token : String} (h : v.child? token = some child) :
    v.setChild token child = v := by
  cases v with
  | object members => rw [setChild, OrderedMap.modify_eq_self h]
  | array items =>
    obtain ⟨index, hindex, hitem⟩ := Option.bind_eq_some_iff.mp h
    obtain ⟨hlt, rfl⟩ := List.getElem?_eq_some_iff.mp hitem
    simp [setChild, hindex]
  | _ => rfl

/-! ### Pointers -/

theorem get?_concat (v : Value) (p : Pointer) (token : String) :
    v.get? (p ++ [token]) = (v.get? p).bind fun part => part.child? token := by
  rw [get?_append]
  congr
  funext part
  rw [get?_cons]
  cases part.child? token <;> rfl

/-- **Read another place.** What is written at a pointer is not seen from a place apart from it. -/
theorem get?_set_of_apart {p q : Pointer} (h : p.Apart q) (v new : Value) :
    (v.set p new).get? q = v.get? q := by
  induction p generalizing v q with
  | nil => exact absurd List.nil_prefix h.1
  | cons token rest ih =>
    cases q with
    | nil => exact absurd List.nil_prefix h.2
    | cons other rest' =>
      rw [set]
      cases hchild : v.child? token with
      | none => rfl
      | some child =>
        rw [get?_cons, get?_cons]
        by_cases he : other = token
        · subst he
          rw [child?_setChild_self hchild, hchild, Option.bind_some, Option.bind_some]
          exact ih (Pointer.apart_cons_iff.mp h) child
        · rw [child?_setChild_of_ne he]

/-- To write below a place is to write in the part there, and to write the part back. -/
theorem set_append {v part : Value} {p : Pointer} (h : v.get? p = some part) (q : Pointer)
    (new : Value) : v.set (p ++ q) new = v.set p (part.set q new) := by
  induction p generalizing v with
  | nil =>
    obtain rfl : v = part := by simpa using h
    rfl
  | cons token rest ih =>
    rw [get?_cons, Option.bind_eq_some_iff] at h
    obtain ⟨child, hchild, hrest⟩ := h
    simp only [List.cons_append, set, hchild, ih hrest]

/-- Of two values written at one place the later stays. -/
theorem set_set {v part : Value} {p : Pointer} (h : v.get? p = some part) (first second : Value) :
    (v.set p first).set p second = v.set p second := by
  induction p generalizing v with
  | nil => rfl
  | cons token rest ih =>
    rw [get?_cons, Option.bind_eq_some_iff] at h
    obtain ⟨child, hchild, hrest⟩ := h
    simp only [set, hchild, child?_setChild_self hchild, ih hrest, setChild_setChild]

/-- To write what is there changes nothing. -/
theorem set_get? {v part : Value} {p : Pointer} (h : v.get? p = some part) :
    v.set p part = v := by
  induction p generalizing v with
  | nil =>
    obtain rfl : v = part := by simpa using h
    rfl
  | cons token rest ih =>
    rw [get?_cons, Option.bind_eq_some_iff] at h
    obtain ⟨child, hchild, hrest⟩ := h
    simp only [set, hchild, ih hrest, setChild_child? hchild]

/-- What is written at a place is seen from below it. -/
theorem get?_set_append {v part : Value} {p : Pointer} (h : v.get? p = some part) (new : Value)
    (q : Pointer) : (v.set p new).get? (p ++ q) = new.get? q := by
  rw [get?_append, get?_set_self h, Option.bind_some]

/-- A numeral leads to the item of that number. -/
theorem get?_position {v : Value} {p : Pointer} {items : List Value}
    (h : v.get? p = some (.array items)) {n : Nat} (hn : n < UInt64.size) (rest : Pointer) :
    v.get? (p ++ n.repr :: rest) = items[n]?.bind fun item => item.get? rest := by
  rw [get?_append, h, Option.bind_some, get?_cons, child?, Pointer.arrayIndex?_repr hn,
    Option.bind_some]

end Value

end Reactive
