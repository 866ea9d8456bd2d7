import Mathlib
import Reactive.Proofs.Fields
import Reactive.Proofs.Members

/-!
# Undoing

What an operation has done, one operation takes back. Which one it is can be told from the model
before: what was added is removed, what was written over is written again, and what was removed is
added at the place where it was. Only the token `-` of an addition does not lead to what was added,
and the position stands in its place. A list is taken back operation by operation, the last one
first.

The law rests on two properties of the models that programs have. The names in an object increase,
so that a member that is removed and added again comes back to its place. And every item of an array
has a position, so that an item added behind the last one can be named.

## Main definitions

* `Value.Addressable` — every item of every array has a position
* `Patch.Operation.inverse` — the operation that takes another one back
* `Patch.undo` — the operations that take a list back

## Main results

* `Patch.Operation.apply_inverse` — **one operation is undone by one**
* `Patch.undo_of_apply`
-/

namespace Reactive

namespace Value

/-- Every item of every array in a value has a position. -/
def Addressable (v : Value) : Prop :=
  ∀ p items, v.get? p = some (.array items) → items.length ≤ UInt64.size

theorem addressable_array {items : List Value} (hlength : items.length ≤ UInt64.size)
    (h : ∀ item ∈ items, item.Addressable) : (array items).Addressable := by
  rintro (_ | ⟨token, rest⟩) others hothers
  · obtain rfl : items = others := array.inj (Option.some.inj hothers)
    exact hlength
  · rw [get?_cons, Option.bind_eq_some_iff] at hothers
    obtain ⟨item, hitem, hrest⟩ := hothers
    obtain ⟨position, -, hitem⟩ := Option.bind_eq_some_iff.mp hitem
    exact h item (List.mem_of_getElem? hitem) rest others hrest

theorem addressable_object {members : OrderedMap Value}
    (h : ∀ member ∈ members, member.2.Addressable) : (object members).Addressable := by
  rintro (_ | ⟨token, rest⟩) items hitems
  · cases hitems
  · rw [get?_cons, Option.bind_eq_some_iff] at hitems
    obtain ⟨value, hvalue, hrest⟩ := hitems
    exact h _ (OrderedMap.mem_of_find? hvalue) rest items hrest

theorem addressable_scalar {v : Value} (hparts : ∀ token, v.child? token = none)
    (h : ∀ items, v ≠ .array items) : v.Addressable := by
  rintro (_ | ⟨token, rest⟩) items hitems
  · exact absurd (Option.some.inj hitems) (h items)
  · rw [get?_cons, hparts] at hitems
    cases hitems

end Value

namespace Patch

namespace Operation

/-- The operation that takes back what an operation with the pointer `p` does to a model. -/
def inverse (op : Operation) (p : Pointer) (model : Value) : Operation :=
  match op with
  | replace path _ => replace path ((model.get? p).getD .null)
  | remove path => add path ((model.get? p).getD .null)
  | add path _ =>
    match p.getLast?, model.get? p.dropLast with
    | some token, some (.array items) =>
      remove (if token = "-" then Pointer.render (p.dropLast ++ [items.length.repr]) else path)
    | _, _ =>
      match model.get? p with
      | some old => add path old
      | none => remove path

variable {stem : Pointer} {token : String} {model : Value}

theorem inverse_add_member {path : String} {value : Value} {members : OrderedMap Value}
    (hstem : model.get? stem = some (.object members)) :
    (add path value).inverse (stem ++ [token]) model
      = match OrderedMap.find? members token with
        | some old => add path old
        | none => remove path := by
  have hold : model.get? (stem ++ [token]) = OrderedMap.find? members token := by
    rw [Value.get?_concat, hstem, Option.bind_some, Value.child?]
  simp only [inverse, List.getLast?_concat, List.dropLast_concat, hstem, hold]

theorem inverse_add_item {path : String} {value : Value} {items : List Value}
    (hstem : model.get? stem = some (.array items)) :
    (add path value).inverse (stem ++ [token]) model
      = remove (if token = "-" then Pointer.render (stem ++ [items.length.repr]) else path) := by
  simp only [inverse, List.getLast?_concat, List.dropLast_concat, hstem]

/-- A container that is changed back, written back, gives the model from before. -/
theorem run_back {back : Operation} {container result : Value}
    (hstem : model.get? stem = some container) (hback : back.act token result = .ok container) :
    back.run (stem ++ [token]) (model.set stem result) = .ok model := by
  refine run_concat_eq_ok_iff.mpr ⟨result, container, Value.get?_set_self hstem result, hback, ?_⟩
  rw [Value.set_set hstem, Value.set_get? hstem]

variable {path : String}

/-- What was added to an object is removed, or the old member is added again. -/
theorem apply_inverse_add_member {value : Value} {members : OrderedMap Value}
    (hparse : Pointer.parse path = .ok (stem ++ [token]))
    (hstem : model.get? stem = some (.object members)) (hsorted : OrderedMap.Sorted members) :
    apply [(add path value).inverse (stem ++ [token]) model]
      (model.set stem (.object (OrderedMap.insert members token value))) = .ok model := by
  have hback := hsorted.assign_find? token (some value)
  rw [inverse_add_member hstem]
  cases hfind : OrderedMap.find? members token with
  | none =>
    rw [hfind] at hback
    refine apply_singleton_eq_ok_iff.mpr ⟨_, hparse, run_back hstem ?_⟩
    refine act_remove_eq_ok_iff.mpr (.inl ⟨_, rfl, ?_, congrArg Value.object hback.symm⟩)
    rw [OrderedMap.find?_insert, if_pos rfl, Option.isSome_some]
  | some old =>
    rw [hfind] at hback
    refine apply_singleton_eq_ok_iff.mpr ⟨_, hparse, run_back hstem ?_⟩
    exact act_add_eq_ok_iff.mpr (.inl ⟨_, rfl, congrArg Value.object hback.symm⟩)

/-- An item that was put in is taken out under the token of its position. -/
theorem run_remove_item {value : Value} {items : List Value} {position : Nat}
    (hstem : model.get? stem = some (.array items)) (hle : position ≤ items.length)
    (hindex : Pointer.arrayIndex? token = some position) :
    (remove path).run (stem ++ [token])
      (model.set stem (.array (items.insertIdx position value))) = .ok model := by
  refine run_back hstem (act_remove_eq_ok_iff.mpr (.inr ⟨_, position, rfl, hindex, ?_, ?_⟩))
  · rw [List.length_insertIdx_of_le_length hle]
    omega
  · rw [List.eraseIdx_insertIdx_self]

/-- What was put into an array is removed, behind the last item by the position that it has got. -/
theorem apply_inverse_add_item {value : Value} {items : List Value} {position : Nat}
    (hparse : Pointer.parse path = .ok (stem ++ [token]))
    (hstem : model.get? stem = some (.array items)) (hlength : items.length < UInt64.size)
    (hplace : Pointer.InsertsAt token items position) (hle : position ≤ items.length) :
    apply [(add path value).inverse (stem ++ [token]) model]
      (model.set stem (.array (items.insertIdx position value))) = .ok model := by
  rw [inverse_add_item hstem]
  rcases hplace with ⟨rfl, rfl⟩ | hindex
  -- Behind the last item the position is the old length, and it has a token: there is room.
  · rw [if_pos rfl]
    exact apply_singleton_eq_ok_iff.mpr ⟨stem ++ [items.length.repr], Pointer.parse_render _,
      run_remove_item hstem hle (Pointer.arrayIndex?_repr hlength)⟩
  · have hne : token ≠ "-" := by
      rintro rfl
      rw [Pointer.arrayIndex?_hyphen] at hindex
      cases hindex
    rw [if_neg hne]
    exact apply_singleton_eq_ok_iff.mpr ⟨_, hparse, run_remove_item hstem hle hindex⟩

/-- What was written over is written again. -/
theorem apply_inverse_replace {p : Pointer} {value changed : Value}
    (hparse : Pointer.parse path = .ok p) (h : (replace path value).run p model = .ok changed) :
    apply [(replace path value).inverse p model] changed = .ok model := by
  simp only [run] at h
  split at h
  · next hthere =>
    obtain ⟨old, hold⟩ := Option.isSome_iff_exists.mp hthere
    obtain rfl := Except.ok.inj h
    refine apply_singleton_eq_ok_iff.mpr ⟨p, hparse, ?_⟩
    rw [inverse, hold, Option.getD_some, run, Value.get?_set_self hold, Option.isSome_some,
      if_pos rfl, Value.set_set hold, Value.set_get? hold]
  · cases h

/-- A member that was taken from an object is added again. -/
theorem apply_inverse_remove_member {members : OrderedMap Value}
    (hparse : Pointer.parse path = .ok (stem ++ [token]))
    (hstem : model.get? stem = some (.object members)) (hsorted : OrderedMap.Sorted members)
    (hthere : (OrderedMap.find? members token).isSome) :
    apply [(remove path).inverse (stem ++ [token]) model]
      (model.set stem (.object (OrderedMap.erase members token))) = .ok model := by
  obtain ⟨old, hold⟩ := Option.isSome_iff_exists.mp hthere
  have hback := hsorted.assign_find? token none
  rw [hold] at hback
  rw [inverse, Value.get?_concat, hstem, Option.bind_some, Value.child?, hold, Option.getD_some]
  refine apply_singleton_eq_ok_iff.mpr ⟨_, hparse, run_back hstem ?_⟩
  exact act_add_eq_ok_iff.mpr (.inl ⟨_, rfl, congrArg Value.object hback.symm⟩)

/-- An item that was taken from an array is put in again at its position. -/
theorem apply_inverse_remove_item {items : List Value} {position : Nat}
    (hparse : Pointer.parse path = .ok (stem ++ [token]))
    (hstem : model.get? stem = some (.array items)) (hlt : position < items.length)
    (hindex : Pointer.arrayIndex? token = some position) :
    apply [(remove path).inverse (stem ++ [token]) model]
      (model.set stem (.array (items.eraseIdx position))) = .ok model := by
  rw [inverse, Value.get?_concat, hstem, Option.bind_some, Value.child?, hindex, Option.bind_some,
    List.getElem?_eq_getElem hlt, Option.getD_some]
  refine apply_singleton_eq_ok_iff.mpr ⟨_, hparse, run_back hstem ?_⟩
  refine act_add_eq_ok_iff.mpr (.inr ⟨_, position, rfl, .inr hindex, ?_, ?_⟩)
  · rw [List.length_eraseIdx_of_lt hlt]
    omega
  · rw [List.insertIdx_eraseIdx_getElem hlt]

/-- **One operation is undone by one.** The inverse can be read, and it takes the model after the
operation back to the model before. -/
theorem apply_inverse {op : Operation} {p : Pointer} (hparse : Pointer.parse op.path = .ok p)
    {changed : Value} (hmodel : model.Canonical) (hroom : changed.Addressable)
    (h : op.run p model = .ok changed) : apply [op.inverse p model] changed = .ok model := by
  cases op with
  | replace path value => exact apply_inverse_replace hparse h
  | add path value =>
    rcases List.eq_nil_or_concat' p with rfl | ⟨stem, token, rfl⟩
    · exact apply_singleton_eq_ok_iff.mpr ⟨[], hparse, rfl⟩
    · obtain ⟨container, result, hstem, hact, rfl⟩ := run_concat_eq_ok_iff.mp h
      rcases act_add_eq_ok_iff.mp hact with
        ⟨members, rfl, rfl⟩ | ⟨items, position, rfl, hplace, hle, rfl⟩
      · have hsorted := (Value.canonical_object_iff.mp (hmodel.get? hstem)).1
        exact apply_inverse_add_member hparse hstem hsorted
      · have hlength := hroom stem _ (Value.get?_set_self hstem _)
        rw [List.length_insertIdx_of_le_length hle] at hlength
        exact apply_inverse_add_item hparse hstem hlength hplace hle
  | remove path =>
    rcases List.eq_nil_or_concat' p with rfl | ⟨stem, token, rfl⟩
    · cases h
    · obtain ⟨container, result, hstem, hact, rfl⟩ := run_concat_eq_ok_iff.mp h
      rcases act_remove_eq_ok_iff.mp hact with
        ⟨members, rfl, hthere, rfl⟩ | ⟨items, position, rfl, hindex, hlt, rfl⟩
      · have hsorted := (Value.canonical_object_iff.mp (hmodel.get? hstem)).1
        exact apply_inverse_remove_member hparse hstem hsorted hthere
      · exact apply_inverse_remove_item hparse hstem hlt hindex

end Operation

/-! ### Lists -/

/-- The operations that take back what a list of operations does to a model, in the order in which
they are to be run. What fails has done nothing, nor has what comes after it. -/
def undo : List Operation → Value → List Operation
  | [], _ => []
  | op :: rest, model =>
    match op.pointer with
    | .error _ => []
    | .ok p =>
      match op.run p model with
      | .error _ => []
      | .ok reached => undo rest reached ++ [op.inverse p model]

/-- What undoes a list that succeeds: what undoes the rest, and then what undoes the first. -/
theorem undo_cons {op : Operation} {p : Pointer} {model reached : Value}
    (hparse : Pointer.parse op.path = .ok p) (hrun : op.run p model = .ok reached)
    (rest : List Operation) :
    undo (op :: rest) model = undo rest reached ++ [op.inverse p model] := by
  simp only [undo, Operation.pointer_eq_ok_iff.mpr hparse, hrun]

/-- **Every list that succeeds is undone by the inverses of its operations, the last one first.**
The arrays on the way must not have more items than there are positions. A list of one operation is
undone by one operation. -/
theorem undo_of_apply {ops : List Operation} {model changed : Value} (hmodel : model.Canonical)
    (hops : ∀ op ∈ ops, op.Canonical) (h : apply ops model = .ok changed)
    (hroom : ∀ before reached, before <+: ops → apply before model = .ok reached →
      reached.Addressable) :
    apply (undo ops model) changed = .ok model ∧
      ∀ op, ops = [op] → ∃ p, Pointer.parse op.path = .ok p ∧
        undo ops model = [op.inverse p model] := by
  constructor
  -- What comes behind the first operation works on `reached`, and its inverses lead back to there.
  · induction ops generalizing model with
    | nil =>
      obtain rfl : model = changed := Except.ok.inj h
      rfl
    | cons op rest ih =>
      obtain ⟨p, reached, hparse, hrun, hrest⟩ := apply_cons_eq_ok_iff.mp h
      have hfirst : apply [op] model = .ok reached :=
        apply_singleton_eq_ok_iff.mpr ⟨p, hparse, hrun⟩
      have hback := Operation.apply_inverse hparse hmodel
        (hroom [op] reached (List.prefix_append [op] rest) hfirst) hrun
      have hreached := Operation.canonical_of_run (hops op List.mem_cons_self) hmodel hrun
      have hothers := ih hreached (fun other hother => hops other (List.mem_cons_of_mem op hother))
        hrest fun before later hbefore hlater => hroom (op :: before) later
          (List.cons_prefix_cons.mpr ⟨rfl, hbefore⟩)
          (apply_cons_eq_ok_iff.mpr ⟨p, reached, hparse, hrun, hlater⟩)
      rw [undo_cons hparse hrun, apply_append, hothers]
      · exact hback
      · exact List.forall_mem_append.mpr ⟨readable_of_apply hothers, readable_of_apply hback⟩
  · rintro op rfl
    obtain ⟨p, hparse, hrun⟩ := apply_singleton_eq_ok_iff.mp h
    exact ⟨p, hparse, undo_cons hparse hrun []⟩

theorem addressable_basket {texts : List String} (h : texts.length ≤ UInt64.size) :
    (Value.object [("items", .array (texts.map .string)), ("open", .bool true)]).Addressable := by
  have hopen : (Value.bool true).Addressable :=
    Value.addressable_scalar (fun _ => rfl) (by rintro _ ⟨⟩)
  have hitems : (Value.array (texts.map .string)).Addressable := by
    refine Value.addressable_array (by rwa [List.length_map]) (List.forall_mem_map.mpr ?_)
    exact fun text _ => Value.addressable_scalar (fun _ => rfl) (by rintro _ ⟨⟩)
  exact Value.addressable_object
    (List.forall_mem_cons.mpr ⟨hitems, List.forall_mem_singleton.mpr hopen⟩)

theorem undo_of_apply_basket :
    basket.Canonical ∧
      apply [.add "/items/-" (.string "milk"), .remove "/items/0"] basket = .ok (.object
        [("items", .array [.string "tea", .string "milk"]), ("open", .bool true)]) ∧
      undo [.add "/items/-" (.string "milk"), .remove "/items/0"] basket
        = [.add "/items/0" (.string "bread"), .remove "/items/2"] ∧
      apply [.add "/items/0" (.string "bread"), .remove "/items/2"] (.object
        [("items", .array [.string "tea", .string "milk"]), ("open", .bool true)])
          = .ok basket := by
  have hops : ∀ op ∈ [Operation.add "/items/-" (.string "milk"), .remove "/items/0"],
      op.Canonical := by
    refine List.forall_mem_cons.mpr ⟨?_, List.forall_mem_singleton.mpr ?_⟩
    · rintro _ ⟨⟩
      trivial
    · rintro _ ⟨⟩
  have hroom : ∀ before reached,
      before <+: [Operation.add "/items/-" (.string "milk"), .remove "/items/0"] →
      apply before basket = .ok reached → reached.Addressable := by
    intro before reached hbefore happly
    rcases List.prefix_cons_iff.mp hbefore with rfl | ⟨_, rfl, hrest⟩
    · cases happly
      exact @addressable_basket ["bread", "tea"] (by decide)
    rcases List.prefix_cons_iff.mp hrest with rfl | ⟨_, rfl, hnil⟩
    · cases happly
      exact @addressable_basket ["bread", "tea", "milk"] (by decide)
    · obtain rfl := List.prefix_nil.mp hnil
      cases happly
      exact @addressable_basket ["tea", "milk"] (by decide)
  exact ⟨canonical_basket, rfl, rfl, (undo_of_apply canonical_basket hops rfl hroom).1⟩

end Patch

end Reactive
