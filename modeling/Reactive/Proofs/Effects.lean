import Mathlib
import Reactive.Proofs.Atomicity
import Reactive.Proofs.Places

/-!
# What an operation does

An operation works on the container that its pointer leads to, under the last token. The container
is read, changed, and written back, so that all places apart from it look as before. What happens
in the container depends on its kind. In an object one member is given a value or taken away. In an
array an item is put in or taken out, and the items behind it move by one position.

## Main definitions

* `Pointer.InsertsAt` — where a token puts an item into an array
* `Patch.Operation.act` — what an operation does with the container that it works on
* `Value.Assigned`, `Value.Inserted`, `Value.Extracted` — what becomes of the places in a value
* `Patch.Operation.Effect` — what an operation that succeeds does, by the kind of the container

## Main results

* `Patch.Operation.run_concat`, `run_append` — **an operation is local**
* `Patch.Operation.effect_of_run`
* `Patch.effect_of_apply`
-/

namespace Reactive

/-- The position at which a token puts an item into an array: behind the last item for `-`, and else
before the item that the token names. -/
def Pointer.InsertsAt (token : String) (items : List Value) (position : Nat) : Prop :=
  token = "-" ∧ position = items.length ∨ arrayIndex? token = some position

namespace Patch

namespace Operation

/-! ### Containers -/

/-- What an operation does with the container that it works on, under the last token. -/
def act : Operation → String → Value → Except Error Value
  | add path value, token, container => addChild path container token value
  | replace path value, token, container =>
    if (container.child? token).isSome then .ok (container.setChild token value)
    else .error (.nothingToReplace path)
  | remove path, token, container =>
    match removeChild container token with
    | some changed => .ok changed
    | none => .error (.nothingToRemove path)

/-- A value is added to an object as a member, or to an array as an item at a position that the
array has or that is the next one. -/
theorem act_add_eq_ok_iff {path token : String} {container value result : Value} :
    (add path value).act token container = .ok result ↔
      (∃ members, container = .object members ∧
        result = .object (OrderedMap.insert members token value)) ∨
      ∃ items position, container = .array items ∧ Pointer.InsertsAt token items position ∧
        position ≤ items.length ∧ result = .array (items.insertIdx position value) := by
  cases container with
  | object members => simp [act, addChild, eq_comm]
  | array items =>
    by_cases htoken : token = "-"
    · simp [act, addChild, Pointer.InsertsAt, htoken, Pointer.arrayIndex?_hyphen, eq_comm]
    · cases hindex : Pointer.arrayIndex? token with
      | none => simp [act, addChild, Pointer.InsertsAt, htoken, hindex]
      | some index =>
        by_cases hle : index ≤ items.length <;>
          simp [act, addChild, Pointer.InsertsAt, htoken, hindex, hle, eq_comm]
  | _ => simp [act, addChild]

/-- A member is removed from an object that has it, or an item from an array that has it. -/
theorem act_remove_eq_ok_iff {path token : String} {container result : Value} :
    (remove path).act token container = .ok result ↔
      (∃ members, container = .object members ∧ (OrderedMap.find? members token).isSome ∧
        result = .object (OrderedMap.erase members token)) ∨
      ∃ items position, container = .array items ∧ Pointer.arrayIndex? token = some position ∧
        position < items.length ∧ result = .array (items.eraseIdx position) := by
  cases container with
  | object members =>
    by_cases hthere : (OrderedMap.find? members token).isSome = true <;>
      simp [act, removeChild, hthere, @eq_comm _ result]
  | array items =>
    cases hindex : Pointer.arrayIndex? token with
    | none => simp [act, removeChild, hindex]
    | some index =>
      by_cases hlt : index < items.length <;>
        simp [act, removeChild, hindex, hlt, @eq_comm _ result]
  | _ => simp [act, removeChild]

/-! ### Locality -/

/-- The error of an operation whose pointer leads nowhere. -/
def astray : Operation → Error
  | add path _ => .missingParent path
  | replace path _ => .nothingToReplace path
  | remove path => .nothingToRemove path

/-- The container is read, changed and written back. -/
theorem run_concat (op : Operation) (stem : Pointer) (token : String) (model : Value) :
    op.run (stem ++ [token]) model = match model.get? stem with
      | some container => (op.act token container).map (model.set stem)
      | none => .error op.astray := by
  cases op with
  | add path value =>
    simp only [run, List.getLast?_concat, List.dropLast_concat]
    cases model.get? stem with
    | none => rfl
    | some container =>
      simp only [act]
      cases addChild path container token value <;> rfl
  | replace path value =>
    simp only [run, Value.get?_concat]
    cases hstem : model.get? stem with
    | none => rfl
    | some container =>
      simp only [Option.bind_some, act, Value.set_append hstem, Value.set]
      cases container.child? token <;> rfl
  | remove path =>
    simp only [run, List.getLast?_concat, List.dropLast_concat]
    cases model.get? stem with
    | none => rfl
    | some container =>
      simp only [Option.bind_some, act]
      cases removeChild container token <;> rfl

theorem run_concat_eq_ok_iff {op : Operation} {stem : Pointer} {token : String}
    {model changed : Value} :
    op.run (stem ++ [token]) model = .ok changed ↔ ∃ container result,
      model.get? stem = some container ∧ op.act token container = .ok result ∧
        changed = model.set stem result := by
  rw [run_concat]
  cases model.get? stem with
  | none => simp
  | some container =>
    cases hact : op.act token container with
    | error cause => simp [Except.map, hact]
    | ok result => simp [Except.map, hact, eq_comm]

/-- **An operation is local.** Below a place it works on the part there, which is then written
back. -/
theorem run_append (op : Operation) (stem : Pointer) {rest : Pointer} (h : rest ≠ [])
    (model : Value) :
    op.run (stem ++ rest) model = match model.get? stem with
      | some part => (op.run rest part).map (model.set stem)
      | none => .error op.astray := by
  obtain ⟨inner, token, rfl⟩ : ∃ inner token, rest = inner ++ [token] :=
    ⟨rest.dropLast, rest.getLast h, (List.dropLast_append_getLast h).symm⟩
  rw [← List.append_assoc, run_concat, Value.get?_append]
  cases hstem : model.get? stem with
  | none => rfl
  | some part =>
    rw [Option.bind_some]
    show _ = (op.run (inner ++ [token]) part).map (model.set stem)
    rw [run_concat]
    cases part.get? inner with
    | none => rfl
    | some container =>
      have hset : model.set (stem ++ inner) = model.set stem ∘ part.set inner :=
        funext (Value.set_append hstem inner)
      simp only [hset]
      cases op.act token container <;> rfl

end Operation

end Patch

namespace Pointer

/-- What is apart from a member is apart from the object, or leads through another member. -/
theorem apart_concat_iff {stem q : Pointer} {token : String} :
    (stem ++ [token]).Apart q ↔
      stem.Apart q ∨ ∃ other rest, other ≠ token ∧ q = stem ++ other :: rest := by
  constructor
  · intro h
    obtain ⟨shared, a, b, restP, restQ, hne, hp, rfl⟩ := apart_iff.mp h
    rcases List.eq_nil_or_concat restP with rfl | ⟨inner, last, rfl⟩
    · obtain ⟨rfl, hlast⟩ := List.append_inj' hp rfl
      obtain rfl : token = a := by simpa using hlast
      exact .inr ⟨b, restQ, hne.symm, rfl⟩
    · have hstem : stem = shared ++ a :: inner := by
        have hp' : stem ++ [token] = (shared ++ a :: inner) ++ [last] := by simpa using hp
        exact (List.append_inj' hp' rfl).1
      exact .inl (apart_iff.mpr ⟨shared, a, b, inner, restQ, hne, hstem, rfl⟩)
  · rintro (h | ⟨other, rest, hne, rfl⟩)
    · exact h.append [token]
    · exact apart_append_iff.mpr (apart_of_ne hne.symm [] rest)

end Pointer

namespace Value

/-! ### What becomes of the places -/

/-- A place was given a value, or what was there was taken away. All places apart from it look as
before. -/
structure Assigned (before : Value) (p : Pointer) (value? : Option Value) (after : Value) :
    Prop where
  here : after.get? p = value?
  elsewhere : ∀ q, p.Apart q → after.get? q = before.get? q

/-- An item was put into the array at a place. The items from its position on have moved up by
one, the others are where they were, and all places apart from the array look as before. -/
structure Inserted (before : Value) (p : Pointer) (position : Nat) (value after : Value) :
    Prop where
  items : ∃ items, before.get? p = some (.array items) ∧ position ≤ items.length ∧
    after.get? p = some (.array (items.insertIdx position value))
  here : position < UInt64.size → ∀ rest, after.get? (p ++ position.repr :: rest) = value.get? rest
  earlier : ∀ n < position, ∀ rest,
    after.get? (p ++ n.repr :: rest) = before.get? (p ++ n.repr :: rest)
  later : ∀ n ≥ position, n + 1 < UInt64.size → ∀ rest,
    after.get? (p ++ (n + 1).repr :: rest) = before.get? (p ++ n.repr :: rest)
  elsewhere : ∀ q, p.Apart q → after.get? q = before.get? q

/-- An item was taken out of the array at a place. The items behind it have moved down by one, the
others are where they were, and all places apart from the array look as before. -/
structure Extracted (before : Value) (p : Pointer) (position : Nat) (after : Value) : Prop where
  items : ∃ items, before.get? p = some (.array items) ∧ position < items.length ∧
    after.get? p = some (.array (items.eraseIdx position))
  earlier : ∀ n < position, ∀ rest,
    after.get? (p ++ n.repr :: rest) = before.get? (p ++ n.repr :: rest)
  later : ∀ n ≥ position, n + 1 < UInt64.size → ∀ rest,
    after.get? (p ++ n.repr :: rest) = before.get? (p ++ (n + 1).repr :: rest)
  elsewhere : ∀ q, p.Apart q → after.get? q = before.get? q

/-- A member that is changed in its object alone is assigned. -/
theorem Assigned.of_member {before : Value} {stem : Pointer} {members changed : OrderedMap Value}
    {token : String} {value? : Option Value} (hstem : before.get? stem = some (.object members))
    (hchanged : ∀ key, OrderedMap.find? changed key =
      if key = token then value? else OrderedMap.find? members key) :
    Assigned before (stem ++ [token]) value? (before.set stem (.object changed)) where
  here := by
    rw [get?_concat, get?_set_self hstem, Option.bind_some, child?, hchanged, if_pos rfl]
  elsewhere q hq := by
    rcases Pointer.apart_concat_iff.mp hq with hapart | ⟨other, rest, hne, rfl⟩
    · exact get?_set_of_apart hapart before _
    · rw [get?_set_append hstem, get?_append, hstem, Option.bind_some, get?_cons, get?_cons, child?,
        child?, hchanged, if_neg hne]

/-- What a numeral leads to depends on the item of that number. -/
theorem get?_repr_congr {v w : Value} {p : Pointer} {items others : List Value}
    (hv : v.get? p = some (.array items)) (hw : w.get? p = some (.array others)) {n : Nat}
    (h : items[n]? = others[n]?) (rest : Pointer) :
    v.get? (p ++ n.repr :: rest) = w.get? (p ++ n.repr :: rest) := by
  rw [get?_append, get?_append, hv, hw, Option.bind_some, Option.bind_some, get?_cons, get?_cons,
    child?, child?]
  cases hindex : Pointer.arrayIndex? n.repr with
  | none => rfl
  | some index =>
    obtain rfl : n = index := Nat.repr_inj.mp (Pointer.arrayIndex?_eq_some_iff.mp hindex).2
    rw [Option.bind_some, Option.bind_some, h]

theorem inserted_set {before : Value} {p : Pointer} {items : List Value} {position : Nat}
    (hitems : before.get? p = some (.array items)) (hle : position ≤ items.length) (value : Value) :
    Inserted before p position value
      (before.set p (.array (items.insertIdx position value))) := by
  have hafter := get?_set_self hitems (.array (items.insertIdx position value))
  refine ⟨⟨items, hitems, hle, hafter⟩, fun hlt rest => ?_, fun n hn rest => ?_,
    fun n hn hlt rest => ?_, fun q hq => get?_set_of_apart hq before _⟩
  · rw [get?_position hafter hlt, List.getElem?_insertIdx_self, if_pos hle, Option.bind_some]
  · exact get?_repr_congr hafter hitems (List.getElem?_insertIdx_of_lt hn) rest
  · rw [get?_position hafter hlt, get?_position hitems (Nat.lt_of_succ_lt hlt),
      List.getElem?_insertIdx_of_gt (show position < n + 1 by omega), Nat.add_sub_cancel]

theorem extracted_set {before : Value} {p : Pointer} {items : List Value} {position : Nat}
    (hitems : before.get? p = some (.array items)) (hlt : position < items.length) :
    Extracted before p position (before.set p (.array (items.eraseIdx position))) := by
  have hafter := get?_set_self hitems (.array (items.eraseIdx position))
  refine ⟨⟨items, hitems, hlt, hafter⟩, fun n hn rest => ?_, fun n hn hsize rest => ?_,
    fun q hq => get?_set_of_apart hq before _⟩
  · exact get?_repr_congr hafter hitems (List.getElem?_eraseIdx_of_lt hn) rest
  · rw [get?_position hafter (Nat.lt_of_succ_lt hsize), get?_position hitems hsize,
      List.getElem?_eraseIdx_of_ge hn]

end Value

namespace Patch

namespace Operation

/-! ### Effects -/

/-- What an operation at a pointer makes of a model when it succeeds, by the container that it
works on. -/
inductive Effect : Operation → Pointer → Value → Value → Prop where
  /-- The whole model is given. -/
  | whole {path : String} {before after : Value} : Effect (add path after) [] before after
  /-- A member is given to an object, new or over an old one. -/
  | member {path token : String} {stem : Pointer} {value before after : Value}
    {members : OrderedMap Value} (container : before.get? stem = some (.object members))
    (assigned : before.Assigned (stem ++ [token]) (some value) after) :
    Effect (add path value) (stem ++ [token]) before after
  /-- An item is put into an array, behind the last one for the token `-`, and else before the item
  of the position that the token stands for. -/
  | item {path token : String} {stem : Pointer} {value before after : Value} {items : List Value}
    {position : Nat} (container : before.get? stem = some (.array items))
    (place : Pointer.InsertsAt token items position)
    (inserted : before.Inserted stem position value after) :
    Effect (add path value) (stem ++ [token]) before after
  /-- A value is written over another. -/
  | replaced {path : String} {p : Pointer} {value before after : Value}
    (there : (before.get? p).isSome) (assigned : before.Assigned p (some value) after) :
    Effect (replace path value) p before after
  /-- A member is taken from an object. -/
  | memberTaken {path token : String} {stem : Pointer} {before after : Value}
    {members : OrderedMap Value} (container : before.get? stem = some (.object members))
    (there : (before.get? (stem ++ [token])).isSome)
    (assigned : before.Assigned (stem ++ [token]) none after) :
    Effect (remove path) (stem ++ [token]) before after
  /-- An item is taken from an array. -/
  | itemTaken {path token : String} {stem : Pointer} {before after : Value} {items : List Value}
    {position : Nat} (container : before.get? stem = some (.array items))
    (place : Pointer.arrayIndex? token = some position)
    (extracted : before.Extracted stem position after) :
    Effect (remove path) (stem ++ [token]) before after

theorem effect_add {path token : String} {stem : Pointer} {value container result model : Value}
    (hstem : model.get? stem = some container)
    (h : (add path value).act token container = .ok result) :
    Effect (add path value) (stem ++ [token]) model (model.set stem result) := by
  rcases act_add_eq_ok_iff.mp h with
    ⟨members, rfl, rfl⟩ | ⟨items, position, rfl, hplace, hle, rfl⟩
  · exact .member hstem (.of_member hstem (OrderedMap.find?_insert members token value))
  · exact .item hstem hplace (Value.inserted_set hstem hle value)

theorem effect_remove {path token : String} {stem : Pointer} {container result model : Value}
    (hstem : model.get? stem = some container)
    (h : (remove path).act token container = .ok result) :
    Effect (remove path) (stem ++ [token]) model (model.set stem result) := by
  rcases act_remove_eq_ok_iff.mp h with
    ⟨members, rfl, hthere, rfl⟩ | ⟨items, position, rfl, hindex, hlt, rfl⟩
  · refine .memberTaken hstem ?_ (.of_member hstem (OrderedMap.find?_erase members token))
    rw [Value.get?_concat, hstem]
    exact hthere
  · exact .itemTaken hstem hindex (Value.extracted_set hstem hlt)

theorem effect_replace {path : String} {p : Pointer} {value model changed : Value}
    (h : (replace path value).run p model = .ok changed) :
    Effect (replace path value) p model changed := by
  simp only [run] at h
  split at h
  · next hthere =>
    obtain rfl := Except.ok.inj h
    obtain ⟨old, hold⟩ := Option.isSome_iff_exists.mp hthere
    exact .replaced hthere
      ⟨Value.get?_set_self hold value, fun q hq => Value.get?_set_of_apart hq model value⟩
  · cases h

/-- What an operation does, when it succeeds. -/
theorem effect_of_run {op : Operation} {p : Pointer} {model changed : Value}
    (h : op.run p model = .ok changed) : op.Effect p model changed := by
  cases op with
  | replace path value => exact effect_replace h
  | add path value =>
    rcases List.eq_nil_or_concat' p with rfl | ⟨stem, token, rfl⟩
    · obtain rfl : value = changed := Except.ok.inj h
      exact .whole
    · obtain ⟨container, result, hstem, hact, rfl⟩ := run_concat_eq_ok_iff.mp h
      exact effect_add hstem hact
  | remove path =>
    rcases List.eq_nil_or_concat' p with rfl | ⟨stem, token, rfl⟩
    · cases h
    · obtain ⟨container, result, hstem, hact, rfl⟩ := run_concat_eq_ok_iff.mp h
      exact effect_remove hstem hact

end Operation

/-- **What an operation does.** A list of one operation that succeeds makes of the model what the
container says at which the pointer of its path ends: a member is given or taken and all other
places look as before, or an item is put in or taken out and the items behind it move by one. -/
theorem effect_of_apply {op : Operation} {model changed : Value}
    (h : apply [op] model = .ok changed) :
    ∃ p, Pointer.parse op.path = .ok p ∧ op.Effect p model changed := by
  obtain ⟨p, hparse, hrun⟩ := apply_singleton_eq_ok_iff.mp h
  exact ⟨p, hparse, Operation.effect_of_run hrun⟩

theorem effect_of_apply_basket :
    apply [.add "/items/1" (.string "milk")] basket = .ok (.object
        [("items", .array [.string "bread", .string "milk", .string "tea"]),
          ("open", .bool true)]) ∧
      ∃ p, Pointer.parse "/items/1" = .ok p ∧
        (Operation.add "/items/1" (.string "milk")).Effect p basket (.object
          [("items", .array [.string "bread", .string "milk", .string "tea"]),
            ("open", .bool true)]) := by
  have happly : apply [.add "/items/1" (.string "milk")] basket = .ok (.object
      [("items", .array [.string "bread", .string "milk", .string "tea"]), ("open", .bool true)]) :=
    rfl
  exact ⟨happly, effect_of_apply happly⟩

end Patch

end Reactive
