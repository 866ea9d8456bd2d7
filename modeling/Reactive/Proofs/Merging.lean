import Reactive.Proofs.Fields
import Reactive.Proofs.Members

/-!
# Merging objects

The additions for the members of an object, made at the path of another, merge the two. A member
that is given is stored whole, whatever was there under its name, the other members stay, and so
does everything outside the object that is written to. The names may be anything: escaping has seen
to it that each addition is read back with its own name, and in an object every token is a name.

Nothing can go wrong on the way, since after each addition the place still holds an object. What is
left of the many writes is one, of the object with all members in it.

## Main definitions

* `Value.Merged` — what becomes of a value when the members of an object are merged into it

## Main results

* `Patch.apply_members` — **many additions are one write**
* `Value.merged_set` — what is seen after it
* `Patch.merged_of_ofFields`
-/

namespace Reactive

namespace OrderedMap

variable {α : Type u} {entries top : OrderedMap α}

theorem Sorted.override (h : Sorted entries) (top : OrderedMap α) :
    Sorted (override entries top) :=
  h.foldl_insert Prod.fst Prod.snd top

/-- Over an empty map there is nothing but what is put there. -/
theorem override_nil (h : Sorted top) : override [] top = top := by
  have hempty : Sorted ([] : OrderedMap α) := List.Pairwise.nil
  refine (hempty.override top).ext h ?_
  intro key
  simp [find?_override h]

end OrderedMap

namespace Value

variable {members fields : OrderedMap Value}

/-- A merged object is canonical if both objects are. -/
theorem canonical_override (hmembers : (object members).Canonical)
    (hfields : (object fields).Canonical) :
    (object (OrderedMap.override members fields)).Canonical := by
  obtain ⟨hsorted, hold⟩ := canonical_object_iff.mp hmembers
  obtain ⟨htop, hnew⟩ := canonical_object_iff.mp hfields
  have hmerged := hsorted.override fields
  refine canonical_object_iff.mpr ⟨hmerged, ?_⟩
  intro pair hpair
  have hfind := hmerged.find?_of_mem hpair
  rw [OrderedMap.find?_override htop, Option.or_eq_some_iff] at hfind
  rcases hfind with hfield | ⟨-, hmember⟩
  · exact hnew _ (OrderedMap.mem_of_find? hfield)
  · exact hold _ (OrderedMap.mem_of_find? hmember)

/-- The members `fields` were merged into the object at a place. -/
structure Merged (before : Value) (p : Pointer) (fields : OrderedMap Value) (after : Value) :
    Prop where
  /-- One object was written over another. It has the members of both, and where both have one of a
  name, it is the new one. -/
  object : ∃ members merged, before.get? p = some (.object members) ∧
    after = before.set p (.object merged) ∧ OrderedMap.Sorted merged ∧
    ∀ key, OrderedMap.find? merged key
      = (OrderedMap.find? fields key).or (OrderedMap.find? members key)
  /-- What was given is there as a whole. -/
  given : ∀ key value, OrderedMap.find? fields key = some value →
    ∀ rest, after.get? (p ++ key :: rest) = value.get? rest
  /-- What was not given looks as before. -/
  kept : ∀ key, OrderedMap.find? fields key = none →
    ∀ rest, after.get? (p ++ key :: rest) = before.get? (p ++ key :: rest)
  /-- So does everything outside the object. -/
  elsewhere : ∀ q, p.Apart q → after.get? q = before.get? q

/-- Writing the object with all members in it merges them. -/
theorem merged_set {before : Value} {p : Pointer} (hp : before.get? p = some (.object members))
    (hmembers : OrderedMap.Sorted members) (hfields : OrderedMap.Sorted fields) :
    before.Merged p fields (before.set p (.object (OrderedMap.override members fields))) := by
  have hfind := OrderedMap.find?_override hfields members
  constructor
  case object => exact ⟨members, _, hp, rfl, hmembers.override fields, hfind⟩
  case given =>
    intro key value hkey rest
    rw [get?_set_append hp, get?_cons, child?, hfind, hkey]
    rfl
  case kept =>
    intro key hkey rest
    rw [get?_set_append hp, get?_append, hp, Option.bind_some, get?_cons, get?_cons, child?, child?,
      hfind, hkey, Option.none_or]
  case elsewhere =>
    intro q hq
    exact get?_set_of_apart hq before _

end Value

namespace Patch

/-- **Many additions are one write.** The additions for some members at the path of an object
succeed, and all that they do is to write the object with the members in it. The induction is on the
members: after each addition the place holds an object again. -/
theorem apply_members {parent : String} {p : Pointer} (hparse : Pointer.parse parent = .ok p)
    (fields : List (String × Value)) {model : Value} {members : OrderedMap Value}
    (hp : model.get? p = some (.object members)) :
    apply (fields.map fun field => .add (parent ++ "/" ++ Pointer.escapeToken field.1) field.2)
        model
      = .ok (model.set p (.object (OrderedMap.override members fields))) := by
  induction fields generalizing model members with
  | nil => exact congrArg Except.ok (Value.set_get? hp).symm
  | cons field rest ih =>
    let added := Value.object (OrderedMap.insert members field.1 field.2)
    have hrest := ih (Value.get?_set_self hp added)
    rw [Value.set_set hp] at hrest
    refine apply_cons_eq_ok_iff.mpr ⟨p ++ [field.1], model.set p added, ?_, ?_, hrest⟩
    · exact Pointer.parse_member_of_parse hparse field.1
    · rw [Operation.run_concat, hp]
      rfl

/-- **The members of an object are merged.** Whatever the model, the path of an object in it and the
names of the members to be merged into that object: the additions can be derived and all of them
succeed on the model that is held. Afterwards the object has been overridden, member by member and
with the given values whole, and everything else is as it was. Members that are merged into an empty
model are the model. -/
theorem merged_of_ofFields {model : Value} (hmodel : model.Canonical) {fields : OrderedMap Value}
    (hfields : (Value.object fields).Canonical) {parent : String} {p : Pointer}
    (hparse : Pointer.parse parent = .ok p) {members : OrderedMap Value}
    (hp : model.get? p = some (.object members)) :
    ∃ ops held, ofFields parent (.object fields) = .ok ops ∧
      (amend ops).run.run model = (.ok (), held) ∧ held.Canonical ∧ model.Merged p fields held ∧
      (parent = "" → members = [] → held = .object fields) := by
  have hmembers := hmodel.get? hp
  have hsorted := (Value.canonical_object_iff.mp hmembers).1
  have htop := (Value.canonical_object_iff.mp hfields).1
  refine ⟨_, _, rfl, run_amend_eq_ok_iff.mpr (apply_members hparse fields hp), ?_, ?_, ?_⟩
  · exact hmodel.set p (Value.canonical_override hmembers hfields)
  · exact Value.merged_set hp hsorted htop
  · rintro rfl rfl
    obtain rfl : [] = p := Except.ok.inj hparse
    rw [OrderedMap.override_nil htop, Value.set_nil]

/-- A shop with a shelf, on which there may be jars of any name. -/
def shop : Value :=
  .object [("open", .bool true), ("shelf", .object [("jam", .nat 3), ("~", .null)])]

/-- What is to be put on the shelf. -/
def delivery : OrderedMap Value :=
  [("", .null), ("-", .nat 1), ("0", .nat 2), ("jam", .array []), ("~/", .null)]

theorem canonical_shop : shop.Canonical := by
  have hshelf : (Value.object [("jam", .nat 3), ("~", .null)]).Canonical := by
    refine Value.canonical_object_iff.mpr ⟨by decide, ?_⟩
    simp [Value.nat, Value.Canonical]
  refine Value.canonical_object_iff.mpr ⟨by decide, ?_⟩
  simpa [Value.Canonical] using hshelf

theorem canonical_delivery : (Value.object delivery).Canonical := by
  refine Value.canonical_object_iff.mpr ⟨by decide, ?_⟩
  simp [delivery, Value.nat, Value.Canonical, Value.CanonicalItems]

theorem merged_of_ofFields_shop :
    (shop.Canonical ∧ (Value.object delivery).Canonical ∧
      Pointer.parse "/shelf" = .ok ["shelf"] ∧
      shop.get? ["shelf"] = some (.object [("jam", .nat 3), ("~", .null)])) ∧
    ∃ ops held, ofFields "/shelf" (.object delivery) = .ok ops ∧
      (amend ops).run.run shop = (.ok (), held) ∧ held.Canonical ∧
      shop.Merged ["shelf"] delivery held ∧
      ("/shelf" = "" → [("jam", Value.nat 3), ("~", .null)] = [] → held = .object delivery) := by
  have hparse : Pointer.parse "/shelf" = .ok ["shelf"] := by decide +kernel
  exact ⟨⟨canonical_shop, canonical_delivery, hparse, rfl⟩,
    merged_of_ofFields canonical_shop canonical_delivery hparse rfl⟩

end Patch

end Reactive
