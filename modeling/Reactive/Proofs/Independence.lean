import Mathlib
import Reactive.Proofs.Fields
import Reactive.Proofs.Members

/-!
# Independent operations

Two operations whose pointers part in an object assign different members of it, or work inside them.
What the one does, and whether it can, does not depend on what the other has done; and after both
the object is the same in either order. So any number of operations of which every two part in an
object of the model can be run in any order: all orders lead to the same model, or none to any.

It must be an object. In an array an item that is put in or taken out moves the others, and an
addition at a position may need another one before it.

## Main definitions

* `Value.PartInObject` — two pointers part in an object of a model
* `Patch.Operation.Independent`
* `Patch.Unordered` — the order of some operations does not count

## Main results

* `Patch.Operation.toOption_run_comm` — **independent operations commute**
* `Patch.toOption_apply_perm`
* `Patch.unordered_of_independent`, `Patch.unordered_ofFields`
* `Patch.order_irrelevant`
-/

namespace Reactive

/-- Two pointers lead to an object of a model together, and there they take different members. -/
def Value.PartInObject (model : Value) (p q : Pointer) : Prop :=
  ∃ stem members a b restP restQ, model.get? stem = some (.object members) ∧ a ≠ b ∧
    p = stem ++ a :: restP ∧ q = stem ++ b :: restQ

theorem Value.PartInObject.symm {model : Value} {p q : Pointer} (h : model.PartInObject p q) :
    model.PartInObject q p := by
  obtain ⟨stem, members, a, b, restP, restQ, hstem, hne, rfl, rfl⟩ := h
  exact ⟨stem, members, b, a, restQ, restP, hstem, hne.symm, rfl, rfl⟩

namespace Patch

namespace Operation

variable {op other : Operation} {model changed : Value} {p q : Pointer}

/-! ### Two operations -/

/-- After an assignment to another member an operation does what it would have done before, to the
object as it is then. -/
theorem run_set_assign (op : Operation) {stem : Pointer} {members : OrderedMap Value}
    (hstem : model.get? stem = some (.object members)) (hsorted : OrderedMap.Sorted members)
    {a b : String} (hne : a ≠ b) (y? : Option Value) (rest : Pointer) :
    op.run (stem ++ a :: rest) (model.set stem (.object (OrderedMap.assign members b y?)))
      = (op.onMember rest (OrderedMap.find? members a)).map fun x? =>
        model.set stem (.object (OrderedMap.assign (OrderedMap.assign members b y?) a x?)) := by
  rw [run_member (Value.get?_set_self hstem _) (hsorted.assign b y?), OrderedMap.find?_assign,
    if_neg hne]
  congr
  funext x?
  exact Value.set_set hstem _ _

/-- **Independent operations commute.** Either both succeed in either order, with the same result,
or in neither order. -/
theorem toOption_run_comm (hmodel : model.Canonical) (h : model.PartInObject p q) :
    (op.run p model >>= other.run q).toOption = (other.run q model >>= op.run p).toOption := by
  obtain ⟨stem, members, a, b, restP, restQ, hstem, hne, rfl, rfl⟩ := h
  have hsorted := (Value.canonical_object_iff.mp (hmodel.get? hstem)).1
  have hfirst := fun y? => run_set_assign op hstem hsorted hne y? restP
  have hsecond := fun x? => run_set_assign other hstem hsorted hne.symm x? restQ
  rw [run_member hstem hsorted op a restP, run_member hstem hsorted other b restQ]
  cases hx : op.onMember restP (OrderedMap.find? members a) with
  | error cause =>
    cases hy : other.onMember restQ (OrderedMap.find? members b) with
    | error _ => rfl
    | ok y? =>
      show none = (op.run _ (model.set stem (.object (OrderedMap.assign members b y?)))).toOption
      rw [hfirst, hx]
      rfl
  | ok x? =>
    show (other.run _ (model.set stem (.object (OrderedMap.assign members a x?)))).toOption = _
    rw [hsecond]
    cases hy : other.onMember restQ (OrderedMap.find? members b) with
    | error _ => rfl
    | ok y? =>
      show _ = (op.run _ (model.set stem (.object (OrderedMap.assign members b y?)))).toOption
      rw [hfirst, hx]
      exact congrArg (fun object => some (model.set stem (.object object)))
        (hsorted.assign_assign_comm hne x? y?)

/-! ### What an operation leaves alone -/

/-- What parts from an operation in an object looks as before. -/
theorem get?_of_partInObject (hmodel : model.Canonical) (h : model.PartInObject p q)
    (hrun : op.run p model = .ok changed) : changed.get? q = model.get? q := by
  obtain ⟨stem, members, a, b, restP, restQ, hstem, hne, rfl, rfl⟩ := h
  obtain ⟨x?, rfl⟩ := exists_assign_of_run hmodel hstem hrun
  rw [Value.get?_set_append hstem, Value.get?_append, hstem, Option.bind_some, Value.get?_cons,
    Value.get?_cons, Value.child?, Value.child?, OrderedMap.find?_assign, if_neg hne.symm]

/-- An object that an operation goes through remains an object. -/
theorem get?_object_of_run (hmodel : model.Canonical) {stem rest : Pointer} (hrest : rest ≠ [])
    {members : OrderedMap Value} (hstem : model.get? stem = some (.object members))
    (hrun : op.run (stem ++ rest) model = .ok changed) :
    ∃ members, changed.get? stem = some (.object members) := by
  obtain ⟨token, rest, rfl⟩ := List.exists_cons_of_ne_nil hrest
  obtain ⟨x?, rfl⟩ := exists_assign_of_run hmodel hstem hrun
  exact ⟨_, Value.get?_set_self hstem _⟩

/-- Pointers that part in an object still do so after an operation that parts in an object from one
of them. -/
theorem partInObject_of_run (hmodel : model.Canonical) {r : Pointer} (hr : model.PartInObject r p)
    (h : model.PartInObject p q) (hrun : op.run r model = .ok changed) :
    changed.PartInObject p q := by
  obtain ⟨stem, members, a, b, restP, restQ, hstem, hne, rfl, rfl⟩ := h
  suffices hobject : ∃ members, changed.get? stem = some (.object members) by
    obtain ⟨members', hstem'⟩ := hobject
    exact ⟨stem, members', a, b, restP, restQ, hstem', hne, rfl, rfl⟩
  obtain ⟨branching, members', c, d, restR, rest, hbranching, hne', rfl, hp⟩ := hr
  -- The operation leaves the way to `p` in an object at `stem` or below it, or above it.
  rcases List.append_eq_append_iff.mp hp with ⟨below, rfl, -⟩ | ⟨below, rfl, hbelow⟩
  · rw [List.append_assoc] at hrun
    have hne : below ++ c :: restR ≠ [] :=
      List.append_ne_nil_of_right_ne_nil below (List.cons_ne_nil c restR)
    exact get?_object_of_run hmodel hne hstem hrun
  · cases below with
    | nil =>
      rw [List.append_nil] at hstem ⊢
      exact get?_object_of_run hmodel (List.cons_ne_nil c restR) hstem hrun
    | cons t below =>
      obtain rfl : d = t := (List.cons.inj hbelow).1
      have hapart : model.PartInObject (branching ++ c :: restR) (branching ++ d :: below) :=
        ⟨branching, members', c, d, restR, below, hbranching, hne', rfl, rfl⟩
      exact ⟨members, (get?_of_partInObject hmodel hapart hrun).trans hstem⟩

/-! ### Operations by their paths -/

/-- Two operations are independent on a model if their pointers part in an object of it. -/
def Independent (model : Value) (op other : Operation) : Prop :=
  ∃ p q, Pointer.parse op.path = .ok p ∧ Pointer.parse other.path = .ok q ∧ model.PartInObject p q

theorem Independent.symm (h : Independent model op other) : Independent model other op := by
  obtain ⟨p, q, hp, hq, hparts⟩ := h
  exact ⟨q, p, hq, hp, hparts.symm⟩

theorem apply_singleton_of_parse (hp : Pointer.parse op.path = .ok p) : apply [op] = op.run p := by
  funext model
  rw [apply_singleton, pointer_eq_ok_iff.mpr hp]
  rfl

theorem Independent.toOption_apply_comm (hmodel : model.Canonical)
    (h : Independent model op other) :
    (apply [op] model >>= apply [other]).toOption
      = (apply [other] model >>= apply [op]).toOption := by
  obtain ⟨p, q, hp, hq, hparts⟩ := h
  rw [apply_singleton_of_parse hp, apply_singleton_of_parse hq]
  exact toOption_run_comm hmodel hparts

/-- Independent operations remain so after one that is independent of them. -/
theorem Independent.of_apply (hmodel : model.Canonical) {first : Operation}
    (hfirst : Independent model first op) (h : Independent model op other)
    (happly : apply [first] model = .ok changed) : Independent changed op other := by
  obtain ⟨p, q, hp, hq, hparts⟩ := h
  obtain ⟨r, p', hr, hp', hfirst⟩ := hfirst
  obtain rfl : p = p' := Except.ok.inj (hp.symm.trans hp')
  rw [apply_singleton_of_parse hr] at happly
  exact ⟨p, q, hp, hq, partInObject_of_run hmodel hfirst hparts happly⟩

end Operation

theorem canonical_of_apply_singleton {op : Operation} {model changed : Value}
    (hmodel : model.Canonical) (hop : op.Canonical) (h : apply [op] model = .ok changed) :
    changed.Canonical := by
  obtain ⟨p, -, hrun⟩ := apply_singleton_eq_ok_iff.mp h
  exact Operation.canonical_of_run hop hmodel hrun

/-! ### Lists -/

theorem toOption_bind {α β : Type} (x : Except Error α) (f : α → Except Error β) :
    (x >>= f).toOption = x.toOption.bind fun a => (f a).toOption := by
  cases x <;> rfl

/-- The first two of a list of operations are run, and then the others. -/
theorem apply_cons_cons {op other : Operation} {ops : List Operation}
    (h : ∀ o ∈ op :: other :: ops, o.Readable) (model : Value) :
    apply (op :: other :: ops) model = (apply [op] model >>= apply [other]) >>= apply ops := by
  rw [apply_cons h, bind_assoc]
  exact congrArg _ (funext (apply_cons fun o ho => h o (List.mem_cons_of_mem op ho)))

/-- Independent operations at the head of a list can change places. -/
theorem toOption_apply_swap {op other : Operation} {ops : List Operation} {model : Value}
    (hmodel : model.Canonical) (h : Operation.Independent model op other)
    (hread : ∀ o ∈ op :: other :: ops, o.Readable) :
    (apply (op :: other :: ops) model).toOption = (apply (other :: op :: ops) model).toOption := by
  have hread' : ∀ o ∈ other :: op :: ops, o.Readable := fun o ho =>
    hread o ((List.Perm.swap op other ops).mem_iff.mp ho)
  rw [apply_cons_cons hread, apply_cons_cons hread', toOption_bind (apply [op] model >>= _),
    toOption_bind (apply [other] model >>= _), h.toOption_apply_comm hmodel]

/-- **Independent operations can be run in any order.** All orders lead to the same model, or none
to any. -/
theorem toOption_apply_perm {ops others : List Operation} (hperm : ops.Perm others) {model : Value}
    (hmodel : model.Canonical) (hops : ∀ op ∈ ops, op.Canonical ∧ op.Readable)
    (hindependent : ops.Pairwise (Operation.Independent model)) :
    (apply ops model).toOption = (apply others model).toOption := by
  induction hperm generalizing model with
  | nil => rfl
  | @cons op ops others hperm ih =>
    have hread : ∀ o ∈ op :: ops, o.Readable := fun o ho => (hops o ho).2
    rw [apply_cons hread, apply_cons fun o ho => hread o ((hperm.cons op).mem_iff.mpr ho)]
    cases happly : apply [op] model with
    | error cause => rfl
    | ok changed =>
      -- The others are independent on the model, and must be shown so on what `op` makes of it.
      obtain ⟨hfirst, hrest⟩ := List.pairwise_cons.mp hindependent
      refine ih (canonical_of_apply_singleton hmodel (hops op List.mem_cons_self).1 happly)
        (fun other hother => hops other (List.mem_cons_of_mem op hother)) ?_
      exact hrest.imp_of_mem fun hmem _ h =>
        Operation.Independent.of_apply hmodel (hfirst _ hmem) h happly
  | swap op other ops =>
    exact toOption_apply_swap hmodel
      ((List.pairwise_cons.mp hindependent).1 op List.mem_cons_self) fun o ho => (hops o ho).2
  | @trans ops middle others hfirst hsecond ih ih' =>
    have hmiddle : ∀ op ∈ middle, op.Canonical ∧ op.Readable := fun op hop =>
      hops op (hfirst.mem_iff.mpr hop)
    have hpairs := (hfirst.pairwise_iff fun h => h.symm).mp hindependent
    exact (ih hmodel hops hindependent).trans (ih' hmodel hmiddle hpairs)

/-- The order of some operations does not count on a model: in all orders they make the same of the
model that is held, or in all orders they fail and the model stays. -/
def Unordered (ops : List Operation) (model : Value) : Prop :=
  (∃ changed, ∀ others, others.Perm ops → (amend others).run.run model = (.ok (), changed)) ∨
    ∀ others, others.Perm ops → ∃ cause, (amend others).run.run model = (.error cause, model)

theorem unordered_of_toOption {ops : List Operation} {model : Value}
    (h : ∀ others, others.Perm ops → (apply ops model).toOption = (apply others model).toOption) :
    Unordered ops model := by
  cases happly : apply ops model with
  | ok changed =>
    refine .inl ⟨changed, fun others hperm => run_amend_eq_ok_iff.mpr ?_⟩
    have hsame := h others hperm
    rw [happly] at hsame
    cases hother : apply others model with
    | ok changed' => rw [hother] at hsame; exact congrArg Except.ok (Option.some.inj hsame).symm
    | error cause => rw [hother] at hsame; cases hsame
  | error cause =>
    refine .inr fun others hperm => ?_
    have hsame := h others hperm
    rw [happly] at hsame
    cases hother : apply others model with
    | ok changed => rw [hother] at hsame; cases hsame
    | error cause => exact ⟨cause, run_amend_eq_error_iff.mpr ⟨rfl, hother⟩⟩

theorem unordered_of_independent {ops : List Operation} {model : Value} (hmodel : model.Canonical)
    (hops : ∀ op ∈ ops, op.Canonical ∧ op.Readable)
    (hindependent : ops.Pairwise (Operation.Independent model)) : Unordered ops model :=
  unordered_of_toOption fun _ hperm => toOption_apply_perm hperm.symm hmodel hops hindependent

/-- Operations that all fail on a model fail there in any order. -/
theorem unordered_of_forall_fail {ops : List Operation} {model : Value}
    (h : ∀ op ∈ ops, ∃ cause, apply [op] model = .error cause) : Unordered ops model := by
  refine unordered_of_toOption fun others hperm => ?_
  have hnone : ∀ {list : List Operation}, list ≠ [] →
      (∀ op ∈ list, ∃ cause, apply [op] model = .error cause) →
      (apply list model).toOption = none := by
    intro list hne hfail
    obtain ⟨op, rest, rfl⟩ := List.exists_cons_of_ne_nil hne
    cases happly : apply (op :: rest) model with
    | error cause => rfl
    | ok changed =>
      obtain ⟨p, reached, hparse, hrun, -⟩ := apply_cons_eq_ok_iff.mp happly
      obtain ⟨cause, hcause⟩ := hfail op List.mem_cons_self
      rw [apply_singleton_eq_ok_iff.mpr ⟨p, hparse, hrun⟩] at hcause
      cases hcause
  by_cases hempty : ops = []
  · subst hempty
    rw [List.perm_nil.mp hperm]
  · rw [hnone hempty h, hnone (fun he => hempty (List.perm_nil.mp (he ▸ hperm.symm)))
      fun op hop => h op (hperm.mem_iff.mp hop)]

/-! ### Members of an object -/

/-- Where there is neither an object nor an array nothing can be added. -/
theorem add_fails {model : Value} {path key : String} {p : Pointer} (value : Value)
    (hparse : Pointer.parse path = .ok (p ++ [key]))
    (hobject : ∀ members, model.get? p ≠ some (.object members))
    (harray : ∀ items, model.get? p ≠ some (.array items)) :
    ∃ cause, apply [.add path value] model = .error cause := by
  cases happly : apply [.add path value] model with
  | error cause => exact ⟨cause, rfl⟩
  | ok changed =>
    obtain ⟨q, hq, hrun⟩ := apply_singleton_eq_ok_iff.mp happly
    obtain rfl : p ++ [key] = q := Except.ok.inj (hparse.symm.trans hq)
    obtain ⟨container, result, hp, hact, -⟩ := Operation.run_concat_eq_ok_iff.mp hrun
    rcases Operation.act_add_eq_ok_iff.mp hact with ⟨members, rfl, -⟩ | ⟨items, position, rfl, -⟩
    · exact absurd hp (hobject members)
    · exact absurd hp (harray items)

/-- Additions of different members to one object are independent. -/
theorem independent_additions {model : Value} {parent : String} {p : Pointer}
    (hparse : Pointer.parse parent = .ok p) {members fields : OrderedMap Value}
    (hp : model.get? p = some (.object members)) (hfields : OrderedMap.Sorted fields) :
    (fields.map fun field => Operation.add (parent ++ "/" ++ Pointer.escapeToken field.1)
      field.2).Pairwise (Operation.Independent model) := by
  refine List.pairwise_map.mpr (hfields.imp fun {a b} hlt => ?_)
  refine ⟨p ++ [a.1], p ++ [b.1], Pointer.parse_member_of_parse hparse a.1,
    Pointer.parse_member_of_parse hparse b.1, p, members, a.1, b.1, [], [], hp, ?_, rfl, rfl⟩
  intro he
  exact String.lt_irrefl _ (he ▸ hlt)

/-- **The additions for the members of an object can be run in any order**, unless they are to be
added to an array. -/
theorem unordered_ofFields {model : Value} (hmodel : model.Canonical) {fields : Value}
    (hfields : fields.Canonical) {parent : String} {ops : List Operation}
    (hops : ofFields parent fields = .ok ops)
    (hparent : ∀ p items, Pointer.parse parent = .ok p → model.get? p ≠ some (.array items)) :
    Unordered ops model := by
  cases fields with
  | object fields =>
    obtain rfl := Except.ok.inj hops
    obtain ⟨hsorted, hvalues⟩ := Value.canonical_object_iff.mp hfields
    cases hparse : Pointer.parse parent with
    | error fault =>
      refine unordered_of_forall_fail (List.forall_mem_map.mpr fun field _ => ?_)
      rw [apply_singleton, Operation.pointer, Operation.path, Pointer.parse_member, hparse]
      exact ⟨_, rfl⟩
    | ok p =>
      have hmember := Pointer.parse_member_of_parse hparse
      by_cases hobject : ∃ members, model.get? p = some (.object members)
      · obtain ⟨members, hp⟩ := hobject
        refine unordered_of_independent hmodel (List.forall_mem_map.mpr fun field hfield => ?_)
          (independent_additions hparse hp hsorted)
        refine ⟨fun value hvalue => ?_, p ++ [field.1], hmember field.1⟩
        exact Option.some.inj hvalue ▸ hvalues field hfield
      · refine unordered_of_forall_fail (List.forall_mem_map.mpr fun field _ => ?_)
        exact add_fails field.2 (hmember field.1) (fun members hp => hobject ⟨members, hp⟩)
          fun items => hparent p items hparse
  | _ => cases hops

/-- **The order does not count.** Independent operations make the same of a model in any order, or
fail in any order. The additions for the members of an object do not depend on the order in which
the members are given, and they can themselves be run in any order, unless they are to be added to
an array. -/
theorem order_irrelevant {model : Value} (hmodel : model.Canonical) :
    (∀ ops : List Operation, (∀ op ∈ ops, op.Canonical ∧ op.Readable) →
      ops.Pairwise (Operation.Independent model) → Unordered ops model) ∧
    ∀ (parent : String) (members others : List (String × Value)),
      (∀ member ∈ members, member.2.Canonical) → (members.map Prod.fst).Nodup →
      members.Perm others →
      ofFields parent (.ofFields others) = ofFields parent (.ofFields members) ∧
        ((∀ p items, Pointer.parse parent = .ok p → model.get? p ≠ some (.array items)) →
          ∀ ops, ofFields parent (.ofFields members) = .ok ops → Unordered ops model) := by
  refine ⟨fun ops => unordered_of_independent hmodel, ?_⟩
  intro parent members others hmembers hnodup hperm
  refine ⟨?_, fun hparent ops hops => ?_⟩
  · rw [Value.ofFields, Value.ofFields, OrderedMap.ofList_perm hperm hnodup]
  · exact unordered_ofFields hmodel (Value.canonical_ofFields hmembers) hops hparent

theorem order_irrelevant_basket :
    basket.Canonical ∧
      Unordered [.add "/owner" (.string "Ann"), .remove "/open"] basket ∧
      Unordered [.add "/owner" (.string "Ann"), .add "/place" .null] basket := by
  have hops : ∀ op ∈ [Operation.add "/owner" (.string "Ann"), .remove "/open"],
      op.Canonical ∧ op.Readable := by
    refine List.forall_mem_cons.mpr ⟨⟨?_, ["owner"], rfl⟩,
      List.forall_mem_singleton.mpr ⟨?_, ["open"], rfl⟩⟩
    · rintro _ ⟨⟩
      trivial
    · rintro _ ⟨⟩
  have hindependent : [Operation.add "/owner" (.string "Ann"), .remove "/open"].Pairwise
      (Operation.Independent basket) :=
    List.pairwise_pair.mpr ⟨["owner"], ["open"], rfl, rfl, [], _, "owner", "open", [], [], rfl,
      by decide, rfl, rfl⟩
  have hmembers : ∀ member ∈ [("place", Value.null), ("owner", .string "Ann")],
      member.2.Canonical :=
    List.forall_mem_cons.mpr ⟨trivial, List.forall_mem_singleton.mpr trivial⟩
  have hparent : ∀ p items, Pointer.parse "" = .ok p → basket.get? p ≠ some (.array items) := by
    rintro _ _ ⟨⟩ ⟨⟩
  exact ⟨canonical_basket, (order_irrelevant canonical_basket).1 _ hops hindependent,
    ((order_irrelevant canonical_basket).2 "" _ _ hmembers (by decide) (.swap _ _ [])).2 hparent _
      rfl⟩

/-- Under an array the order counts: an item cannot be put in at a position that is not there
yet. -/
example :
    apply [.add "/items/2" .null, .add "/items/3" .null] basket = .ok (.object
        [("items", .array [.string "bread", .string "tea", .null, .null]), ("open", .bool true)]) ∧
      apply [.add "/items/3" .null, .add "/items/2" .null] basket
        = .error (.invalidIndex "/items/3" "3") :=
  ⟨rfl, rfl⟩

end Patch

end Reactive
