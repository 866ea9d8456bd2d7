import Mathlib
import Reactive.Proofs.Effects

/-!
# Operations on members

In a map whose names increase nothing counts but what is found under each name. So to insert and to
erase is the same as to assign, to one name, a value or none, and laws of assignment are read off
from the look-ups: assignments to different names commute, and the old value assigned again gives
the old map.

An operation whose pointer starts in an object is such an assignment. What it assigns, and whether
it succeeds, depends on the member of its first token alone and on no other.

## Main definitions

* `OrderedMap.assign` — gives a name a value or takes it away
* `Patch.Operation.onMember` — what an operation makes of the member that its pointer goes through
* `Patch.Operation.Canonical` — the value that an operation writes is canonical

## Main results

* `OrderedMap.Sorted.ext` — sorted maps are determined by their look-ups
* `OrderedMap.Sorted.assign_assign_comm`, `assign_find?`
* `OrderedMap.ofList_perm` — the order in which names are given their values does not count
* `Patch.Operation.run_member` — **an operation assigns one member**
* `Patch.Operation.canonical_of_run` — operations keep values canonical
-/

namespace Reactive

namespace OrderedMap

variable {α : Type u} {entries others : OrderedMap α}

/-! ### Assignment -/

theorem mem_of_find? {key : String} {value : α} (h : find? entries key = some value) :
    (key, value) ∈ entries := by
  induction entries with
  | nil => cases h
  | cons entry rest ih =>
    obtain ⟨other, old⟩ := entry
    rw [find?_cons] at h
    split at h
    · next hkey =>
      obtain rfl := Option.some.inj h
      exact hkey ▸ List.mem_cons_self
    · exact List.mem_cons_of_mem _ (ih h)

/-- A name has a value if and only if it is among the names. -/
theorem isSome_find?_iff {key : String} :
    (find? entries key).isSome = true ↔ key ∈ keys entries := by
  constructor
  · intro hsome
    obtain ⟨value, hvalue⟩ := Option.isSome_iff_exists.mp hsome
    exact List.mem_map_of_mem (mem_of_find? hvalue)
  · intro hmem
    induction entries with
    | nil => cases hmem
    | cons entry rest ih =>
      rw [find?_cons]
      split
      · rfl
      · next hkey => exact ih ((List.mem_cons.mp hmem).resolve_left hkey)

theorem Sorted.nodup (h : Sorted entries) : entries.Nodup := by
  refine List.Pairwise.imp ?_ h
  rintro a b hlt rfl
  exact String.lt_irrefl _ hlt

/-- **Sorted maps are determined by their look-ups.** -/
theorem Sorted.ext (h : Sorted entries) (h' : Sorted others)
    (hfind : ∀ key, find? entries key = find? others key) : entries = others := by
  have hmem : ∀ pair : String × α, pair ∈ entries ↔ pair ∈ others := fun pair =>
    ⟨fun hpair => mem_of_find? ((hfind pair.1) ▸ h.find?_of_mem hpair),
      fun hpair => mem_of_find? ((hfind pair.1).symm ▸ h'.find?_of_mem hpair)⟩
  have hperm := (List.perm_ext_iff_of_nodup h.nodup h'.nodup).mpr hmem
  refine hperm.eq_of_pairwise (fun a b _ _ hab hba => ?_) h h'
  exact absurd (String.lt_trans hab hba) (String.lt_irrefl _)

/-- In the map of pairs with different names every pair is found, and nothing else. -/
theorem find?_ofList_eq_some_iff {pairs : List (String × α)} (hnodup : (pairs.map Prod.fst).Nodup)
    {key : String} {value : α} : find? (ofList pairs) key = some value ↔ (key, value) ∈ pairs := by
  rw [ofList, find?_foldl_insert Prod.fst Prod.snd, find?_nil, Option.or_none,
    Option.map_eq_some_iff]
  constructor
  · rintro ⟨pair, hpair, rfl⟩
    have hkey : pair.1 = key := by simpa using List.find?_some hpair
    exact hkey ▸ List.mem_reverse.mp (List.mem_of_find?_eq_some hpair)
  · intro hmem
    cases hpair : pairs.reverse.find? fun pair => pair.1 = key with
    | none =>
      have hother := List.find?_eq_none.mp hpair (key, value) (List.mem_reverse.mpr hmem)
      simp at hother
    | some pair =>
      have hkey : pair.1 = key := by simpa using List.find?_some hpair
      have hpair := List.mem_reverse.mp (List.mem_of_find?_eq_some hpair)
      have hsame := List.inj_on_of_nodup_map hnodup hpair hmem hkey
      exact ⟨pair, rfl, congrArg Prod.snd hsame⟩

/-- The order in which different names are given their values does not count. -/
theorem ofList_perm {pairs reordered : List (String × α)} (hperm : pairs.Perm reordered)
    (hnodup : (pairs.map Prod.fst).Nodup) : ofList pairs = ofList reordered := by
  have hnodup' : (reordered.map Prod.fst).Nodup := (hperm.map Prod.fst).nodup_iff.mp hnodup
  refine (sorted_ofList pairs).ext (sorted_ofList reordered) fun key => Option.ext fun value => ?_
  rw [find?_ofList_eq_some_iff hnodup, find?_ofList_eq_some_iff hnodup']
  exact hperm.mem_iff

/-- Gives a name a value, or takes it away. -/
def assign (entries : OrderedMap α) (key : String) : Option α → OrderedMap α
  | some value => insert entries key value
  | none => erase entries key

theorem find?_assign (entries : OrderedMap α) (key : String) (value? : Option α) (k : String) :
    find? (assign entries key value?) k = if k = key then value? else find? entries k := by
  cases value? with
  | none => exact find?_erase entries key k
  | some value => exact find?_insert entries key value k

theorem Sorted.assign (h : Sorted entries) (key : String) (value? : Option α) :
    Sorted (assign entries key value?) := by
  cases value? with
  | none => exact h.erase key
  | some value => exact h.insert key value

/-- Assignments to different names commute. -/
theorem Sorted.assign_assign_comm (h : Sorted entries) {a b : String} (hne : a ≠ b)
    (x y : Option α) :
    OrderedMap.assign (OrderedMap.assign entries a x) b y
      = OrderedMap.assign (OrderedMap.assign entries b y) a x := by
  refine ((h.assign a x).assign b y).ext ((h.assign b y).assign a x) fun key => ?_
  simp only [find?_assign]
  by_cases hb : key = b
  · rw [if_pos hb, if_neg fun ha : key = a => hne (ha.symm.trans hb), if_pos hb]
  · rw [if_neg hb, if_neg hb]

/-- What was there before, assigned again, gives the map from before. -/
theorem Sorted.assign_find? (h : Sorted entries) (key : String) (value? : Option α) :
    OrderedMap.assign (OrderedMap.assign entries key value?) key (find? entries key) = entries := by
  refine ((h.assign key value?).assign key _).ext h fun k => ?_
  simp only [find?_assign]
  by_cases hk : k = key
  · rw [if_pos hk, hk]
  · rw [if_neg hk, if_neg hk]

/-- To change the value of a name that has one is to assign. -/
theorem Sorted.modify_eq_assign (h : Sorted entries) {key : String} {old : α}
    (hfind : find? entries key = some old) (value : α) :
    OrderedMap.modify entries key (fun _ => value)
      = OrderedMap.assign entries key (some value) := by
  refine (h.modify key _).ext (h.assign key _) fun k => ?_
  rw [find?_modify, find?_assign]
  by_cases hk : k = key
  · rw [if_pos hk, if_pos hk, hk, hfind, Option.map_some]
  · rw [if_neg hk, if_neg hk]

end OrderedMap

namespace Value

/-! ### Canonical values -/

theorem Canonical.child? {v child : Value} (h : v.Canonical) {token : String}
    (hchild : v.child? token = some child) : child.Canonical := by
  cases v with
  | object members =>
    exact (canonical_object_iff.mp h).2 _ (OrderedMap.mem_of_find? hchild)
  | array items =>
    obtain ⟨index, -, hitem⟩ := Option.bind_eq_some_iff.mp hchild
    exact canonical_array_iff.mp h _ (List.mem_of_getElem? hitem)
  | _ => cases hchild

theorem Canonical.get? {v part : Value} (h : v.Canonical) {p : Pointer}
    (hpart : v.get? p = some part) : part.Canonical := by
  induction p generalizing v with
  | nil =>
    obtain rfl : v = part := by simpa using hpart
    exact h
  | cons token rest ih =>
    rw [get?_cons, Option.bind_eq_some_iff] at hpart
    obtain ⟨child, hchild, hrest⟩ := hpart
    exact ih (h.child? hchild) hrest

theorem canonical_object_assign {members : OrderedMap Value} (h : (object members).Canonical)
    {value? : Option Value} (hvalue : ∀ value, value? = some value → value.Canonical)
    (token : String) : (object (OrderedMap.assign members token value?)).Canonical := by
  obtain ⟨hsorted, hmembers⟩ := canonical_object_iff.mp h
  refine canonical_object_iff.mpr ⟨hsorted.assign token value?, fun pair hpair => ?_⟩
  cases value? with
  | none => exact hmembers pair (OrderedMap.mem_of_mem_erase hpair)
  | some value =>
    rcases OrderedMap.mem_insert hpair with rfl | hpair
    · exact hvalue value rfl
    · exact hmembers pair hpair

theorem Canonical.setChild {v old new : Value} (h : v.Canonical) {token : String}
    (hold : v.child? token = some old) (hnew : new.Canonical) :
    (v.setChild token new).Canonical := by
  cases v with
  | object members =>
    rw [Value.setChild, (canonical_object_iff.mp h).1.modify_eq_assign hold]
    refine canonical_object_assign h (fun value he => ?_) token
    exact Option.some.inj he ▸ hnew
  | array items =>
    obtain ⟨index, hindex, -⟩ := Option.bind_eq_some_iff.mp hold
    simp only [Value.setChild, hindex]
    refine canonical_array_iff.mpr fun item hitem => ?_
    rcases List.mem_or_eq_of_mem_set hitem with hitem | rfl
    · exact canonical_array_iff.mp h item hitem
    · exact hnew
  | _ => exact h

theorem Canonical.set {v new : Value} (h : v.Canonical) (p : Pointer) (hnew : new.Canonical) :
    (v.set p new).Canonical := by
  induction p generalizing v with
  | nil => exact hnew
  | cons token rest ih =>
    rw [Value.set]
    cases hchild : v.child? token with
    | none => exact h
    | some child => exact h.setChild hchild (ih (h.child? hchild))

/-- To write in a member of an object is to assign it. -/
theorem set_member {members : OrderedMap Value} (h : OrderedMap.Sorted members) {token : String}
    {old : Value} (hfind : OrderedMap.find? members token = some old) (new : Value) :
    (object members).set [token] new
      = object (OrderedMap.assign members token (some new)) := by
  rw [Value.set, Value.child?, hfind]
  exact congrArg object (h.modify_eq_assign hfind new)

/-- An object that is made of canonical members is canonical. -/
theorem canonical_ofFields {fields : List (String × Value)}
    (h : ∀ field ∈ fields, field.2.Canonical) : (ofFields fields).Canonical := by
  have hfold : ∀ {members : OrderedMap Value}, (object members).Canonical →
      (object (fields.foldl (fun members field => OrderedMap.insert members field.1 field.2)
        members)).Canonical := by
    induction fields with
    | nil => exact fun hmembers => hmembers
    | cons field rest ih =>
      intro members hmembers
      have hfield : ∀ value, some field.2 = some value → value.Canonical := fun value hvalue =>
        Option.some.inj hvalue ▸ h field List.mem_cons_self
      exact ih (fun other hother => h other (List.mem_cons_of_mem field hother))
        (canonical_object_assign hmembers hfield field.1)
  exact hfold (canonical_object_iff.mpr ⟨List.Pairwise.nil, List.forall_mem_nil _⟩)

end Value

namespace Patch

namespace Operation

/-! ### Operations on a member -/

/-- The value that an operation leaves at its place. -/
def value? : Operation → Option Value
  | add _ value | replace _ value => some value
  | remove _ => none

/-- The value that an operation writes is canonical. -/
def Canonical (op : Operation) : Prop := ∀ value, op.value? = some value → value.Canonical

/-- What an operation makes of the member of an object that its pointer goes through, behind which
the tokens `rest` are left. -/
def onMember (op : Operation) (rest : Pointer) (member? : Option Value) :
    Except Error (Option Value) :=
  match rest, op, member? with
  | [], add _ value, _ => .ok (some value)
  | [], op, some _ => .ok op.value?
  | [], op, none => .error op.astray
  | _ :: _, op, some member => (op.run rest member).map some
  | _ :: _, op, none => .error op.astray

variable {members : OrderedMap Value}

/-- On an object an operation assigns the member of the last token. -/
theorem act_object (h : OrderedMap.Sorted members) (op : Operation) (token : String) :
    op.act token (.object members) = (op.onMember [] (OrderedMap.find? members token)).map
      fun member? => .object (OrderedMap.assign members token member?) := by
  cases op with
  | add path value => rfl
  | replace path value =>
    cases hfind : OrderedMap.find? members token with
    | none =>
      simp only [act, Value.child?, hfind]
      rfl
    | some old =>
      simp only [act, Value.child?, Value.setChild, hfind, h.modify_eq_assign hfind]
      rfl
  | remove path =>
    simp only [act, removeChild]
    cases OrderedMap.find? members token with
    | none => rfl
    | some old => rfl

/-- **An operation assigns one member** of an object that its pointer starts in. -/
theorem run_object (h : OrderedMap.Sorted members) (op : Operation) (token : String)
    (rest : Pointer) :
    op.run (token :: rest) (.object members)
      = (op.onMember rest (OrderedMap.find? members token)).map
        fun member? => .object (OrderedMap.assign members token member?) := by
  cases rest with
  | nil =>
    have hrun : op.run [token] (.object members) = (op.act token (.object members)).map id :=
      op.run_concat [] token (.object members)
    rw [hrun, act_object h]
    cases op.onMember [] (OrderedMap.find? members token) <;> rfl
  | cons next rest =>
    rw [← List.singleton_append, run_append op [token] (List.cons_ne_nil next rest),
      Value.get?_cons, Value.child?]
    cases hfind : OrderedMap.find? members token with
    | none => rfl
    | some member =>
      simp only [Option.bind_some, Value.get?_nil, onMember]
      cases op.run (next :: rest) member with
      | error cause => rfl
      | ok changed => exact congrArg Except.ok (Value.set_member h hfind changed)

/-- An operation whose pointer goes through an object assigns one member of it. -/
theorem run_member {model : Value} {stem : Pointer}
    (hstem : model.get? stem = some (.object members)) (hsorted : OrderedMap.Sorted members)
    (op : Operation) (token : String) (rest : Pointer) :
    op.run (stem ++ token :: rest) model
      = (op.onMember rest (OrderedMap.find? members token)).map
        fun member? => model.set stem (.object (OrderedMap.assign members token member?)) := by
  rw [run_append op stem (List.cons_ne_nil token rest), hstem]
  show (op.run (token :: rest) (.object members)).map (model.set stem) = _
  rw [run_object hsorted]
  cases op.onMember rest (OrderedMap.find? members token) <;> rfl

/-- All that an operation leaves of an object that its pointer goes through is the object with one
member assigned. -/
theorem exists_assign_of_run {op : Operation} {model changed : Value} (hmodel : model.Canonical)
    {stem rest : Pointer} {token : String} (hstem : model.get? stem = some (.object members))
    (h : op.run (stem ++ token :: rest) model = .ok changed) :
    ∃ member?, changed = model.set stem (.object (OrderedMap.assign members token member?)) := by
  rw [run_member hstem (Value.canonical_object_iff.mp (hmodel.get? hstem)).1] at h
  cases hmember : op.onMember rest (OrderedMap.find? members token) with
  | error cause => rw [hmember] at h; cases h
  | ok member? =>
    rw [hmember] at h
    exact ⟨member?, (Except.ok.inj h).symm⟩

/-! ### Canonical results -/

theorem canonical_of_act {op : Operation} (hop : op.Canonical) {token : String}
    {container result : Value} (hcontainer : container.Canonical)
    (h : op.act token container = .ok result) : result.Canonical := by
  cases op with
  | add path value =>
    rcases act_add_eq_ok_iff.mp h with
      ⟨members, rfl, rfl⟩ | ⟨items, position, rfl, -, -, rfl⟩
    · exact Value.canonical_object_assign hcontainer hop token
    · refine Value.canonical_array_iff.mpr fun item hitem => ?_
      rcases List.eq_or_mem_of_mem_insertIdx hitem with rfl | hitem
      · exact hop item rfl
      · exact Value.canonical_array_iff.mp hcontainer item hitem
  | replace path value =>
    simp only [act] at h
    split at h
    · next hthere =>
      obtain ⟨old, hold⟩ := Option.isSome_iff_exists.mp hthere
      obtain rfl := Except.ok.inj h
      exact hcontainer.setChild hold (hop value rfl)
    · cases h
  | remove path =>
    rcases act_remove_eq_ok_iff.mp h with
      ⟨members, rfl, -, rfl⟩ | ⟨items, position, rfl, -, -, rfl⟩
    · exact Value.canonical_object_assign hcontainer hop token
    · refine Value.canonical_array_iff.mpr fun item hitem => ?_
      exact Value.canonical_array_iff.mp hcontainer item (List.mem_of_mem_eraseIdx hitem)

/-- Operations keep values canonical. -/
theorem canonical_of_run {op : Operation} (hop : op.Canonical) {p : Pointer} {model changed : Value}
    (hmodel : model.Canonical) (h : op.run p model = .ok changed) : changed.Canonical := by
  rcases List.eq_nil_or_concat' p with rfl | ⟨stem, token, rfl⟩
  · cases op with
    | add path value => exact hop changed (congrArg some (Except.ok.inj h))
    | replace path value => exact hop changed (congrArg some (Except.ok.inj h))
    | remove path => cases h
  · obtain ⟨container, result, hstem, hact, rfl⟩ := run_concat_eq_ok_iff.mp h
    exact hmodel.set stem (canonical_of_act hop (hmodel.get? hstem) hact)

end Operation

theorem canonical_basket : basket.Canonical := by
  refine Value.canonical_object_iff.mpr ⟨by decide, ?_⟩
  simp [Value.Canonical, Value.CanonicalItems]

end Patch

end Reactive
