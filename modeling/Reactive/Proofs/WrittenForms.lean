import Mathlib
import Reactive.Encoding
import Reactive.Proofs.Members
import Reactive.Proofs.TimestampTexts

/-!
# Written forms are faithful

Whatever is written as a value is read back as it was: an operation with any path and any value,
null included, a target, a configuration, a record of a state, an emission, and a trace with
whatever it holds. So no two things are written alike.

A value need not have been written here to be read. What an object is read as depends on what is
found under the names of the fields, and so members of other names do not count, nor does the order
of members. Each field has its condition, and together they say exactly what is read. Where a member
may be missing the condition says what it counts as: a default in a configuration, and null in a
record. Anywhere else a missing member is not the same as null, and a default never stands for a
member that is there.

## Main definitions

* `Faithful` — what is written is read back, and no two things are written alike
* `Patch.Operation.IsDescribedBy` and its like — the conditions on the members of an object
* `FaithfulForms` — all written forms together

## Main results

* `OrderedMap.find?_ofList_cons` — what is found among some fields
* `Patch.Operation.ofValue?_object_eq_some_iff` and its like — **what an object is read as**
* `Patch.Operation.ofValue?_toValue` and its like — what is written is read back
* `faithfulForms`
-/

namespace Reactive

/-- Whatever is written can be read back. -/
structure Faithful {α : Type} (write : α → Value) (read : Value → Option α) : Prop where
  read_write : ∀ a, read (write a) = some a
  /-- Different things are written differently. -/
  injective : Function.Injective write
  /-- What was read, from whatever value, is written so that it is read again. -/
  stable : ∀ v a, read v = some a → read (write a) = some a

theorem Faithful.of_read_write {α : Type} {write : α → Value} {read : Value → Option α}
    (h : ∀ a, read (write a) = some a) : Faithful write read where
  read_write := h
  injective a b hwritten := by
    have hread : some a = some b := by rw [← h a, ← h b, hwritten]
    exact Option.some.inj hread
  stable _ a _ := h a

/-! ### Fields -/

namespace OrderedMap

variable {α : Type u}

@[simp] theorem find?_ofList_nil (key : String) :
    find? (ofList ([] : List (String × α))) key = none :=
  rfl

/-- Of two fields of one name the later counts. -/
@[simp] theorem find?_ofList_cons (field : String × α) (rest : List (String × α)) (key : String) :
    find? (ofList (field :: rest)) key
      = (find? (ofList rest) key).or (if key = field.1 then some field.2 else none) := by
  rw [ofList, ofList, List.foldl_cons, find?_foldl_insert Prod.fst Prod.snd,
    find?_foldl_insert Prod.fst Prod.snd, find?_insert, find?_nil, Option.or_none]

end OrderedMap

namespace Value

variable {members : List (String × Value)} {key : String}

theorem asString?_eq_some_iff {v : Value} {s : String} : v.asString? = some s ↔ v = .string s := by
  cases v <;> simp [asString?]

theorem asBool?_eq_some_iff {v : Value} {b : Bool} : v.asBool? = some b ↔ v = .bool b := by
  cases v <;> simp [asBool?]

theorem asArray?_eq_some_iff {v : Value} {items : List Value} :
    v.asArray? = some items ↔ v = .array items := by
  cases v <;> simp [asArray?]

theorem asCount?_eq_some_iff {v : Value} {n : UInt64} : v.asCount? = some n ↔ v = ofCount n := by
  constructor
  · intro h
    unfold asCount? at h
    split at h
    · next whole =>
      split at h
      · next hrange =>
        obtain rfl := Option.some.inj h
        have hlt : whole.toNat < UInt64.size := by
          have := Int.toNat_of_nonneg hrange.1
          omega
        rw [ofCount, nat, UInt64.toNat_ofNat_of_lt' hlt, Int.toNat_of_nonneg hrange.1]
      · cases h
    · cases h
  · rintro rfl
    exact asCount?_ofCount n

theorem stringAt?_object_eq_some_iff {s : String} :
    (object members).stringAt? key = some s ↔ OrderedMap.find? members key = some (.string s) := by
  rw [stringAt?, member?, Option.bind_eq_some_iff]
  simp only [asString?_eq_some_iff, exists_eq_right]

theorem boolAt?_object_eq_some_iff {b : Bool} :
    (object members).boolAt? key = some b ↔ OrderedMap.find? members key = some (.bool b) := by
  rw [boolAt?, member?, Option.bind_eq_some_iff]
  simp only [asBool?_eq_some_iff, exists_eq_right]

theorem countAt?_object_eq_some_iff {n : UInt64} :
    (object members).countAt? key = some n ↔ OrderedMap.find? members key = some (ofCount n) := by
  rw [countAt?, member?, Option.bind_eq_some_iff]
  simp only [asCount?_eq_some_iff, exists_eq_right]

/-- A name that is missing is null. -/
theorem nameAt?_object_eq_some_iff {name : Option String} :
    (object members).nameAt? key = some name
      ↔ (OrderedMap.find? members key).getD .null = ofName? name := by
  rw [nameAt?, member?]
  cases OrderedMap.find? members key with
  | none => cases name <;> simp [ofName?]
  | some v => cases v <;> cases name <;> simp [ofName?]

end Value

/-! ### Operations -/

namespace Patch.Operation

variable {members : List (String × Value)}

/-- The members of an object describe an operation. The value of one that removes nothing must be
there, even if it is null. -/
structure IsDescribedBy (op : Operation) (members : OrderedMap Value) : Prop where
  kind : OrderedMap.find? members "op" = some (.string op.kind)
  path : OrderedMap.find? members "path" = some (.string op.path)
  value : ∀ value, op.value? = some value → OrderedMap.find? members "value" = some value

/-- **What an object is read as**, if it is an operation. -/
theorem ofValue?_object_eq_some_iff {op : Operation} :
    ofValue? (.object members) = some op ↔ op.IsDescribedBy members := by
  have hkind : kindOf? (.object members) = (Value.object members).stringAt? "op" := rfl
  simp only [ofValue?, hkind, Value.withNames?, Option.bind_eq_bind, Option.bind_some,
    Option.bind_eq_some_iff, Value.stringAt?_object_eq_some_iff, Value.member?]
  constructor
  · rintro ⟨name, hop, path, hpath, h⟩
    split at h
    · next hadd =>
      subst hadd
      obtain ⟨value, hvalue, ⟨⟩⟩ := Option.bind_eq_some_iff.mp h
      exact ⟨hop, hpath, by rintro _ ⟨⟩; exact hvalue⟩
    split at h
    · next hreplace =>
      subst hreplace
      obtain ⟨value, hvalue, ⟨⟩⟩ := Option.bind_eq_some_iff.mp h
      exact ⟨hop, hpath, by rintro _ ⟨⟩; exact hvalue⟩
    split at h
    · next hremove =>
      subst hremove
      obtain rfl : remove path = op := Option.some.inj h
      exact ⟨hop, hpath, by rintro _ ⟨⟩⟩
    · cases h
  · rintro ⟨hop, hpath, hvalue⟩
    refine ⟨op.kind, hop, op.path, hpath, ?_⟩
    cases op with
    | add path value => simp [kind, hvalue value rfl]; rfl
    | replace path value => simp [kind, hvalue value rfl]; rfl
    | remove path => simp [kind]; rfl

/-- **Operations are read back**, whatever the path and the value are. -/
theorem ofValue?_toValue (op : Operation) : ofValue? op.toValue = some op := by
  cases op <;>
    exact ofValue?_object_eq_some_iff.mpr ⟨by simp [kind], by simp [Operation.path],
      by simp [value?]⟩

end Patch.Operation

/-! ### Targets -/

theorem Target.ofValue?_toValue (target : Target) : ofValue? target.toValue = some target := by
  cases target <;> simp [toValue, ofValue?]

/-! ### Configurations -/

namespace Config

variable {members : List (String × Value)}

/-- A count that is missing has its default, and one that is there has not. -/
theorem countOr?_eq_some_iff {key : String} {default n : UInt64} :
    countOr? members key default = some n
      ↔ (OrderedMap.find? members key).getD (.ofCount default) = .ofCount n := by
  rw [countOr?]
  cases OrderedMap.find? members key with
  | none => rw [Option.getD_none, ← Value.asCount?_eq_some_iff, Value.asCount?_ofCount]
  | some v => exact Value.asCount?_eq_some_iff

/-- The members of an object describe a configuration. What is missing has its default. -/
structure IsDescribedBy (c : Config) (members : OrderedMap Value) : Prop where
  maxCascadeDepth : (OrderedMap.find? members "max_cascade_depth").getD
    (.ofCount ({} : Config).maxCascadeDepth) = .ofCount c.maxCascadeDepth
  traceCapacity : (OrderedMap.find? members "trace_capacity").getD
    (.ofCount ({} : Config).traceCapacity) = .ofCount c.traceCapacity

/-- **What an object is read as**, if it is a configuration. -/
theorem ofValue?_object_eq_some_iff {c : Config} :
    ofValue? (.object members) = some c ↔ c.IsDescribedBy members := by
  simp only [ofValue?, ofMembers?, Option.bind_eq_bind, Option.bind_eq_some_iff,
    countOr?_eq_some_iff]
  constructor
  · rintro ⟨depth, hdepth, capacity, hcapacity, ⟨⟩⟩
    exact ⟨hdepth, hcapacity⟩
  · rintro ⟨hdepth, hcapacity⟩
    exact ⟨_, hdepth, _, hcapacity, rfl⟩

theorem ofValue?_toValue (c : Config) : ofValue? c.toValue = some c :=
  ofValue?_object_eq_some_iff.mpr ⟨by simp, by simp⟩

end Config

/-! ### Records of states -/

namespace StateRecord

variable {members : List (String × Value)}

/-- The members of an object describe a record. A name that is missing is null. -/
structure IsDescribedBy (r : StateRecord) (members : OrderedMap Value) : Prop where
  name : OrderedMap.find? members "name" = some (.string r.name)
  parent : (OrderedMap.find? members "parent").getD .null = .ofName? r.parent
  isGroup : OrderedMap.find? members "is_group" = some (.bool r.isGroup)
  isAutomatic : OrderedMap.find? members "is_automatic" = some (.bool r.isAutomatic)
  isInitial : OrderedMap.find? members "is_initial" = some (.bool r.isInitial)
  lastSeen : (OrderedMap.find? members "last_seen").getD .null = .ofName? r.lastSeen
  active : OrderedMap.find? members "active" = some (.bool r.active)

/-- **What an object is read as**, if it is a record. -/
theorem ofValue?_object_eq_some_iff {r : StateRecord} :
    ofValue? (.object members) = some r ↔ r.IsDescribedBy members := by
  simp only [ofValue?, Value.withNames?, Option.bind_eq_bind, Option.bind_some,
    Option.bind_eq_some_iff, Value.stringAt?_object_eq_some_iff,
    Value.nameAt?_object_eq_some_iff, Value.boolAt?_object_eq_some_iff]
  constructor
  · rintro ⟨name, hname, parent, hparent, isGroup, hgroup, isAutomatic, hautomatic, isInitial,
      hinitial, lastSeen, hseen, active, hactive, ⟨⟩⟩
    exact ⟨hname, hparent, hgroup, hautomatic, hinitial, hseen, hactive⟩
  · rintro ⟨hname, hparent, hgroup, hautomatic, hinitial, hseen, hactive⟩
    exact ⟨_, hname, _, hparent, _, hgroup, _, hautomatic, _, hinitial, _, hseen, _, hactive, rfl⟩

theorem ofValue?_toValue (r : StateRecord) : ofValue? r.toValue = some r :=
  ofValue?_object_eq_some_iff.mpr
    ⟨by simp, by simp, by simp, by simp, by simp, by simp, by simp⟩

end StateRecord

/-! ### Traces -/

namespace TimedFiring

variable {members : List (String × Value)}

/-- The members of an object describe a firing. Its time may be written in any way that can be
read. -/
structure IsDescribedBy (f : TimedFiring) (members : OrderedMap Value) : Prop where
  source : OrderedMap.find? members "from" = some (.string f.source)
  event : OrderedMap.find? members "event" = some (.string f.event)
  target : OrderedMap.find? members "to" = some (.string f.target)
  time : ∃ text, OrderedMap.find? members "timestamp" = some (.string text) ∧
    Timestamp.parse? text = some f.time
  depth : OrderedMap.find? members "cascade_depth" = some (.ofCount f.depth)

/-- **What an object is read as**, if it is a firing. -/
theorem ofValue?_object_eq_some_iff {f : TimedFiring} :
    ofValue? (.object members) = some f ↔ f.IsDescribedBy members := by
  simp only [ofValue?, Value.withNames?, Option.bind_eq_bind, Option.bind_some,
    Option.bind_eq_some_iff, Value.stringAt?_object_eq_some_iff,
    Value.countAt?_object_eq_some_iff]
  constructor
  · rintro ⟨source, hsource, event, hevent, target, htarget, time, htime, depth, hdepth, ⟨⟩⟩
    exact ⟨hsource, hevent, htarget, htime, hdepth⟩
  · rintro ⟨hsource, hevent, htarget, htime, hdepth⟩
    exact ⟨_, hsource, _, hevent, _, htarget, _, htime, _, hdepth, rfl⟩

theorem ofValue?_toValue (f : TimedFiring) : ofValue? f.toValue = some f :=
  ofValue?_object_eq_some_iff.mpr
    ⟨by simp, by simp, by simp, ⟨_, by simp, Timestamp.parse?_text f.time⟩, by simp⟩

theorem mapM_ofValue?_toValue (entries : List TimedFiring) :
    (entries.map toValue).mapM ofValue? = some entries := by
  induction entries with
  | nil => rfl
  | cons f rest ih =>
    rw [List.map_cons, List.mapM_cons, ofValue?_toValue, ih]
    rfl

end TimedFiring

namespace Trace

variable {members : List (String × Value)}

/-- The members of an object describe a trace, which may hold more than its capacity. -/
structure IsDescribedBy (t : Trace TimedFiring) (members : OrderedMap Value) : Prop where
  capacity : OrderedMap.find? members "capacity" = some (.ofCount t.capacity)
  entries : ∃ records, OrderedMap.find? members "records" = some (.array records) ∧
    records.mapM TimedFiring.ofValue? = some t.entries

/-- **What an object is read as**, if it is a trace. -/
theorem ofValue?_object_eq_some_iff {t : Trace TimedFiring} :
    ofValue? (.object members) = some t ↔ t.IsDescribedBy members := by
  simp only [ofValue?, Value.withNames?, Option.bind_eq_bind, Option.bind_some,
    Option.bind_eq_some_iff, Value.countAt?_object_eq_some_iff, Value.member?,
    Value.asArray?_eq_some_iff, exists_eq_right]
  constructor
  · rintro ⟨capacity, hcapacity, records, hrecords, entries, hentries, ⟨⟩⟩
    exact ⟨hcapacity, records, hrecords, hentries⟩
  · rintro ⟨hcapacity, records, hrecords, hentries⟩
    exact ⟨_, hcapacity, records, hrecords, _, hentries, rfl⟩

/-- **Traces are read back**, whatever they hold and however much they may hold. -/
theorem ofValue?_toValue (t : Trace TimedFiring) : ofValue? t.toValue = some t :=
  ofValue?_object_eq_some_iff.mpr
    ⟨by simp, _, by simp, TimedFiring.mapM_ofValue?_toValue t.entries⟩

end Trace

/-! ### Emissions -/

theorem ControlState.ofValue?_toValue (c : ControlState) : ofValue? c.toValue = some c := by
  cases c <;> decide

namespace Emission

variable {members : List (String × Value)}

/-- The members of an object describe an emission. The output must be there, even if it is null. -/
structure IsDescribedBy (e : Emission) (members : OrderedMap Value) : Prop where
  controlState : ∃ state, OrderedMap.find? members "control_state" = some state ∧
    ControlState.ofValue? state = some e.controlState
  output : OrderedMap.find? members "output" = some e.output

/-- **What an object is read as**, if it is an emission. -/
theorem ofValue?_object_eq_some_iff {e : Emission} :
    ofValue? (.object members) = some e ↔ e.IsDescribedBy members := by
  simp only [ofValue?, Value.withNames?, Option.bind_eq_bind, Option.bind_some,
    Option.bind_eq_some_iff, Value.member?]
  constructor
  · rintro ⟨state, hstate, output, houtput, ⟨⟩⟩
    exact ⟨hstate, houtput⟩
  · rintro ⟨hstate, houtput⟩
    exact ⟨_, hstate, _, houtput, rfl⟩

theorem ofValue?_toValue (e : Emission) : ofValue? e.toValue = some e :=
  ofValue?_object_eq_some_iff.mpr
    ⟨⟨_, by simp, ControlState.ofValue?_toValue e.controlState⟩, by simp⟩

end Emission

/-! ### All of them -/

/-- All written forms are faithful, and what an object is read as is what its members describe. -/
structure FaithfulForms : Prop where
  operation : Faithful Patch.Operation.toValue Patch.Operation.ofValue?
  target : Faithful Target.toValue Target.ofValue?
  config : Faithful Config.toValue Config.ofValue?
  record : Faithful StateRecord.toValue StateRecord.ofValue?
  firing : Faithful TimedFiring.toValue TimedFiring.ofValue?
  trace : Faithful Trace.toValue Trace.ofValue?
  emission : Faithful Emission.toValue Emission.ofValue?
  operation_object : ∀ members op,
    Patch.Operation.ofValue? (.object members) = some op ↔ op.IsDescribedBy members
  config_object : ∀ members c, Config.ofValue? (.object members) = some c ↔ c.IsDescribedBy members
  record_object : ∀ members r,
    StateRecord.ofValue? (.object members) = some r ↔ r.IsDescribedBy members
  firing_object : ∀ members f,
    TimedFiring.ofValue? (.object members) = some f ↔ f.IsDescribedBy members
  trace_object : ∀ members t, Trace.ofValue? (.object members) = some t ↔ t.IsDescribedBy members
  emission_object : ∀ members e,
    Emission.ofValue? (.object members) = some e ↔ e.IsDescribedBy members

/-- **Written forms are faithful.** Every operation, target, configuration, record of a state,
firing, trace and emission is read back from what it is written as, and no two are written alike.
What is read from any other value is written so that it is read again. An object is read by what is
found under the names of the fields: members of other names and the order of members do not count,
what is missing has its default or makes the whole unreadable, and null is not missing where it is a
value. -/
theorem faithfulForms : FaithfulForms where
  operation := .of_read_write Patch.Operation.ofValue?_toValue
  target := .of_read_write Target.ofValue?_toValue
  config := .of_read_write Config.ofValue?_toValue
  record := .of_read_write StateRecord.ofValue?_toValue
  firing := .of_read_write TimedFiring.ofValue?_toValue
  trace := .of_read_write Trace.ofValue?_toValue
  emission := .of_read_write Emission.ofValue?_toValue
  operation_object _ _ := Patch.Operation.ofValue?_object_eq_some_iff
  config_object _ _ := Config.ofValue?_object_eq_some_iff
  record_object _ _ := StateRecord.ofValue?_object_eq_some_iff
  firing_object _ _ := TimedFiring.ofValue?_object_eq_some_iff
  trace_object _ _ := Trace.ofValue?_object_eq_some_iff
  emission_object _ _ := Emission.ofValue?_object_eq_some_iff

end Reactive
