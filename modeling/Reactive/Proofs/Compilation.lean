import Reactive.Proofs.Levels
import Reactive.Table

/-!
# What a table knows

The table compiled from a tree and a list of transitions, looked up. Its records are the
declarations, with the links to the parents that make `ancestors` climb along the lineage, and its
handlers are the transitions of the list, those from one state for one event put together.

Leaving and activating states changes the records, but only in what happens at run time: which
states are active and which were seen last. The rest is the `shape` of a record. Resolving an event
and going on by itself depend on the shapes only, and so the lemmas about them are proved for every
table that has the shapes of the compiled one.

## Main definitions

* `StateRecord.shape`, `Table.SameShape`, `Table.shapes`

## Main results

* `record?_compile_of_mem`, `record?_compile_root`, `record?_compile_eq_none`
* `branches?_compile` — the branches of a state for an event
* `map_name_ancestors` — the ancestors of a state are the rest of its lineage
* `SameShape.leave`, `SameShape.activate`
* `record?_leave`, `lastSeen_leave`, `active_activate_leave` — what leaving a state changes
* `shapes_leave`, `shapes_activate`, `sorted_records_compile` — the list of records
-/

namespace Reactive

/-- A record without what happens at run time. -/
def StateRecord.shape (record : StateRecord) : StateRecord :=
  { record with lastSeen := none, active := false }

namespace Table

variable {m : Type → Type} {S E O : Type} {tree : StateTree}
  {transitions : List (Transition m S E O)}

/-! ### Records of a compiled table -/

/-- The record of the root before any run. -/
def rootRecord (transitions : List (Transition m S E O)) : StateRecord :=
  { recordOf transitions rootState none true with active := true }

/-- The record of a declared state before any run. -/
def declaredRecord (transitions : List (Transition m S E O)) (d : Declaration) : StateRecord :=
  recordOf transitions d.name (some d.parent) d.isGroup

theorem record?_compile (name : String) : (compile tree transitions).record? name
    = ((tree.declarations.reverse.find? fun d => d.name = name).map
        (declaredRecord transitions)).or
      (if name = rootState then some (rootRecord transitions) else none) := by
  rw [record?, compile, recordsOf]
  exact OrderedMap.find?_foldl_insert Declaration.name (declaredRecord transitions) _ _ _

theorem record?_compile_root (h : tree.Distinct) :
    (compile tree transitions).record? rootState = some (rootRecord transitions) := by
  have hnone : (tree.declarations.reverse.find? fun d => d.name = rootState) = none := by
    simp only [List.find?_eq_none, List.mem_reverse, decide_eq_true_eq]
    intro d hd he
    exact h.root_notMem (he ▸ List.mem_map_of_mem hd)
  rw [record?_compile, hnone, if_pos rfl]
  rfl

theorem record?_compile_of_mem (h : tree.Distinct) {d : Declaration} (hd : d ∈ tree.declarations) :
    (compile tree transitions).record? d.name = some (declaredRecord transitions d) := by
  have hfind : (tree.declarations.reverse.find? fun e => e.name = d.name) = some d := by
    obtain ⟨e, he⟩ : ∃ e, (tree.declarations.reverse.find? fun e => e.name = d.name) = some e :=
      Option.isSome_iff_exists.mp (List.find?_isSome.mpr ⟨d, by simp [hd]⟩)
    have hname : e.name = d.name := by simpa using List.find?_some he
    have hmem : e ∈ tree.declarations := List.mem_reverse.mp (List.mem_of_find?_eq_some he)
    rw [he, List.inj_on_of_nodup_map h.nodup hmem hd hname]
  rw [record?_compile, hfind]
  rfl

theorem record?_compile_eq_none {name : String} (hroot : name ≠ rootState)
    (hname : name ∉ tree.names) : (compile tree transitions).record? name = none := by
  have hnone : (tree.declarations.reverse.find? fun d => d.name = name) = none := by
    simp only [List.find?_eq_none, List.mem_reverse, decide_eq_true_eq]
    intro d hd he
    exact hname (he ▸ List.mem_map_of_mem hd)
  rw [record?_compile, hnone, if_neg hroot]
  rfl

/-- A compiled record carries the name under which it is found. -/
theorem name_of_record?_compile {name : String} {record : StateRecord}
    (h : (compile tree transitions).record? name = some record) : record.name = name := by
  rw [record?_compile, Option.or_eq_some_iff, Option.map_eq_some_iff] at h
  rcases h with ⟨d, hd, rfl⟩ | ⟨-, h⟩
  · simpa [declaredRecord, recordOf] using List.find?_some hd
  · split at h
    · next hname =>
      obtain rfl : rootRecord transitions = record := by simpa using h
      rw [hname]
      rfl
    · simp at h

/-- The table has a record for every declared state and one for the root. -/
theorem length_records_compile (h : tree.Distinct) :
    (compile tree transitions).records.length = tree.names.length + 1 := by
  rw [compile, recordsOf]
  refine (OrderedMap.length_foldl_insert Declaration.name (declaredRecord transitions) h.nodup
    fun d hd => ?_).trans ?_
  · have hne : d.name ≠ rootState := fun he => h.root_notMem (he ▸ List.mem_map_of_mem hd)
    rw [OrderedMap.find?_cons, if_neg hne, OrderedMap.find?_nil]
  · rw [StateTree.names, List.length_map, List.length_singleton, Nat.add_comm]

/-! ### Handlers of a compiled table -/

theorem find?_addHandler (handlers : OrderedMap (OrderedMap (List (Branch m S E O))))
    (t : Transition m S E O) (state event : String) :
    ((addHandler handlers t).find? state).bind (OrderedMap.find? · event)
      = if t.source = state ∧ t.eventName = event then
          some ((((handlers.find? state).bind (OrderedMap.find? · event)).getD []) ++ t.branches)
        else (handlers.find? state).bind (OrderedMap.find? · event) := by
  rw [addHandler, OrderedMap.find?_insert]
  by_cases hstate : state = t.source
  · subst hstate
    rw [if_pos rfl, Option.bind_some, OrderedMap.find?_insert]
    by_cases hevent : event = t.eventName
    · subst hevent
      cases handlers.find? t.source <;> simp
    · rw [if_neg hevent, if_neg fun h => hevent h.2.symm]
      cases handlers.find? t.source <;> simp
  · rw [if_neg hstate, if_neg fun h => hstate h.1.symm]

/-- The branches of a state for an event are those of its transitions for the event, in order. The
induction adds transitions at the end of the list, where `addHandler` adds branches. -/
theorem branches?_compile (state event : String) :
    (compile tree transitions).branches? state event
      = match transitions.filter fun t => t.source = state ∧ t.eventName = event with
        | [] => none
        | found => some (found.flatMap Transition.branches) := by
  rw [branches?, compile]
  induction transitions using List.reverseRecOn with
  | nil => rfl
  | append_singleton rest t ih =>
    rw [List.foldl_append, List.foldl_cons, List.foldl_nil, find?_addHandler, ih,
      List.filter_append, List.filter_singleton]
    by_cases h : t.source = state ∧ t.eventName = event
    · rw [if_pos h]
      cases rest.filter fun t => t.source = state ∧ t.eventName = event <;> simp [h]
    · simp [h]

/-- There are records for the root and the declared states, and no others. -/
theorem isSome_record?_compile (h : tree.Distinct) (name : String) :
    ((compile tree transitions).record? name).isSome = true
      ↔ name = rootState ∨ name ∈ tree.names := by
  constructor
  · intro hsome
    by_contra hnot
    obtain ⟨hroot, hname⟩ := not_or.mp hnot
    rw [record?_compile_eq_none hroot hname] at hsome
    cases hsome
  · rintro (rfl | hname)
    · rw [record?_compile_root h]
      rfl
    · obtain ⟨d, hd, rfl⟩ := List.mem_map.mp hname
      rw [record?_compile_of_mem h hd]
      rfl

/-! ### Shapes -/

/-- Two tables that differ at most in what happens at run time. -/
structure SameShape (T T' : Table m S E O) : Prop where
  handlers : T.handlers = T'.handlers
  length : T.records.length = T'.records.length
  shape : ∀ name, (T.record? name).map StateRecord.shape = (T'.record? name).map StateRecord.shape

namespace SameShape

variable {T T' T'' : Table m S E O}

theorem refl (T : Table m S E O) : SameShape T T := ⟨rfl, rfl, fun _ => rfl⟩

theorem trans (h : SameShape T T') (h' : SameShape T' T'') : SameShape T T'' :=
  ⟨h.handlers.trans h'.handlers, h.length.trans h'.length,
    fun name => (h.shape name).trans (h'.shape name)⟩

/-- What depends on the shape of a record only is the same. -/
theorem map_eq (h : SameShape T T') {α : Type} {f : StateRecord → α}
    (hf : ∀ record, f record.shape = f record) (name : String) :
    (T.record? name).map f = (T'.record? name).map f := by
  have hcomp : f = f ∘ StateRecord.shape := funext fun record => (hf record).symm
  rw [hcomp, ← Option.map_map, ← Option.map_map, h.shape]

theorem bind_eq (h : SameShape T T') {α : Type} {f : StateRecord → Option α}
    (hf : ∀ record, f record.shape = f record) (name : String) :
    (T.record? name).bind f = (T'.record? name).bind f := by
  have hjoin : ∀ o : Option StateRecord, o.bind f = (o.map f).join := by
    intro o
    cases o <;> rfl
  rw [hjoin, hjoin, h.map_eq hf]

theorem modify (T : Table m S E O) (name : String) {change : StateRecord → StateRecord}
    (hchange : ∀ record, (change record).shape = record.shape) :
    SameShape (T.modify name change) T := by
  refine ⟨rfl, OrderedMap.length_modify _ _ _, fun other => ?_⟩
  rw [record?_modify]
  split
  · rw [Option.map_map]
    congr 1
    exact funext hchange
  · rfl

theorem foldl_modify {change : String → StateRecord → StateRecord}
    (hchange : ∀ name record, (change name record).shape = record.shape) (names : List String)
    (T : Table m S E O) : SameShape (names.foldl (fun T n => T.modify n (change n)) T) T := by
  induction names generalizing T with
  | nil => exact refl T
  | cons n rest ih => exact (ih _).trans (modify T n (hchange n))

/-- If the records of one table carry the names under which they are found, so do those of the
other. -/
theorem name_of_record? (h : SameShape T T')
    (hnames : ∀ {name record}, T'.record? name = some record → record.name = name) {name : String}
    {record : StateRecord} (hrecord : T.record? name = some record) : record.name = name := by
  have hname := h.map_eq (f := StateRecord.name) (fun _ => rfl) name
  rw [hrecord, Option.map_some] at hname
  obtain ⟨other, hother, heq⟩ := Option.map_eq_some_iff.mp hname.symm
  rw [← heq, hnames hother]

/-- The way up is the same in tables of one shape. -/
theorem map_shape_climb (h : SameShape T T') (fuel : Nat) (name : String) :
    (T.climb fuel name).map StateRecord.shape = (T'.climb fuel name).map StateRecord.shape := by
  induction fuel generalizing name with
  | zero => rfl
  | succ fuel ih =>
    rw [climb, climb, h.bind_eq (f := StateRecord.parent) (fun _ => rfl) name]
    cases (T'.record? name).bind StateRecord.parent with
    | none => rfl
    | some parent =>
      simp only [Option.bind_some]
      have hshape := h.shape parent
      cases habove : T.record? parent with
      | none =>
        rw [habove, Option.map_none] at hshape
        rw [Option.map_eq_none_iff.mp hshape.symm]
      | some above =>
        rw [habove, Option.map_some] at hshape
        obtain ⟨above', habove', heq⟩ := Option.map_eq_some_iff.mp hshape.symm
        have hname : above'.name = above.name :=
          show above'.shape.name = above.shape.name from congrArg StateRecord.name heq
        rw [habove']
        simp only [List.map_cons, heq, hname, ih above.name]

theorem map_name_ancestors (h : SameShape T T') (name : String) :
    (T.ancestors name).map StateRecord.name = (T'.ancestors name).map StateRecord.name := by
  have hclimb := congrArg (List.map StateRecord.name) (h.map_shape_climb T'.records.length name)
  rw [List.map_map, List.map_map] at hclimb
  rw [ancestors, ancestors, h.length]
  exact hclimb

end SameShape

/-! ### Climbing -/

/-- The declaration of a name that has a place in the tree. -/
theorem exists_declaration {name : String} {groups : List String}
    (h : groupsAround? name tree = some groups) : ∃ d ∈ tree.declarations, d.name = name :=
  List.mem_map.mp (mem_namesOf_of_groupsAround? h)

/-- The link from a record to its parent is followed in one step of a climb. -/
theorem climb_succ {T : Table m S E O} {record above : StateRecord} {name parent : String}
    (h : T.record? name = some record) (hparent : record.parent = some parent)
    (habove : T.record? parent = some above) (fuel : Nat) :
    T.climb (fuel + 1) name = above :: T.climb fuel above.name := by
  rw [climb, h, Option.bind_some, hparent, Option.bind_some, habove]

theorem climb_root (h : tree.Distinct) (fuel : Nat) :
    (compile tree transitions).climb fuel rootState = [] := by
  cases fuel with
  | zero => rfl
  | succ fuel => rw [climb, record?_compile_root h]; rfl

/-- Climbing from a state passes the groups around it. The induction is on these groups. -/
theorem map_name_climb (h : tree.Distinct) {name : String} {groups : List String}
    (hname : groupsAround? name tree = some groups) {fuel : Nat} (hfuel : groups.length < fuel) :
    ((compile tree transitions).climb fuel name).map StateRecord.name
      = groups ++ [rootState] := by
  induction groups generalizing name fuel with
  | nil =>
    obtain ⟨d, hd, rfl⟩ := exists_declaration hname
    obtain ⟨fuel, rfl⟩ := Nat.exists_eq_succ_of_ne_zero (Nat.ne_of_gt hfuel)
    have hparent : d.parent = rootState := parent_of_groupsAround?_nil h.nodup hd hname
    rw [climb_succ (record?_compile_of_mem h hd) (congrArg some hparent) (record?_compile_root h)]
    exact congrArg (List.cons rootState) (congrArg (List.map StateRecord.name) (climb_root h fuel))
  | cons parent groups ih =>
    obtain ⟨d, hd, rfl⟩ := exists_declaration hname
    obtain ⟨fuel, rfl⟩ := Nat.exists_eq_succ_of_ne_zero (Nat.ne_of_gt (Nat.zero_lt_of_lt hfuel))
    have hparent := parent_of_groupsAround?_cons h.nodup hd hname
    obtain ⟨e, he, rfl⟩ := exists_declaration hparent.2
    have hless : groups.length < fuel := by simpa using hfuel
    have hrest := ih hparent.2 hless
    rw [climb_succ (record?_compile_of_mem h hd) (congrArg some hparent.1)
      (record?_compile_of_mem h he)]
    exact congrArg (List.cons e.name) hrest

/-- **The ancestors of a state are the rest of its lineage.** There are fewer groups around a state
than records, so the climb does not end too early. -/
theorem map_name_ancestors (h : tree.Distinct) (name : String) :
    ((compile tree transitions).ancestors name).map StateRecord.name
      = (tree.lineage name).tail := by
  rw [ancestors, length_records_compile h, StateTree.lineage]
  by_cases hroot : name = rootState
  · rw [if_pos hroot, hroot, climb_root h]
    rfl
  · rw [if_neg hroot]
    cases hgroups : groupsAround? name tree with
    | none =>
      have hmem : name ∉ tree.names := (groupsAround?_eq_none_iff name tree).mp hgroups
      rw [climb, record?_compile_eq_none hroot hmem]
      rfl
    | some groups =>
      exact map_name_climb h hgroups (Nat.lt_succ_of_lt (length_lt_of_groupsAround? hgroups))

/-! ### Leaving and entering -/

variable {T : Table m S E O}

/-- Marking several states changes their records and no others. -/
theorem record?_foldl_modify (names : List String) (seen other : String) (T : Table m S E O) :
    (names.foldl (fun table n => table.modify n fun record => { record with lastSeen := some seen })
      T).record? other
      = (T.record? other).map fun record =>
          if other ∈ names then { record with lastSeen := some seen } else record := by
  induction names generalizing T with
  | nil => simp
  | cons n rest ih =>
    rw [List.foldl_cons, ih, record?_modify]
    by_cases hn : other = n
    · subst hn
      cases T.record? other <;> simp
    · simp [hn]

/-- **What leaving a state changes**: who was seen last, in the state and in everything around it,
and that the state is active. -/
theorem record?_leave (T : Table m S E O) (name other : String) : (T.leave name).record? other
    = (T.record? other).map fun record =>
        { record with
          lastSeen :=
            if other ∈ name :: (T.ancestors name).map StateRecord.name then some name
            else record.lastSeen
          active := if other = name then false else record.active } := by
  simp only [leave, record?_modify, record?_foldl_modify]
  by_cases hname : other = name
  · subst hname
    simp only [if_true, List.mem_cons, true_or, Option.map_map]
    rfl
  · simp only [if_neg hname]
    congr 1
    funext record
    split <;> rfl

theorem SameShape.leave (T : Table m S E O) (name : String) : SameShape (T.leave name) T := by
  refine SameShape.trans (SameShape.modify _ name ?_) (SameShape.foldl_modify ?_ _ T)
  · exact fun _ => rfl
  · exact fun _ _ => rfl

theorem SameShape.activate (T : Table m S E O) (name : String) :
    SameShape (T.activate name) T :=
  SameShape.modify T name fun _ => rfl

/-- Before any run no state was seen. -/
theorem lastSeen_compile (name : String) :
    ((compile tree transitions).record? name).bind StateRecord.lastSeen = none := by
  rw [record?_compile]
  cases tree.declarations.reverse.find? fun d => d.name = name with
  | some d => rfl
  | none => by_cases h : name = rootState <;> simp [h, rootRecord, recordOf]

/-- Before any run the root is active and nothing else. -/
theorem active_of_record?_compile (h : tree.Distinct) {name : String} {record : StateRecord}
    (hrecord : (compile tree transitions).record? name = some record) :
    record.active = true ↔ name = rootState := by
  by_cases hroot : name = rootState
  · subst hroot
    rw [record?_compile_root h] at hrecord
    obtain rfl := Option.some.inj hrecord
    exact iff_of_true rfl rfl
  · by_cases hname : name ∈ tree.names
    · obtain ⟨d, hd, rfl⟩ := List.mem_map.mp hname
      rw [record?_compile_of_mem h hd] at hrecord
      obtain rfl := Option.some.inj hrecord
      exact iff_of_false Bool.false_ne_true hroot
    · rw [record?_compile_eq_none hroot hname] at hrecord
      cases hrecord

theorem lastSeen_leave (T : Table m S E O) (name other : String) :
    ((T.leave name).record? other).bind StateRecord.lastSeen
      = if other ∈ name :: (T.ancestors name).map StateRecord.name then
          (T.record? other).map fun _ => name
        else (T.record? other).bind StateRecord.lastSeen := by
  rw [record?_leave]
  cases T.record? other with
  | none => simp
  | some record => split <;> simp [*]

theorem lastSeen_activate (T : Table m S E O) (name other : String) :
    ((T.activate name).record? other).bind StateRecord.lastSeen
      = (T.record? other).bind StateRecord.lastSeen := by
  rw [activate, record?_modify]
  split
  · cases T.record? other <;> rfl
  · rfl

/-- After a state was left and another entered, the other is active and the first is not, unless
they are the same. -/
theorem active_activate_leave (T : Table m S E O) (source target name : String) :
    (((T.leave source).activate target).record? name).map StateRecord.active
      = (T.record? name).map fun record =>
          if name = target then true else if name = source then false else record.active := by
  rw [activate, record?_modify, record?_leave]
  by_cases htarget : name = target
  · rw [if_pos htarget, Option.map_map, Option.map_map]
    simp [htarget, Function.comp_def]
  · rw [if_neg htarget, Option.map_map]
    simp [htarget, Function.comp_def]

/-! ### All records -/

/-- The records of a table without what happens at run time. -/
def shapes (T : Table m S E O) : OrderedMap StateRecord :=
  T.records.map fun entry => (entry.1, entry.2.shape)

theorem shapes_modify (T : Table m S E O) (name : String) {change : StateRecord → StateRecord}
    (hchange : ∀ record, (change record).shape = record.shape) :
    (T.modify name change).shapes = T.shapes := by
  have hentries : ∀ entries : OrderedMap StateRecord,
      (entries.modify name change).map (fun entry => (entry.1, entry.2.shape))
        = entries.map fun entry => (entry.1, entry.2.shape) := by
    intro entries
    induction entries with
    | nil => rfl
    | cons entry rest ih =>
      by_cases hname : name = entry.1
      · simp [OrderedMap.modify, hname, hchange]
      · simp [OrderedMap.modify, hname, ih]
  exact hentries T.records

theorem shapes_foldl_modify {change : String → StateRecord → StateRecord}
    (hchange : ∀ name record, (change name record).shape = record.shape) (names : List String)
    (T : Table m S E O) : (names.foldl (fun T n => T.modify n (change n)) T).shapes = T.shapes := by
  induction names generalizing T with
  | nil => rfl
  | cons n rest ih => exact (ih _).trans (T.shapes_modify n (hchange n))

theorem shapes_leave (T : Table m S E O) (name : String) : (T.leave name).shapes = T.shapes := by
  refine (shapes_modify _ name ?_).trans (shapes_foldl_modify ?_ _ T)
  · exact fun _ => rfl
  · exact fun _ _ => rfl

theorem shapes_activate (T : Table m S E O) (name : String) :
    (T.activate name).shapes = T.shapes :=
  T.shapes_modify name fun _ => rfl

theorem sorted_shapes (T : Table m S E O) : T.shapes.Sorted ↔ T.records.Sorted := by
  simp [shapes, OrderedMap.Sorted, List.pairwise_map]

theorem sorted_records_compile (tree : StateTree) (transitions : List (Transition m S E O)) :
    (compile tree transitions).records.Sorted :=
  OrderedMap.Sorted.foldl_insert (List.pairwise_singleton _ _) Declaration.name
    (declaredRecord transitions) tree.declarations

end Table

end Reactive
