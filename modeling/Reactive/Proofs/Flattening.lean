import Reactive.Proofs.Compilation
import Reactive.Proofs.Members

/-!
# Trees are flattened faithfully

In a table every state has a record of its own, and a record knows by name what is directly around
its state. So the groups around a state are found by going from link to link, and whoever goes that
way stops where there is no link or where it leads to no record. Nothing in a table keeps such a
walk from going round in circles. That it ends, and that on its way it passes exactly the groups
around the state, from the inside out, and the root last, is due to the tree, in which no name is
declared twice.

The ancestors of a state are looked up with a bound, the number of records, and a state is left by
marking itself and its ancestors. Here both are compared with what goes from link to link and knows
no bound: `Ascends` is a walk that has ended, and `Marks` is one that marks what it passes.

## Main definitions

* `StateTree.Encloses` — the groups around a state, told by subtrees
* `Table.Becomes` — what becomes of a table while states are left and entered
* `Table.Ascends`, `Table.Marks` — walks from link to link
* `Table.Flattens` — what a table knows of a tree

## Main results

* `StateTree.encloses_of_groupsAround?`
* `Table.ascends_climb` — a climb that stops before its bound is the whole walk
* `Table.Ascends.marks`, `Table.leave_eq_markAll` — leaving a state is marking what is passed
* `Table.flattens_of_becomes` — **a table knows the tree it was compiled from**
-/

namespace Reactive

/-! ### The groups around a state -/

namespace StateTree

/-- These are the groups around a state, from the inside out. -/
structure Encloses (tree : StateTree) (groups : List String) (name : String) : Prop where
  /-- They are the states other than `name` in whose subtrees it lies. -/
  mem_iff : ∀ group, group ∈ groups ↔ group ≠ name ∧ name ∈ tree.inside group
  isGroup : ∀ group ∈ groups, tree.isGroup group = true
  /-- Each of them is around all that come before it. -/
  nested : groups.Pairwise fun inner outer => inner ≠ outer ∧ inner ∈ tree.inside outer

end StateTree

mutual

theorem StateNode.declaresGroup_of_mem_groupsAround? {name group : String} : ∀ {node : StateNode}
    {groups : List String}, node.groupsAround? name = some groups → group ∈ groups →
      node.declaresGroup group = true
  | .leaf own, groups, h, hmem => by
    rw [StateNode.groupsAround?] at h
    split at h
    · obtain rfl := Option.some.inj h
      cases hmem
    · cases h
  | .group own children, groups, h, hmem => by
    rw [StateNode.groupsAround?] at h
    rw [StateNode.declaresGroup, Bool.or_eq_true, decide_eq_true_eq]
    split at h
    · obtain rfl := Option.some.inj h
      cases hmem
    · obtain ⟨inner, hinner, rfl⟩ := Option.map_eq_some_iff.mp h
      rcases List.mem_append.mp hmem with hin | hown
      · exact .inr (declaresGroup_of_mem_groupsAround? hinner hin)
      · exact .inl (List.mem_singleton.mp hown).symm

/-- What is around a name is declared as a group. -/
theorem declaresGroup_of_mem_groupsAround? {name group : String} : ∀ {nodes : List StateNode}
    {groups : List String}, groupsAround? name nodes = some groups → group ∈ groups →
      declaresGroup group nodes = true
  | [], _, h, _ => by simp [groupsAround?] at h
  | node :: rest, groups, h, hmem => by
    rw [groupsAround?] at h
    rw [declaresGroup, Bool.or_eq_true]
    cases hnode : node.groupsAround? name with
    | some inner =>
      rw [hnode] at h
      obtain rfl : inner = groups := Option.some.inj h
      exact .inl (node.declaresGroup_of_mem_groupsAround? hnode hmem)
    | none =>
      rw [hnode] at h
      exact .inr (declaresGroup_of_mem_groupsAround? h hmem)

end

/-- No state is around itself. -/
theorem notMem_of_groupsAround? {name : String} {nodes : List StateNode} {groups : List String}
    (hnodup : (namesOf nodes).Nodup) (h : groupsAround? name nodes = some groups) :
    name ∉ groups := by
  intro hmem
  obtain ⟨above, habove, hsuffix⟩ := suffix_of_mem_groupsAround? hnodup h hmem
  obtain rfl : groups = above := Option.some.inj (h.symm.trans habove)
  exact absurd hsuffix.length_le (Nat.not_succ_le_self groups.length)

namespace StateTree

variable {tree : StateTree}

/-- The groups around a state are nested. The induction is on these groups, the innermost of which
has the others around it. -/
theorem nested_of_groupsAround? (h : tree.Distinct) {name : String} {groups : List String}
    (hname : groupsAround? name tree = some groups) :
    groups.Pairwise fun inner outer => inner ≠ outer ∧ inner ∈ tree.inside outer := by
  induction groups generalizing name with
  | nil => exact .nil
  | cons parent rest ih =>
    obtain ⟨d, hd, rfl⟩ := List.mem_map.mp (mem_namesOf_of_groupsAround? hname)
    obtain ⟨-, hparent⟩ := parent_of_groupsAround?_cons h.nodup hd hname
    refine List.pairwise_cons.mpr ⟨fun outer houter => ⟨?_, ?_⟩, ih hparent⟩
    · rintro rfl
      exact notMem_of_groupsAround? h.nodup hparent houter
    · exact (mem_insideOf_iff h.nodup).mpr ⟨rest, hparent, List.mem_cons_of_mem _ houter⟩

/-- No state is twice in what it lies in. -/
theorem nodup_lineage (h : tree.Distinct) (name : String) : (tree.lineage name).Nodup := by
  by_cases hroot : name = rootState
  · rw [hroot, lineage_root]
    exact List.nodup_singleton _
  · cases hgroups : groupsAround? name tree with
    | none =>
      rw [lineage_eq_nil hroot ((groupsAround?_eq_none_iff name tree).mp hgroups)]
      exact List.nodup_nil
    | some groups =>
      have hgroups_nodup : groups.Nodup :=
        (nested_of_groupsAround? h hgroups).imp fun hnested => hnested.1
      have hroot_notMem : rootState ∉ groups := fun hmem =>
        h.root_notMem (subset_of_groupsAround? hgroups hmem)
      rw [lineage_of_groupsAround? hroot hgroups, List.nodup_cons, List.mem_append,
        List.mem_singleton]
      refine ⟨not_or.mpr ⟨notMem_of_groupsAround? h.nodup hgroups, hroot⟩, ?_⟩
      exact hgroups_nodup.append (List.nodup_singleton _)
        (List.disjoint_singleton.mpr hroot_notMem)

/-- **The groups around a state, from the outside in and from the inside out.** -/
theorem encloses_of_groupsAround? (h : tree.Distinct) {name : String} {groups : List String}
    (hname : groupsAround? name tree = some groups) : tree.Encloses groups name where
  mem_iff group := by
    have hinside : name ∈ tree.inside group ↔ group ∈ name :: groups := by
      rw [inside, mem_insideOf_iff h.nodup, hname]
      simp
    rw [hinside, List.mem_cons]
    constructor
    · rintro hmem
      exact ⟨fun he => notMem_of_groupsAround? h.nodup hname (he ▸ hmem), .inr hmem⟩
    · rintro ⟨hne, hmem⟩
      exact hmem.resolve_left hne
  isGroup _ hmem := declaresGroup_of_mem_groupsAround? hname hmem
  nested := nested_of_groupsAround? h hname

end StateTree

namespace Table

variable {m : Type → Type} {S E O : Type} {tree : StateTree}
  {transitions : List (Transition m S E O)} {T T' : Table m S E O}

/-! ### Tables at run time -/

/-- What becomes of a table while states are left and entered. -/
inductive Becomes (T : Table m S E O) : Table m S E O → Prop
  | refl : Becomes T T
  | leave {T' : Table m S E O} (before : Becomes T T') (name : String) :
      Becomes T (T'.leave name)
  | activate {T' : Table m S E O} (before : Becomes T T') (name : String) :
      Becomes T (T'.activate name)

theorem Becomes.sameShape (h : Becomes T T') : SameShape T' T := by
  induction h with
  | refl => exact .refl T
  | leave _ name ih => exact (SameShape.leave _ name).trans ih
  | activate _ name ih => exact (SameShape.activate _ name).trans ih

theorem Becomes.shapes_eq (h : Becomes T T') : T'.shapes = T.shapes := by
  induction h with
  | refl => rfl
  | leave _ name ih => exact (shapes_leave _ name).trans ih
  | activate _ name ih => exact (shapes_activate _ name).trans ih

theorem Becomes.sorted (h : Becomes (compile tree transitions) T) : T.records.Sorted := by
  rw [← sorted_shapes, h.shapes_eq, sorted_shapes]
  exact sorted_records_compile tree transitions

theorem Becomes.name_of_record? (h : Becomes (compile tree transitions) T) {name : String}
    {record : StateRecord} (hrecord : T.record? name = some record) : record.name = name :=
  h.sameShape.name_of_record? name_of_record?_compile hrecord

/-! ### Walks that have ended -/

/-- A walk from link to link that has passed some records, and has ended. It begins with a link. -/
inductive Ascends (T : Table m S E O) : Option String → List StateRecord → Prop
  /-- There is no link. -/
  | top : Ascends T none []
  /-- The link leads to no record. -/
  | lost {name : String} (missing : T.record? name = none) : Ascends T (some name) []
  /-- A record is passed, and its link is next. -/
  | up {name : String} {record : StateRecord} {walk : List StateRecord}
      (found : T.record? name = some record) (rest : Ascends T record.parent walk) :
      Ascends T (some name) (record :: walk)

/-- From a link there is one walk at most. -/
theorem Ascends.unique {link : Option String} {walk other : List StateRecord}
    (h : T.Ascends link walk) (h' : T.Ascends link other) : walk = other := by
  induction h generalizing other with
  | top =>
    cases h'
    rfl
  | lost missing =>
    cases h' with
    | lost _ => rfl
    | up found _ => cases found.symm.trans missing
  | up found _ ih =>
    cases h' with
    | lost missing => cases found.symm.trans missing
    | up found' rest' =>
      obtain rfl := Option.some.inj (found.symm.trans found')
      rw [ih rest']

/-- **A climb that stops before its bound is the whole walk.** -/
theorem ascends_climb
    (hnames : ∀ {name record}, T.record? name = some record → record.name = name)
    {fuel : Nat} {name : String} (h : (T.climb fuel name).length < fuel) :
    T.Ascends ((T.record? name).bind StateRecord.parent) (T.climb fuel name) := by
  induction fuel generalizing name with
  | zero => exact absurd h (Nat.not_lt_zero _)
  | succ fuel ih =>
    rw [climb] at h ⊢
    cases hlink : (T.record? name).bind StateRecord.parent with
    | none => exact .top
    | some link =>
      rw [hlink, Option.bind_some] at h
      rw [Option.bind_some]
      cases habove : T.record? link with
      | none => exact .lost habove
      | some above =>
        rw [habove] at h
        have hself : T.record? above.name = some above := by rw [hnames habove, habove]
        have hrest := ih (Nat.lt_of_succ_lt_succ h)
        rw [hself, Option.bind_some] at hrest
        exact .up habove hrest

/-! ### Walks that mark -/

/-- What a walk that leaves `seen` makes of the record that it passes as `name`. -/
def marked (seen name : String) (record : StateRecord) : StateRecord :=
  { record with
    lastSeen := some seen
    active := if name = seen then false else record.active }

/-- A walk that leaves `seen`, marks every record that it passes, and has ended with a table. -/
inductive Marks (seen : String) : Option String → Table m S E O → Table m S E O → Prop
  /-- There is no link. -/
  | top (T : Table m S E O) : Marks seen none T T
  /-- The link leads to no record. -/
  | lost {name : String} {T : Table m S E O} (missing : T.record? name = none) :
      Marks seen (some name) T T
  /-- A record is marked, and its link is next. -/
  | mark {name : String} {record : StateRecord} {T T' : Table m S E O}
      (found : T.record? name = some record)
      (rest : Marks seen record.parent (T.modify name (marked seen name)) T') :
      Marks seen (some name) T T'

/-- A walk that marks ends with one table at most. -/
theorem Marks.unique {seen : String} {link : Option String} {T₁ T₂ : Table m S E O}
    (h : Marks seen link T T₁) (h' : Marks seen link T T₂) : T₁ = T₂ := by
  induction h with
  | top =>
    cases h'
    rfl
  | lost missing =>
    cases h' with
    | lost _ => rfl
    | mark found _ => cases found.symm.trans missing
  | mark found _ ih =>
    cases h' with
    | lost missing => cases found.symm.trans missing
    | mark found' rest' =>
      obtain rfl := Option.some.inj (found.symm.trans found')
      exact ih rest'

/-- Marks every record under one of these names. -/
def markAll (seen : String) (names : List String) (T : Table m S E O) : Table m S E O :=
  names.foldl (fun T name => T.modify name (marked seen name)) T

/-- A walk passes the same records while it marks them, since it leaves the links alone. The
induction is on the walk, and `T'` is what it has made of the table so far. -/
theorem Ascends.marks
    (hnames : ∀ {name record}, T.record? name = some record → record.name = name) {seen : String}
    {link : Option String} {walk : List StateRecord} (h : T.Ascends link walk)
    (hlinks : ∀ name, (T'.record? name).map StateRecord.parent
      = (T.record? name).map StateRecord.parent) :
    Marks seen link T' (markAll seen (walk.map StateRecord.name) T') := by
  induction h generalizing T' with
  | top => exact .top T'
  | @lost name missing =>
    have hlink := hlinks name
    rw [missing, Option.map_none, Option.map_eq_none_iff] at hlink
    exact .lost hlink
  | @up name record walk found _ ih =>
    have hlink := hlinks name
    rw [found, Option.map_some] at hlink
    obtain ⟨passed, hpassed, hparent⟩ := Option.map_eq_some_iff.mp hlink
    refine .mark hpassed ?_
    rw [hparent, List.map_cons, hnames found]
    refine ih fun other => ?_
    rw [← hlinks other, record?_modify]
    split
    · rw [Option.map_map]
      rfl
    · rfl

theorem shape_marked (seen name : String) (record : StateRecord) :
    (marked seen name record).shape = record.shape := rfl

theorem sameShape_markAll (seen : String) (names : List String) (T : Table m S E O) :
    SameShape (markAll seen names T) T :=
  SameShape.foldl_modify (shape_marked seen) names T

theorem shapes_markAll (seen : String) (names : List String) (T : Table m S E O) :
    (markAll seen names T).shapes = T.shapes :=
  shapes_foldl_modify (shape_marked seen) names T

/-- Marking records changes them and no others. -/
theorem record?_markAll (seen : String) (names : List String) (T : Table m S E O)
    (other : String) : (markAll seen names T).record? other
      = (T.record? other).map fun record =>
          if other ∈ names then marked seen other record else record := by
  induction names generalizing T with
  | nil => simp [markAll]
  | cons name rest ih =>
    have hrest := ih (T.modify name (marked seen name))
    rw [markAll, List.foldl_cons, ← markAll, hrest, record?_modify]
    by_cases hname : other = name
    · subst hname
      rw [if_pos rfl, Option.map_map]
      congr 1
      funext record
      simp [marked]
    · simp [hname]

/-- Tables with the same handlers and the same records are the same. -/
theorem eq_of_record?_eq (hhandlers : T.handlers = T'.handlers) (hsorted : T.records.Sorted)
    (hsorted' : T'.records.Sorted) (hrecord : ∀ name, T.record? name = T'.record? name) :
    T = T' := by
  obtain ⟨records, handlers⟩ := T
  obtain ⟨records', handlers'⟩ := T'
  obtain rfl : handlers = handlers' := hhandlers
  obtain rfl : records = records' := hsorted.ext hsorted' hrecord
  rfl

theorem sorted_leave (hsorted : T.records.Sorted) (name : String) :
    (T.leave name).records.Sorted := by
  rwa [← sorted_shapes, shapes_leave, sorted_shapes]

/-- **Leaving a state is marking it and its ancestors.** -/
theorem leave_eq_markAll (hsorted : T.records.Sorted) (name : String) :
    T.leave name = markAll name (name :: (T.ancestors name).map StateRecord.name) T := by
  refine eq_of_record?_eq ?_ (sorted_leave hsorted name) ?_ fun other => ?_
  · exact (SameShape.leave T name).handlers.trans (sameShape_markAll _ _ T).handlers.symm
  · rwa [← sorted_shapes, shapes_markAll, sorted_shapes]
  · rw [record?_leave, record?_markAll]
    congr 1
    funext record
    by_cases hname : other = name
    · simp [marked, hname]
    · by_cases hmem : other ∈ name :: (T.ancestors name).map StateRecord.name
      · rw [if_pos hmem, if_pos hmem, if_neg hname, marked, if_neg hname]
      · rw [if_neg hmem, if_neg hmem, if_neg hname]

/-! ### What a table knows of a tree -/

theorem map_name_ancestors_of_becomes (h : tree.Distinct) (hT : Becomes (compile tree transitions) T)
    (name : String) : (T.ancestors name).map StateRecord.name = (tree.lineage name).tail :=
  (hT.sameShape.map_name_ancestors name).trans (map_name_ancestors h name)

/-- A record differs from the compiled one in what happens at run time only. -/
theorem Becomes.exists_record (hT : Becomes (compile tree transitions) T) {name : String}
    {compiled : StateRecord} (hcompiled : (compile tree transitions).record? name = some compiled) :
    ∃ record, T.record? name = some record ∧ record.shape = compiled.shape := by
  have hshape := hT.sameShape.shape name
  rw [hcompiled, Option.map_some] at hshape
  exact Option.map_eq_some_iff.mp hshape

/-- The ancestors of a state are fewer than the records, so they are all that a walk passes. -/
theorem ascends_ancestors (h : tree.Distinct) (hT : Becomes (compile tree transitions) T)
    (name : String) :
    T.Ascends ((T.record? name).bind StateRecord.parent) (T.ancestors name) := by
  refine ascends_climb hT.name_of_record? ?_
  calc (T.ancestors name).length
      = ((T.ancestors name).map StateRecord.name).length := (List.length_map _).symm
    _ = tree.level name := by rw [map_name_ancestors_of_becomes h hT, StateTree.level]
    _ < tree.names.length + 1 := Nat.lt_succ_of_le
        ((tree.level_le_levels name).trans (levelsOf_le_length_namesOf tree))
    _ = T.records.length := by rw [hT.sameShape.length, length_records_compile h]

/-- **What a table knows of a tree.** -/
structure Flattens (tree : StateTree) (T : Table m S E O) : Prop where
  /-- There is one record for every declared state, one for the root, and no other. -/
  nodup : (rootState :: tree.names).Nodup
  keys_perm : (OrderedMap.keys T.records).Perm (rootState :: tree.names)
  root : ∃ record, T.record? rootState = some record ∧ record.name = rootState ∧
    record.parent = none ∧ record.isGroup = true ∧ T.ancestors rootState = []
  /-- A declared state is linked to the innermost of the groups around it, or to the root if there
  is none. Its ancestors are these groups, from the inside out, and the root. -/
  declared : ∀ name ∈ tree.names, ∃ groups record, tree.Encloses groups name ∧
    T.record? name = some record ∧ record.name = name ∧
    record.parent = some (groups.headD rootState) ∧ record.isGroup = tree.isGroup name ∧
    (T.ancestors name).map StateRecord.name = groups ++ [rootState]
  /-- The links from a state never lead back to a state that was passed. -/
  acyclic : ∀ name, (name :: (T.ancestors name).map StateRecord.name).Nodup
  /-- Whoever follows the links from a state comes to an end, and has passed its ancestors. -/
  ascends_iff : ∀ name walk,
    T.Ascends ((T.record? name).bind StateRecord.parent) walk ↔ walk = T.ancestors name
  /-- Whoever marks what is passed on the way comes to an end too, and has left the state. -/
  marks_iff : ∀ name T', Marks name (some name) T T' ↔ T' = T.leave name
  /-- Leaving a state is remembered in its own record and in those of its ancestors, and in no
  other, and the state is active no more. Nothing else changes. -/
  handlers_leave : ∀ name, (T.leave name).handlers = T.handlers
  record?_leave : ∀ name other, (T.leave name).record? other
    = (T.record? other).map fun record =>
        { record with
          lastSeen :=
            if other = name ∨ other ∈ (T.ancestors name).map StateRecord.name then some name
            else record.lastSeen
          active := if other = name then false else record.active }

/-- The record of a declared state, and its ancestors. -/
theorem exists_record_of_becomes (h : tree.Distinct) (hT : Becomes (compile tree transitions) T)
    {name : String} (hname : name ∈ tree.names) : ∃ groups record, tree.Encloses groups name ∧
      T.record? name = some record ∧ record.name = name ∧
      record.parent = some (groups.headD rootState) ∧ record.isGroup = tree.isGroup name ∧
      (T.ancestors name).map StateRecord.name = groups ++ [rootState] := by
  obtain ⟨d, hd, rfl⟩ := List.mem_map.mp hname
  obtain ⟨groups, hgroups⟩ := Option.ne_none_iff_exists'.mp fun hnone =>
    (groupsAround?_eq_none_iff d.name tree).mp hnone hname
  obtain ⟨record, hrecord, hshape⟩ := hT.exists_record (record?_compile_of_mem h hd)
  have hparent : d.parent = groups.headD rootState := by
    cases groups with
    | nil => exact parent_of_groupsAround?_nil h.nodup hd hgroups
    | cons parent rest => exact (parent_of_groupsAround?_cons h.nodup hd hgroups).1
  refine ⟨groups, record, StateTree.encloses_of_groupsAround? h hgroups, hrecord,
    hT.name_of_record? hrecord, ?_, ?_, ?_⟩
  · rw [← hparent]
    exact congrArg StateRecord.parent hshape
  · rw [StateTree.isGroup, declaresGroup_of_mem h.nodup hd]
    exact congrArg StateRecord.isGroup hshape
  · rw [map_name_ancestors_of_becomes h hT,
      StateTree.lineage_of_groupsAround? (h.ne_root hname) hgroups, List.tail_cons]

/-- Where there is no record, nothing is left. -/
theorem leave_of_record?_eq_none (hsorted : T.records.Sorted) {name : String}
    (hrecord : T.record? name = none) : T.leave name = T := by
  have hancestors : T.ancestors name = [] := by
    rw [ancestors]
    cases T.records.length with
    | zero => rfl
    | succ fuel => rw [climb, hrecord, Option.bind_none, Option.bind_none]
  refine eq_of_record?_eq (SameShape.leave T name).handlers (sorted_leave hsorted name) hsorted
    fun other => ?_
  rw [record?_leave, hancestors, List.map_nil]
  by_cases hother : other = name
  · rw [hother, hrecord, Option.map_none]
  · simp [hother]

/-- Whoever marks a state and what is above it has left the state. -/
theorem marks_leave (h : tree.Distinct) (hT : Becomes (compile tree transitions) T)
    (name : String) : Marks name (some name) T (T.leave name) := by
  cases hrecord : T.record? name with
  | none =>
    rw [leave_of_record?_eq_none hT.sorted hrecord]
    exact .lost hrecord
  | some record =>
    have hwalk := ascends_ancestors h hT name
    rw [hrecord, Option.bind_some] at hwalk
    have hmarks : Marks name (some name) T
        (markAll name ((record :: T.ancestors name).map StateRecord.name) T) :=
      (Ascends.up hrecord hwalk).marks hT.name_of_record? fun _ => rfl
    rwa [List.map_cons, hT.name_of_record? hrecord, ← leave_eq_markAll hT.sorted] at hmarks

theorem keys_perm_of_becomes (h : tree.Distinct) (hT : Becomes (compile tree transitions) T) :
    (OrderedMap.keys T.records).Perm (rootState :: tree.names) := by
  have hkeys : (OrderedMap.keys T.records).Nodup :=
    (OrderedMap.sorted_iff_keys.mp hT.sorted).imp fun hlt => String.ne_of_lt hlt
  refine (List.perm_ext_iff_of_nodup hkeys
    (List.nodup_cons.mpr ⟨h.root_notMem, h.nodup⟩)).mpr fun name => ?_
  have hsome : (T.record? name).isSome = ((compile tree transitions).record? name).isSome := by
    simpa using congrArg Option.isSome (hT.sameShape.shape name)
  rw [← OrderedMap.isSome_find?_iff, List.mem_cons, ← isSome_record?_compile h, ← hsome, record?]

theorem root_of_becomes (h : tree.Distinct) (hT : Becomes (compile tree transitions) T) :
    ∃ record, T.record? rootState = some record ∧ record.name = rootState ∧
      record.parent = none ∧ record.isGroup = true ∧ T.ancestors rootState = [] := by
  obtain ⟨record, hrecord, hshape⟩ := hT.exists_record (record?_compile_root h)
  refine ⟨record, hrecord, hT.name_of_record? hrecord, congrArg StateRecord.parent hshape,
    congrArg StateRecord.isGroup hshape, ?_⟩
  rw [← List.map_eq_nil_iff, map_name_ancestors_of_becomes h hT, StateTree.lineage_root,
    List.tail_cons]

theorem nodup_cons_ancestors (h : tree.Distinct) (hT : Becomes (compile tree transitions) T)
    (name : String) : (name :: (T.ancestors name).map StateRecord.name).Nodup := by
  rw [map_name_ancestors_of_becomes h hT]
  by_cases hname : name = rootState ∨ name ∈ tree.names
  · rw [StateTree.cons_tail_lineage hname]
    exact StateTree.nodup_lineage h name
  · obtain ⟨hroot, hnot⟩ := not_or.mp hname
    rw [StateTree.lineage_eq_nil hroot hnot]
    exact List.nodup_singleton name

/-- **A table knows the tree it was compiled from**, however many states were left and entered. -/
theorem flattens_of_becomes (hvalid : Definition.nameProblems [] tree.declarations = [])
    (hT : Becomes (compile tree transitions) T) : Flattens tree T := by
  obtain ⟨hroot, hnodup, -⟩ := (Definition.nameProblems_eq_nil_iff List.nodup_nil).mp hvalid
  have h : tree.Distinct := ⟨hnodup, hroot⟩
  constructor
  case nodup => exact List.nodup_cons.mpr ⟨hroot, hnodup⟩
  case keys_perm => exact keys_perm_of_becomes h hT
  case root => exact root_of_becomes h hT
  case declared => exact fun name hname => exists_record_of_becomes h hT hname
  case acyclic => exact nodup_cons_ancestors h hT
  case ascends_iff =>
    intro name walk
    have hwalk := ascends_ancestors h hT name
    exact ⟨fun hother => hother.unique hwalk, fun heq => heq ▸ hwalk⟩
  case marks_iff =>
    intro name T'
    have hmarks := marks_leave h hT name
    exact ⟨fun hother => hother.unique hmarks, fun heq => heq ▸ hmarks⟩
  case handlers_leave => exact fun name => (SameShape.leave T name).handlers
  case record?_leave =>
    intro name other
    simp only [Table.record?_leave, List.mem_cons]

/-- A group that holds a group that holds a state, and a state beside them. -/
def nestedTree : StateTree :=
  [.group "outer" [.group "inner" [.leaf "deep"], .leaf "flat"], .leaf "single"]

/-- The table of the nested tree, after its deepest state was entered and left for another. -/
theorem flattens_nestedTree : Definition.nameProblems [] nestedTree.declarations = [] ∧
    Flattens nestedTree ((((compile nestedTree ([] : List (Transition Id Nat Nat Nat))).activate
      "deep").leave "deep").activate "single") := by
  have hvalid : Definition.nameProblems [] nestedTree.declarations = [] := by decide
  exact ⟨hvalid, flattens_of_becomes hvalid (((Becomes.refl.activate "deep").leave "deep").activate
    "single")⟩

end Table

end Reactive
