import Mathlib
import Reactive.Definition

/-!
# Lineages

Where a state lies, read off the nested tree: in itself, in the groups around it from the inside
out, and in the root. A name that is not declared lies nowhere.

The rest of the library sees a tree through its flat list of declarations, in which each state
names the group directly around it. If no name is declared twice the two views agree: going from a
declaration to its parent is dropping the head of the lineage.

## Main definitions

* `groupsAround?` — the groups around a name, the innermost first
* `StateTree.lineage`
* `declaresGroup`, `StateTree.isGroup` — is a name declared as a group?
* `StateTree.Distinct` — what validation promises about the names

## Main results

* `groupsAround?_eq_none_iff` — lineages exist for the declared names and no others
* `groupsAround?_of_mem` — the parent in a declaration is the next one on the lineage
* `declaresGroup_of_mem` — the declarations tell groups from leaves as the tree does
* `nameProblems_eq_nil_iff` — a tree without problems has distinct names
-/

namespace Reactive

mutual

/-- The groups around a name inside a state, the innermost first, if the name is declared there. -/
def StateNode.groupsAround? (name : String) : StateNode → Option (List String)
  | .leaf own => if own = name then some [] else none
  | .group own children =>
    if own = name then some [] else (Reactive.groupsAround? name children).map (· ++ [own])

/-- The groups around a name inside the states of one level. -/
def groupsAround? (name : String) : List StateNode → Option (List String)
  | [] => none
  | node :: rest =>
    match node.groupsAround? name with
    | some groups => some groups
    | none => groupsAround? name rest

end

mutual

/-- Is a name declared as a group inside a state? -/
def StateNode.declaresGroup (name : String) : StateNode → Bool
  | .leaf _ => false
  | .group own children => own = name || Reactive.declaresGroup name children

/-- Is a name declared as a group inside the states of one level? -/
def declaresGroup (name : String) : List StateNode → Bool
  | [] => false
  | node :: rest => node.declaresGroup name || declaresGroup name rest

end

namespace StateTree

/-- Where a state lies: in itself, in the groups around it from the inside out, and in the root. A
name that is not declared lies nowhere. -/
def lineage (tree : StateTree) (name : String) : List String :=
  if name = rootState then [rootState]
  else
    match groupsAround? name tree with
    | some groups => name :: (groups ++ [rootState])
    | none => []

/-- Is the name declared as a group? -/
def isGroup (tree : StateTree) (name : String) : Bool := declaresGroup name tree

/-- No name is declared twice, and none is the name of the root. -/
structure Distinct (tree : StateTree) : Prop where
  nodup : tree.names.Nodup
  root_notMem : rootState ∉ tree.names

theorem Distinct.ne_root {tree : StateTree} (h : tree.Distinct) {name : String}
    (hname : name ∈ tree.names) : name ≠ rootState :=
  fun he => h.root_notMem (he ▸ hname)

end StateTree

/-- The names declared at one level and below. -/
def namesOf (nodes : List StateNode) : List String :=
  (declarationsUnder rootState nodes).map Declaration.name

/-! ### Names do not depend on the parent -/

mutual

theorem StateNode.map_name_declarations (p q : String) : ∀ node : StateNode,
    (node.declarations p).map Declaration.name = (node.declarations q).map Declaration.name
  | .leaf _ => rfl
  | .group _ _ => rfl

theorem map_name_declarationsUnder (p q : String) : ∀ nodes : List StateNode,
    (declarationsUnder p nodes).map Declaration.name
      = (declarationsUnder q nodes).map Declaration.name
  | [] => rfl
  | node :: rest => by
    rw [declarationsUnder, declarationsUnder, List.map_append, List.map_append,
      node.map_name_declarations p q, map_name_declarationsUnder p q rest]

end

/-- The names declared by one state. -/
def StateNode.names (node : StateNode) : List String :=
  (node.declarations rootState).map Declaration.name

theorem map_name_eq_namesOf (p : String) (nodes : List StateNode) :
    (declarationsUnder p nodes).map Declaration.name = namesOf nodes :=
  map_name_declarationsUnder p rootState nodes

@[simp] theorem namesOf_nil : namesOf [] = [] := rfl

@[simp] theorem namesOf_cons (node : StateNode) (rest : List StateNode) :
    namesOf (node :: rest) = node.names ++ namesOf rest := by
  rw [namesOf, declarationsUnder, List.map_append]
  rfl

@[simp] theorem StateNode.names_leaf (own : String) : (StateNode.leaf own).names = [own] := by
  simp [StateNode.names, StateNode.declarations]

@[simp] theorem StateNode.names_group (own : String) (children : List StateNode) :
    (StateNode.group own children).names = own :: namesOf children := by
  rw [StateNode.names, StateNode.declarations, List.map_cons, map_name_eq_namesOf]

theorem name_mem_of_mem {p : String} {nodes : List StateNode} {d : Declaration}
    (h : d ∈ declarationsUnder p nodes) : d.name ∈ namesOf nodes := by
  rw [← map_name_eq_namesOf p]
  exact List.mem_map_of_mem h

/-! ### Lineages of declared names -/

mutual

theorem StateNode.groupsAround?_eq_none_iff (name : String) : ∀ node : StateNode,
    node.groupsAround? name = none ↔ name ∉ node.names
  | .leaf own => by
    by_cases h : own = name
    · simp [StateNode.groupsAround?, h]
    · simp [StateNode.groupsAround?, h, Ne.symm h]
  | .group own children => by
    by_cases h : own = name
    · simp [StateNode.groupsAround?, h]
    · simp [StateNode.groupsAround?, h, Ne.symm h, groupsAround?_eq_none_iff name children]

/-- A name has a place in the tree if and only if it is declared. -/
theorem groupsAround?_eq_none_iff (name : String) : ∀ nodes : List StateNode,
    groupsAround? name nodes = none ↔ name ∉ namesOf nodes
  | [] => by simp [groupsAround?]
  | node :: rest => by
    rw [groupsAround?, namesOf_cons, List.mem_append, not_or,
      ← node.groupsAround?_eq_none_iff name, ← groupsAround?_eq_none_iff name rest]
    cases node.groupsAround? name <;> simp

end

theorem mem_namesOf_of_groupsAround? {name : String} {nodes : List StateNode}
    {groups : List String} (h : groupsAround? name nodes = some groups) :
    name ∈ namesOf nodes := by
  by_contra hmem
  rw [(groupsAround?_eq_none_iff name nodes).mpr hmem] at h
  cases h

mutual

theorem StateNode.subset_of_groupsAround? {name : String} : ∀ {node : StateNode}
    {groups : List String}, node.groupsAround? name = some groups → groups ⊆ node.names
  | .leaf own, groups, h => by
    by_cases hown : own = name
    · obtain rfl : groups = [] := by simpa [StateNode.groupsAround?, hown] using h.symm
      exact List.nil_subset _
    · simp [StateNode.groupsAround?, hown] at h
  | .group own children, groups, h => by
    by_cases hown : own = name
    · obtain rfl : groups = [] := by simpa [StateNode.groupsAround?, hown] using h.symm
      exact List.nil_subset _
    · simp only [StateNode.groupsAround?, if_neg hown, Option.map_eq_some_iff] at h
      obtain ⟨inner, hinner, rfl⟩ := h
      intro g hg
      rcases List.mem_append.mp hg with hg | hg
      · simp [subset_of_groupsAround? hinner hg]
      · simp [List.mem_singleton.mp hg]

/-- The groups around a name are declared. -/
theorem subset_of_groupsAround? {name : String} : ∀ {nodes : List StateNode}
    {groups : List String}, groupsAround? name nodes = some groups → groups ⊆ namesOf nodes
  | [], _, h => by simp [groupsAround?] at h
  | node :: rest, groups, h => by
    rw [namesOf_cons]
    rw [groupsAround?] at h
    cases hnode : node.groupsAround? name with
    | some inner =>
      rw [hnode] at h
      obtain rfl : inner = groups := by simpa using h
      exact List.subset_append_of_subset_left _ (node.subset_of_groupsAround? hnode)
    | none =>
      rw [hnode] at h
      exact List.subset_append_of_subset_right _ (subset_of_groupsAround? h)

end

namespace StateTree

@[simp] theorem lineage_root (tree : StateTree) : tree.lineage rootState = [rootState] := by
  rw [lineage, if_pos rfl]

theorem lineage_of_groupsAround? {tree : StateTree} {name : String} {groups : List String}
    (hne : name ≠ rootState) (h : groupsAround? name tree = some groups) :
    tree.lineage name = name :: (groups ++ [rootState]) := by
  rw [lineage, if_neg hne, h]

theorem lineage_eq_nil {tree : StateTree} {name : String} (hne : name ≠ rootState)
    (h : name ∉ tree.names) : tree.lineage name = [] := by
  rw [lineage, if_neg hne, (groupsAround?_eq_none_iff name tree).mpr h]

/-- A lineage holds the root and declared names. -/
theorem mem_lineage {tree : StateTree} {name other : String} (h : other ∈ tree.lineage name) :
    other = rootState ∨ other ∈ tree.names := by
  by_cases hne : name = rootState
  · rw [hne, lineage_root] at h
    exact Or.inl (List.mem_singleton.mp h)
  · cases hgroups : groupsAround? name tree with
    | none =>
      rw [lineage, if_neg hne, hgroups] at h
      cases h
    | some groups =>
      rw [lineage_of_groupsAround? hne hgroups, List.mem_cons, List.mem_append,
        List.mem_singleton] at h
      rcases h with rfl | h | h
      · exact Or.inr (mem_namesOf_of_groupsAround? hgroups)
      · exact Or.inr (subset_of_groupsAround? hgroups h)
      · exact Or.inl h

/-- The lineage of the root or of a declared name begins with it. -/
theorem cons_tail_lineage {tree : StateTree} {name : String}
    (h : name = rootState ∨ name ∈ tree.names) : name :: (tree.lineage name).tail
      = tree.lineage name := by
  by_cases hne : name = rootState
  · rw [hne, lineage_root]
    rfl
  · cases hgroups : groupsAround? name tree with
    | none => exact absurd (h.resolve_left hne) ((groupsAround?_eq_none_iff name tree).mp hgroups)
    | some groups => rw [lineage_of_groupsAround? hne hgroups, List.tail_cons]

end StateTree

/-! ### Parents

The induction is on the tree. A name of the level is found at the level itself, or inside one of
its groups, and there the group is put at the end of what is found. Distinct names make sure that
nothing else of that name is found before. -/

/-- `parent` is what comes next on the lineage of `name`, where `outer` is around the whole level:
either nothing of the level is around the name, or the innermost group around it is. -/
def IsParent (nodes : List StateNode) (outer name parent : String) : Prop :=
  (groupsAround? name nodes = some [] ∧ parent = outer) ∨
    ∃ groups, groupsAround? name nodes = some (parent :: groups) ∧
      groupsAround? parent nodes = some groups

theorem groupsAround?_cons_of_mem {name : String} {node : StateNode} {rest : List StateNode}
    (h : name ∈ node.names) : groupsAround? name (node :: rest) = node.groupsAround? name := by
  rw [groupsAround?]
  cases hnode : node.groupsAround? name with
  | some groups => rfl
  | none => exact absurd h ((node.groupsAround?_eq_none_iff name).mp hnode)

theorem groupsAround?_cons_of_notMem {name : String} {node : StateNode} {rest : List StateNode}
    (h : name ∉ node.names) : groupsAround? name (node :: rest) = groupsAround? name rest := by
  rw [groupsAround?, (node.groupsAround?_eq_none_iff name).mpr h]

/-- What is found inside a group is found in a level that begins with the group, with the group
put at the end. -/
theorem groupsAround?_group_cons {own name : String} {children rest : List StateNode}
    (hne : own ≠ name) {groups : List String} (h : groupsAround? name children = some groups) :
    groupsAround? name (.group own children :: rest) = some (groups ++ [own]) := by
  have hmem : name ∈ (StateNode.group own children).names := by
    simp [mem_namesOf_of_groupsAround? h]
  rw [groupsAround?_cons_of_mem hmem, StateNode.groupsAround?, if_neg hne, h, Option.map_some]

theorem groupsAround?_group_self (own : String) (children rest : List StateNode) :
    groupsAround? own (.group own children :: rest) = some [] := by
  rw [groupsAround?_cons_of_mem (by simp), StateNode.groupsAround?, if_pos rfl]

/-- A parent inside a group is a parent in a level that begins with the group. -/
theorem IsParent.group {own outer name parent : String} {children rest : List StateNode}
    (hown : own ∉ namesOf children) (h : IsParent children own name parent) :
    IsParent (.group own children :: rest) outer name parent := by
  have hne : ∀ {x groups}, groupsAround? x children = some groups → own ≠ x := by
    intro x groups hx he
    exact hown (he ▸ mem_namesOf_of_groupsAround? hx)
  rcases h with ⟨hname, rfl⟩ | ⟨groups, hname, hparent⟩
  · refine Or.inr ⟨[], ?_, groupsAround?_group_self _ children rest⟩
    exact groupsAround?_group_cons (hne hname) hname
  · refine Or.inr ⟨groups ++ [own], ?_, groupsAround?_group_cons (hne hparent) hparent⟩
    exact groupsAround?_group_cons (hne hname) hname

/-- A parent among the later states of a level is a parent in the level. -/
theorem IsParent.cons {outer name parent : String} {node : StateNode} {rest : List StateNode}
    (hnodup : (namesOf (node :: rest)).Nodup) (h : IsParent rest outer name parent) :
    IsParent (node :: rest) outer name parent := by
  rw [namesOf_cons, List.nodup_append'] at hnodup
  have hskip : ∀ {x groups}, groupsAround? x rest = some groups →
      groupsAround? x (node :: rest) = some groups := by
    intro x groups hx
    rw [groupsAround?_cons_of_notMem fun hmem =>
      hnodup.2.2 hmem (mem_namesOf_of_groupsAround? hx)]
    exact hx
  rcases h with ⟨hname, rfl⟩ | ⟨groups, hname, hparent⟩
  · exact Or.inl ⟨hskip hname, rfl⟩
  · exact Or.inr ⟨groups, hskip hname, hskip hparent⟩

/-- **The parent in a declaration is the next one on the lineage.** -/
theorem isParent_of_mem {d : Declaration} : ∀ {nodes : List StateNode} {outer : String},
    (namesOf nodes).Nodup → d ∈ declarationsUnder outer nodes →
      IsParent nodes outer d.name d.parent
  | [], _, _, hd => by simp [declarationsUnder] at hd
  | .leaf own :: rest, outer, hnodup, hd => by
    rw [declarationsUnder, List.mem_append] at hd
    rcases hd with hd | hd
    · obtain rfl : d = ⟨own, outer, false⟩ := by simpa [StateNode.declarations] using hd
      refine Or.inl ⟨?_, rfl⟩
      rw [groupsAround?_cons_of_mem (by simp), StateNode.groupsAround?, if_pos rfl]
    · have hrest : (namesOf rest).Nodup := by
        rw [namesOf_cons, List.nodup_append'] at hnodup
        exact hnodup.2.1
      exact (isParent_of_mem hrest hd).cons hnodup
  | .group own children :: rest, outer, hnodup, hd => by
    rw [declarationsUnder, List.mem_append, StateNode.declarations, List.mem_cons] at hd
    have hsplit := hnodup
    rw [namesOf_cons, List.nodup_append', StateNode.names_group, List.nodup_cons] at hsplit
    obtain ⟨⟨hown, hchildren⟩, hrest, -⟩ := hsplit
    rcases hd with (rfl | hd) | hd
    · exact Or.inl ⟨groupsAround?_group_self own children rest, rfl⟩
    · exact (isParent_of_mem hchildren hd).group hown
    · exact (isParent_of_mem hrest hd).cons hnodup

/-- Where nothing is around a name, its parent is what is around the level. -/
theorem parent_of_groupsAround?_nil {d : Declaration} {nodes : List StateNode} {outer : String}
    (hnodup : (namesOf nodes).Nodup) (hd : d ∈ declarationsUnder outer nodes)
    (h : groupsAround? d.name nodes = some []) : d.parent = outer := by
  rcases isParent_of_mem hnodup hd with ⟨-, hparent⟩ | ⟨groups, hname, -⟩
  · exact hparent
  · rw [h] at hname
    cases hname

/-- Otherwise its parent is the innermost group, and the others are around that. -/
theorem parent_of_groupsAround?_cons {d : Declaration} {nodes : List StateNode}
    {outer parent : String} {groups : List String} (hnodup : (namesOf nodes).Nodup)
    (hd : d ∈ declarationsUnder outer nodes)
    (h : groupsAround? d.name nodes = some (parent :: groups)) :
    d.parent = parent ∧ groupsAround? parent nodes = some groups := by
  rcases isParent_of_mem hnodup hd with ⟨hname, -⟩ | ⟨groups', hname, hup⟩
  · rw [h] at hname
    cases hname
  · rw [h] at hname
    obtain ⟨rfl, rfl⟩ := List.cons_eq_cons.mp (Option.some.inj hname)
    exact ⟨rfl, hup⟩

/-! ### Groups and leaves -/

mutual

theorem StateNode.mem_names_of_declaresGroup {name : String} : ∀ {node : StateNode},
    node.declaresGroup name = true → name ∈ node.names
  | .leaf _, h => by simp [StateNode.declaresGroup] at h
  | .group own children, h => by
    simp only [StateNode.declaresGroup, Bool.or_eq_true, decide_eq_true_eq] at h
    rcases h with rfl | h
    · simp
    · simp [mem_namesOf_of_declaresGroup h]

theorem mem_namesOf_of_declaresGroup {name : String} : ∀ {nodes : List StateNode},
    declaresGroup name nodes = true → name ∈ namesOf nodes
  | [], h => by simp [declaresGroup] at h
  | node :: rest, h => by
    simp only [declaresGroup, Bool.or_eq_true] at h
    rw [namesOf_cons, List.mem_append]
    exact h.imp node.mem_names_of_declaresGroup mem_namesOf_of_declaresGroup

end

theorem declaresGroup_eq_false_of_notMem {name : String} {nodes : List StateNode}
    (h : name ∉ namesOf nodes) : declaresGroup name nodes = false :=
  Bool.eq_false_iff.mpr fun hg => h (mem_namesOf_of_declaresGroup hg)

/-- The declarations tell groups from leaves as the tree does. -/
theorem declaresGroup_of_mem {d : Declaration} : ∀ {nodes : List StateNode} {outer : String},
    (namesOf nodes).Nodup → d ∈ declarationsUnder outer nodes →
      declaresGroup d.name nodes = d.isGroup
  | [], _, _, hd => by simp [declarationsUnder] at hd
  | node :: rest, outer, hnodup, hd => by
    rw [namesOf_cons, List.nodup_append'] at hnodup
    obtain ⟨hnode, hrest, hdisjoint⟩ := hnodup
    rw [declarationsUnder, List.mem_append] at hd
    rw [declaresGroup]
    rcases hd with hd | hd
    · cases node with
      | leaf own =>
        obtain rfl : d = ⟨own, outer, false⟩ := by simpa [StateNode.declarations] using hd
        rw [StateNode.declaresGroup, Bool.false_or]
        exact declaresGroup_eq_false_of_notMem fun hmem => hdisjoint (by simp) hmem
      | group own children =>
        rw [StateNode.names_group, List.nodup_cons] at hnode
        rw [StateNode.declarations, List.mem_cons] at hd
        rcases hd with rfl | hd
        · simp [StateNode.declaresGroup]
        · have hmem := name_mem_of_mem hd
          have hne : own ≠ d.name := fun he => hnode.1 (he ▸ hmem)
          rw [StateNode.declaresGroup, declaresGroup_of_mem hnode.2 hd,
            declaresGroup_eq_false_of_notMem fun h => hdisjoint (by simp [hmem]) h]
          simp [hne]
    · rw [declaresGroup_of_mem hrest hd, Bool.eq_false_iff.mpr fun hg =>
        hdisjoint (node.mem_names_of_declaresGroup hg) (name_mem_of_mem hd), Bool.false_or]

/-! ### Validated names -/

namespace Definition

/-- Names have no problems if and only if none is the root's, none is repeated and none was
declared before. -/
theorem nameProblems_eq_nil_iff {earlier : List String} {declared : List Declaration}
    (hearlier : earlier.Nodup) : nameProblems earlier declared = [] ↔
      rootState ∉ declared.map Declaration.name ∧ (declared.map Declaration.name).Nodup ∧
        ∀ name ∈ declared.map Declaration.name, name ∉ earlier := by
  induction declared generalizing earlier with
  | nil => simp [nameProblems]
  | cons d rest ih =>
    rw [nameProblems, List.append_eq_nil_iff, List.map_cons, List.nodup_cons]
    by_cases hroot : d.name = rootState
    · simp [hroot]
    · by_cases hmem : d.name ∈ earlier
      · simp [hroot, List.count_eq_one_of_mem hearlier hmem, hmem]
      · rw [ih (List.nodup_cons.mpr ⟨hmem, hearlier⟩)]
        simp only [if_neg hroot, List.count_eq_zero.mpr hmem, Nat.zero_ne_one, if_false, true_and,
          List.mem_cons, not_or, forall_eq_or_imp]
        constructor
        · rintro ⟨hr, hn, hall⟩
          exact ⟨⟨Ne.symm hroot, hr⟩, ⟨fun h => (hall _ h).1 rfl, hn⟩, hmem,
            fun n h => (hall n h).2⟩
        · rintro ⟨⟨-, hr⟩, ⟨hd, hn⟩, -, hall⟩
          exact ⟨hr, hn, fun n h => ⟨fun he => hd (he ▸ h), hall n h⟩⟩

variable {m : Type → Type} {S E O : Type}

theorem problems_eq_nil_iff {d : Definition m S E O} : d.problems = [] ↔
    nameProblems [] d.states.declarations = [] ∧ modelProblems d.model = [] ∧
      ∀ t ∈ d.transitions, transitionProblems d.states.declarations d.events t = [] := by
  simp only [problems, List.append_eq_nil_iff, List.flatMap_eq_nil_iff, and_assoc]

/-- The names of a definition without problems are distinct. -/
theorem distinct_of_problems {d : Definition m S E O} (h : d.problems = []) :
    d.states.Distinct := by
  obtain ⟨hroot, hnodup, -⟩ :=
    (nameProblems_eq_nil_iff List.nodup_nil).mp (problems_eq_nil_iff.mp h).1
  exact ⟨hnodup, hroot⟩

theorem isSome_isGroup? {declared : List Declaration} {name : String}
    (h : (isGroup? declared name).isSome = true) : name ∈ declared.map Declaration.name := by
  unfold isGroup? at h
  split at h
  · simp at h
  · rw [Option.isSome_map, List.find?_isSome] at h
    obtain ⟨d, hd, hname⟩ := h
    exact List.mem_map.mpr ⟨d, List.mem_reverse.mp hd, by simpa using hname⟩

/-- In a definition without problems a transition leaves the root or a declared state. -/
theorem source_mem_of_problems {d : Definition m S E O} (h : d.problems = [])
    {t : Transition m S E O} (ht : t ∈ d.transitions) :
    t.source = rootState ∨ t.source ∈ d.states.names := by
  have hproblems := (problems_eq_nil_iff.mp h).2.2 t ht
  simp only [transitionProblems, List.append_eq_nil_iff] at hproblems
  have hsource := hproblems.1.1
  unfold sourceProblems at hsource
  split at hsource
  · next hdeclared => exact hdeclared.imp_right isSome_isGroup?
  · simp at hsource

/-- In a definition without problems a branch leads to a declared state or to the history of
one. -/
theorem target_mem_of_problems {d : Definition m S E O} (h : d.problems = [])
    {t : Transition m S E O} (ht : t ∈ d.transitions) {branch : Branch m S E O}
    (hbranch : branch ∈ t.branches) : branch.target.name ∈ d.states.names := by
  have hproblems := (problems_eq_nil_iff.mp h).2.2 t ht
  simp only [transitionProblems, List.append_eq_nil_iff, List.flatMap_eq_nil_iff] at hproblems
  have htarget := hproblems.2 branch hbranch
  refine isSome_isGroup? (Option.isSome_iff_ne_none.mpr fun hnone => ?_)
  simp [targetProblems, hnone] at htarget

end Definition

end Reactive
