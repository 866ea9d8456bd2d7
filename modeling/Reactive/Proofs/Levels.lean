import Reactive.Proofs.Subtrees

/-!
# Levels

The states of the outermost level are on level one, and what a group holds is one level below the
group. So the level of a state is the number of groups around it, the root included, and a tree has
as many levels as its deepest state needs.

A state in the subtree of another, and different from it, is on a deeper level. That is what makes
descents end: the groups around a group are part of what is around anything in it.

## Main definitions

* `StateTree.level` — the level of a state
* `StateTree.levels` — how many levels a tree has

## Main results

* `suffix_of_mem_groupsAround?` — what is around a group is the rest of what is around its states
* `StateTree.level_lt_of_mem_inside`
* `StateTree.level_le_levels`, `length_lt_of_groupsAround?` — how deep a tree can be
-/

namespace Reactive

mutual

/-- How many levels a state takes up: its own, and those of what it holds. -/
def StateNode.levels : StateNode → Nat
  | .leaf _ => 1
  | .group _ children => levelsOf children + 1

/-- How many levels some states of one level take up. -/
def levelsOf : List StateNode → Nat
  | [] => 0
  | node :: rest => max node.levels (levelsOf rest)

end

namespace StateTree

/-- How many levels a tree has. -/
def levels (tree : StateTree) : Nat := levelsOf tree

/-- The level of a declared state: how many groups are around it, the root included. The root is on
level zero. -/
def level (tree : StateTree) (name : String) : Nat := (tree.lineage name).tail.length

end StateTree

/-! ### How deep a tree goes

The induction is on the tree, since what is around a name is. -/

mutual

theorem StateNode.length_lt_levels {name : String} : ∀ {node : StateNode}
    {groups : List String}, node.groupsAround? name = some groups → groups.length < node.levels
  | .leaf own, groups, h => by
    rw [StateNode.groupsAround?] at h
    split at h
    · obtain rfl := Option.some.inj h
      exact Nat.zero_lt_one
    · cases h
  | .group own children, groups, h => by
    rw [StateNode.groupsAround?] at h
    rw [StateNode.levels]
    split at h
    · obtain rfl := Option.some.inj h
      exact Nat.succ_pos _
    · obtain ⟨inner, hinner, rfl⟩ := Option.map_eq_some_iff.mp h
      have hlt := length_lt_levelsOf hinner
      rw [List.length_append, List.length_singleton]
      omega

/-- There are fewer groups around a name than there are levels. -/
theorem length_lt_levelsOf {name : String} : ∀ {nodes : List StateNode}
    {groups : List String}, groupsAround? name nodes = some groups →
      groups.length < levelsOf nodes
  | [], _, h => by simp [groupsAround?] at h
  | node :: rest, groups, h => by
    rw [groupsAround?] at h
    rw [levelsOf]
    cases hnode : node.groupsAround? name with
    | some inner =>
      rw [hnode] at h
      obtain rfl : inner = groups := Option.some.inj h
      have hlt := node.length_lt_levels hnode
      omega
    | none =>
      rw [hnode] at h
      have hlt := length_lt_levelsOf h
      omega

end

mutual

theorem StateNode.levels_le_length_names : ∀ node : StateNode, node.levels ≤ node.names.length
  | .leaf _ => by simp [StateNode.levels]
  | .group _ children => by
    have hchildren := levelsOf_le_length_namesOf children
    simpa [StateNode.levels] using hchildren

/-- Every level has a state of its own. -/
theorem levelsOf_le_length_namesOf : ∀ nodes : List StateNode,
    levelsOf nodes ≤ (namesOf nodes).length
  | [] => Nat.le_refl 0
  | node :: rest => by
    have hnode := node.levels_le_length_names
    have hrest := levelsOf_le_length_namesOf rest
    rw [levelsOf, namesOf_cons, List.length_append]
    omega

end

/-- There are fewer groups around a name than there are declared states. -/
theorem length_lt_of_groupsAround? {name : String} {nodes : List StateNode} {groups : List String}
    (h : groupsAround? name nodes = some groups) : groups.length < (namesOf nodes).length :=
  (length_lt_levelsOf h).trans_le (levelsOf_le_length_namesOf nodes)

/-! ### Groups around groups -/

mutual

theorem StateNode.suffix_of_mem_groupsAround? {name other : String} : ∀ {node : StateNode}
    {groups : List String}, node.names.Nodup → node.groupsAround? other = some groups →
      name ∈ groups → ∃ above, node.groupsAround? name = some above ∧ name :: above <:+ groups
  | .leaf own, groups, _, h, hmem => by
    rw [StateNode.groupsAround?] at h
    split at h
    · obtain rfl := Option.some.inj h
      cases hmem
    · cases h
  | .group own children, groups, hnodup, h, hmem => by
    rw [StateNode.names_group, List.nodup_cons] at hnodup
    obtain ⟨hfresh, hchildren⟩ := hnodup
    rw [StateNode.groupsAround?] at h
    split at h
    · obtain rfl := Option.some.inj h
      cases hmem
    · obtain ⟨inner, hinner, rfl⟩ := Option.map_eq_some_iff.mp h
      rw [StateNode.groupsAround?]
      rcases List.mem_append.mp hmem with hin | hown
      · obtain ⟨above, habove, hsuffix⟩ := suffix_of_mem_groupsAround? hchildren hinner hin
        have hne : own ≠ name := fun he => hfresh (he ▸ mem_namesOf_of_groupsAround? habove)
        refine ⟨above ++ [own], ?_, ?_⟩
        · rw [if_neg hne, habove, Option.map_some]
        · obtain ⟨before, hbefore⟩ := hsuffix
          exact ⟨before, by rw [← hbefore, List.append_assoc, List.cons_append]⟩
      · obtain rfl := List.mem_singleton.mp hown
        exact ⟨[], if_pos rfl, List.suffix_append inner [name]⟩

/-- **What is around a group** is the rest of what is around the states in it. -/
theorem suffix_of_mem_groupsAround? {name other : String} : ∀ {nodes : List StateNode}
    {groups : List String}, (namesOf nodes).Nodup → groupsAround? other nodes = some groups →
      name ∈ groups → ∃ above, groupsAround? name nodes = some above ∧ name :: above <:+ groups
  | [], _, _, h, _ => by simp [groupsAround?] at h
  | node :: rest, groups, hnodup, h, hmem => by
    rw [namesOf_cons, List.nodup_append'] at hnodup
    obtain ⟨hnode, hrest, hdisjoint⟩ := hnodup
    by_cases hother : other ∈ node.names
    · rw [groupsAround?_cons_of_mem hother] at h
      have hname := node.subset_of_groupsAround? h hmem
      rw [groupsAround?_cons_of_mem hname]
      exact node.suffix_of_mem_groupsAround? hnode h hmem
    · rw [groupsAround?_cons_of_notMem hother] at h
      have hname := subset_of_groupsAround? h hmem
      rw [groupsAround?_cons_of_notMem fun hin => hdisjoint hin hname]
      exact suffix_of_mem_groupsAround? hrest h hmem

end

namespace StateTree

variable {tree : StateTree} {name state : String}

theorem level_of_groupsAround? (hname : name ≠ rootState) {groups : List String}
    (h : groupsAround? name tree = some groups) : tree.level name = groups.length + 1 := by
  rw [level, lineage_of_groupsAround? hname h, List.tail_cons, List.length_append,
    List.length_singleton]

/-- Declared states are below the root. -/
theorem level_pos (h : tree.Distinct) (hname : name ∈ tree.names) : 0 < tree.level name := by
  obtain ⟨groups, hgroups⟩ := Option.ne_none_iff_exists'.mp fun hnone =>
    (groupsAround?_eq_none_iff name tree).mp hnone hname
  rw [level_of_groupsAround? (h.ne_root hname) hgroups]
  exact Nat.succ_pos _

/-- No state is deeper than the tree. -/
theorem level_le_levels (tree : StateTree) (name : String) : tree.level name ≤ tree.levels := by
  by_cases hroot : name = rootState
  · simp [level, hroot]
  · cases hgroups : groupsAround? name tree with
    | none => simp [level, lineage, hroot, hgroups]
    | some groups =>
      rw [level_of_groupsAround? hroot hgroups]
      exact length_lt_levelsOf hgroups

/-- **What lies in a subtree is deeper** than the state that the subtree is of. -/
theorem level_lt_of_mem_inside (h : tree.Distinct) (hname : name ∈ tree.names)
    (hstate : state ∈ tree.inside name) (hne : state ≠ name) :
    tree.level name < tree.level state := by
  obtain ⟨groups, hgroups, hmem⟩ := (mem_insideOf_iff h.nodup).mp hstate
  have haround : name ∈ groups := (List.mem_cons.mp hmem).resolve_left (Ne.symm hne)
  obtain ⟨above, habove, hsuffix⟩ := suffix_of_mem_groupsAround? h.nodup hgroups haround
  have hdeclared : state ∈ tree.names := mem_namesOf_of_groupsAround? hgroups
  rw [level_of_groupsAround? (h.ne_root hname) habove,
    level_of_groupsAround? (h.ne_root hdeclared) hgroups]
  have hlength := hsuffix.length_le
  rw [List.length_cons] at hlength
  omega

theorem level_le_of_mem_inside (h : tree.Distinct) (hname : name ∈ tree.names)
    (hstate : state ∈ tree.inside name) : tree.level name ≤ tree.level state := by
  by_cases hne : state = name
  · rw [hne]
  · exact (level_lt_of_mem_inside h hname hstate hne).le

end StateTree

end Reactive
