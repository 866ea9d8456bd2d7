import Reactive.Proofs.Lineage

/-!
# Subtrees

What a state holds, read off the nested tree from the outside in: the state itself, and if it is a
group everything declared in it. This is the other way to look at lineages, which go from the
inside out. If names are distinct the two agree: a state lies in the subtree of another exactly if
the other is on its lineage.

## Main definitions

* `StateTree.inside` — the names in the subtree of a state
* `StateTree.lastIn?` — of some states, the first that lies in a subtree

## Main results

* `StateTree.mem_inside_iff` — subtrees and lineages
* `StateTree.inside_subset_names`, `mem_inside_self`
-/

namespace Reactive

mutual

/-- The names in the subtree of `name`, as far as it is part of a given state. -/
def StateNode.inside (name : String) : StateNode → List String
  | .leaf own => if own = name then [own] else []
  | .group own children =>
    if own = name then own :: namesOf children else Reactive.insideOf name children

/-- The names in the subtree of `name`, as far as it is part of the states of one level. -/
def insideOf (name : String) : List StateNode → List String
  | [] => []
  | node :: rest => node.inside name ++ insideOf name rest

end

mutual

theorem StateNode.inside_subset (name : String) : ∀ node : StateNode,
    node.inside name ⊆ node.names
  | .leaf own => by
    rw [StateNode.inside]
    split <;> simp
  | .group own children => by
    rw [StateNode.inside, StateNode.names_group]
    split
    · exact List.Subset.refl _
    · exact List.subset_cons_of_subset own (insideOf_subset name children)

/-- What lies in a subtree is declared. -/
theorem insideOf_subset (name : String) : ∀ nodes : List StateNode,
    insideOf name nodes ⊆ namesOf nodes
  | [] => List.Subset.refl _
  | node :: rest => by
    rw [insideOf, namesOf_cons]
    exact List.append_subset.mpr
      ⟨List.subset_append_of_subset_left _ (node.inside_subset name),
        List.subset_append_of_subset_right _ (insideOf_subset name rest)⟩

end

mutual

theorem StateNode.mem_inside_self {name : String} : ∀ {node : StateNode},
    name ∈ node.names → name ∈ node.inside name
  | .leaf own, h => by
    obtain rfl : name = own := by simpa using h
    simp [StateNode.inside]
  | .group own children, h => by
    rw [StateNode.inside]
    split
    · next hown => exact hown ▸ List.mem_cons_self
    · next hown =>
      have hchildren : name ∈ namesOf children := by simpa [Ne.symm hown] using h
      exact mem_insideOf_self hchildren

/-- A declared state lies in its own subtree. -/
theorem mem_insideOf_self {name : String} : ∀ {nodes : List StateNode},
    name ∈ namesOf nodes → name ∈ insideOf name nodes
  | [], h => h
  | node :: rest, h => by
    rw [namesOf_cons, List.mem_append] at h
    rw [insideOf, List.mem_append]
    exact h.imp StateNode.mem_inside_self mem_insideOf_self

end

/-! ### From the outside in, and from the inside out

The induction is on the tree. Where a group is the one asked for, everything in it is in the
subtree, and what is found around a name inside the group ends with the group. Elsewhere distinct
names make sure that the name is found in one place only. -/

mutual

theorem StateNode.mem_inside_iff {name other : String} : ∀ {node : StateNode},
    node.names.Nodup → (other ∈ node.inside name ↔
      ∃ groups, node.groupsAround? other = some groups ∧ name ∈ other :: groups)
  | .leaf own, _ => by
    rw [StateNode.inside, StateNode.groupsAround?]
    by_cases hown : own = name
    · subst hown
      by_cases hother : own = other
      · simp [hother]
      · simp [hother, Ne.symm hother]
    · by_cases hother : own = other
      · subst hother
        simp [hown, Ne.symm hown]
      · simp [hown, hother]
  | .group own children, hnodup => by
    rw [StateNode.names_group, List.nodup_cons] at hnodup
    obtain ⟨hfresh, hchildren⟩ := hnodup
    rw [StateNode.inside, StateNode.groupsAround?]
    by_cases hown : own = name
    · subst hown
      rw [if_pos rfl, List.mem_cons]
      by_cases hother : own = other
      · simp [hother]
      · rw [if_neg hother]
        constructor
        · intro h
          have hmem : other ∈ namesOf children := h.resolve_left (Ne.symm hother)
          obtain ⟨inner, hinner⟩ := Option.ne_none_iff_exists'.mp fun hnone =>
            (groupsAround?_eq_none_iff other children).mp hnone hmem
          exact ⟨inner ++ [own], by rw [hinner, Option.map_some], by simp⟩
        · rintro ⟨_, hgroups, -⟩
          obtain ⟨inner, hinner, -⟩ := Option.map_eq_some_iff.mp hgroups
          exact Or.inr (mem_namesOf_of_groupsAround? hinner)
    · rw [if_neg hown]
      by_cases hother : own = other
      · subst hother
        rw [if_pos rfl]
        refine iff_of_false (fun h => hfresh (insideOf_subset name children h)) ?_
        rintro ⟨groups, hgroups, hmem⟩
        obtain rfl : groups = [] := (Option.some.inj hgroups).symm
        exact hown (List.mem_singleton.mp hmem).symm
      · rw [if_neg hother, mem_insideOf_iff hchildren]
        constructor
        · rintro ⟨inner, hinner, hmem⟩
          exact ⟨inner ++ [own], by rw [hinner, Option.map_some],
            List.mem_append_left [own] hmem⟩
        · rintro ⟨_, hgroups, hmem⟩
          obtain ⟨inner, hinner, rfl⟩ := Option.map_eq_some_iff.mp hgroups
          have hcases : name ∈ other :: inner ∨ name ∈ [own] := List.mem_append.mp hmem
          exact ⟨inner, hinner, hcases.resolve_right fun h => hown (List.mem_singleton.mp h).symm⟩

/-- A name lies in a subtree if and only if the subtree begins with it or with a group around
it. -/
theorem mem_insideOf_iff {name other : String} : ∀ {nodes : List StateNode},
    (namesOf nodes).Nodup → (other ∈ insideOf name nodes ↔
      ∃ groups, groupsAround? other nodes = some groups ∧ name ∈ other :: groups)
  | [], _ => by simp [insideOf, groupsAround?]
  | node :: rest, hnodup => by
    rw [namesOf_cons, List.nodup_append'] at hnodup
    obtain ⟨hnode, hrest, hdisjoint⟩ := hnodup
    rw [insideOf, List.mem_append]
    by_cases hmem : other ∈ node.names
    · have hout : other ∉ insideOf name rest :=
        fun h => hdisjoint hmem (insideOf_subset name rest h)
      rw [groupsAround?_cons_of_mem hmem, ← StateNode.mem_inside_iff hnode]
      exact or_iff_left hout
    · have hout : other ∉ node.inside name := fun h => hmem (node.inside_subset name h)
      rw [groupsAround?_cons_of_notMem hmem, ← mem_insideOf_iff hrest]
      exact or_iff_right hout

end

namespace StateTree

/-- The names in the subtree of a state: its own, and those of everything in it. -/
def inside (tree : StateTree) (name : String) : List String := insideOf name tree

/-- Of some states, the first that lies in the subtree of a given one. -/
def lastIn? (tree : StateTree) (states : List String) (name : String) : Option String :=
  states.find? fun state => state ∈ tree.inside name

theorem inside_subset_names (tree : StateTree) (name : String) : tree.inside name ⊆ tree.names :=
  insideOf_subset name tree

theorem mem_inside_self {tree : StateTree} {name : String} (h : name ∈ tree.names) :
    name ∈ tree.inside name :=
  mem_insideOf_self h

/-- **Subtrees and lineages.** -/
theorem mem_inside_iff {tree : StateTree} (h : tree.Distinct) {name : String}
    (hname : name ≠ rootState) (state : String) :
    state ∈ tree.inside name ↔ name ∈ tree.lineage state := by
  by_cases hstate : state = rootState
  · subst hstate
    rw [lineage_root, List.mem_singleton]
    exact iff_of_false (fun hin => h.root_notMem (tree.inside_subset_names name hin)) hname
  · rw [inside, mem_insideOf_iff h.nodup]
    cases hgroups : groupsAround? state tree with
    | none => simp [lineage, hstate, hgroups]
    | some groups => simp [lineage_of_groupsAround? hstate hgroups, hname]

theorem lastIn?_cons_of_mem {tree : StateTree} {state name : String} {states : List String}
    (h : state ∈ tree.inside name) : tree.lastIn? (state :: states) name = some state := by
  rw [lastIn?, List.find?_cons_of_pos (by simpa using h)]

/-- What is found in a subtree lies in it. -/
theorem mem_inside_of_lastIn? {tree : StateTree} {states : List String} {name state : String}
    (h : tree.lastIn? states name = some state) : state ∈ tree.inside name := by
  simpa using List.find?_some h

end StateTree

end Reactive
