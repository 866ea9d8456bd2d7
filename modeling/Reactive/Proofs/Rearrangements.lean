import Reactive.Proofs.Descents
import Reactive.Proofs.Members
import Reactive.Proofs.Validation

/-!
# Definitions in another order

A definition lists its states and transitions in some order, and little of this order counts. The
order of siblings does not, since states are known by their names. Of transitions only those from
one state for one event are tried one after the other, so that only their order counts, and instead
of two of them there may be one with the branches of both.

Rearranged in these ways a definition still makes sense, and what is built of it is not merely
alike: it is the same automaton, with the same table.

## Main definitions

* `Reordered` — trees that differ in the order of siblings, at any level
* `Transition.Shuffled` — lists in which transitions have changed places
* `Transition.Merged` — lists in which two transitions have become one
* `Definition.Rearranged`
* `Definition.Matches` — definitions that declare the same, state by state and event by event

## Main results

* `Table.compile_eq` — the table does not depend on the order
* `Definition.Matches.wellFormed`, `Definition.Rearranged.matches`
* `Definition.build_of_rearranged`
-/

namespace Reactive

/-! ### Trees -/

/-- The same states in the same groups. At every level siblings may have changed places. -/
inductive Reordered : List StateNode → List StateNode → Prop
  | nil : Reordered [] []
  | leaf (name : String) {rest rest' : List StateNode} (hrest : Reordered rest rest') :
    Reordered (.leaf name :: rest) (.leaf name :: rest')
  | group (name : String) {children children' rest rest' : List StateNode}
      (hchildren : Reordered children children') (hrest : Reordered rest rest') :
    Reordered (.group name children :: rest) (.group name children' :: rest')
  | swap (first second : StateNode) (rest : List StateNode) :
    Reordered (first :: second :: rest) (second :: first :: rest)
  | trans {nodes middle nodes' : List StateNode} (hfirst : Reordered nodes middle)
      (hsecond : Reordered middle nodes') : Reordered nodes nodes'

namespace Reordered

theorem refl : ∀ nodes : List StateNode, Reordered nodes nodes
  | [] => nil
  | .leaf name :: rest => leaf name (refl rest)
  | .group name children :: rest => group name (refl children) (refl rest)

/-- Siblings may be permuted in any way. -/
theorem of_perm {nodes nodes' : List StateNode} (h : nodes.Perm nodes') :
    Reordered nodes nodes' := by
  induction h with
  | nil => exact nil
  | cons node _ ih =>
    cases node with
    | leaf name => exact leaf name ih
    | group name children => exact group name (refl children) ih
  | swap first second rest => exact swap second first rest
  | trans _ _ ih ih' => exact trans ih ih'

/-- The same states are declared, each with the same parent. -/
theorem declarations_perm {nodes nodes' : List StateNode} (h : Reordered nodes nodes')
    (parent : String) : (declarationsUnder parent nodes).Perm (declarationsUnder parent nodes') := by
  induction h generalizing parent with
  | nil => exact .nil
  | leaf name _ ih => exact (ih parent).append_left _
  | group name _ _ hchildren hrest => exact ((hchildren name).cons _).append (hrest parent)
  | swap first second rest =>
    simp only [declarationsUnder, ← List.append_assoc]
    exact List.perm_append_comm.append_right _
  | trans _ _ ih ih' => exact (ih parent).trans (ih' parent)

end Reordered

/-! ### Lists of transitions -/

variable {m : Type → Type} {S E O : Type}

namespace Transition

/-- Transitions have changed places, but those from one state for one event are in the order in which
they were. -/
structure Shuffled (transitions transitions' : List (Transition m S E O)) : Prop where
  perm : transitions.Perm transitions'
  order : ∀ state event,
    (transitions.filter fun t => t.source = state ∧ t.eventName = event)
      = transitions'.filter fun t => t.source = state ∧ t.eventName = event

/-- Two transitions from one state for one event have become one with the branches of both. There
was no third one of the kind between them, and the one stands where they stood or in between. -/
inductive Merged : List (Transition m S E O) → List (Transition m S E O) → Prop
  | intro (before between between' after : List (Transition m S E O)) (t u : Transition m S E O)
      (hsource : u.source = t.source) (hevent : u.eventName = t.eventName)
      (hbetween : ∀ other ∈ between ++ between',
        ¬ (other.source = t.source ∧ other.eventName = t.eventName)) :
    Merged (before ++ t :: (between ++ between') ++ u :: after)
      (before ++ (between ++ ⟨t.source, t.event, t.branches ++ u.branches⟩ :: between') ++ after)

/-- Neighbours may change places if they are from different states or for different events. -/
theorem shuffled_swap (before after : List (Transition m S E O)) {t u : Transition m S E O}
    (h : ¬ (t.source = u.source ∧ t.eventName = u.eventName)) :
    Shuffled (before ++ t :: u :: after) (before ++ u :: t :: after) where
  perm := (List.Perm.swap u t after).append_left before
  order state event := by
    by_cases hmatches : t.source = state ∧ t.eventName = event
    · have hother : ¬ (u.source = state ∧ u.eventName = event) := fun hu =>
        h ⟨hmatches.1.trans hu.1.symm, hmatches.2.trans hu.2.symm⟩
      simp [hmatches, hother]
    · simp [List.filter_cons, hmatches]

/-- What stands in the list afterwards has the state and the event of what stood there before. -/
theorem Merged.exists_mem {transitions transitions' : List (Transition m S E O)}
    (h : Merged transitions transitions') {t' : Transition m S E O} (ht' : t' ∈ transitions') :
    ∃ t ∈ transitions, t.source = t'.source ∧ t.event = t'.event := by
  obtain ⟨before, between, between', after, t, u, -, -, -⟩ := h
  by_cases hmerged : t' = ⟨t.source, t.event, t.branches ++ u.branches⟩
  · exact ⟨t, by simp, by rw [hmerged], by rw [hmerged]⟩
  · refine ⟨t', ?_, rfl, rfl⟩
    simp only [List.mem_append, List.mem_cons, hmerged, false_or] at ht' ⊢
    tauto

end Transition

/-! ### Tables as maps -/

namespace Table

/-- The records of a tree, as the map of a list in which the root comes first. -/
theorem recordsOf_eq_ofList (transitions : List (Transition m S E O)) (tree : StateTree) :
    recordsOf transitions tree = .ofList ((rootState, rootRecord transitions) ::
      tree.declarations.map fun d => (d.name, declaredRecord transitions d)) := by
  rw [OrderedMap.ofList, List.foldl_cons, List.foldl_map]
  rfl

/-- Handlers with all names in order, in which no state is listed without an event. -/
structure InOrder (handlers : OrderedMap (OrderedMap (List (Branch m S E O)))) : Prop where
  sorted : handlers.Sorted
  ofState : ∀ state ofState, handlers.find? state = some ofState → ofState.Sorted ∧ ofState ≠ []

theorem InOrder.addHandler {handlers : OrderedMap (OrderedMap (List (Branch m S E O)))}
    (h : InOrder handlers) (t : Transition m S E O) : InOrder (addHandler handlers t) := by
  refine ⟨h.sorted.insert _ _, fun state ofState hfind => ?_⟩
  rw [Table.addHandler, OrderedMap.find?_insert] at hfind
  split at hfind
  · obtain rfl := Option.some.inj hfind
    have hsorted : ((handlers.find? t.source).getD []).Sorted := by
      cases hfound : handlers.find? t.source with
      | none => exact List.Pairwise.nil
      | some found => exact (h.ofState _ found hfound).1
    refine ⟨hsorted.insert _ _, fun hnil => ?_⟩
    have hself := OrderedMap.find?_insert ((handlers.find? t.source).getD []) t.eventName
      ((((handlers.find? t.source).getD []).find? t.eventName).getD [] ++ t.branches) t.eventName
    rw [hnil, if_pos rfl] at hself
    cases hself
  · exact h.ofState state ofState hfind

theorem inOrder_foldl_addHandler (transitions : List (Transition m S E O)) :
    InOrder (transitions.foldl addHandler []) := by
  induction transitions using List.reverseRecOn with
  | nil => exact ⟨List.Pairwise.nil, fun _ _ hfind => nomatch hfind⟩
  | append_singleton rest t ih =>
    rw [List.foldl_append]
    exact ih.addHandler t

/-- A state that is listed has branches for some event. -/
theorem InOrder.exists_event {handlers : OrderedMap (OrderedMap (List (Branch m S E O)))}
    (h : InOrder handlers) {state : String} {ofState : OrderedMap (List (Branch m S E O))}
    (hfind : handlers.find? state = some ofState) : ∃ event, ofState.find? event ≠ none := by
  obtain ⟨⟨event, branches⟩, rest, rfl⟩ :=
    List.exists_cons_of_ne_nil (h.ofState state ofState hfind).2
  refine ⟨event, ?_⟩
  rw [OrderedMap.find?_cons, if_pos rfl]
  exact Option.some_ne_none _

/-- Handlers are determined by the branches of each state for each event. -/
theorem InOrder.ext {handlers handlers' : OrderedMap (OrderedMap (List (Branch m S E O)))}
    (h : InOrder handlers) (h' : InOrder handlers')
    (hfind : ∀ state event, (handlers.find? state).bind (OrderedMap.find? · event)
      = (handlers'.find? state).bind (OrderedMap.find? · event)) : handlers = handlers' := by
  refine h.sorted.ext h'.sorted fun state => ?_
  have hevents := hfind state
  cases hstate : handlers.find? state with
  | none =>
    cases hstate' : handlers'.find? state with
    | none => rfl
    | some ofState' =>
      obtain ⟨event, hevent⟩ := h'.exists_event hstate'
      rw [hstate, hstate'] at hevents
      exact absurd (hevents event).symm hevent
  | some ofState =>
    cases hstate' : handlers'.find? state with
    | none =>
      obtain ⟨event, hevent⟩ := h.exists_event hstate
      rw [hstate, hstate'] at hevents
      exact absurd (hevents event) hevent
    | some ofState' =>
      rw [hstate, hstate'] at hevents
      exact congrArg some
        ((h.ofState state ofState hstate).1.ext (h'.ofState state ofState' hstate').1 hevents)

end Table

namespace Definition

variable {d d' : Definition m S E O} {settings : S} {a : Automaton m S E O}

/-- A definition was rearranged: transitions changed places, siblings did, or two transitions became
one. -/
inductive Rearranged (d : Definition m S E O) : Definition m S E O → Prop
  | transitions {transitions : List (Transition m S E O)}
      (h : Transition.Shuffled d.transitions transitions) : Rearranged d { d with transitions }
  | siblings {states : StateTree} (h : Reordered d.states states) : Rearranged d { d with states }
  | merged {transitions : List (Transition m S E O)}
      (h : Transition.Merged d.transitions transitions) : Rearranged d { d with transitions }

/-! ### Branches -/

/-- Is there a transition from the state for the event? -/
theorem isSome_branchesOf? (d : Definition m S E O) (state event : String) :
    (d.branchesOf? state event).isSome
      = d.transitions.any fun t => t.source = state && t.eventName = event := by
  rw [Bool.eq_iff_iff, branchesOf?]
  split
  · next hnil => simpa using hnil
  · next hcons =>
    obtain ⟨t, ht⟩ := List.exists_mem_of_ne_nil _ hcons
    obtain ⟨hmem, hmatches⟩ := List.mem_filter.mp ht
    simpa using ⟨t, hmem, of_decide_eq_true hmatches⟩

theorem branchesOf?_congr {state event : String}
    (hnil : (d.transitions.filter fun t => t.source = state ∧ t.eventName = event) = []
      ↔ (d'.transitions.filter fun t => t.source = state ∧ t.eventName = event) = [])
    (hbranches : (d.transitions.filter fun t =>
        t.source = state ∧ t.eventName = event).flatMap Transition.branches
      = (d'.transitions.filter fun t =>
          t.source = state ∧ t.eventName = event).flatMap Transition.branches) :
    d.branchesOf? state event = d'.branchesOf? state event := by
  rw [branchesOf?, branchesOf?]
  split
  · next h => rw [hnil.mp h]
  · next h =>
    split
    · next h' => exact absurd (hnil.mpr h') h
    · rw [hbranches]

/-- Merging transitions changes no branches. Those between them are for something else, and drop out
together with the two unless it is their own branches that are looked for. -/
theorem branchesOf?_of_merged {transitions : List (Transition m S E O)}
    (h : Transition.Merged d.transitions transitions) (state event : String) :
    d.branchesOf? state event = branchesOf? { d with transitions } state event := by
  obtain ⟨_, _, _, model, config⟩ := d
  obtain ⟨before, between, between', after, t, u, hsource, hevent, hbetween⟩ := h
  have hmerged : (⟨t.source, t.event, t.branches ++ u.branches⟩ : Transition m S E O).eventName
      = t.eventName := rfl
  by_cases hmatches : t.source = state ∧ t.eventName = event
  · obtain ⟨rfl, rfl⟩ := hmatches
    have hnone : ∀ others : List (Transition m S E O), others ⊆ between ++ between' →
        (others.filter fun other => other.source = t.source ∧ other.eventName = t.eventName) = [] :=
      fun others hothers => List.filter_eq_nil_iff.mpr fun other hother => by
        simpa using hbetween other (hothers hother)
    have hfirst := hnone between (List.subset_append_left _ _)
    have hsecond := hnone between' (List.subset_append_right _ _)
    refine branchesOf?_congr ?_ ?_
    · simp [-List.filter_eq_nil_iff, hmerged]
    · simp [-Bool.decide_and, hsource, hevent, hfirst, hsecond, hmerged]
  · have hmatches' : ¬ (u.source = state ∧ u.eventName = event) := by rwa [hsource, hevent]
    refine branchesOf?_congr ?_ ?_
    · simp [-List.filter_eq_nil_iff, hmatches, hmatches', hmerged]
    · simp [hmatches, hmatches', hmerged]

/-- There is a transition from the state for `init` just if the state has branches for it. -/
theorem any_isInitial (d : Definition m S E O) (state : String) :
    (d.transitions.any fun t => t.source = state && t.isInitial)
      = (d.branchesOf? state initEvent).isSome := by
  rw [isSome_branchesOf?]
  congr 1
  funext t
  simp [Transition.isInitial, Transition.eventName_eq_initEvent_iff]

/-- There is a transition from the state without an event just if the state has branches for `auto`,
since no transition may be declared for that. -/
theorem any_isAutomatic (h : d.WellFormed) (state : String) :
    (d.transitions.any fun t => t.source = state && t.isAutomatic)
      = (d.branchesOf? state autoEvent).isSome := by
  have hinit : initEvent ≠ autoEvent := by decide
  rw [isSome_branchesOf?, Bool.eq_iff_iff, List.any_eq_true, List.any_eq_true]
  refine exists_congr fun t => and_congr_right fun ht => ?_
  have hevent := h.event t ht
  cases hof : t.event with
  | none => simp [Transition.isAutomatic, Transition.eventName, hof]
  | some event =>
    have hne : event ≠ autoEvent := by
      rcases hevent event hof with rfl | ⟨-, hne⟩
      · exact hinit
      · exact hne
    simp [Transition.isAutomatic, Transition.eventName, hof, hne]

/-! ### What does not depend on the order -/

/-- Two definitions declare the same: the same states with the same parents, and for every state and
event the same branches in the same order. -/
structure Matches (d d' : Definition m S E O) : Prop where
  declarations : d.states.declarations.Perm d'.states.declarations
  branches : ∀ state event, d.branchesOf? state event = d'.branchesOf? state event
  heads : ∀ t' ∈ d'.transitions, ∃ t ∈ d.transitions, t.source = t'.source ∧ t.event = t'.event
  events : d'.events = d.events
  model : d'.model = d.model
  config : d'.config = d.config

theorem Rearranged.matches (h : d.Rearranged d') : d.Matches d' := by
  cases h with
  | transitions h =>
    refine ⟨.refl _, fun state event => ?_, fun t' ht' => ?_, rfl, rfl, rfl⟩
    · rw [branchesOf?, branchesOf?, h.order]
    · exact ⟨t', h.perm.mem_iff.mpr ht', rfl, rfl⟩
  | siblings h =>
    exact ⟨h.declarations_perm rootState, fun _ _ => rfl, fun t' ht' => ⟨t', ht', rfl, rfl⟩, rfl,
      rfl, rfl⟩
  | merged h =>
    refine ⟨.refl _, branchesOf?_of_merged h, fun t' ht' => ?_, rfl, rfl, rfl⟩
    exact h.exists_mem ht'

namespace Matches

theorem perm_names (h : d.Matches d') : d.states.names.Perm d'.states.names :=
  h.declarations.map Declaration.name

/-- A branch stands in a transition from the same state. -/
theorem mem_branches (h : d.Matches d') {t' : Transition m S E O} (ht' : t' ∈ d'.transitions)
    {branch : Branch m S E O} (hbranch : branch ∈ t'.branches) :
    ∃ t ∈ d.transitions, branch ∈ t.branches := by
  have hbranches := (h.branches t'.source t'.eventName).trans (branchesOf?_of_mem ht')
  rw [branchesOf?] at hbranches
  split at hbranches
  · cases hbranches
  · have hmem : branch ∈ (d'.transitions.filter fun other =>
        other.source = t'.source ∧ other.eventName = t'.eventName).flatMap Transition.branches :=
      List.mem_flatMap.mpr ⟨t', List.mem_filter.mpr ⟨ht', by simp⟩, hbranch⟩
    rw [← Option.some.inj hbranches] at hmem
    obtain ⟨t, ht, hbranch⟩ := List.mem_flatMap.mp hmem
    exact ⟨t, (List.mem_filter.mp ht).1, hbranch⟩

/-- **A definition in another order makes sense as well.** -/
theorem wellFormed (h : d.Matches d') (hd : d.WellFormed) : d'.WellFormed := by
  have hnames : ∀ name, name ∈ d.states.names ↔ name ∈ d'.states.names :=
    fun _ => h.perm_names.mem_iff
  have hdistinct : d'.states.Distinct :=
    ⟨h.perm_names.nodup_iff.mp hd.distinct.nodup,
      fun hroot => hd.distinct.root_notMem ((hnames _).mpr hroot)⟩
  constructor
  case distinct => exact hdistinct
  case model =>
    rw [h.model]
    exact hd.model
  case source =>
    intro t' ht'
    obtain ⟨t, ht, hsource, -⟩ := h.heads t' ht'
    rw [← hsource, ← hnames]
    exact hd.source t ht
  case event =>
    intro t' ht'
    obtain ⟨t, ht, -, hevent⟩ := h.heads t' ht'
    rw [← hevent, h.events]
    exact hd.event t ht
  case target =>
    intro t' ht' branch hbranch
    obtain ⟨t, ht, hmem⟩ := h.mem_branches ht' hbranch
    exact (hnames _).mp (hd.target t ht branch hmem)
  case history =>
    intro t' ht' branch hbranch group htarget
    obtain ⟨t, ht, hmem⟩ := h.mem_branches ht' hbranch
    have hgroup := hd.history t ht branch hmem group htarget
    obtain ⟨e, he, rfl⟩ := List.mem_map.mp (mem_namesOf_of_declaresGroup hgroup)
    rw [StateTree.isGroup, declaresGroup_of_mem hd.distinct.nodup he] at hgroup
    rw [StateTree.isGroup,
      declaresGroup_of_mem hdistinct.nodup (h.declarations.mem_iff.mp he), hgroup]

/-! ### Tables -/

/-- The flags in a record tell for which events there are transitions from its state. -/
theorem recordOf_eq (h : d.Matches d') (hd : d.WellFormed) (name : String) (parent : Option String)
    (isGroup : Bool) : Table.recordOf d'.transitions name parent isGroup
      = Table.recordOf d.transitions name parent isGroup := by
  rw [Table.recordOf, Table.recordOf, any_isInitial, any_isInitial, any_isAutomatic hd,
    any_isAutomatic (h.wellFormed hd), h.branches, h.branches]

/-- **The table does not depend on the order.** -/
theorem compile_eq (h : d.Matches d') (hd : d.WellFormed) :
    Table.compile d'.states d'.transitions = Table.compile d.states d.transitions := by
  have hrecord := h.recordOf_eq hd
  have hrecords : Table.recordsOf d'.transitions d'.states
      = Table.recordsOf d.transitions d.states := by
    rw [Table.recordsOf_eq_ofList, Table.recordsOf_eq_ofList]
    have hdeclared : Table.declaredRecord d'.transitions = Table.declaredRecord d.transitions :=
      funext fun e => hrecord e.name (some e.parent) e.isGroup
    have hroot : Table.rootRecord d'.transitions = Table.rootRecord d.transitions := by
      rw [Table.rootRecord, hrecord, Table.rootRecord]
    rw [hdeclared, hroot]
    refine (OrderedMap.ofList_perm ((h.declarations.map _).cons _) ?_).symm
    rw [List.map_cons, List.map_map, List.nodup_cons]
    exact ⟨hd.distinct.root_notMem, hd.distinct.nodup⟩
  have hhandlers : d'.transitions.foldl Table.addHandler []
      = d.transitions.foldl Table.addHandler [] := by
    refine (Table.inOrder_foldl_addHandler _).ext (Table.inOrder_foldl_addHandler _) ?_
    intro state event
    calc (Table.compile d'.states d'.transitions).branches? state event
        = d'.branchesOf? state event := d'.branches?_tableAfter [] state event
      _ = d.branchesOf? state event := (h.branches state event).symm
      _ = _ := (d.branches?_tableAfter [] state event).symm
  rw [Table.compile, Table.compile, hrecords, hhandlers]

/-- **A definition in another order gives the same automaton.** -/
theorem build_eq_ok (h : d.Matches d') (hbuild : d.build settings = .ok a) :
    d'.build settings = .ok a := by
  obtain ⟨hproblems, hroom, rfl⟩ := build_eq_ok_iff.mp hbuild
  rw [problems_eq_faults, faults_eq_nil_iff] at hproblems
  refine build_eq_ok_iff.mpr ⟨?_, by rwa [h.config], ?_⟩
  · rw [problems_eq_faults, faults_eq_nil_iff]
    exact h.wellFormed hproblems
  · have hrealize : ∀ d : Definition m S E O, d.realize settings (.initial d.model)
        = .ofTable (.compile d.states d.transitions) d.model settings d.config := fun _ => rfl
    rw [hrealize, hrealize, h.compile_eq hproblems, h.model, h.config]

end Matches

/-! ### Runs -/

/-- The standing and the result that a call of an automaton amounts to. -/
def standingOf (done : List Firing × Automaton m S E O × Except Halt (Option O)) :
    Standing × Except Halt (Option O) :=
  (⟨done.2.1.current, done.2.1.model, done.1, done.2.1.dropped⟩, done.2.2)

variable [Monad m] [LawfulMonad m]

/-- A run of a definition is read off the run of its automaton. -/
theorem run_of_build (h : d.build settings = .ok a) (calls : List (Call E)) :
    d.run settings calls (.initial d.model) = List.map standingOf <$> a.runLog calls [] := by
  obtain ⟨hproblems, -, rfl⟩ := build_eq_ok_iff.mp h
  have hrun := runLog_realize hproblems settings calls (.initial d.model)
  rw [show (Standing.initial d.model).log = [] from rfl] at hrun
  have hinverse : List.map standingOf ∘ List.map (d.outcomeOf settings) = id := by
    rw [List.map_comp_map]
    exact List.map_id_fun
  rw [hrun, ← comp_map, hinverse, id_map]

/-- **The order of a definition does not count.** However often siblings or transitions of an accepted
definition change places, or transitions become one, the definition is accepted, and the automaton
that is built of it is the same. So it does the same in every run, and both definitions say so. -/
theorem build_of_rearranged (h : Relation.ReflTransGen Rearranged d d')
    (hbuild : d.build settings = .ok a) : d'.build settings = .ok a ∧ ∀ calls,
      d'.run settings calls (.initial d'.model) = d.run settings calls (.initial d.model) := by
  have hbuild' : d'.build settings = .ok a := by
    induction h with
    | refl => exact hbuild
    | tail _ hlast ih => exact hlast.matches.build_eq_ok ih
  refine ⟨hbuild', fun calls => ?_⟩
  rw [run_of_build hbuild', run_of_build hbuild]

/-- A kettle that heats fast or slowly. Guards look at the data of the event: is it full? -/
def kettle : Definition Id Unit Bool Unit where
  states := [.leaf "idle", .group "heating" [.leaf "slow", .leaf "fast"]]
  events := ["press"]
  transitions :=
    [⟨rootState, some initEvent, [{ target := .state "idle" }]⟩,
      ⟨"idle", some "press",
        [{ target := .state "slow", guard := some ⟨fun _ full _ => pure (.ok full)⟩ }]⟩,
      ⟨"heating", some "press", [{ target := .state "idle" }]⟩,
      ⟨"idle", some "press", [{ target := .history "heating" }]⟩]

/-- The same kettle in another order, and with one transition for both ways to heat. -/
def tidyKettle : Definition Id Unit Bool Unit where
  states := [.group "heating" [.leaf "fast", .leaf "slow"], .leaf "idle"]
  events := ["press"]
  transitions :=
    [⟨rootState, some initEvent, [{ target := .state "idle" }]⟩,
      ⟨"heating", some "press", [{ target := .state "idle" }]⟩,
      ⟨"idle", some "press",
        [{ target := .state "slow", guard := some ⟨fun _ full _ => pure (.ok full)⟩ },
          { target := .history "heating" }]⟩]

theorem rearranged_kettle : Relation.ReflTransGen Rearranged kettle tidyKettle := by
  have hsiblings : Reordered kettle.states tidyKettle.states :=
    .trans (.of_perm (.swap _ _ [])) (.group "heating" (.of_perm (.swap _ _ [])) (.refl _))
  have hmerged : Transition.Merged kettle.transitions
      [kettle.transitions[0], ⟨"idle", some "press", tidyKettle.transitions[2].branches⟩,
        kettle.transitions[2]] :=
    .intro [kettle.transitions[0]] [] [kettle.transitions[2]] [] kettle.transitions[1]
      kettle.transitions[3] rfl rfl (by decide)
  have hshuffled : Transition.Shuffled
      [kettle.transitions[0], ⟨"idle", some "press", tidyKettle.transitions[2].branches⟩,
        kettle.transitions[2]] tidyKettle.transitions :=
    Transition.shuffled_swap [kettle.transitions[0]] [] (by decide)
  exact .tail (.tail (.single (.siblings hsiblings)) (.merged hmerged)) (.transitions hshuffled)

theorem build_of_rearranged_kettle :
    Relation.ReflTransGen Rearranged kettle tidyKettle ∧
      kettle.build () = .ok (kettle.realize () (.initial kettle.model)) ∧
      tidyKettle.build () = .ok (kettle.realize () (.initial kettle.model)) ∧
      ∀ calls, tidyKettle.run () calls (.initial tidyKettle.model)
        = kettle.run () calls (.initial kettle.model) := by
  have hbuild : kettle.build () = .ok (kettle.realize () (.initial kettle.model)) :=
    build_eq_ok_iff.mpr ⟨by decide, by decide, rfl⟩
  exact ⟨rearranged_kettle, hbuild, build_of_rearranged rearranged_kettle hbuild⟩

end Definition

end Reactive
