import Reactive.Automaton
import Reactive.Proofs.Lineage

/-!
# Validation finds all that is wrong

A definition makes sense if its states have names of their own, its model is an object, and its
transitions mention only what is declared. Here this is said of a definition as it is written, and
so is what there is to complain of when it makes no sense: for every declared name, for the model,
and for every source, event and target one complaint or none, in the order in which they stand.
Building checks exactly this.

## The name of the root

A tree may declare the name of the root, though it must not. Each such declaration is a fault of its
own and nothing more: the name is not taken to be declared, so that it does not count as repeated,
and a target of that name is not known.

## What is deliberately absent

That a definition makes sense says nothing about what its automaton will do. Its guards may crash,
its updates may be refused, and it may go on for too long.

## Main definitions

* `Definition.WellFormed` — a definition makes sense
* `lastKind?` — is a name a group, if the last declaration of it decides?
* `Definition.faults` — all that is wrong with a definition

## Main results

* `Definition.problems_eq_faults` — the problems that are found
* `Definition.faults_eq_nil_iff` — nothing is wrong with what makes sense
* `Definition.count_reservedName_faults`, `count_duplicateState_faults`
* `Definition.build_iff_wellFormed`
-/

namespace Reactive

/-! ### The last declaration -/

mutual

/-- Is a name declared as a group inside a state? Of several declarations the last one decides. What
is in a group is declared after the group. -/
def StateNode.lastKind? (name : String) : StateNode → Option Bool
  | .leaf own => if own = name then some false else none
  | .group own children =>
    (Reactive.lastKind? name children).or (if own = name then some true else none)

/-- Is a name declared as a group inside the states of one level? The last declaration decides. -/
def lastKind? (name : String) : List StateNode → Option Bool
  | [] => none
  | node :: rest => (lastKind? name rest).or (node.lastKind? name)

end

mutual

theorem StateNode.map_isGroup_find? (name p : String) : ∀ node : StateNode,
    ((node.declarations p).reverse.find? fun d => d.name = name).map Declaration.isGroup
      = node.lastKind? name
  | .leaf own => by
    rw [StateNode.declarations, StateNode.lastKind?, List.reverse_singleton, List.find?_singleton]
    by_cases hown : own = name
    · simp [hown]
    · simp [hown]
  | .group own children => by
    rw [StateNode.declarations, StateNode.lastKind?, List.reverse_cons, List.find?_append,
      Option.map_or,
      map_isGroup_find?_declarationsUnder name own children, List.find?_singleton]
    by_cases hown : own = name
    · simp [hown]
    · simp [hown]

/-- In the list of declarations the last one is found. -/
theorem map_isGroup_find?_declarationsUnder (name p : String) : ∀ nodes : List StateNode,
    ((declarationsUnder p nodes).reverse.find? fun d => d.name = name).map Declaration.isGroup
      = lastKind? name nodes
  | [] => rfl
  | node :: rest => by
    rw [declarationsUnder, lastKind?, List.reverse_append, List.find?_append, Option.map_or,
      map_isGroup_find?_declarationsUnder name p rest, node.map_isGroup_find? name p]

end

namespace StateTree

variable {tree : StateTree} {name : String}

theorem isSome_lastKind?_iff : (lastKind? name tree).isSome = true ↔ name ∈ tree.names := by
  rw [← map_isGroup_find?_declarationsUnder name rootState tree, Option.isSome_map,
    List.find?_isSome, names, List.mem_map]
  simp [declarations]

/-- If no name is repeated, the last declaration is the only one. -/
theorem lastKind?_eq_isGroup (h : tree.Distinct) (hname : name ∈ tree.names) :
    lastKind? name tree = some (tree.isGroup name) := by
  rw [← map_isGroup_find?_declarationsUnder name rootState tree]
  obtain ⟨d, hd, rfl⟩ := List.mem_map.mp hname
  obtain ⟨e, he⟩ : ∃ e, ((declarationsUnder rootState tree).reverse.find? fun e =>
      e.name = d.name) = some e := by
    rw [← Option.isSome_iff_exists, List.find?_isSome]
    exact ⟨d, List.mem_reverse.mpr hd, by simp⟩
  have hmem : e ∈ declarationsUnder rootState tree :=
    List.mem_reverse.mp (List.mem_of_find?_eq_some he)
  have hsame : e.name = d.name := by simpa using List.find?_some he
  rw [he, Option.map_some, isGroup, ← hsame, declaresGroup_of_mem h.nodup hmem]

end StateTree

/-- Does a problem concern the name of a declared state? -/
def Problem.isOfName : Problem → Bool
  | .duplicateState _ | .reservedName _ => true
  | .unknownEvent _ _ | .reservedEvent _ _ | .unknownSource _ | .unknownTarget _ _
  | .historyOfLeaf _ _ | .modelNotObject _ => false

namespace Definition

variable {m : Type → Type} {S E O : Type}

/-- A definition makes sense. -/
structure WellFormed (d : Definition m S E O) : Prop where
  /-- No name is declared twice, and none is the root's. -/
  distinct : d.states.Distinct
  model : d.model.isObject = true
  source : ∀ t ∈ d.transitions, t.source = rootState ∨ t.source ∈ d.states.names
  event : ∀ t ∈ d.transitions, ∀ event ∈ t.event,
    event = initEvent ∨ event ∈ d.events ∧ event ≠ autoEvent
  target : ∀ t ∈ d.transitions, ∀ branch ∈ t.branches, branch.target.name ∈ d.states.names
  history : ∀ t ∈ d.transitions, ∀ branch ∈ t.branches, ∀ group,
    branch.target = .history group → d.states.isGroup group = true

/-! ### Faults -/

/-- What is wrong with the name that is declared behind some others. -/
def nameFault? (names : List String) (position : Nat) (name : String) : Option Problem :=
  if name = rootState then some (.reservedName name)
  else if (names.take position).count name = 1 then some (.duplicateState name)
  else none

/-- What is wrong with the names of a tree, in the order of declaration. -/
def nameFaults (names : List String) : List Problem :=
  names.zipIdx.filterMap fun entry => nameFault? names entry.2 entry.1

/-- What is wrong with a model. -/
def modelFault? (model : Value) : Option Problem :=
  if model.isObject then none else some (.modelNotObject model.kind)

/-- What is wrong with the source of a transition. -/
def sourceFault? (tree : StateTree) (source : String) : Option Problem :=
  if source = rootState ∨ source ∈ tree.names then none else some (.unknownSource source)

/-- What is wrong with the event of a transition. -/
def eventFault? (events : List String) (source event : String) : Option Problem :=
  if event = initEvent ∨ event ∈ events ∧ event ≠ autoEvent then none
  else if event = autoEvent then some (.reservedEvent source event)
  else some (.unknownEvent source event)

/-- What is wrong with the target of a branch. -/
def targetFault? (tree : StateTree) (source : String) (target : Target) : Option Problem :=
  if target.name = rootState ∨ target.name ∉ tree.names then
    some (.unknownTarget source target.name)
  else
    match target with
    | .state _ => none
    | .history group =>
      if lastKind? group tree = some false then some (.historyOfLeaf source group) else none

/-- What is wrong with a transition. -/
def transitionFaults (tree : StateTree) (events : List String) (t : Transition m S E O) :
    List Problem :=
  (sourceFault? tree t.source).toList ++ (t.event.bind (eventFault? events t.source)).toList ++
    t.branches.filterMap fun branch => targetFault? tree t.source branch.target

/-- All that is wrong with a definition. -/
def faults (d : Definition m S E O) : List Problem :=
  nameFaults d.states.names ++ (modelFault? d.model).toList ++
    d.transitions.flatMap (transitionFaults d.states d.events)

/-! ### What is found -/

theorem isGroup?_declarations (tree : StateTree) (name : String) :
    isGroup? tree.declarations name = if name = rootState then none else lastKind? name tree := by
  rw [isGroup?, ← map_isGroup_find?_declarationsUnder name rootState tree]
  rfl

/-- The names are looked at one after the other. The induction is on those that are left, and counts
among those that were seen do not depend on the order in which they are remembered. -/
theorem nameProblems_eq (earlier : List String) (declared : List Declaration) :
    nameProblems earlier declared
      = ((declared.map Declaration.name).zipIdx earlier.length).filterMap fun entry =>
          nameFault? (earlier.reverse ++ declared.map Declaration.name) entry.2 entry.1 := by
  induction declared generalizing earlier with
  | nil => rfl
  | cons d rest ih =>
    have hseen : (earlier.reverse ++ (d :: rest).map Declaration.name).take earlier.length
        = earlier.reverse := by
      have hlength : earlier.reverse.length = earlier.length := List.length_reverse
      rw [← hlength, List.take_left]
    have hown : (nameFault? (earlier.reverse ++ (d :: rest).map Declaration.name) earlier.length
          d.name).toList
        = if d.name = rootState then [Problem.reservedName d.name]
          else if earlier.count d.name = 1 then [Problem.duplicateState d.name] else [] := by
      rw [nameFault?, hseen, List.count_reverse]
      split
      · rfl
      · split
        · rfl
        · rfl
    rw [nameProblems, ih (d.name :: earlier), ← hown, List.map_cons, List.zipIdx_cons,
      List.filterMap_cons, List.reverse_cons, List.append_assoc, List.length_cons,
      List.singleton_append]
    cases nameFault? (earlier.reverse ++ d.name :: rest.map Declaration.name) earlier.length
      d.name with
    | none => rfl
    | some problem => rfl

theorem modelProblems_eq (model : Value) : modelProblems model = (modelFault? model).toList := by
  rw [modelProblems, modelFault?]
  split
  · rfl
  · rfl

theorem sourceProblems_eq (tree : StateTree) (source : String) :
    sourceProblems tree.declarations source = (sourceFault? tree source).toList := by
  rw [sourceProblems, sourceFault?, isGroup?_declarations]
  by_cases hroot : source = rootState
  · simp [hroot]
  · simp only [hroot, if_false, false_or, StateTree.isSome_lastKind?_iff]
    split
    · rfl
    · rfl

theorem eventProblems_eq (events : List String) (source : String) (event : Option String) :
    eventProblems events source event = (event.bind (eventFault? events source)).toList := by
  cases event with
  | none => rfl
  | some event =>
    rw [eventProblems, Option.bind_some, eventFault?]
    by_cases hauto : event = autoEvent
    · have hinit : ¬ autoEvent = initEvent := by decide
      simp [hauto, hinit]
    · simp only [hauto, if_false, ne_eq, not_false_eq_true, and_true]
      split
      · rfl
      · rfl

theorem targetProblems_eq (tree : StateTree) (source : String) (target : Target) :
    targetProblems tree.declarations source target = (targetFault? tree source target).toList := by
  unfold targetProblems targetFault?
  rw [isGroup?_declarations]
  by_cases hroot : target.name = rootState
  · simp [hroot]
  · have hdeclared : (lastKind? target.name tree).isSome = true ↔ target.name ∈ tree.names :=
      StateTree.isSome_lastKind?_iff
    simp only [hroot, if_false, false_or]
    cases hkind : lastKind? target.name tree with
    | none =>
      rw [hkind] at hdeclared
      simp [← hdeclared]
    | some isGroup =>
      rw [hkind] at hdeclared
      simp only [← hdeclared, Option.isSome_some, not_true, if_false]
      cases target with
      | state name =>
        cases isGroup with
        | true => rfl
        | false => rfl
      | history group =>
        rw [Target.name] at hkind
        cases isGroup with
        | true => simp [hkind]
        | false => simp [hkind]

/-- **What is found is what is wrong**, in order. -/
theorem problems_eq_faults (d : Definition m S E O) : d.problems = d.faults := by
  have hnames : nameProblems [] d.states.declarations = nameFaults d.states.names :=
    nameProblems_eq [] d.states.declarations
  have htransition : ∀ t : Transition m S E O,
      transitionProblems d.states.declarations d.events t
        = transitionFaults d.states d.events t := by
    intro t
    rw [transitionProblems, transitionFaults, sourceProblems_eq, eventProblems_eq]
    simp only [targetProblems_eq, List.filterMap_eq_flatMap_toList]
  rw [problems, faults, hnames, modelProblems_eq, funext htransition]

/-! ### Nothing is wrong -/

theorem nameFaults_eq_nil_iff (tree : StateTree) :
    nameFaults tree.names = [] ↔ tree.Distinct := by
  have hnames : nameProblems [] tree.declarations = nameFaults tree.names :=
    nameProblems_eq [] tree.declarations
  rw [← hnames, nameProblems_eq_nil_iff List.nodup_nil]
  constructor
  · rintro ⟨hroot, hnodup, -⟩
    exact ⟨hnodup, hroot⟩
  · rintro ⟨hnodup, hroot⟩
    exact ⟨hroot, hnodup, fun _ _ => List.not_mem_nil⟩

theorem sourceFault?_eq_none_iff {tree : StateTree} {source : String} :
    sourceFault? tree source = none ↔ source = rootState ∨ source ∈ tree.names := by
  rw [sourceFault?, ite_eq_left_iff]
  exact ⟨fun h => by_contra fun hnot => (by cases h hnot), fun h hnot => absurd h hnot⟩

theorem eventFault?_eq_none_iff {events : List String} {source event : String} :
    eventFault? events source event = none
      ↔ event = initEvent ∨ event ∈ events ∧ event ≠ autoEvent := by
  rw [eventFault?]
  split
  · next hknown => exact iff_of_true rfl hknown
  · next hunknown =>
    refine iff_of_false ?_ hunknown
    split
    · rintro ⟨⟩
    · rintro ⟨⟩

theorem targetFault?_eq_none_iff {tree : StateTree} (h : tree.Distinct) {source : String}
    {target : Target} : targetFault? tree source target = none ↔ target.name ∈ tree.names ∧
      ∀ group, target = .history group → tree.isGroup group = true := by
  unfold targetFault?
  by_cases hname : target.name ∈ tree.names
  · have hkind := StateTree.lastKind?_eq_isGroup h hname
    simp only [h.ne_root hname, hname, not_true, or_false, if_false, true_and]
    cases target with
    | state name => exact iff_of_true rfl (by rintro _ ⟨⟩)
    | history group =>
      rw [Target.name] at hkind
      simp [hkind]
  · simp [hname]

theorem transitionFaults_eq_nil_iff {tree : StateTree} (h : tree.Distinct) {events : List String}
    {t : Transition m S E O} : transitionFaults tree events t = [] ↔
      (t.source = rootState ∨ t.source ∈ tree.names) ∧
        (∀ event ∈ t.event, event = initEvent ∨ event ∈ events ∧ event ≠ autoEvent) ∧
          ∀ branch ∈ t.branches, branch.target.name ∈ tree.names ∧
            ∀ group, branch.target = .history group → tree.isGroup group = true := by
  rw [transitionFaults, List.append_eq_nil_iff, List.append_eq_nil_iff, Option.toList_eq_nil_iff,
    Option.toList_eq_nil_iff, sourceFault?_eq_none_iff, Option.bind_eq_none_iff,
    List.filterMap_eq_nil_iff, and_assoc]
  simp only [eventFault?_eq_none_iff, targetFault?_eq_none_iff h, Option.mem_def]

/-- **Nothing is wrong with a definition that makes sense**, and with no other. -/
theorem faults_eq_nil_iff {d : Definition m S E O} : d.faults = [] ↔ d.WellFormed := by
  rw [faults, List.append_eq_nil_iff, List.append_eq_nil_iff, nameFaults_eq_nil_iff,
    Option.toList_eq_nil_iff, List.flatMap_eq_nil_iff]
  have hmodel : modelFault? d.model = none ↔ d.model.isObject = true := by
    rw [modelFault?, ite_eq_left_iff]
    exact ⟨fun h => by_contra fun hnot => (by cases h hnot), fun h hnot => absurd h hnot⟩
  rw [hmodel]
  constructor
  · rintro ⟨⟨hdistinct, hobject⟩, htransitions⟩
    have h := fun t ht => (transitionFaults_eq_nil_iff hdistinct).mp (htransitions t ht)
    exact
      { distinct := hdistinct
        model := hobject
        source := fun t ht => (h t ht).1
        event := fun t ht => (h t ht).2.1
        target := fun t ht branch hbranch => ((h t ht).2.2 branch hbranch).1
        history := fun t ht branch hbranch => ((h t ht).2.2 branch hbranch).2 }
  · intro h
    refine ⟨⟨h.distinct, h.model⟩, fun t ht => (transitionFaults_eq_nil_iff h.distinct).mpr ?_⟩
    exact ⟨h.source t ht, h.event t ht,
      fun branch hbranch => ⟨h.target t ht branch hbranch, h.history t ht branch hbranch⟩⟩

/-! ### How often something is reported -/

/-- A name is reported as repeated once, in what is left if it was declared at most once before. -/
theorem count_duplicateState_nameProblems (name : String) (earlier : List String)
    (declared : List Declaration) :
    (nameProblems earlier declared).count (.duplicateState name)
      = if name ≠ rootState ∧ earlier.count name ≤ 1 ∧
          2 ≤ earlier.count name + (declared.map Declaration.name).count name then 1 else 0 := by
  induction declared generalizing earlier with
  | nil =>
    rw [List.map_nil, List.count_nil, if_neg (by omega)]
    rfl
  | cons d rest ih =>
    rw [nameProblems, List.count_append, ih (d.name :: earlier), List.map_cons, List.count_cons,
      List.count_cons]
    by_cases hname : d.name = name
    · subst hname
      by_cases hroot : d.name = rootState
      · simp [hroot]
      · simp only [hroot, if_false, beq_self_eq_true, if_true, ne_eq, not_false_eq_true, true_and]
        by_cases hone : earlier.count d.name = 1
        · simp [hone]
        · simp only [hone, if_false, List.count_nil]
          split
          · split
            · rfl
            · omega
          · split
            · omega
            · rfl
    · have hown : ((if d.name = rootState then [Problem.reservedName d.name]
          else if earlier.count d.name = 1 then [Problem.duplicateState d.name]
          else []).count (.duplicateState name)) = 0 := by
        rw [List.count_eq_zero]
        split
        · simp
        · split
          · simpa using Ne.symm hname
          · exact List.not_mem_nil
      rw [hown]
      simp [hname]

/-- The name of the root is reported whenever it is declared. -/
theorem count_reservedName_nameProblems (name : String) (earlier : List String)
    (declared : List Declaration) :
    (nameProblems earlier declared).count (.reservedName name)
      = if name = rootState then (declared.map Declaration.name).count name else 0 := by
  induction declared generalizing earlier with
  | nil =>
    rw [List.map_nil, List.count_nil, ite_self]
    rfl
  | cons d rest ih =>
    rw [nameProblems, List.count_append, ih (d.name :: earlier), List.map_cons, List.count_cons]
    by_cases hroot : d.name = rootState
    · by_cases hname : name = rootState
      · simp [hroot, hname, Nat.add_comm]
      · simp [hroot, hname, Ne.symm hname]
    · have hown : ((if d.name = rootState then [Problem.reservedName d.name]
          else if earlier.count d.name = 1 then [Problem.duplicateState d.name]
          else []).count (.reservedName name)) = 0 := by
        rw [List.count_eq_zero, if_neg hroot]
        split
        · simp
        · exact List.not_mem_nil
      rw [hown, Nat.zero_add]
      by_cases hname : name = rootState
      · simp [hname, hroot]
      · simp [hname]

theorem isOfName_of_mem {d : Definition m S E O} {problem : Problem}
    (h : problem ∈ (modelFault? d.model).toList ++
      d.transitions.flatMap (transitionFaults d.states d.events)) : problem.isOfName = false := by
  rcases List.mem_append.mp h with h | h
  · rw [Option.mem_toList, modelFault?] at h
    split at h
    · cases h
    · cases h
      rfl
  · obtain ⟨t, -, h⟩ := List.mem_flatMap.mp h
    rw [transitionFaults, List.mem_append, List.mem_append] at h
    rcases h with (h | h) | h
    · rw [Option.mem_toList, sourceFault?] at h
      split at h
      · cases h
      · cases h
        rfl
    · obtain ⟨event, -, h⟩ := Option.bind_eq_some_iff.mp (Option.mem_toList.mp h)
      rw [eventFault?] at h
      split at h
      · cases h
      · split at h
        · cases h
          rfl
        · cases h
          rfl
    · obtain ⟨branch, -, h⟩ := List.mem_filterMap.mp h
      unfold targetFault? at h
      split at h
      · cases h
        rfl
      · split at h
        · cases h
        · split at h
          · cases h
            rfl
          · cases h

/-- So problems with names are counted among the names. -/
theorem count_faults (d : Definition m S E O) {problem : Problem} (h : problem.isOfName = true) :
    d.faults.count problem = (nameProblems [] d.states.declarations).count problem := by
  have hnames : nameProblems [] d.states.declarations = nameFaults d.states.names :=
    nameProblems_eq [] d.states.declarations
  have hrest : ((modelFault? d.model).toList ++
      d.transitions.flatMap (transitionFaults d.states d.events)).count problem = 0 := by
    rw [List.count_eq_zero]
    intro hmem
    rw [isOfName_of_mem hmem] at h
    cases h
  rw [faults, List.append_assoc, List.count_append, hrest, hnames, Nat.add_zero]

/-- **A name that is repeated is reported once**, however often it is repeated. -/
theorem count_duplicateState_faults (d : Definition m S E O) (name : String) :
    d.faults.count (.duplicateState name)
      = if name ≠ rootState ∧ 2 ≤ d.states.names.count name then 1 else 0 := by
  rw [count_faults d rfl, count_duplicateState_nameProblems]
  exact if_congr (by simp [StateTree.names]) rfl rfl

/-- **The name of the root is reported as often as it is declared.** -/
theorem count_reservedName_faults (d : Definition m S E O) (name : String) :
    d.faults.count (.reservedName name)
      = if name = rootState then d.states.names.count name else 0 := by
  rw [count_faults d rfl, count_reservedName_nameProblems]
  rfl

/-! ### Building -/

/-- **Building tells what makes sense from what does not.** A definition can be built if and only if
it makes sense and room for its trace can be set aside. If it makes no sense, all that is wrong with
it is reported and nothing else, in order: its names, each repeated one once and the root's as often
as it is declared, its model, and its transitions. -/
theorem build_iff_wellFormed (d : Definition m S E O) (settings : S) :
    ((∃ a, d.build settings = .ok a) ↔
        d.WellFormed ∧ Trace.isReservable d.config.traceCapacity = true) ∧
      (d.faults = [] ↔ d.WellFormed) ∧
      d.build settings =
        (if d.faults ≠ [] then .error (.invalidDefinition d.faults)
        else if Trace.isReservable d.config.traceCapacity then
          .ok (.ofTable (.compile d.states d.transitions) d.model settings d.config)
        else .error .traceTooLarge) ∧
      (∀ name, d.faults.count (.duplicateState name)
        = if name ≠ rootState ∧ 2 ≤ d.states.names.count name then 1 else 0) ∧
      ∀ name, d.faults.count (.reservedName name)
        = if name = rootState then d.states.names.count name else 0 := by
  have hbuild : d.build settings =
      (if d.faults ≠ [] then .error (.invalidDefinition d.faults)
      else if Trace.isReservable d.config.traceCapacity then
        .ok (.ofTable (.compile d.states d.transitions) d.model settings d.config)
      else .error .traceTooLarge) := by
    rw [build, problems_eq_faults]
    cases d.faults with
    | nil => rfl
    | cons problem rest => rfl
  refine ⟨?_, faults_eq_nil_iff, hbuild, d.count_duplicateState_faults,
    d.count_reservedName_faults⟩
  rw [hbuild, ← faults_eq_nil_iff]
  by_cases hfaults : d.faults = []
  · cases hroom : Trace.isReservable d.config.traceCapacity with
    | true => simp [hfaults]
    | false => simp [hfaults]
  · simp [hfaults]

/-- A definition in which the name of the root is declared, and a transition leads there. -/
def usurped : Definition Id Unit Unit Unit where
  states := [.leaf rootState]
  transitions := [⟨rootState, some initEvent, [{ target := .state rootState }]⟩]

/-- A definition that declares the name of the root twice, and nothing else. -/
def usurpedTwice : Definition Id Unit Unit Unit where
  states := [.leaf rootState, .leaf rootState]

/-- A definition that makes sense, with a trace that nothing has room for. -/
def unbounded : Definition Id Unit Unit Unit where
  states := [.leaf "alone"]
  config := { traceCapacity := 18446744073709551615 }

/-- **The name of the root counts for nothing but itself**, and there is more to building than
making sense: a declared target is reported as unknown, a repeated name is not reported as repeated,
and what makes sense need not be built. -/
theorem build_usurped :
    (usurped.states.names = [rootState] ∧
      (usurped.transitions.flatMap fun t => t.branches.map fun branch => branch.target.name)
        = [rootState] ∧
      usurped.build () = .error (.invalidDefinition
        [.reservedName rootState, .unknownTarget rootState rootState])) ∧
    (usurpedTwice.states.names = [rootState, rootState] ∧
      usurpedTwice.build ()
        = .error (.invalidDefinition [.reservedName rootState, .reservedName rootState])) ∧
    unbounded.WellFormed ∧ unbounded.build () = .error .traceTooLarge :=
  ⟨⟨rfl, rfl, rfl⟩, ⟨rfl, rfl⟩, faults_eq_nil_iff.mp (by decide), rfl⟩

end Definition

end Reactive
