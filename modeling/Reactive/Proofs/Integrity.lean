import Reactive.Proofs.Passages
import Reactive.Proofs.Refinement
import Reactive.Proofs.Subtrees

/-!
# What a built automaton always is

A table of states could be in many conditions that make no sense: with no state active or with
several, resting in a state that is not declared, or remembering for a group a state from somewhere
else. An automaton that was built is never in one of these, however it is called and however its
calls end.

The argument goes through standings. An automaton that was built is the automaton of a standing
whose log is connected and leads into declared states only, and both are kept by every passage,
because validation has checked where branches lead. What the table holds is then read off the log.

## Main definitions

* `Connected` — each transition of a log leaves what the one before it entered
* `Standing.Sound`, `Definition.Attains` — what is kept
* `Definition.Intact` — what holds after every call

## Main results

* `Definition.kept_attains` — passages lead from sound standings to sound standings
* `Definition.destination_mem_inside` — a target leads into the subtree of its state
* `Definition.Attains.active`, `Attains.lastSeen` — the active state, and the states seen last
* `Definition.intact_of_build`
-/

namespace Reactive

/-! ### Connected logs -/

/-- Each transition of a log, the latest first, leaves the state that the one before it entered.
The first leaves the root, and the last enters `current`. -/
def Connected : List Firing → (current : String) → Prop
  | [], current => current = rootState
  | f :: log, current => current = f.target ∧ Connected log f.source

/-- The states that were left, and the present one, are those that were entered, and the root. -/
theorem Connected.cons_source_eq {log : List Firing} {current : String} (h : Connected log current) :
    current :: log.map Firing.source = log.map Firing.target ++ [rootState] := by
  induction log generalizing current with
  | nil => exact congrArg ([·]) h
  | cons f log ih => exact congrArg₂ List.cons h.1 (ih h.2)

/-- Looking for a state by its lineage is looking for it in the subtree. -/
theorem StateTree.lastLeft?_eq_lastIn? {tree : StateTree} (h : tree.Distinct) {name : String}
    (hname : name ≠ rootState) (left : List String) :
    tree.lastLeft? left name = tree.lastIn? left name := by
  rw [lastLeft?, lastIn?]
  congr 1
  funext state
  rw [decide_eq_decide, mem_inside_iff h hname]

variable {m : Type → Type} {S E O : Type}

/-- The log of a standing is connected, and leads into states of the tree only. -/
structure Standing.Sound (tree : StateTree) (s : Standing) : Prop where
  connected : Connected s.log s.current
  declared : ∀ f ∈ s.log, f.target ∈ tree.names

namespace Standing.Sound

variable {tree : StateTree} {s : Standing}

theorem initial (model : Value) : (Standing.initial model).Sound tree := ⟨rfl, by rintro _ ⟨⟩⟩

theorem current_mem (h : s.Sound tree) (hlog : s.log ≠ []) : s.current ∈ tree.names := by
  obtain ⟨hconnected, hdeclared⟩ := h
  cases hs : s.log with
  | nil => exact absurd hs hlog
  | cons f log =>
    rw [hs] at hconnected hdeclared
    rw [hconnected.1]
    exact hdeclared f List.mem_cons_self

/-- The root is left by the first transition, for good. -/
theorem current_eq_root_iff (h : s.Sound tree) (hdistinct : tree.Distinct) :
    s.current = rootState ↔ s.log = [] := by
  constructor
  · intro hroot
    by_contra hlog
    exact hdistinct.ne_root (h.current_mem hlog) hroot
  · intro hlog
    have hconnected := h.connected
    rw [hlog] at hconnected
    exact hconnected

theorem current_declared (h : s.Sound tree) : s.current = rootState ∨ s.current ∈ tree.names := by
  by_cases hlog : s.log = []
  · have hconnected := h.connected
    rw [hlog] at hconnected
    exact Or.inl hconnected
  · exact Or.inr (h.current_mem hlog)

end Standing.Sound

namespace Definition

variable {d : Definition m S E O} {settings : S}

/-! ### Where branches lead -/

/-- The branches that handle an event are branches of transitions. -/
theorem exists_transition_of_handler? {state event owner : String}
    {branches : List (Branch m S E O)} (h : d.handler? state event = some (owner, branches))
    {branch : Branch m S E O} (hbranch : branch ∈ branches) :
    ∃ t ∈ d.transitions, branch ∈ t.branches := by
  obtain ⟨name, -, hname⟩ := List.exists_of_findSome?_eq_some h
  obtain ⟨found, hfound, heq⟩ := Option.map_eq_some_iff.mp hname
  obtain ⟨rfl, rfl⟩ := Prod.mk.inj heq
  rw [branchesOf?] at hfound
  split at hfound
  · cases hfound
  · next hmatching =>
    obtain rfl := Option.some.inj hfound
    obtain ⟨t, ht, hmem⟩ := List.mem_flatMap.mp hbranch
    exact ⟨t, (List.mem_filter.mp ht).1, hmem⟩

/-- **A target leads into the subtree of the state that it names**, whatever was left before. -/
theorem destination_mem_inside (h : d.states.Distinct) (left : List String) {target : Target}
    (htarget : target.name ∈ d.states.names) :
    d.destination left target ∈ d.states.inside target.name := by
  cases target with
  | state name => exact StateTree.mem_inside_self htarget
  | history group =>
    have hgroup : group ∈ d.states.names := htarget
    show (d.states.lastLeft? left group).getD group ∈ d.states.inside group
    cases hlast : d.states.lastLeft? left group with
    | none => exact StateTree.mem_inside_self hgroup
    | some state =>
      rw [Option.getD_some, StateTree.mem_inside_iff h (h.ne_root hgroup)]
      simpa using List.find?_some hlast

theorem sound_move (h : d.states.Distinct) {s : Standing} (hs : s.Sound d.states) {target : Target}
    (htarget : target.name ∈ d.states.names) (event : String) (depth : Nat) (model : Value) :
    (d.move s target event depth model).Sound d.states where
  connected := ⟨rfl, hs.connected⟩
  declared := by
    have hentered := d.states.inside_subset_names _
      (destination_mem_inside h (s.current :: s.left) htarget)
    exact List.forall_mem_cons.mpr ⟨hentered, hs.declared⟩

/-! ### What is kept -/

/-- An automaton belongs to a sound standing whose log is what a trail tells. -/
def Attains (d : Definition m S E O) (settings : S) (trail : List (Passage m S E O))
    (a : Automaton m S E O) : Prop :=
  ∃ s : Standing, a = d.realize settings s ∧ s.log = trail.map Passage.firing ∧ s.Sound d.states

theorem attains_initial : d.Attains settings [] (d.realize settings (.initial d.model)) :=
  ⟨_, rfl, rfl, .initial d.model⟩

/-- The table finds the handlers that the definition has. -/
theorem Attains.resolve?_eq (h : d.problems = []) {trail : List (Passage m S E O)}
    {a : Automaton m S E O} (ha : d.Attains settings trail a) (event : String) :
    a.table.resolve? a.current event = d.handler? a.current event := by
  obtain ⟨s, rfl, -, -⟩ := ha
  exact resolve?_tableAfter h s.log s.current event

/-- The present state calls for the event that the definition says. -/
theorem Attains.cascadeEvent?_eq (h : d.problems = []) {trail : List (Passage m S E O)}
    {a : Automaton m S E O} (ha : d.Attains settings trail a) :
    a.table.cascadeEvent? a.current = d.followUp? a.current := by
  obtain ⟨s, rfl, -, -⟩ := ha
  exact cascadeEvent?_tableAfter h s.log s.current

/-- A passage of a sound standing takes a branch whose target is declared. -/
theorem Attains.target_mem (h : d.problems = []) {trail : List (Passage m S E O)}
    {p : Passage m S E O} (hp : p.Lawful) (hbefore : d.Attains settings trail p.before) :
    p.branch.target.name ∈ d.states.names := by
  obtain ⟨owner, branches, hresolve, hbranch⟩ := hp.handled
  rw [hbefore.resolve?_eq h] at hresolve
  obtain ⟨t, ht, hmem⟩ := exists_transition_of_handler? hresolve hbranch
  exact target_mem_of_problems h ht hmem

/-- **Passages lead from sound standings to sound standings.** -/
theorem kept_attains (h : d.problems = []) : Kept (d.Attains settings) where
  passage := by
    intro trail p hp hbefore
    have htarget := hbefore.target_mem h hp
    obtain ⟨s, hs, hlog, hsound⟩ := hbefore
    have hdistinct := distinct_of_problems h
    have hafter : p.after
        = d.realize settings (d.move s p.branch.target p.event p.depth p.model) := by
      rw [Passage.after, hs, move_realize hdistinct]
    refine ⟨_, hafter, ?_, sound_move hdistinct hsound htarget p.event p.depth p.model⟩
    have hfiring : p.firing = ⟨s.current, p.event,
        d.destination (s.current :: s.left) p.branch.target, .ofNat p.depth⟩ := by
      rw [Passage.firing, Automaton.firing, hafter, hs]
      rfl
    rw [List.map_cons, hfiring, ← hlog]
    rfl
  drop := by
    rintro trail _ ⟨s, rfl, hlog, hsound⟩
    exact ⟨s.drop, rfl, hlog, ⟨hsound.connected, hsound.declared⟩⟩

/-! ### Reading the table -/

/-- After a connected log the present state is active and no other. The induction is on the log,
whose latest entry left the only state that was active. -/
theorem active_tableAfter (h : d.states.Distinct) {log : List Firing} {current : String}
    (hlog : Connected log current) {name : String} {record : StateRecord}
    (hrecord : (d.tableAfter log).record? name = some record) :
    record.active = true ↔ name = current := by
  induction log generalizing current record with
  | nil =>
    obtain rfl : current = rootState := hlog
    exact Table.active_of_record?_compile h hrecord
  | cons f log ih =>
    obtain ⟨rfl, hlog⟩ := hlog
    have hactive := Table.active_activate_leave (d.tableAfter log) f.source f.target name
    rw [tableAfter] at hrecord
    rw [hrecord, Option.map_some] at hactive
    obtain ⟨old, hold, hvalue⟩ := Option.map_eq_some_iff.mp hactive.symm
    have hbefore := ih hlog hold
    rw [← hvalue]
    by_cases htarget : name = f.target
    · simp [htarget]
    · by_cases hsource : name = f.source
      · simp [hsource]
      · simp [htarget, hsource, hbefore]

theorem shapes_tableAfter (d : Definition m S E O) (log : List Firing) :
    (d.tableAfter log).shapes = (Table.compile d.states d.transitions).shapes := by
  induction log with
  | nil => rfl
  | cons f log ih =>
    exact (Table.shapes_activate _ _).trans ((Table.shapes_leave _ _).trans ih)

theorem sorted_tableAfter (d : Definition m S E O) (log : List Firing) :
    (d.tableAfter log).records.Sorted := by
  rw [← Table.sorted_shapes, shapes_tableAfter, Table.sorted_shapes]
  exact Table.sorted_records_compile d.states d.transitions

namespace Attains

variable {trail : List (Passage m S E O)} {a : Automaton m S E O}

/-- Of all records one is active, the one of the present state. -/
theorem active (h : d.states.Distinct) (ha : d.Attains settings trail a) :
    ∃ record, a.table.record? a.current = some record ∧ record.name = a.current ∧
      (a.table.records.filter fun entry => entry.2.active) = [(a.current, record)] := by
  obtain ⟨s, rfl, -, hsound⟩ := ha
  show ∃ record, (d.tableAfter s.log).record? s.current = some record ∧ record.name = s.current ∧
    ((d.tableAfter s.log).records.filter fun entry => entry.2.active) = [(s.current, record)]
  have hsorted := sorted_tableAfter d s.log
  obtain ⟨record, hrecord⟩ := Option.isSome_iff_exists.mp
    ((isSome_record?_tableAfter h s.log s.current).mpr hsound.current_declared)
  refine ⟨record, hrecord, name_of_record?_tableAfter hrecord, ?_⟩
  rw [← hsorted.filter_key hrecord]
  refine List.filter_congr fun entry hentry => ?_
  have hfound : (d.tableAfter s.log).record? entry.1 = some entry.2 := hsorted.find?_of_mem hentry
  rw [Bool.eq_iff_iff, active_tableAfter h hsound.connected hfound, decide_eq_true_iff]

/-- **The state seen last in a declared state** is the one most recently left of those that lie in
its subtree. -/
theorem lastSeen (h : d.states.Distinct) (ha : d.Attains settings trail a) {state : String}
    (hstate : state ∈ d.states.names) :
    a.lastSeen? state = d.states.lastIn? (trail.map Passage.source) state := by
  obtain ⟨s, rfl, hlog, -⟩ := ha
  refine (lastSeen_tableAfter h s.log state).trans ?_
  rw [hlog, Passage.map_source_firing, StateTree.lastLeft?_eq_lastIn? h (h.ne_root hstate)]

/-- A target leads into the subtree of the state that it names. -/
theorem destination_mem (h : d.states.Distinct) (ha : d.Attains settings trail a) {target : Target}
    (htarget : target.name ∈ d.states.names) :
    a.table.destination target ∈ d.states.inside target.name := by
  cases target with
  | state name => exact StateTree.mem_inside_self htarget
  | history group =>
    have hgroup : group ∈ d.states.names := htarget
    show (a.lastSeen? group).getD group ∈ d.states.inside group
    rw [ha.lastSeen h hgroup]
    cases hlast : d.states.lastIn? (trail.map Passage.source) group with
    | none => exact StateTree.mem_inside_self hgroup
    | some state => exact StateTree.mem_inside_of_lastIn? hlast

/-- A passage enters the subtree of the state that its target names. -/
theorem after_mem (h : d.problems = []) {p : Passage m S E O} (hp : p.Lawful)
    (hbefore : d.Attains settings trail p.before) :
    p.after.current ∈ d.states.inside p.branch.target.name := by
  have hdistinct := distinct_of_problems h
  have htarget := hbefore.target_mem h hp
  obtain ⟨s, hs, -, -⟩ := hbefore
  rw [Passage.after, hs, move_realize hdistinct]
  exact destination_mem_inside hdistinct (s.current :: s.left) htarget

end Attains

/-! ### After every call -/

/-- What is always true of an automaton that was built as `built`, after the passages of a
trail. -/
structure Intact (d : Definition m S E O) (built : Automaton m S E O)
    (trail : List (Passage m S E O)) (a : Automaton m S E O) : Prop where
  /-- It rests in the root until something fires, and never again. -/
  current_eq_root_iff : a.current = rootState ↔ trail = []
  current_mem : trail ≠ [] → a.current ∈ d.states.names
  /-- Of all records one is active, the one of the present state. -/
  active : ∃ record, a.table.record? a.current = some record ∧ record.name = a.current ∧
    (a.table.records.filter fun entry => entry.2.active) = [(a.current, record)]
  lastSeen_mem : ∀ state ∈ d.states.names, ∀ seen,
    a.lastSeen? state = some seen → seen ∈ d.states.inside state
  /-- A target leads to a declared state, in the subtree of the one that it names. -/
  destination_mem : ∀ target : Target, target.name ∈ d.states.names →
    a.table.destination target ∈ d.states.names ∧
      a.table.destination target ∈ d.states.inside target.name
  /-- So did the targets of all branches that were taken. -/
  after_mem : ∀ p ∈ trail, p.after.current ∈ d.states.inside p.branch.target.name
  /-- There are the records that were built, and only what happens at run time differs in them. -/
  shapes : a.table.shapes = built.table.shapes

theorem intact_of_attains (h : d.problems = []) {trail : List (Passage m S E O)}
    {a : Automaton m S E O} (ha : d.Attains settings trail a)
    (htrail : ∀ p ∈ trail, p.after.current ∈ d.states.inside p.branch.target.name) :
    d.Intact (d.realize settings (.initial d.model)) trail a := by
  have hdistinct := distinct_of_problems h
  have hlog : ∀ s : Standing, s.log = trail.map Passage.firing → (s.log = [] ↔ trail = []) := by
    intro s hs
    rw [hs, List.map_eq_nil_iff]
  constructor
  case current_eq_root_iff =>
    obtain ⟨s, rfl, hs, hsound⟩ := ha
    exact (hsound.current_eq_root_iff hdistinct).trans (hlog s hs)
  case current_mem =>
    obtain ⟨s, rfl, hs, hsound⟩ := ha
    exact fun htrail => hsound.current_mem (mt (hlog s hs).mp htrail)
  case active => exact ha.active hdistinct
  case lastSeen_mem =>
    intro state hstate seen hseen
    rw [ha.lastSeen hdistinct hstate] at hseen
    exact StateTree.mem_inside_of_lastIn? hseen
  case destination_mem =>
    intro target htarget
    have hmem := ha.destination_mem hdistinct htarget
    exact ⟨d.states.inside_subset_names _ hmem, hmem⟩
  case after_mem => exact htrail
  case shapes =>
    obtain ⟨s, rfl, -, -⟩ := ha
    exact shapes_tableAfter d s.log

variable [Monad m] [LawfulMonad m]

/-- **A built automaton stays intact.** After every call of every run, whether the call succeeded,
failed or crashed, the automaton rests in the root if nothing has fired and in a declared state
otherwise, this state is active and no other, every group remembers a state of its own subtree or
none, targets lead into the subtrees of the states that they name, and the records are those that
were built but for what happens at run time. Without the trail, the run is what the calls give. -/
theorem intact_of_build {a : Automaton m S E O} (h : d.build settings = .ok a)
    (calls : List (Call E)) :
    SatisfiesM (fun dones => ∀ done ∈ dones, d.Intact a done.1 done.2.1) (a.runTrail calls [])
      ∧ List.map Prod.snd <$> a.runTrail calls [] = a.run calls := by
  obtain ⟨hproblems, -, rfl⟩ := build_eq_ok_iff.mp h
  refine ⟨?_, Automaton.map_snd_runTrail calls [] _⟩
  have hkept : Kept fun trail a => d.Attains settings trail a ∧
      ∀ p earlier, p :: earlier <:+ trail → p.after.current ∈ d.states.inside p.branch.target.name :=
    (kept_attains hproblems).and_suffix fun hp hbefore => hbefore.after_mem hproblems hp
  refine (hkept.runTrail calls ⟨attains_initial, ?_⟩).imp fun hdones done hdone => ?_
  · intro p earlier hsuffix
    cases List.suffix_nil.mp hsuffix
  · obtain ⟨hattains, hsuffixes⟩ := hdones done hdone
    refine intact_of_attains hproblems hattains fun p hp => ?_
    obtain ⟨later, earlier, heq⟩ := List.append_of_mem hp
    exact hsuffixes p earlier ⟨later, heq.symm⟩

/-- A desk that is closed or open, for reading or writing. Actions are counted. -/
def desk : Definition (StateM Nat) Unit Unit String where
  states := [.group "open" [.leaf "reading", .leaf "writing"], .leaf "closed"]
  events := ["write", "tear", "burn", "close", "reopen"]
  transitions :=
    [⟨rootState, some initEvent, [{ target := .state "open" }]⟩,
      ⟨"open", some initEvent, [{ target := .state "reading" }]⟩,
      ⟨"reading", some "write", [{ target := .state "writing" }]⟩,
      ⟨"open", some "tear",
        [{ target := .state "closed"
           action := some ⟨fun _ _ _ => do
             modify (· + 1)
             pure (.ok ⟨[.remove "/page"], some "torn"⟩)⟩ }]⟩,
      ⟨"open", some "burn",
        [{ target := .state "closed"
           action := some ⟨fun _ _ _ => do
             modify (· + 1)
             pure (.error (.saying "fire"))⟩ }]⟩,
      ⟨"open", some "close", [{ target := .state "closed" }]⟩,
      ⟨"closed", some "reopen", [{ target := .history "open" }]⟩]

/-- A day at the desk. There is no page to tear, and burning goes wrong. -/
def deskDay : List (Call Unit) :=
  [.start (), .send "write" (), .send "tear" (), .send "burn" (), .send "close" (),
    .send "reopen" ()]

theorem build_desk : desk.build () = .ok (desk.realize () (.initial desk.model)) :=
  build_eq_ok_iff.mpr ⟨by decide, by decide, rfl⟩

theorem intact_of_build_desk :
    desk.build () = .ok (desk.realize () (.initial desk.model)) ∧
      (∀ done ∈ (((desk.realize () (.initial desk.model)).runTrail deskDay []).run 0).1,
        desk.Intact (desk.realize () (.initial desk.model)) done.1 done.2.1) ∧
      ((((desk.realize () (.initial desk.model)).runTrail deskDay []).run 0).1.map fun done =>
          (done.2.1.current, done.1.length, done.2.2.toBool))
        = [("reading", 2, true), ("writing", 3, true), ("writing", 3, false),
          ("writing", 3, false), ("closed", 4, true), ("writing", 5, true)] :=
  ⟨build_desk, satisfiesM_iff_run.mp (intact_of_build build_desk deskDay).1 0, by decide +kernel⟩

end Definition

end Reactive
