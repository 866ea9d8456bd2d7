import Reactive.Proofs.Compilation
import Reactive.Proofs.Direct

/-!
# Tables do what definitions say

Every standing of a definition has its automaton: the table compiled from the definition, with what
has happened since done to it, from the oldest entry of the log to the latest. The main result is
that the automaton of a standing goes where the standing goes, step by step, in any monad that
guards and actions may run in.

So what holds of the automata of all standings holds of everything that a built automaton can
become.

## Main definitions

* `Definition.tableAfter`, `Definition.realize` — the automaton of a standing
* `Observation` — what is compared after each call

## Main results

* `resolve?_tableAfter`, `cascadeEvent?_tableAfter`, `destination_tableAfter`
* `Definition.settleLog_realize`, `runLog_realize` — calls and runs
* `Definition.observations_of_build` — a built automaton does what its definition says
-/

namespace Reactive

namespace Definition

variable {m : Type → Type} {S E O : Type}

/-! ### The automaton of a standing -/

/-- The compiled table after everything in a log has fired. -/
def tableAfter (d : Definition m S E O) : List Firing → Table m S E O
  | [] => .compile d.states d.transitions
  | f :: log => ((d.tableAfter log).leave f.source).activate f.target

/-- What a trace keeps of a log. -/
def traceOf (d : Definition m S E O) (log : List Firing) : Trace Firing :=
  log.foldr (fun f trace => trace.record f) (.ofCapacity d.config.traceCapacity)

/-- The automaton of a standing. -/
def realize (d : Definition m S E O) (settings : S) (s : Standing) : Automaton m S E O where
  table := d.tableAfter s.log
  current := s.current
  model := s.model
  settings
  config := d.config
  trace := d.traceOf s.log
  dropped := s.dropped

/-- Building gives the automaton of the standing in which nothing has happened. -/
theorem build_eq_ok_iff {d : Definition m S E O} {settings : S} {a : Automaton m S E O} :
    d.build settings = .ok a ↔ d.problems = [] ∧ Trace.isReservable d.config.traceCapacity = true ∧
      a = d.realize settings (.initial d.model) := by
  unfold build
  cases hproblems : d.problems with
  | cons problem rest => simp
  | nil =>
    cases hroom : Trace.isReservable d.config.traceCapacity with
    | false => simp
    | true =>
      simp only [if_true, Except.ok.injEq, true_and]
      exact eq_comm

/-! ### Looking up -/

variable {d : Definition m S E O}

theorem sameShape_tableAfter (d : Definition m S E O) (log : List Firing) :
    Table.SameShape (d.tableAfter log) (.compile d.states d.transitions) := by
  induction log with
  | nil => exact .refl _
  | cons f log ih =>
    exact (Table.SameShape.activate _ _).trans ((Table.SameShape.leave _ _).trans ih)

theorem branches?_tableAfter (d : Definition m S E O) (log : List Firing) (state event : String) :
    (d.tableAfter log).branches? state event = d.branchesOf? state event := by
  rw [Table.branches?, (d.sameShape_tableAfter log).handlers]
  exact Table.branches?_compile state event

theorem name_of_record?_tableAfter {log : List Firing} {name : String} {record : StateRecord}
    (h : (d.tableAfter log).record? name = some record) : record.name = name :=
  (d.sameShape_tableAfter log).name_of_record? Table.name_of_record?_compile h

theorem isSome_record?_tableAfter (h : d.states.Distinct) (log : List Firing) (name : String) :
    ((d.tableAfter log).record? name).isSome = true ↔ name = rootState ∨ name ∈ d.states.names := by
  rw [← Option.isSome_map, (d.sameShape_tableAfter log).shape, Option.isSome_map]
  exact Table.isSome_record?_compile h name

theorem map_name_ancestors_tableAfter (h : d.states.Distinct) (log : List Firing) (name : String) :
    ((d.tableAfter log).ancestors name).map StateRecord.name = (d.states.lineage name).tail :=
  ((d.sameShape_tableAfter log).map_name_ancestors name).trans (Table.map_name_ancestors h name)

/-- A name that no transition leaves has no branches. -/
theorem branchesOf?_eq_none {state event : String} (h : ∀ t ∈ d.transitions, t.source ≠ state) :
    d.branchesOf? state event = none := by
  have hnil : (d.transitions.filter fun t => t.source = state ∧ t.eventName = event) = [] := by
    rw [List.filter_eq_nil_iff]
    intro t ht
    simp [h t ht]
  rw [branchesOf?, hnil]

/-- Of the lineage of a state, the state itself may handle events and then the groups around it. -/
theorem filter_lineage (tree : StateTree) {state : String}
    (h : state = rootState ∨ state ∈ tree.names) :
    ((tree.lineage state).filter fun name => name ≠ rootState ∨ state = rootState)
      = state :: (tree.lineage state).tail.filter fun name => name ≠ rootState := by
  by_cases hroot : state = rootState
  · subst hroot
    simp
  · rw [← StateTree.cons_tail_lineage h, List.tail_cons, List.filter_cons_of_pos (by simp [hroot])]
    simp [hroot]

/-- **Resolving an event in the table finds the handler that the definition has.** -/
theorem resolve?_tableAfter (h : d.problems = []) (log : List Firing) (state event : String) :
    (d.tableAfter log).resolve? state event = d.handler? state event := by
  have hdistinct := distinct_of_problems h
  have hrecord := isSome_record?_tableAfter hdistinct log state
  have habove : (((d.tableAfter log).ancestors state).filter fun record =>
        record.name ≠ rootState).findSome? (fun record =>
          ((d.tableAfter log).branches? record.name event).map fun branches =>
            (record.name, branches))
      = ((d.states.lineage state).tail.filter fun name => name ≠ rootState).findSome? fun name =>
          (d.branchesOf? name event).map fun branches => (name, branches) := by
    rw [← map_name_ancestors_tableAfter hdistinct log, List.filter_map, List.findSome?_map]
    simp only [branches?_tableAfter]
    rfl
  rw [Table.resolve?, branches?_tableAfter, habove, handler?]
  by_cases hdeclared : state = rootState ∨ state ∈ d.states.names
  · obtain ⟨record, hfound⟩ := Option.isSome_iff_exists.mp (hrecord.mpr hdeclared)
    rw [filter_lineage _ hdeclared, List.findSome?_cons, hfound]
    cases d.branchesOf? state event with
    | none => rfl
    | some branches =>
      exact congrArg (fun name => some (name, branches)) (name_of_record?_tableAfter hfound)
  · have hsource : ∀ t ∈ d.transitions, t.source ≠ state :=
      fun t ht he => hdeclared (he ▸ source_mem_of_problems h ht)
    obtain ⟨hroot, hname⟩ := not_or.mp hdeclared
    rw [branchesOf?_eq_none hsource, StateTree.lineage_eq_nil hroot hname]
    rfl

/-- The event that a state with a given record calls for. -/
private def calledFor (record : StateRecord) : Option String :=
  if record.isAutomatic then some (if record.isInitial then initEvent else autoEvent) else none

private theorem calledFor_recordOf {state : String} {isGroup : Bool}
    (hgroup : d.states.isGroup state = (isGroup && state ≠ rootState)) (parent : Option String) :
    calledFor (Table.recordOf d.transitions state parent isGroup) = d.followUp? state := by
  have heventless : (d.transitions.any fun t => t.source = state && t.isAutomatic)
      = d.hasTransition state none := by
    unfold hasTransition Transition.isAutomatic
    congr 1
    funext t
    cases t.event <;> simp
  have hinitial : (d.transitions.any fun t => t.source = state && t.isInitial)
      = d.hasTransition state (some initEvent) := rfl
  simp only [calledFor, Table.recordOf, heventless, hinitial, followUp?, hgroup]
  cases isGroup <;> cases decide (state ≠ rootState) <;> simp

/-- **An entered state calls for the event that the definition says.** -/
theorem cascadeEvent?_tableAfter (h : d.problems = []) (log : List Firing) (state : String) :
    (d.tableAfter log).cascadeEvent? state = d.followUp? state := by
  have hdistinct := distinct_of_problems h
  have hcompiled : (d.tableAfter log).cascadeEvent? state
      = ((Table.compile d.states d.transitions).record? state).bind calledFor := by
    rw [← (d.sameShape_tableAfter log).bind_eq (fun _ => rfl) state, Table.cascadeEvent?]
    cases (d.tableAfter log).record? state <;> rfl
  rw [hcompiled]
  by_cases hroot : state = rootState
  · subst hroot
    rw [Table.record?_compile_root hdistinct, Option.bind_some]
    have hgroup : d.states.isGroup rootState = (true && rootState ≠ rootState) := by
      simpa [StateTree.isGroup] using declaresGroup_eq_false_of_notMem hdistinct.root_notMem
    exact calledFor_recordOf hgroup none
  · by_cases hname : state ∈ d.states.names
    · obtain ⟨e, he, rfl⟩ := List.mem_map.mp hname
      rw [Table.record?_compile_of_mem hdistinct he, Option.bind_some]
      refine calledFor_recordOf ?_ (some e.parent)
      simpa [StateTree.isGroup, hroot] using declaresGroup_of_mem hdistinct.nodup he
    · have hsource : ∀ event, d.hasTransition state event = false := by
        intro event
        simp only [hasTransition, List.any_eq_false, Bool.and_eq_true, decide_eq_true_eq, not_and]
        intro t ht he
        rcases source_mem_of_problems h ht with hs | hs
        · exact absurd (he.symm.trans hs) hroot
        · exact absurd (he ▸ hs) hname
      rw [Table.record?_compile_eq_none hroot hname, followUp?]
      simp [hsource]

/-! ### History -/

/-- **The marks in the table are the history in the log.** The induction is on the log, whose latest
entry marked the state it left and everything around it. -/
theorem lastSeen_tableAfter (h : d.states.Distinct) (log : List Firing) (group : String) :
    ((d.tableAfter log).record? group).bind StateRecord.lastSeen
      = d.states.lastLeft? (log.map Firing.source) group := by
  induction log with
  | nil => exact Table.lastSeen_compile group
  | cons f log ih =>
    rw [tableAfter, Table.lastSeen_activate, Table.lastSeen_leave, ih,
      map_name_ancestors_tableAfter h, List.map_cons, StateTree.lastLeft?_cons]
    have hrecord := isSome_record?_tableAfter h log group
    by_cases hdeclared : group = rootState ∨ group ∈ d.states.names
    · obtain ⟨record, hfound⟩ := Option.isSome_iff_exists.mp (hrecord.mpr hdeclared)
      have hmem : group ∈ f.source :: (d.states.lineage f.source).tail
          ↔ group ∈ d.states.lineage f.source := by
        by_cases hsource : f.source = rootState ∨ f.source ∈ d.states.names
        · rw [StateTree.cons_tail_lineage hsource]
        · have hne : group ≠ f.source := fun he => hsource (he ▸ hdeclared)
          obtain ⟨hroot, hname⟩ := not_or.mp hsource
          simp [StateTree.lineage_eq_nil hroot hname, hne]
      by_cases hin : group ∈ d.states.lineage f.source
      · rw [if_pos (hmem.mpr hin), if_pos hin, hfound, Option.map_some]
      · rw [if_neg fun hc => hin (hmem.mp hc), if_neg hin]
    · have hnone : (d.tableAfter log).record? group = none := by
        rw [← Option.not_isSome_iff_eq_none, hrecord]
        exact hdeclared
      have hout : group ∉ d.states.lineage f.source :=
        fun hmem => hdeclared (StateTree.mem_lineage hmem)
      rw [hnone, Option.bind_none] at ih
      rw [hnone, if_neg hout, ← ih]
      simp

/-- **A target leads where the log says**, the state just left included. -/
theorem destination_tableAfter (h : d.states.Distinct) (log : List Firing) (source : String)
    (target : Target) : ((d.tableAfter log).leave source).destination target
      = d.destination (source :: log.map Firing.source) target := by
  cases target with
  | state name => rfl
  | history group =>
    have hseen := lastSeen_tableAfter h (⟨source, "", "", 0⟩ :: log) group
    rw [tableAfter, Table.lastSeen_activate] at hseen
    exact congrArg (Option.getD · group) hseen

/-! ### One event -/

/-- The standing and its automaton move alike. -/
theorem move_realize (h : d.states.Distinct) (settings : S) (s : Standing) (target : Target)
    (event : String) (depth : Nat) (model : Value) :
    (d.realize settings s).move target event depth model
      = d.realize settings (d.move s target event depth model) := by
  have hentered := destination_tableAfter h s.log s.current target
  simp only [Automaton.move, realize, move, tableAfter, traceOf, List.foldr_cons, Standing.left,
    hentered]

variable [Monad m] [LawfulMonad m]

/-- What an attempt in a standing means for its automaton. -/
def stepOf (d : Definition m S E O) (settings : S) (s : Standing) (event : String) (depth : Nat) :
    Attempt O → Automaton.Step m S E O
  | .blocked => .blocked
  | .halted halt => .halted halt
  | .fires target model output =>
    .fired (d.realize settings (d.move s target event depth model)) output

/-- Running the action of a branch. -/
theorem run_realize (h : d.states.Distinct) (settings : S) (s : Standing) (event : String)
    (data : E) (depth : Nat) (branch : Branch m S E O) :
    (do
      match ← branch.run s.model data settings with
      | .error crash => pure (.halted (.crashed crash))
      | .ok result =>
        match Patch.apply result.update s.model with
        | .error cause => pure (.halted (.failed (.modelUpdate s.current event cause)))
        | .ok model =>
          pure (.fired ((d.realize settings s).move branch.target event depth model) result.output))
      = d.stepOf settings s event depth <$> fire settings data event s branch := by
  rw [fire, Branch.run]
  cases branch.action with
  | none =>
    have hnothing : Patch.apply [] s.model = .ok s.model := rfl
    simp [ActionResult.none, hnothing, move_realize h, stepOf]
  | some action =>
    rw [map_bind]
    refine bind_congr fun asked => ?_
    cases asked with
    | error crash => simp [stepOf]
    | ok asked =>
      cases happly : Patch.apply asked.update s.model with
      | error cause => simp [happly, stepOf]
      | ok model => simp [happly, stepOf, move_realize h]

/-- Trying branches. The induction is on the branches: those that do not pass are skipped alike. -/
theorem firstPassing_realize (h : d.states.Distinct) (settings : S) (s : Standing) (event : String)
    (data : E) (depth : Nat) (branches : List (Branch m S E O)) :
    (do
      match ← firstPassing s.model data settings branches with
      | .error crash => pure (.halted (.crashed crash))
      | .ok none => pure .blocked
      | .ok (some branch) =>
        match ← branch.run s.model data settings with
        | .error crash => pure (.halted (.crashed crash))
        | .ok result =>
          match Patch.apply result.update s.model with
          | .error cause => pure (.halted (.failed (.modelUpdate s.current event cause)))
          | .ok model =>
            pure (.fired ((d.realize settings s).move branch.target event depth model)
              result.output))
      = d.stepOf settings s event depth <$> attempt settings data event s branches := by
  induction branches with
  | nil => simp [firstPassing, attempt, stepOf]
  | cons branch rest ih =>
    rw [firstPassing, attempt, Branch.passes]
    cases branch.guard with
    | none =>
      simp only [pure_bind]
      exact run_realize h settings s event data depth branch
    | some guard =>
      rw [bind_assoc, map_bind]
      refine bind_congr fun verdict => ?_
      match verdict with
      | .error crash => simp [stepOf]
      | .ok true =>
        simp only [pure_bind]
        exact run_realize h settings s event data depth branch
      | .ok false => exact ih

/-- **One event.** -/
theorem step_realize (h : d.problems = []) (settings : S) (s : Standing) (event : String) (data : E)
    (depth : Nat) : (d.realize settings s).step event data depth
      = match d.handler? s.current event with
        | none => pure .unhandled
        | some (_, branches) =>
          d.stepOf settings s event depth <$> attempt settings data event s branches := by
  rw [Automaton.step, show (d.realize settings s).table = d.tableAfter s.log from rfl,
    show (d.realize settings s).current = s.current from rfl, resolve?_tableAfter h]
  cases d.handler? s.current event with
  | none => rfl
  | some found =>
    exact firstPassing_realize (distinct_of_problems h) settings s event data depth found.2

/-! ### Calls and runs -/

/-- The log, the automaton and the result that belong to the end of a call. -/
def outcomeOf (d : Definition m S E O) (settings : S) (done : Standing × Except Halt (Option O)) :
    List Firing × Automaton m S E O × Except Halt (Option O) :=
  (done.1.log, d.realize settings done.1, done.2)

/-- **The events of one call.** The induction is on the number of transitions that are left. -/
theorem settleLog_realize (h : d.problems = []) (settings : S) (data : E) (remaining depth : Nat)
    (event : String) (s : Standing) :
    Automaton.settleLog data remaining depth event s.log (d.realize settings s)
      = d.outcomeOf settings <$> d.settle settings data remaining depth event s := by
  have hcalled : ∀ next : Standing,
      (d.realize settings next).table.cascadeEvent? (d.realize settings next).current
        = d.followUp? next.current :=
    fun next => cascadeEvent?_tableAfter h next.log next.current
  induction remaining using Nat.strongRecOn generalizing depth event s with
  | ind remaining ih =>
    rw [Automaton.settleLog, settle, step_realize h]
    cases d.handler? s.current event with
    | none =>
      by_cases hdepth : depth = 0
      · simp only [hdepth, if_true, pure_bind, map_pure]
        rfl
      · simp only [hdepth, if_false, pure_bind, map_pure]
        rfl
    | some found =>
      simp only [map_bind, bind_map_left]
      refine bind_congr fun attempted => ?_
      cases attempted with
      | blocked => simp [stepOf, outcomeOf]
      | halted halt => simp [stepOf, outcomeOf]
      | fires target model output =>
        simp only [stepOf, hcalled]
        cases d.followUp? (d.move s target event depth model).current with
        | none =>
          rw [map_pure]
          rfl
        | some event' =>
          cases remaining with
          | zero =>
            simp only [map_pure]
            rfl
          | succ remaining =>
            exact ih remaining (Nat.lt_succ_self _) (depth + 1) event'
              (d.move s target event depth model)

/-- **A call.** -/
theorem callLog_realize (h : d.problems = []) (settings : S) (s : Standing) (c : Call E) :
    (d.realize settings s).callLog s.log c = d.outcomeOf settings <$> d.call settings s c := by
  cases c with
  | start data =>
    rw [Automaton.callLog, call, show (d.realize settings s).current = s.current from rfl]
    split
    · exact settleLog_realize h settings data _ 0 initEvent s
    · rw [map_pure]
      rfl
  | send event data => exact settleLog_realize h settings data _ 0 event s

/-- **A run.** -/
theorem runLog_realize (h : d.problems = []) (settings : S) (calls : List (Call E)) (s : Standing) :
    Automaton.runLog calls s.log (d.realize settings s)
      = List.map (d.outcomeOf settings) <$> d.run settings calls s := by
  induction calls generalizing s with
  | nil => rw [Automaton.runLog, run, map_pure, List.map_nil]
  | cons c rest ih =>
    rw [Automaton.runLog, run, callLog_realize h, map_bind, bind_map_left]
    refine bind_congr fun done => ?_
    simp only [outcomeOf, ih, bind_map_left, map_bind, map_pure, List.map_cons]

end Definition

/-! ### What can be seen -/

/-- What is known after a call. -/
structure Observation (O : Type) where
  /-- Everything that has fired so far, the latest first. -/
  log : List Firing
  current : String
  model : Value
  dropped : Nat
  result : Except Halt (Option O)

namespace Observation

variable {m : Type → Type} {S E O : Type}

/-- What is seen of an automaton after a call. -/
def ofAutomaton (done : List Firing × Automaton m S E O × Except Halt (Option O)) :
    Observation O :=
  ⟨done.1, done.2.1.current, done.2.1.model, done.2.1.dropped, done.2.2⟩

/-- What a definition says is to be seen after a call. -/
def ofStanding (done : Standing × Except Halt (Option O)) : Observation O :=
  ⟨done.1.log, done.1.current, done.1.model, done.1.dropped, done.2⟩

end Observation

namespace Definition

variable {m : Type → Type} {S E O : Type} [Monad m] [LawfulMonad m]

/-- **A built automaton does what its definition says.** After every call of every run both are
seen to have fired the same transitions and to be in the same state, with the same model, count of
dropped events and result. Guards and actions run in any monad, so they also run in the same order
and as often. The log is that of the run itself: without it, the run is what the calls give. -/
theorem observations_of_build {d : Definition m S E O} {settings : S} {a : Automaton m S E O}
    (h : d.build settings = .ok a) (calls : List (Call E)) :
    List.map Observation.ofAutomaton <$> a.runLog calls []
        = List.map Observation.ofStanding <$> d.run settings calls (.initial d.model)
      ∧ List.map Prod.snd <$> a.runLog calls [] = a.run calls := by
  obtain ⟨hproblems, -, rfl⟩ := build_eq_ok_iff.mp h
  have hrun := runLog_realize hproblems settings calls (.initial d.model)
  refine ⟨?_, Automaton.map_runLog calls [] _⟩
  rw [show (Standing.initial d.model).log = [] from rfl] at hrun
  rw [hrun, Functor.map_map]
  congr 1
  funext done
  rw [List.map_map]
  rfl

/-- A player that is off, or on and then playing at some speed or paused. Guards leave a word. -/
def player : Definition (StateM (List String)) Unit Unit String where
  states :=
    [.leaf "off", .group "on" [.group "playing" [.leaf "slow", .leaf "fast"], .leaf "paused"]]
  events := ["power", "speed", "pause"]
  transitions :=
    [⟨rootState, some initEvent, [{ target := .state "off" }]⟩,
      ⟨"off", some "power", [{ target := .history "on" }]⟩,
      ⟨"on", some initEvent, [{ target := .state "playing" }]⟩,
      ⟨"playing", some initEvent,
        [{ target := .state "fast"
           guard := some ⟨fun model _ _ => do
             modify ("fast?" :: ·)
             pure (.ok (model.member? "fast" = some (.bool true)))⟩ },
          { target := .state "slow" }]⟩,
      ⟨"slow", some "speed",
        [{ target := .state "fast"
           action := some ⟨fun _ _ _ =>
             pure (.ok ⟨[.add "/fast" (.bool true)], some "faster"⟩)⟩ }]⟩,
      ⟨"playing", some "pause", [{ target := .state "paused" }]⟩,
      ⟨"paused", some "pause", [{ target := .history "playing" }]⟩,
      ⟨"on", some "power", [{ target := .state "off" }]⟩]

theorem observations_of_build_player :
    player.build () = .ok (player.realize () (.initial player.model)) ∧
      List.map Observation.ofAutomaton <$>
          (player.realize () (.initial player.model)).runLog
            [.start (), .send "power" (), .send "speed" (), .send "pause" (), .send "power" (),
              .send "power" (), .send "pause" (), .send "stop" ()] []
        = List.map Observation.ofStanding <$>
            player.run ()
              [.start (), .send "power" (), .send "speed" (), .send "pause" (), .send "power" (),
                .send "power" (), .send "pause" (), .send "stop" ()] (.initial player.model) := by
  have hbuild : player.build () = .ok (player.realize () (.initial player.model)) :=
    build_eq_ok_iff.mpr ⟨by decide, by decide, rfl⟩
  exact ⟨hbuild, (observations_of_build hbuild _).1⟩

end Definition

end Reactive
