import Reactive.Proofs.Descents

/-!
# What an automatic state calls for

Whether a state goes on by itself is marked in its record, and what it can handle stands in another
part of the table. The marks are made from the list of transitions and from the tree, and the
handlers from the list alone, also where a transition has no branches. Still the two agree: an event
that a state calls for is one that it has a transition for. So it is handled by the state itself and
never by a group around it, and no call ends because nothing handles what an automatic state has
called for.

A call may end in such a state for another reason. Then the guards of the state have been asked
about the model that the call has led to, with the data that it was made with, and none has let its
branch pass.

Guards may be anything, and they may have effects. `Answers branch model data passes` is what is
known of a guard that has answered, and it may be anything that is true of all answers.

## Main definitions

* `Definition.AlwaysAnswers` — what is known of guards
* `Definition.ServesItself` — an event is handled by the present state itself
* `Definition.Rests` — what is true of a call when it has ended

## Main results

* `Definition.exists_transition_of_followUp?` — **marks and handlers agree**
* `Definition.Attains.servesItself`
* `Definition.rests_of_build`
-/

namespace Reactive

variable {m : Type → Type} {S E O : Type}

/-- A state that calls for no event is not automatic. -/
theorem Table.isAutomatic_of_cascadeEvent?_eq_none {T : Table m S E O} {name : String}
    {record : StateRecord} (hrecord : T.record? name = some record)
    (h : T.cascadeEvent? name = none) : record.isAutomatic = false := by
  rw [cascadeEvent?, hrecord] at h
  simpa using h

namespace Automaton

/-- An event that has a handler is not unhandled. -/
theorem satisfiesM_step_ne_unhandled [Monad m] [LawfulMonad m] {a : Automaton m S E O}
    {event : String} (h : a.table.resolve? a.current event ≠ none) (data : E) (depth : Nat) :
    SatisfiesM (fun step => step ≠ .unhandled) (a.step event data depth) := by
  rw [← map_toStep_handle]
  refine (satisfiesM_treats (knownToAsk_trivial data a event) depth).map fun htreats => ?_
  cases htreats with
  | unhandled hnone => exact absurd hnone h
  | blocked _ | halted _ | passed _ => rintro ⟨⟩

end Automaton

namespace Definition

variable {d : Definition m S E O} {settings : S}

/-! ### Marks and handlers -/

/-- **A state calls for what it has a transition for.** -/
theorem exists_transition_of_followUp? {state event : String}
    (h : d.followUp? state = some event) :
    ∃ t ∈ d.transitions, t.source = state ∧ t.eventName = event := by
  rw [followUp?] at h
  by_cases hinitial : d.hasTransition state (some initEvent) = true
  · obtain ⟨t, ht, hsource, hevent⟩ := hasTransition_eq_true_iff.mp hinitial
    have hname := Transition.eventName_eq_initEvent_iff.mpr hevent
    simp only [hinitial, if_true, Option.ite_none_right_eq_some, Option.some.injEq] at h
    exact ⟨t, ht, hsource, hname.trans h.2⟩
  · simp only [hinitial, Bool.and_false, Bool.or_false, Bool.false_eq_true, if_false,
      Option.ite_none_right_eq_some, Option.some.injEq] at h
    obtain ⟨t, ht, hsource, hevent⟩ := hasTransition_eq_true_iff.mp h.1
    exact ⟨t, ht, hsource, by rw [Transition.eventName, hevent, Option.getD_none, h.2]⟩

/-- The event is handled by the present state itself. -/
structure ServesItself [Monad m] (d : Definition m S E O) (a : Automaton m S E O)
    (event : String) : Prop where
  declared : ∃ t ∈ d.transitions, t.source = a.current ∧ t.eventName = event
  /-- The branches of these transitions, in the order of the list, are those that are tried. -/
  resolved : ∃ branches, d.branchesOf? a.current event = some branches ∧
    a.table.branches? a.current event = some branches ∧
    a.table.resolve? a.current event = some (a.current, branches)
  /-- There may be none, but the event is never without a handler. -/
  handled : ∀ data depth, SatisfiesM (fun step => step ≠ .unhandled) (a.step event data depth)

variable [Monad m] [LawfulMonad m]

/-- **What a declared state calls for it handles itself.** -/
theorem Attains.servesItself (h : d.problems = []) {trail : List (Passage m S E O)}
    {a : Automaton m S E O} (ha : d.Attains settings trail a)
    (hcurrent : a.current ∈ d.states.names) {event : String}
    (hevent : a.table.cascadeEvent? a.current = some event) : d.ServesItself a event := by
  rw [ha.cascadeEvent?_eq h] at hevent
  obtain ⟨t, ht, hsource, hname⟩ := exists_transition_of_followUp? hevent
  have hown := branchesOf?_of_mem ht
  rw [hsource, hname] at hown
  have hresolve := (ha.resolve?_eq h event).trans (handler?_of_branchesOf? hcurrent hown)
  have htable : a.table.branches? a.current event = d.branchesOf? a.current event := by
    obtain ⟨s, rfl, -, -⟩ := ha
    exact branches?_tableAfter d s.log s.current event
  refine ⟨⟨t, ht, hsource, hname⟩, ⟨_, hown, htable.trans hown, hresolve⟩, ?_⟩
  refine Automaton.satisfiesM_step_ne_unhandled ?_
  rw [hresolve]
  exact Option.some_ne_none _

/-! ### What guards answer -/

/-- Whatever the model and the data: if a branch of the definition is asked whether it passes, it
answers as it is known to. Nothing need be known: every definition has this for
`fun _ _ _ _ => True`. -/
def AlwaysAnswers (Answers : Branch m S E O → Value → E → Bool → Prop) (settings : S)
    (d : Definition m S E O) : Prop :=
  ∀ t ∈ d.transitions, ∀ branch ∈ t.branches, ∀ model data,
    SatisfiesM (fun verdict => ∀ passes, verdict = .ok passes → Answers branch model data passes)
      (branch.passes model data settings)

/-- A branch is kept from passing by a guard, which has answered that it does not pass. -/
def Refuses (Answers : Branch m S E O → Value → E → Bool → Prop) (branch : Branch m S E O)
    (model : Value) (data : E) : Prop :=
  branch.guard.isSome = true ∧ Answers branch model data false

variable {Answers : Branch m S E O → Value → E → Bool → Prop}

/-- In an automaton of the definition, branches refuse if they do not pass. -/
theorem AlwaysAnswers.known (h : d.problems = []) (hanswers : d.AlwaysAnswers Answers settings)
    {trail : List (Passage m S E O)} {a : Automaton m S E O} (ha : d.Attains settings trail a)
    (data : E) (event : String) :
    Automaton.KnownToAnswer
      (fun branch passes => passes = false → Refuses Answers branch a.model data) data a event := by
  intro owner branches hresolve branch hbranch
  rw [ha.resolve?_eq h] at hresolve
  obtain ⟨t, ht, hmem⟩ := exists_transition_of_handler? hresolve hbranch
  obtain ⟨s, rfl, -, -⟩ := ha
  have hbranch_answers := hanswers t ht branch hmem s.model data
  cases hguard : branch.guard with
  | none =>
    rw [Branch.passes, hguard]
    refine SatisfiesM.pure ?_
    rintro _ ⟨⟩ ⟨⟩
  | some guard =>
    refine hbranch_answers.imp fun hverdict _ hpasses hrefuses => ?_
    subst hrefuses
    exact ⟨congrArg Option.isSome hguard, hverdict false hpasses⟩

/-! ### Calls -/

/-- What is true of a call when it has ended, after the passages of a trail. -/
structure Rests (d : Definition m S E O) (Answers : Branch m S E O → Value → E → Bool → Prop)
    (c : Call E) (trail : List (Passage m S E O)) (reached : Automaton m S E O)
    (result : Except Halt (Option O)) : Prop where
  /-- What the states that were entered have called for they handle themselves. -/
  entered : ∀ p ∈ trail, ∀ event,
    p.after.table.cascadeEvent? p.after.current = some event → d.ServesItself p.after event
  /-- If something has fired and nothing has failed, the automaton rests in a state that is not
  automatic, or in one of which all branches for its event refuse the present model and the data of
  the call. -/
  settled : trail ≠ [] → ∀ output, result = .ok output →
    (∃ record, reached.table.record? reached.current = some record ∧ record.isAutomatic = false) ∨
      ∃ event branches, reached.table.cascadeEvent? reached.current = some event ∧
        reached.table.branches? reached.current event = some branches ∧
        ∀ branch ∈ branches, Refuses Answers branch reached.model c.data

/-- What is known while a call is under way. -/
structure Going (d : Definition m S E O) (settings : S) (depth : Nat) (event : String)
    (trail : List (Passage m S E O)) (a : Automaton m S E O) : Prop where
  attains : ∃ earlier, d.Attains settings earlier a
  depth_eq : depth = trail.length
  /-- Behind the first transition it is the present state that has called for the event. -/
  served : trail ≠ [] → a.table.cascadeEvent? a.current = some event ∧ d.ServesItself a event
  entered : ∀ p ∈ trail, ∀ event,
    p.after.table.cascadeEvent? p.after.current = some event → d.ServesItself p.after event

/-- One more transition: the state that it enters is declared, and handles what it calls for. -/
theorem Going.after (h : d.problems = []) {depth : Nat} {event : String}
    {trail : List (Passage m S E O)} {p : Passage m S E O}
    (hgoing : d.Going settings depth event trail p.before) (hp : p.Lawful) :
    (∃ earlier, d.Attains settings earlier p.after) ∧
      ∀ q ∈ p :: trail, ∀ event,
        q.after.table.cascadeEvent? q.after.current = some event → d.ServesItself q.after event := by
  obtain ⟨earlier, hbefore⟩ := hgoing.attains
  have hafter : d.Attains settings (p :: earlier) p.after := (kept_attains h).passage hp hbefore
  have hcurrent := d.states.inside_subset_names _ (hbefore.after_mem h hp)
  refine ⟨⟨_, hafter⟩, List.forall_mem_cons.mpr ⟨fun event => ?_, hgoing.entered⟩⟩
  exact hafter.servesItself h hcurrent

/-- **What an outcome brings about.** In the middle of a call an event is not unhandled, and if no
branch passes it is the branches of the present state that have refused. -/
theorem Going.proceeds (h : d.problems = []) (hanswers : d.AlwaysAnswers Answers settings)
    {c : Call E} {remaining depth : Nat} {event : String} {trail : List (Passage m S E O)}
    {a : Automaton m S E O} (hgoing : d.Going settings depth event trail a) :
    SatisfiesM
      (Automaton.Proceeds (fun _ => d.Going settings)
        (fun trail a result => d.Rests Answers c trail a result ∧
          ∃ earlier, d.Attains settings earlier a) remaining depth trail a)
      (a.handle event c.data depth) := by
  obtain ⟨earlier, ha⟩ := hgoing.attains
  refine Automaton.satisfiesM_handle_of (hanswers.known h ha c.data event)
    (Automaton.knownToAsk_trivial c.data a event) ?unhandled ?blocked ?halted ?passed
  case unhandled =>
    intro hnone
    by_cases htrail : trail = []
    · subst htrail
      have hfirst : depth = 0 := hgoing.depth_eq
      rw [Automaton.Proceeds, if_pos hfirst]
      exact ⟨⟨hgoing.entered, fun hne => absurd rfl hne⟩, _, (kept_attains h).drop ha⟩
    · obtain ⟨_, -, -, hresolve⟩ := (hgoing.served htrail).2.resolved
      rw [hresolve] at hnone
      cases hnone
  case blocked =>
    intro owner found hfound hrefused
    refine ⟨⟨hgoing.entered, fun htrail _ _ => .inr ?_⟩, _, ha⟩
    obtain ⟨hevent, hserves⟩ := hgoing.served htrail
    obtain ⟨branches, -, hown, hresolve⟩ := hserves.resolved
    rw [hresolve] at hfound
    obtain ⟨-, rfl⟩ := Prod.mk.inj (Option.some.inj hfound)
    exact ⟨event, branches, hevent, hown, fun branch hbranch => hrefused branch hbranch rfl⟩
  case halted =>
    intro halt _
    refine ⟨⟨hgoing.entered, ?_⟩, _, ha⟩
    rintro - _ ⟨⟩
  case passed =>
    intro p hfires
    obtain rfl := hfires.before
    obtain ⟨⟨later, hafter⟩, hentered⟩ := hgoing.after h hfires.lawful
    rw [Automaton.Proceeds]
    cases hnext : p.after.table.cascadeEvent? p.after.current with
    | none =>
      obtain ⟨record, hrecord, -⟩ := hafter.active (distinct_of_problems h)
      have hrests := Table.isAutomatic_of_cascadeEvent?_eq_none hrecord hnext
      exact ⟨⟨hentered, fun _ _ _ => .inl ⟨record, hrecord, hrests⟩⟩, _, hafter⟩
    | some event' =>
      cases remaining with
      | zero =>
        refine ⟨⟨hentered, ?_⟩, _, hafter⟩
        rintro - _ ⟨⟩
      | succ remaining =>
        have hserves := hentered p List.mem_cons_self event' hnext
        exact ⟨⟨_, hafter⟩, congrArg (· + 1) hgoing.depth_eq, fun _ => ⟨hnext, hserves⟩, hentered⟩

theorem rests_of_callTrail (h : d.problems = []) (hanswers : d.AlwaysAnswers Answers settings)
    {earlier : List (Passage m S E O)} {a : Automaton m S E O}
    (ha : d.Attains settings earlier a) (c : Call E) :
    SatisfiesM (fun done => d.Rests Answers c done.1 done.2.1 done.2.2 ∧
      ∃ earlier, d.Attains settings earlier done.2.1) (a.callTrail [] c) := by
  have hstart : d.Going settings 0 c.event [] a :=
    ⟨⟨_, ha⟩, rfl, fun hne => absurd rfl hne, by rintro _ ⟨⟩⟩
  refine Automaton.satisfiesM_callTrail
    (Q := fun trail a result => d.Rests Answers c trail a result ∧
      ∃ earlier, d.Attains settings earlier a) ?_ ?_
  · exact ⟨⟨hstart.entered, fun hne => absurd rfl hne⟩, _, (kept_attains h).drop ha⟩
  · exact Automaton.satisfiesM_settleTrail (fun hgoing => Going.proceeds h hanswers hgoing) hstart

/-- **Automatic states handle what they call for.** Whatever the definition, the calls, their data
and the supplied code: a state that was entered and calls for an event has a transition for it, and
its own branches are tried and not those of a group around it, so that the event does not go
unhandled. And if something has fired in a call that did not fail, the automaton is left in a state
that is not automatic, or in one whose own branches for the event have all been refused by their
guards, in view of the present model and the data of the call. Without the passages, the run is what
it was. -/
theorem rests_of_build {a : Automaton m S E O} (hbuild : d.build settings = .ok a)
    (hanswers : d.AlwaysAnswers Answers settings) (calls : List (Call E)) :
    SatisfiesM (List.Forall₂ (fun c done => d.Rests Answers c done.1 done.2.1 done.2.2) calls)
        (a.callTrails calls)
      ∧ List.map Prod.snd <$> a.callTrails calls = a.run calls := by
  obtain ⟨hproblems, -, rfl⟩ := build_eq_ok_iff.mp hbuild
  refine ⟨Automaton.forall₂_callTrails
    (P := fun a => ∃ earlier, d.Attains settings earlier a) ?_ calls ⟨_, attains_initial⟩,
    Automaton.map_snd_callTrails calls _⟩
  rintro a c ⟨earlier, ha⟩
  exact rests_of_callTrail hproblems hanswers ha c

/-- A garden. When it rains the soil gets wet, and with more rain than it can hold the garden is
flooded. The rain is measured, and nobody knows what comes after a flood. -/
def garden : Definition (StateM Nat) Unit Nat String where
  states := [.group "garden" [.leaf "dry", .leaf "wet"], .leaf "flooded"]
  events := ["rain"]
  transitions :=
    [⟨rootState, some initEvent, [{ target := .state "garden" }]⟩,
      ⟨"garden", some initEvent, [{ target := .state "dry" }]⟩,
      ⟨"garden", none, [{ target := .state "dry" }]⟩,
      ⟨"garden", some "rain", [{ target := .state "wet" }]⟩,
      ⟨"wet", none,
        [{ target := .state "flooded"
           guard := some ⟨fun _ rain _ => do
             modify (· + 1)
             pure (.ok (10 < rain))⟩ }]⟩,
      ⟨"flooded", none, []⟩]

/-- The garden when it was just built. -/
def newGarden : Automaton (StateM Nat) Unit Nat String := garden.realize () (.initial garden.model)

/-- What is known of the only guard of the garden. -/
def gardenAnswers (branch : Branch (StateM Nat) Unit Nat String) (_ : Value) (rain : Nat)
    (passes : Bool) : Prop :=
  branch.guard.isSome = true → passes = decide (10 < rain)

theorem alwaysAnswers_garden : garden.AlwaysAnswers gardenAnswers () := by
  intro t ht branch hbranch model rain
  rw [satisfiesM_iff_run]
  simp only [garden, List.mem_cons, List.not_mem_nil, or_false] at ht
  rcases ht with rfl | rfl | rfl | rfl | rfl | rfl
  case inr.inr.inr.inr.inl =>
    obtain rfl := List.mem_singleton.mp hbranch
    rintro _ _ ⟨⟩ -
    rfl
  case inr.inr.inr.inr.inr => cases hbranch
  all_goals
    obtain rfl := List.mem_singleton.mp hbranch
    rintro _ _ - ⟨⟩

/-- A year in the garden. -/
def gardenYear : List (Call Nat) := [.start 0, .send "rain" 5, .send "rain" 50]

/-- After some rain the guard keeps the garden from being flooded, and the group around the wet soil
is not asked. After more rain it is flooded, and there is no branch to go on. -/
theorem rests_of_build_garden :
    garden.build () = .ok newGarden ∧ garden.AlwaysAnswers gardenAnswers () ∧
      List.Forall₂ (fun c done => garden.Rests gardenAnswers c done.1 done.2.1 done.2.2)
        gardenYear ((newGarden.callTrails gardenYear).run 0).1 ∧
      (((newGarden.callTrails gardenYear).run 0).1.map fun done =>
          (done.1.length, done.2.1.current, done.2.1.table.cascadeEvent? done.2.1.current))
        = [(2, "dry", none), (1, "wet", some autoEvent), (2, "flooded", some autoEvent)] ∧
      ((newGarden.callTrails gardenYear).run 0).2 = 2 := by
  have hbuild : garden.build () = .ok newGarden :=
    build_eq_ok_iff.mpr ⟨by decide, by decide, rfl⟩
  exact ⟨hbuild, alwaysAnswers_garden,
    satisfiesM_iff_run.mp (rests_of_build hbuild alwaysAnswers_garden gardenYear).1 0,
    by decide +kernel, by decide +kernel⟩

end Definition

end Reactive
