import Reactive.Proofs.Integrity
import Reactive.Proofs.Levels
import Reactive.Proofs.Limits

/-!
# Descents

A group that is entered is usually not where an automaton is meant to rest: a transition for `init`
leads on into it. If every group has one of which some branch always passes, if all their branches
lead further in, and if no leaf goes on by itself, then a call ends in a leaf, or in a failure.

What makes it end is the level of the present state. A branch may lead to the history of a state,
and where that is depends on the run, but it lies in the subtree of the state, which is deep enough.
So each transition of a call but the first goes at least one level down, and there is nothing below
the last one. No group is on the last level, so nothing has to go on from there.

## Main definitions

* `Definition.Descends` — groups lead inward, and leaves do not go on
* `Definition.Descending` — a call that is under way in such a definition
* `Definition.Settled` — what is true of every call when it has ended

## Main results

* `Definition.Descends.followUp?_eq`, `Descends.exists_handler?` — groups go on, and can
* `Definition.Attains.lt_level_after` — **each transition of a call goes down**
* `Definition.settled_of_build`
-/

namespace Reactive

variable {m : Type → Type} {S E O : Type}

theorem Transition.eventName_eq_initEvent_iff {t : Transition m S E O} :
    t.eventName = initEvent ↔ t.event = some initEvent := by
  have hauto : autoEvent ≠ initEvent := by decide
  cases hevent : t.event with
  | none => simp [eventName, hevent, hauto]
  | some event => simp [eventName, hevent]

namespace Definition

variable {d : Definition m S E O} {settings : S}

/-! ### Groups that lead inward -/

theorem hasTransition_eq_true_iff {state : String} {event : Option String} :
    d.hasTransition state event = true
      ↔ ∃ t ∈ d.transitions, t.source = state ∧ t.event = event := by
  simp [hasTransition]

/-- The branches of a state for an event that it has a transition for. -/
theorem branchesOf?_of_mem {t : Transition m S E O} (ht : t ∈ d.transitions) :
    d.branchesOf? t.source t.eventName = some ((d.transitions.filter fun other =>
      other.source = t.source ∧ other.eventName = t.eventName).flatMap Transition.branches) := by
  rw [branchesOf?]
  split
  · next hnil =>
    have hmem := List.filter_eq_nil_iff.mp hnil t ht
    simp at hmem
  · rfl

/-- A state handles what it has branches for itself. -/
theorem handler?_of_branchesOf? {state event : String} {branches : List (Branch m S E O)}
    (hstate : state ∈ d.states.names) (h : d.branchesOf? state event = some branches) :
    d.handler? state event = some (state, branches) := by
  rw [handler?, filter_lineage _ (.inr hstate), List.findSome?_cons, h]
  rfl

/-- The groups of a definition lead inward, and its leaves do not go on by themselves. -/
@[mk_iff] structure Descends (d : Definition m S E O) : Prop where
  /-- Only groups, and the root, may have transitions without an event. -/
  rests : ∀ t ∈ d.transitions, t.event = none → t.source ∈ d.states.names →
    d.states.isGroup t.source = true
  /-- Every group has transitions for `init`, and one of their branches has no guard. -/
  enters : ∀ group ∈ d.states.names, d.states.isGroup group = true →
    ∃ t ∈ d.transitions, t.source = group ∧ t.event = some initEvent ∧
      ∃ branch ∈ t.branches, branch.guard.isSome = false
  /-- All branches of these transitions lead to states in the group, or to their history. -/
  deepens : ∀ t ∈ d.transitions, t.event = some initEvent → d.states.isGroup t.source = true →
    ∀ branch ∈ t.branches,
      branch.target.name ∈ d.states.inside t.source ∧ branch.target.name ≠ t.source

instance (d : Definition m S E O) : Decidable d.Descends := decidable_of_iff' _ (descends_iff d)

namespace Descends

variable {state : String}

/-- Groups go on, and leaves do not. -/
theorem followUp?_eq (h : d.Descends) (hstate : state ∈ d.states.names) :
    d.followUp? state = if d.states.isGroup state = true then some initEvent else none := by
  split
  · next hgroup =>
    obtain ⟨t, ht, hsource, hevent, -⟩ := h.enters state hstate hgroup
    have hinitial := hasTransition_eq_true_iff.mpr ⟨t, ht, hsource, hevent⟩
    simp [followUp?, hgroup, hinitial]
  · next hleaf =>
    have hnone : d.hasTransition state none = false := by
      rw [Bool.eq_false_iff]
      intro htrue
      obtain ⟨t, ht, rfl, hevent⟩ := hasTransition_eq_true_iff.mp htrue
      exact hleaf (h.rests t ht hevent hstate)
    simp [followUp?, hleaf, hnone]

/-- What goes on is a group, and it goes on with `init`. -/
theorem of_followUp?_eq_some (h : d.Descends) (hstate : state ∈ d.states.names) {event : String}
    (hevent : d.followUp? state = some event) :
    d.states.isGroup state = true ∧ event = initEvent := by
  rw [h.followUp?_eq hstate] at hevent
  split at hevent
  · next hgroup => exact ⟨hgroup, (Option.some.inj hevent).symm⟩
  · cases hevent

/-- What does not go on is a leaf. -/
theorem of_followUp?_eq_none (h : d.Descends) (hstate : state ∈ d.states.names)
    (hnone : d.followUp? state = none) : d.states.isGroup state = false := by
  rw [h.followUp?_eq hstate] at hnone
  split at hnone
  · cases hnone
  · next hleaf => exact Bool.eq_false_iff.mpr hleaf

/-- A group that goes on has a branch that passes, and all its branches lead inward. -/
theorem exists_handler? (h : d.Descends) (hstate : state ∈ d.states.names)
    (hgroup : d.states.isGroup state = true) :
    ∃ branches, d.handler? state initEvent = some (state, branches) ∧
      (∃ branch ∈ branches, branch.guard.isSome = false) ∧
      ∀ branch ∈ branches,
        branch.target.name ∈ d.states.inside state ∧ branch.target.name ≠ state := by
  obtain ⟨t, ht, rfl, hevent, branch, hbranch, hguard⟩ := h.enters state hstate hgroup
  have hname := Transition.eventName_eq_initEvent_iff.mpr hevent
  have hbranches := branchesOf?_of_mem ht
  rw [hname] at hbranches
  refine ⟨_, handler?_of_branchesOf? hstate hbranches, ⟨branch, ?_, hguard⟩, ?_⟩
  · exact List.mem_flatMap.mpr ⟨t, List.mem_filter.mpr ⟨ht, by simp [hname]⟩, hbranch⟩
  · intro other hother
    obtain ⟨t', ht', hmem⟩ := List.mem_flatMap.mp hother
    obtain ⟨htransition, hmatches⟩ := List.mem_filter.mp ht'
    obtain ⟨hsource, hevent'⟩ := of_decide_eq_true hmatches
    have hdeepens := h.deepens t' htransition (Transition.eventName_eq_initEvent_iff.mp hevent')
    rw [hsource] at hdeepens
    exact hdeepens hgroup other hmem

/-- No group is on the last level. -/
theorem level_lt_levels (h : d.Descends) (hdistinct : d.states.Distinct)
    (hstate : state ∈ d.states.names) (hgroup : d.states.isGroup state = true) :
    d.states.level state < d.states.levels := by
  obtain ⟨branches, -, ⟨branch, hbranch, -⟩, hinward⟩ := h.exists_handler? hstate hgroup
  obtain ⟨hinside, hne⟩ := hinward branch hbranch
  calc d.states.level state < d.states.level branch.target.name :=
        StateTree.level_lt_of_mem_inside hdistinct hstate hinside hne
    _ ≤ d.states.levels := StateTree.level_le_levels d.states branch.target.name

end Descends

/-! ### Calls that go down -/

/-- What is known in the middle of a call, behind `depth` transitions: a group was entered which is
at least as deep, and has to go on. -/
structure Descending (d : Definition m S E O) (event : String) (depth : Nat)
    (a : Automaton m S E O) : Prop where
  event_eq : event = initEvent
  current_mem : a.current ∈ d.states.names
  isGroup : d.states.isGroup a.current = true
  depth_le : depth ≤ d.states.level a.current

/-- In the middle of a call there is a branch that passes. -/
theorem Descending.exists_resolve? {event : String} {depth : Nat} {a : Automaton m S E O}
    {trail : List (Passage m S E O)} (h : d.problems = []) (hdescends : d.Descends)
    (ha : d.Attains settings trail a) (hmiddle : d.Descending event depth a) :
    ∃ branches, a.table.resolve? a.current event = some (a.current, branches) ∧
      ∃ branch ∈ branches, branch.guard.isSome = false := by
  obtain ⟨rfl, hcurrent, hgroup, -⟩ := hmiddle
  obtain ⟨branches, hhandler, hopen, -⟩ := hdescends.exists_handler? hcurrent hgroup
  exact ⟨branches, (ha.resolve?_eq h initEvent).trans hhandler, hopen⟩

/-- **Each transition of a call goes down.** Where the first one leads is below the root at least,
and each further one leads from a group to a state in it, whatever its history is. -/
theorem Attains.lt_level_after (h : d.problems = []) (hdescends : d.Descends)
    {trail : List (Passage m S E O)} {p : Passage m S E O} {depth : Nat} (hp : p.Lawful)
    (hbefore : d.Attains settings trail p.before)
    (hmiddle : depth ≠ 0 → d.Descending p.event depth p.before) :
    depth < d.states.level p.after.current := by
  have hdistinct := distinct_of_problems h
  have htarget := hbefore.target_mem h hp
  have hentered : d.states.level p.branch.target.name ≤ d.states.level p.after.current :=
    StateTree.level_le_of_mem_inside hdistinct htarget (hbefore.after_mem h hp)
  refine lt_of_lt_of_le ?_ hentered
  by_cases hfirst : depth = 0
  · rw [hfirst]
    exact StateTree.level_pos hdistinct htarget
  · obtain ⟨hevent, hcurrent, hgroup, hdepth⟩ := hmiddle hfirst
    obtain ⟨branches, hhandler, -, hinward⟩ := hdescends.exists_handler? hcurrent hgroup
    obtain ⟨owner, found, hresolve, hbranch⟩ := hp.handled
    rw [hbefore.resolve?_eq h, hevent, hhandler] at hresolve
    obtain ⟨-, rfl⟩ := Prod.mk.inj (Option.some.inj hresolve)
    obtain ⟨hinside, hne⟩ := hinward p.branch hbranch
    exact lt_of_le_of_lt hdepth (StateTree.level_lt_of_mem_inside hdistinct hcurrent hinside hne)

/-- What is true of a call when it has ended, after the passages of a trail. -/
structure Settled (d : Definition m S E O) (trail : List (Passage m S E O))
    (reached : Automaton m S E O) (result : Except Halt (Option O)) : Prop where
  notGivenUp : givenUp? result = none
  length_le : trail.length ≤ d.states.levels
  /-- If something has fired and nothing has failed, a leaf was reached. -/
  leaf : trail ≠ [] → ∀ output, result = .ok output →
    reached.current ∈ d.states.names ∧ d.states.isGroup reached.current = false

/-- A call in which nothing fires. -/
theorem settled_nil {reached : Automaton m S E O} {result : Except Halt (Option O)}
    (h : givenUp? result = none) : d.Settled [] reached result :=
  ⟨h, Nat.zero_le _, fun hnil => absurd rfl hnil⟩

/-- What is known while a call is under way, with `remaining` transitions left. -/
structure Course (d : Definition m S E O) (settings : S) (remaining depth : Nat) (event : String)
    (trail : List (Passage m S E O)) (a : Automaton m S E O) : Prop where
  attains : ∃ earlier, d.Attains settings (trail ++ earlier) a
  depth_eq : depth = trail.length
  limit_eq : remaining + depth = d.config.maxCascadeDepth.toNat
  middle : depth ≠ 0 → d.Descending event depth a

namespace Course

variable {remaining depth : Nat} {event : String} {trail : List (Passage m S E O)}

theorem length_le {a : Automaton m S E O}
    (hcourse : d.Course settings remaining depth event trail a) :
    trail.length ≤ d.states.levels := by
  obtain ⟨-, rfl, -, hmiddle⟩ := hcourse
  by_cases hfirst : trail.length = 0
  · omega
  · exact (hmiddle hfirst).depth_le.trans (StateTree.level_le_levels _ _)

/-- One more transition: the state that it enters is declared, and deep enough. -/
theorem after (h : d.problems = []) (hdescends : d.Descends) {p : Passage m S E O}
    (hcourse : d.Course settings remaining depth event trail p.before) (hp : p.Lawful)
    (hevent : p.event = event) :
    (∃ earlier, d.Attains settings (p :: trail ++ earlier) p.after) ∧
      p.after.current ∈ d.states.names ∧ depth < d.states.level p.after.current := by
  obtain ⟨⟨earlier, hbefore⟩, -, -, hmiddle⟩ := hcourse
  rw [← hevent] at hmiddle
  have hafter : d.Attains settings (p :: trail ++ earlier) p.after :=
    (kept_attains h).passage hp hbefore
  have hentered := d.states.inside_subset_names _ (hbefore.after_mem h hp)
  exact ⟨⟨earlier, hafter⟩, hentered, hbefore.lt_level_after h hdescends hp hmiddle⟩

end Course

variable [Monad m] [LawfulMonad m]

/-- How calls settle. In the middle of one it cannot stop without a failure, because some branch
passes, and at the limit it cannot have a group before it, because that would be too deep. -/
theorem callRule_settled (h : d.problems = []) (hdescends : d.Descends)
    (hlimit : d.states.levels - 1 ≤ d.config.maxCascadeDepth.toNat) (data : E) :
    CallRule (fun (_ : Branch m S E O) _ _ => True) data (d.Course settings)
      (fun trail a result => d.Settled trail a result ∧ ∃ earlier, d.Attains settings earlier a)
    where
  known _ := Automaton.knownToAsk_trivial data _ _
  unhandled := by
    rintro remaining _ event trail a ⟨⟨earlier, ha⟩, rfl, -, hmiddle⟩ hnone
    by_cases hfirst : trail.length = 0
    · obtain rfl := List.length_eq_zero_iff.mp hfirst
      rw [if_pos hfirst]
      exact ⟨settled_nil rfl, earlier, (kept_attains h).drop ha⟩
    · obtain ⟨branches, hresolve, -⟩ := (hmiddle hfirst).exists_resolve? h hdescends ha
      rw [hnone hfirst] at hresolve
      cases hresolve
  blocked := by
    rintro remaining _ event trail a ⟨⟨earlier, ha⟩, rfl, -, hmiddle⟩ ⟨owner, found, hfound, hall⟩
    by_cases hfirst : trail.length = 0
    · obtain rfl := List.length_eq_zero_iff.mp hfirst
      exact ⟨settled_nil rfl, earlier, ha⟩
    · obtain ⟨branches, hresolve, branch, hbranch, hopen⟩ :=
        (hmiddle hfirst).exists_resolve? h hdescends ha
      rw [hresolve] at hfound
      obtain ⟨-, rfl⟩ := Prod.mk.inj (Option.some.inj hfound)
      rw [hall branch hbranch] at hopen
      cases hopen
  halted := by
    intro remaining depth event trail a halt hcourse hhalts
    obtain ⟨earlier, ha⟩ := hcourse.attains
    refine ⟨⟨hhalts.givenUp?_eq_none, hcourse.length_le, ?_⟩, _, ha⟩
    rintro - _ ⟨⟩
  rests := by
    intro remaining depth event trail p hcourse hfires hnext
    obtain ⟨⟨earlier, hafter⟩, hentered, hlevel⟩ :=
      hcourse.after h hdescends hfires.lawful hfires.event
    have hbottom := StateTree.level_le_levels d.states p.after.current
    have hdepth := hcourse.depth_eq
    rw [hafter.cascadeEvent?_eq h] at hnext
    have hleaf := hdescends.of_followUp?_eq_none hentered hnext
    refine ⟨⟨rfl, ?_, fun _ _ _ => ⟨hentered, hleaf⟩⟩, _, hafter⟩
    rw [List.length_cons]
    omega
  exceeds := by
    intro depth event trail p event' hcourse hfires hnext
    obtain ⟨⟨earlier, hafter⟩, hentered, hlevel⟩ :=
      hcourse.after h hdescends hfires.lawful hfires.event
    rw [hafter.cascadeEvent?_eq h] at hnext
    obtain ⟨hgroup, -⟩ := hdescends.of_followUp?_eq_some hentered hnext
    have hbottom := hdescends.level_lt_levels (distinct_of_problems h) hentered hgroup
    have hfull := hcourse.limit_eq
    omega
  goesOn := by
    intro remaining depth event trail p event' hcourse hfires hnext
    obtain ⟨hattains, hentered, hlevel⟩ := hcourse.after h hdescends hfires.lawful hfires.event
    obtain ⟨earlier, hafter⟩ := hattains
    rw [hafter.cascadeEvent?_eq h] at hnext
    obtain ⟨hgroup, hevent⟩ := hdescends.of_followUp?_eq_some hentered hnext
    have hdepth := hcourse.depth_eq
    have hleft := hcourse.limit_eq
    refine ⟨⟨earlier, hafter⟩, ?_, ?_, fun _ => ⟨hevent, hentered, hgroup, hlevel⟩⟩
    · rw [List.length_cons, hdepth]
    · omega

/-- **Descending definitions settle in leaves.** Let a definition be accepted in which no leaf has a
transition without an event, and every group has transitions for `init`, of whose branches all lead
to states in the group or to the history of one, and at least one has no guard. Let its limit be no
less than the number of levels less one. Then in every run, whatever is sent with whatever data and
whatever the supplied code does, no call is given up, each fires at most as many transitions as the
tree has levels, and a call in which something fired and nothing failed ends in a leaf. Without the
passages, the run is what the calls give. -/
theorem settled_of_build {a : Automaton m S E O} (h : d.build settings = .ok a)
    (hdescends : d.Descends) (hlimit : d.states.levels - 1 ≤ d.config.maxCascadeDepth.toNat)
    (calls : List (Call E)) :
    SatisfiesM (fun dones => ∀ done ∈ dones, d.Settled done.1 done.2.1 done.2.2)
        (a.callTrails calls) ∧
      List.map Prod.snd <$> a.callTrails calls = a.run calls := by
  obtain ⟨hproblems, -, rfl⟩ := build_eq_ok_iff.mp h
  refine ⟨?_, Automaton.map_snd_callTrails calls _⟩
  refine Automaton.satisfiesM_callTrails (P := fun a => ∃ earlier, d.Attains settings earlier a)
    ?_ calls ⟨[], attains_initial⟩
  rintro a c ⟨earlier, ha⟩
  have hconfig : a.config = d.config := by
    obtain ⟨s, rfl, -, -⟩ := ha
    rfl
  refine (callRule_settled hproblems hdescends hlimit c.data).callTrail ⟨⟨earlier, ha⟩, rfl, ?_, ?_⟩
  · rw [hconfig]
    rfl
  · intro hfirst
    exact absurd rfl hfirst

/-- A museum in which one goes on to where one was, and to the paintings at first. The stairs are
never open to visitors, whose questions are counted. -/
def museum : Definition (StateM Nat) Unit Unit String where
  states :=
    [.leaf "street",
      .group "museum" [.leaf "stairs", .group "hall" [.leaf "paintings", .leaf "busts"]]]
  events := ["enter", "walk", "leave"]
  transitions :=
    [⟨rootState, some initEvent, [{ target := .state "street" }]⟩,
      ⟨"street", some "enter", [{ target := .state "museum" }]⟩,
      ⟨"museum", some initEvent,
        [{ target := .state "stairs"
           guard := some ⟨fun _ _ _ => do
             modify (· + 1)
             pure (.ok false)⟩ },
          { target := .history "hall" }]⟩,
      ⟨"hall", some initEvent, [{ target := .state "paintings" }]⟩,
      ⟨"paintings", some "walk", [{ target := .state "busts" }]⟩,
      ⟨"museum", some "leave", [{ target := .state "street" }]⟩]
  config := { maxCascadeDepth := 2 }

/-- Two visits of the museum. -/
def visits : List (Call Unit) :=
  [.start (), .send "enter" (), .send "walk" (), .send "leave" (), .send "walk" (),
    .send "enter" ()]

theorem settled_of_build_museum :
    museum.build () = .ok (museum.realize () (.initial museum.model)) ∧ museum.Descends ∧
      museum.states.levels - 1 ≤ museum.config.maxCascadeDepth.toNat ∧
      (∀ done ∈ (((museum.realize () (.initial museum.model)).callTrails visits).run 0).1,
        museum.Settled done.1 done.2.1 done.2.2) ∧
      ((((museum.realize () (.initial museum.model)).callTrails visits).run 0).1.map fun done =>
          (done.1.length, done.2.1.current))
        = [(1, "street"), (3, "paintings"), (1, "busts"), (1, "street"), (0, "street"),
          (2, "busts")] := by
  have hbuild : museum.build () = .ok (museum.realize () (.initial museum.model)) :=
    build_eq_ok_iff.mpr ⟨by decide, by decide, rfl⟩
  have hdescends : museum.Descends := by decide
  have hlimit : museum.states.levels - 1 ≤ museum.config.maxCascadeDepth.toNat := by decide
  exact ⟨hbuild, hdescends, hlimit,
    satisfiesM_iff_run.mp (settled_of_build hbuild hdescends hlimit visits).1 0, by decide +kernel⟩

end Definition

end Reactive
