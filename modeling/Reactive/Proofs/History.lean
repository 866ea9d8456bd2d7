import Reactive.Proofs.Integrity

/-!
# History

Every record keeps the state that was last left in its subtree. It is written on the way up from
every state that is left, at every transition, those of cascades included, and before the target
of the transition is looked up. What comes of it is simple to say in terms of everything that has
fired: a record keeps the latest source that lies in its subtree.

So the history of a group stands for the state that the automaton was in last, of those in the
group. If the automaton is there now, it stands for the present state, and if it was never there,
for the group itself.

## Main definitions

* `visited` — the states that an automaton has been in
* `Definition.Resumes` — what a transition to the history of a group does

## Main results

* `Automaton.move_congr` — targets that lead to the same state make the same transition
* `Definition.Attains.visited_eq` — what was visited is what was left, and the present state
* `Definition.Attains.resumes`
* `Definition.history_of_build`
-/

namespace Reactive

variable {m : Type → Type} {S E O : Type}

/-- All states that an automaton has been in, the latest first. It began in the root, and every
passage has entered one. -/
def visited (trail : List (Passage m S E O)) : List String :=
  (trail.map fun p => p.after.current) ++ [rootState]

/-- Targets that lead to the same state make the same transition. -/
theorem Automaton.move_congr {a : Automaton m S E O} {target other : Target}
    (h : (a.table.leave a.current).destination target
      = (a.table.leave a.current).destination other) (event : String) (depth : Nat)
    (model : Value) : a.move target event depth model = a.move other event depth model := by
  simp only [Automaton.move, h]

namespace Definition

variable {d : Definition m S E O} {settings : S}

/-- What a transition to the history of a group does, after the passages of a trail. -/
structure Resumes (d : Definition m S E O) (earlier : List (Passage m S E O))
    (p : Passage m S E O) (group : String) : Prop where
  /-- It is the transition to the latest visited state of the group, or to the group itself. -/
  as_state : p.after = p.before.move
    (.state ((d.states.lastIn? (visited earlier) group).getD group)) p.event p.depth p.model
  /-- From inside the group it enters the state that is left. -/
  inside : p.source ∈ d.states.inside group → p.after.current = p.source
  /-- From outside it enters the state of the group that the automaton was in last. -/
  outside : p.source ∉ d.states.inside group → ∀ state,
    d.states.lastIn? (visited earlier) group = some state → p.after.current = state
  /-- If the automaton was never in the group, it enters the group, which then calls for the
  event of its own transitions. -/
  unseen : d.states.lastIn? (visited earlier) group = none → p.after.current = group ∧
    p.after.table.cascadeEvent? p.after.current = d.followUp? group

namespace Attains

variable {trail : List (Passage m S E O)} {a : Automaton m S E O}

/-- The states that were visited are the present one and those that were left. -/
theorem visited_eq (ha : d.Attains settings trail a) :
    visited trail = a.current :: trail.map Passage.source := by
  obtain ⟨s, rfl, hlog, hsound⟩ := ha
  have hconnected := hsound.connected.cons_source_eq
  rw [hlog, List.map_map, List.map_map] at hconnected
  exact hconnected.symm

/-- The history of a declared group stands for the latest visited state in the group. -/
theorem destination_history (h : d.states.Distinct) (ha : d.Attains settings trail a)
    {group : String} (hgroup : group ∈ d.states.names) :
    (a.table.leave a.current).destination (.history group)
      = (d.states.lastIn? (visited trail) group).getD group := by
  rw [ha.visited_eq]
  obtain ⟨s, rfl, hlog, -⟩ := ha
  refine (destination_tableAfter h s.log s.current (.history group)).trans ?_
  rw [hlog, Passage.map_source_firing]
  exact congrArg (Option.getD · group) (StateTree.lastLeft?_eq_lastIn? h (h.ne_root hgroup) _)

/-- **A transition to the history of a group resumes what the automaton did there.** -/
theorem resumes (h : d.problems = []) {p : Passage m S E O} (hp : p.Lawful)
    (hbefore : d.Attains settings trail p.before) {group : String}
    (htarget : p.branch.target = .history group) : d.Resumes trail p group := by
  have hdistinct := distinct_of_problems h
  have hgroup : group ∈ d.states.names := by
    have hmem := hbefore.target_mem h hp
    rwa [htarget] at hmem
  have hstate : p.after = p.before.move
      (.state ((d.states.lastIn? (visited trail) group).getD group)) p.event p.depth p.model := by
    rw [Passage.after, htarget]
    exact Automaton.move_congr (hbefore.destination_history hdistinct hgroup) ..
  have hcurrent : p.after.current = (d.states.lastIn? (visited trail) group).getD group := by
    rw [hstate]
    rfl
  constructor
  case as_state => exact hstate
  case inside =>
    intro hinside
    have hlast : d.states.lastIn? (visited trail) group = some p.source := by
      rw [hbefore.visited_eq]
      exact StateTree.lastIn?_cons_of_mem hinside
    rw [hcurrent, hlast, Option.getD_some]
  case outside =>
    intro _ state hlast
    rw [hcurrent, hlast, Option.getD_some]
  case unseen =>
    intro hnone
    rw [hnone, Option.getD_none] at hcurrent
    have hafter := (kept_attains h).passage hp hbefore
    refine ⟨hcurrent, ?_⟩
    rw [hafter.cascadeEvent?_eq h, hcurrent]

end Attains

variable [Monad m] [LawfulMonad m]

/-- **The history law.** After every call of every run of a built automaton, however the calls
end, the state seen last in a declared state is the source of the latest transition that left the
subtree's own state or one in it, and there is none if no transition did. And every transition to
the history of a group that has fired on the way resumes what the automaton did there. Without the
trail, the run is what the calls give. -/
theorem history_of_build {a : Automaton m S E O} (h : d.build settings = .ok a)
    (calls : List (Call E)) :
    SatisfiesM (fun dones => ∀ done ∈ dones,
        (∀ state ∈ d.states.names,
          done.2.1.lastSeen? state = d.states.lastIn? (done.1.map Passage.source) state) ∧
        ∀ p earlier, p :: earlier <:+ done.1 →
          ∀ group, p.branch.target = .history group → d.Resumes earlier p group)
      (a.runTrail calls [])
      ∧ List.map Prod.snd <$> a.runTrail calls [] = a.run calls := by
  obtain ⟨hproblems, -, rfl⟩ := build_eq_ok_iff.mp h
  refine ⟨?_, Automaton.map_snd_runTrail calls [] _⟩
  have hkept : Kept fun trail a => d.Attains settings trail a ∧ ∀ p earlier, p :: earlier <:+ trail →
      ∀ group, p.branch.target = .history group → d.Resumes earlier p group :=
    (kept_attains hproblems).and_suffix fun hp hbefore group => hbefore.resumes hproblems hp
  refine (hkept.runTrail calls ⟨attains_initial, ?_⟩).imp fun hdones done hdone => ?_
  · intro p earlier hsuffix
    cases List.suffix_nil.mp hsuffix
  · obtain ⟨hattains, hresumes⟩ := hdones done hdone
    exact ⟨fun state => hattains.lastSeen (distinct_of_problems hproblems), hresumes⟩

theorem history_of_build_desk :
    desk.build () = .ok (desk.realize () (.initial desk.model)) ∧
      (∀ done ∈ (((desk.realize () (.initial desk.model)).runTrail deskDay []).run 0).1,
        (∀ state ∈ desk.states.names,
          done.2.1.lastSeen? state = desk.states.lastIn? (done.1.map Passage.source) state) ∧
        ∀ p earlier, p :: earlier <:+ done.1 →
          ∀ group, p.branch.target = .history group → desk.Resumes earlier p group) ∧
      ((((desk.realize () (.initial desk.model)).runTrail deskDay []).run 0).1.map fun done =>
          (done.2.1.current, done.2.1.lastSeen? "open", done.2.1.lastSeen? "closed"))
        = [("reading", some "open", none), ("writing", some "reading", none),
          ("writing", some "reading", none), ("writing", some "reading", none),
          ("closed", some "writing", none), ("writing", some "writing", some "closed")] :=
  ⟨build_desk, satisfiesM_iff_run.mp (history_of_build build_desk deskDay).1 0, by decide +kernel⟩

end Definition

end Reactive
