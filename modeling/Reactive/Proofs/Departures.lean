import Reactive.Proofs.History

/-!
# Departures from groups

What a state remembers is written whenever something in its subtree is left, and grouping states
are left as leaves are: a group that is entered and goes on to one of its states by itself has been
left. So what is remembered need not be the last leaf that was left. It is that leaf exactly as
long as no grouping state of the subtree has been left since.

The history of a group is forgiving. As long as the automaton stays in the group nothing comes of
what was overwritten, so that only the transitions count that lead out of the group. If all of them
left a leaf, the history of the group enters a leaf, or the group itself if it was never left.

## Main definitions

* `StateTree.lastLeafIn?` — the last leaf that was left in a subtree
* `Passage.LatestIn` — the latest passage that left a state of a subtree
* `Definition.Recalls` — what a state remembers
* `Definition.Reenters` — what a transition to the history of a group enters

## Main results

* `Definition.Attains.after_notMem` — a state that was not gone on from led out of the subtree
* `Definition.Attains.recalls`, `Attains.reenters`
* `Definition.departures_of_build`
-/

namespace Reactive

variable {m : Type → Type} {S E O : Type}

/-- Of some states that were left, the latest first, the last leaf that lies in a subtree. -/
def StateTree.lastLeafIn? (tree : StateTree) (left : List String) (name : String) :
    Option String :=
  left.find? fun state => state ∈ tree.inside name ∧ tree.isGroup state = false

/-- The last state is the last leaf exactly if it is a leaf. -/
theorem StateTree.lastIn?_eq_lastLeafIn?_iff {tree : StateTree} (left : List String)
    (name : String) : tree.lastIn? left name = tree.lastLeafIn? left name ↔
      ∀ state, tree.lastIn? left name = some state → tree.isGroup state = false := by
  constructor
  · intro heq state hstate
    rw [heq] at hstate
    have hfound := List.find?_some hstate
    exact (of_decide_eq_true hfound).2
  · intro hleaf
    -- What comes before the last state is not in the subtree, so no leaf of it either.
    induction left with
    | nil => rfl
    | cons first rest ih =>
      simp only [lastIn?, lastLeafIn?, List.find?_cons] at ih hleaf ⊢
      by_cases hmem : first ∈ tree.inside name
      · have hfirst : tree.isGroup first = false := by simpa [hmem] using hleaf
        simp [hmem, hfirst]
      · simpa [hmem] using ih (by simpa [hmem] using hleaf)

/-- Of the passages of a trail that left a state of the subtree of `name`, the latest is `p`. -/
structure Passage.LatestIn (tree : StateTree) (name : String) (trail : List (Passage m S E O))
    (p : Passage m S E O) : Prop where
  mem : p.source ∈ tree.inside name
  split : ∃ later earlier, trail = later ++ p :: earlier ∧
    ∀ q ∈ later, q.source ∉ tree.inside name

/-- What is looked for among the states that were left is the source of the latest passage. -/
theorem StateTree.lastIn?_sources_eq_some_iff {tree : StateTree} {trail : List (Passage m S E O)}
    {name state : String} : tree.lastIn? (trail.map Passage.source) name = some state ↔
      ∃ p, Passage.LatestIn tree name trail p ∧ p.source = state := by
  have hfind : tree.lastIn? (trail.map Passage.source) name
      = (trail.find? fun p => p.source ∈ tree.inside name).map Passage.source :=
    List.find?_map ..
  rw [hfind, Option.map_eq_some_iff]
  refine exists_congr fun p => and_congr_left fun _ => ?_
  rw [List.find?_eq_some_iff_append]
  constructor
  · rintro ⟨hmem, later, earlier, htrail, hlater⟩
    exact ⟨by simpa using hmem, later, earlier, htrail, fun q hq => by simpa using hlater q hq⟩
  · rintro ⟨hmem, later, earlier, htrail, hlater⟩
    exact ⟨by simpa using hmem, later, earlier, htrail, fun q hq => by simpa using hlater q hq⟩

namespace Definition

variable {d : Definition m S E O} {settings : S}

/-- What a state remembers, after the passages of a trail. -/
structure Recalls (d : Definition m S E O) (trail : List (Passage m S E O)) (name : String)
    (seen : Option String) : Prop where
  /-- It is what the latest passage left that left a state of the subtree, a group or a leaf. -/
  latest : ∀ state, seen = some state ↔
    ∃ p, Passage.LatestIn d.states name trail p ∧ p.source = state
  mem_inside : ∀ state, seen = some state → state ∈ d.states.inside name
  /-- It is the last leaf that was left in the subtree, or nothing if none was, unless the latest
  passage left a group. -/
  eq_lastLeaf_iff : seen = d.states.lastLeafIn? (trail.map Passage.source) name ↔
    ∀ p, Passage.LatestIn d.states name trail p → d.states.isGroup p.source = false

/-- What a transition to the history of a group enters, after the passages of a trail. -/
structure Reenters (d : Definition m S E O) (earlier : List (Passage m S E O))
    (p : Passage m S E O) (group : String) : Prop where
  /-- From inside the group it enters the state that is left. -/
  inside : p.source ∈ d.states.inside group → p.after.current = p.source
  /-- From outside it enters what was left by the passage that led out of the group last. -/
  outside : p.source ∉ d.states.inside group → ∀ q, Passage.LatestIn d.states group earlier q →
    p.after.current = q.source ∧ q.after.current ∉ d.states.inside group
  /-- The group itself is entered if nothing in it was ever left. -/
  unseen : (∀ q ∈ p :: earlier, q.source ∉ d.states.inside group) → p.after.current = group
  /-- It enters a leaf or the group itself if the transitions that led out of the group left
  leaves, and so does this one if it leaves something in the group. -/
  leaf_or_eq : (p.source ∈ d.states.inside group → d.states.isGroup p.source = false) →
    (∀ q ∈ earlier, q.source ∈ d.states.inside group →
      q.after.current ∉ d.states.inside group → d.states.isGroup q.source = false) →
    d.states.isGroup p.after.current = false ∨ p.after.current = group

namespace Attains

variable {trail : List (Passage m S E O)} {a : Automaton m S E O}

/-- **A passage that no other went on from led out.** If the present state is not in a subtree,
the latest passage that left a state of the subtree did not enter one: what it entered is what the
next one left, or the present state. -/
theorem after_notMem (ha : d.Attains settings trail a) {name : String}
    (hcurrent : a.current ∉ d.states.inside name) {q : Passage m S E O}
    (hq : Passage.LatestIn d.states name trail q) : q.after.current ∉ d.states.inside name := by
  obtain ⟨-, later, earlier, rfl, hlater⟩ := hq
  have hvisited := ha.visited_eq
  simp only [visited, List.map_append, List.map_cons, List.append_assoc, List.cons_append]
    at hvisited
  rw [List.append_cons, ← List.cons_append] at hvisited
  have hsplit : (later.map fun p => p.after.current) ++ [q.after.current]
      = a.current :: later.map Passage.source := (List.append_inj hvisited (by simp)).1
  have hmem : q.after.current ∈ a.current :: later.map Passage.source := by
    rw [← hsplit]
    exact List.mem_append_right _ List.mem_cons_self
  rcases List.mem_cons.mp hmem with heq | hmem
  · rwa [heq]
  · obtain ⟨r, hr, hsource⟩ := List.mem_map.mp hmem
    rw [← hsource]
    exact hlater r hr

theorem recalls (h : d.problems = []) (ha : d.Attains settings trail a) {name : String}
    (hname : name ∈ d.states.names) : d.Recalls trail name (a.lastSeen? name) := by
  rw [ha.lastSeen (distinct_of_problems h) hname]
  refine ⟨fun state => StateTree.lastIn?_sources_eq_some_iff,
    fun state => StateTree.mem_inside_of_lastIn?, ?_⟩
  rw [StateTree.lastIn?_eq_lastLeafIn?_iff]
  constructor
  · intro hleaf p hp
    exact hleaf p.source (StateTree.lastIn?_sources_eq_some_iff.mpr ⟨p, hp, rfl⟩)
  · intro hleaf state hstate
    obtain ⟨p, hp, rfl⟩ := StateTree.lastIn?_sources_eq_some_iff.mp hstate
    exact hleaf p hp

/-- **What the history of a group enters** is where the group was left last. -/
theorem reenters (h : d.problems = []) {p : Passage m S E O} (hp : p.Lawful)
    (hbefore : d.Attains settings trail p.before) {group : String}
    (htarget : p.branch.target = .history group) : d.Reenters trail p group := by
  obtain ⟨-, hinside, houtside, hunseen⟩ := hbefore.resumes h hp htarget
  have hvisited : ∀ {result}, d.states.lastIn? (trail.map Passage.source) group = result →
      p.source ∉ d.states.inside group → d.states.lastIn? (visited trail) group = result := by
    intro result hresult hsource
    have hcurrent : p.before.current ∉ d.states.inside group := hsource
    rw [hbefore.visited_eq, StateTree.lastIn?, List.find?_cons_of_neg (by simpa using hcurrent)]
    exact hresult
  have hleft : p.source ∉ d.states.inside group → ∀ q,
      Passage.LatestIn d.states group trail q →
      p.after.current = q.source ∧ q.after.current ∉ d.states.inside group := by
    intro hsource q hq
    have hlast := StateTree.lastIn?_sources_eq_some_iff.mpr ⟨q, hq, rfl⟩
    exact ⟨houtside hsource q.source (hvisited hlast hsource), hbefore.after_notMem hsource hq⟩
  have hnever : (∀ q ∈ p :: trail, q.source ∉ d.states.inside group) →
      p.after.current = group := by
    intro hnone
    refine (hunseen (hvisited ?_ (hnone p List.mem_cons_self))).1
    refine List.find?_eq_none.mpr fun state hstate => ?_
    obtain ⟨q, hq, rfl⟩ := List.mem_map.mp hstate
    simpa using hnone q (List.mem_cons_of_mem p hq)
  refine ⟨hinside, hleft, hnever, fun hown hleaves => ?_⟩
  by_cases hsource : p.source ∈ d.states.inside group
  · rw [hinside hsource]
    exact Or.inl (hown hsource)
  · cases hlast : d.states.lastIn? (trail.map Passage.source) group with
    | none => exact Or.inr (hunseen (hvisited hlast hsource)).1
    | some state =>
      obtain ⟨q, hq, -⟩ := StateTree.lastIn?_sources_eq_some_iff.mp hlast
      obtain ⟨hentered, hout⟩ := hleft hsource q hq
      obtain ⟨hmem, later, earlier, rfl, -⟩ := hq
      rw [hentered]
      exact Or.inl (hleaves q (by simp) hmem hout)

end Attains

variable [Monad m] [LawfulMonad m]

/-- **Departures from groups.** After every call of every run of a built automaton, however the
calls end, what a declared state remembers is what the latest transition left that left a state of
its subtree; this is the last leaf that was left there exactly if that transition did not leave a
group. And every transition to the history of a group that has fired on the way entered what the
transition left that led out of the group last, so a leaf or the group itself if only leaves were
left for states outside. Without the trail, the run is what the calls give. -/
theorem departures_of_build {a : Automaton m S E O} (h : d.build settings = .ok a)
    (calls : List (Call E)) :
    SatisfiesM (fun dones => ∀ done ∈ dones,
        (∀ name ∈ d.states.names, d.Recalls done.1 name (done.2.1.lastSeen? name)) ∧
        ∀ p earlier, p :: earlier <:+ done.1 →
          ∀ group, p.branch.target = .history group → d.Reenters earlier p group)
      (a.runTrail calls [])
      ∧ List.map Prod.snd <$> a.runTrail calls [] = a.run calls := by
  obtain ⟨hproblems, -, rfl⟩ := build_eq_ok_iff.mp h
  refine ⟨?_, Automaton.map_snd_runTrail calls [] _⟩
  have hkept : Kept fun trail a => d.Attains settings trail a ∧ ∀ p earlier, p :: earlier <:+ trail →
      ∀ group, p.branch.target = .history group → d.Reenters earlier p group :=
    (kept_attains hproblems).and_suffix fun hp hbefore group => hbefore.reenters hproblems hp
  refine (hkept.runTrail calls ⟨attains_initial, ?_⟩).imp fun hdones done hdone => ?_
  · intro p earlier hsuffix
    cases List.suffix_nil.mp hsuffix
  · obtain ⟨hattains, hreenters⟩ := hdones done hdone
    exact ⟨fun name hname => hattains.recalls hproblems hname, hreenters⟩

/-- A house with a bed in its only room, and a garden. Whoever peeks into the room goes back to the
garden at once. -/
def house : Definition (StateM Nat) Unit Unit String where
  states := [.group "house" [.group "room" [.leaf "bed"]], .leaf "garden"]
  events := ["out", "peek", "back"]
  transitions :=
    [⟨rootState, some initEvent, [{ target := .state "bed" }]⟩,
      ⟨"bed", some "out", [{ target := .state "garden" }]⟩,
      ⟨"garden", some "peek", [{ target := .state "room" }]⟩,
      ⟨"room", some initEvent, [{ target := .state "garden" }]⟩,
      ⟨"garden", some "back", [{ target := .history "house" }]⟩]

/-- Out of bed, a peek into the room from the garden, and back to the house. -/
def houseMorning : List (Call Unit) := [.start (), .send "out" (), .send "peek" (), .send "back" ()]

theorem build_house : house.build () = .ok (house.realize () (.initial house.model)) :=
  build_eq_ok_iff.mpr ⟨by decide, by decide, rfl⟩

theorem departures_of_build_house :
    house.build () = .ok (house.realize () (.initial house.model)) ∧
      (∀ done ∈ (((house.realize () (.initial house.model)).runTrail houseMorning []).run 0).1,
        (∀ name ∈ house.states.names, house.Recalls done.1 name (done.2.1.lastSeen? name)) ∧
        ∀ p earlier, p :: earlier <:+ done.1 →
          ∀ group, p.branch.target = .history group → house.Reenters earlier p group) ∧
      ((((house.realize () (.initial house.model)).runTrail houseMorning []).run 0).1.map fun done =>
          (done.2.1.current, done.1.map Passage.source))
        = [("bed", [rootState]), ("garden", ["bed", rootState]),
          ("garden", ["room", "garden", "bed", rootState]),
          ("garden", ["room", "garden", "room", "garden", "bed", rootState])] :=
  ⟨build_house, satisfiesM_iff_run.mp (departures_of_build build_house houseMorning).1 0,
    by decide +kernel⟩

/-- What is remembered need not be a leaf. Leaving the bed is remembered in the house; a peek into
the room overwrites it with the room, which is a group in the house, and this is where the history
of the house leads from the garden. -/
theorem leaf_overwritten_house :
    house.build () = .ok (house.realize () (.initial house.model)) ∧
      house.states.isGroup "room" = true ∧
      ((((house.realize () (.initial house.model)).runTrail houseMorning []).run 0).1.map fun done =>
          (done.2.1.lastSeen? "house",
            house.states.lastLeafIn? (done.1.map Passage.source) "house"))
        = [(none, none), (some "bed", some "bed"), (some "room", some "bed"),
          (some "room", some "bed")] ∧
      ((((house.realize () (.initial house.model)).runTrail houseMorning []).run 0).1.getLast?.bind
          fun done => done.1[1]?.map fun p => (p.source, p.branch.target, p.after.current))
        = some ("garden", .history "house", "room") :=
  ⟨build_house, by decide +kernel, by decide +kernel, by decide +kernel⟩

end Definition

end Reactive
