import Reactive.Proofs.Passages
import Reactive.Proofs.Refinement

/-!
# Calls that halt in a step

A guard may crash, and so may an action, and an update may be refused by the model. Then the call
ends in the middle, behind some transitions that have fired. What these did stays done, to the last
mark in the table, and of the step that halted nothing is seen: no state is left or entered, the
model has not taken a part of the update, and nothing is traced or counted.

To say so, the transitions that have fired are given one by one. An automaton is brought by a call
to another one if there is a chain of passages between them, each of which handles the event that
the call has to handle next: its own event first, and then those that entered states call for.

## What is deliberately absent

A call may also be given up because it has gone on for too long. Then no step has halted, and all
transitions that were begun have fired.

## Main definitions

* `Call.pending?` — the event that a call has to handle next
* `Automaton.Brings` — a chain of passages of one call
* `Automaton.replay` — what some passages make of an automaton
* `Automaton.StopsAfter` — what is true of a call that halted in a step

## Main results

* `Automaton.Brings.eq_replay`
* `Automaton.halt_of_call`
-/

namespace Reactive

variable {m : Type → Type} {S E O : Type}

/-- Did the handling of an event halt? Otherwise the call had gone on for too long. -/
def Halt.isOfStep : Halt → Bool
  | .failed (.cascadeLimitExceeded _ _) => false
  | .failed (.modelUpdate _ _ _) | .crashed _ => true

/-- The event that a call has to handle next, where the passages of a trail have fired in it and
have led to an automaton. -/
def Call.pending? (c : Call E) (trail : List (Passage m S E O)) (a : Automaton m S E O) :
    Option String :=
  if trail.isEmpty then some c.event else a.table.cascadeEvent? a.current

namespace Automaton

/-! ### What a step keeps -/

/-- The automaton has a branch for some event in some state. -/
def Offers (a : Automaton m S E O) (branch : Branch m S E O) : Prop :=
  ∃ state event branches, a.table.branches? state event = some branches ∧ branch ∈ branches

/-- The branches that handle an event are branches for it. -/
theorem offers_of_resolve? {a : Automaton m S E O} {state event owner : String}
    {branches : List (Branch m S E O)} (h : a.table.resolve? state event = some (owner, branches))
    {branch : Branch m S E O} (hbranch : branch ∈ branches) : a.Offers branch := by
  rw [Table.resolve?] at h
  cases hown : a.table.branches? state event with
  | some own =>
    rw [hown] at h
    obtain ⟨record, -, heq⟩ := Option.map_eq_some_iff.mp h
    obtain ⟨-, rfl⟩ := Prod.mk.inj heq
    exact ⟨state, event, own, hown, hbranch⟩
  | none =>
    rw [hown] at h
    obtain ⟨record, -, hrecord⟩ := List.exists_of_findSome?_eq_some h
    obtain ⟨found, hfound, heq⟩ := Option.map_eq_some_iff.mp hrecord
    obtain ⟨-, rfl⟩ := Prod.mk.inj heq
    exact ⟨record.name, event, found, hfound, hbranch⟩

theorem handlers_after (p : Passage m S E O) : p.after.table.handlers = p.before.table.handlers :=
  (Table.SameShape.activate _ _).handlers.trans (Table.SameShape.leave _ _).handlers

/-- A passage leaves the branches of an automaton as they are. -/
theorem offers_after {p : Passage m S E O} {branch : Branch m S E O} :
    p.after.Offers branch ↔ p.before.Offers branch := by
  simp only [Offers, Table.branches?, handlers_after]

/-! ### Chains of passages -/

section

variable (Asks : Branch m S E O → Value → ActionResult O → Prop)

/-- Whatever the model, every branch of the automaton asks for what it is known to. Nothing need be
known: every automaton has this for `fun _ _ _ => True`. -/
def AlwaysAsks [Monad m] (data : E) (a : Automaton m S E O) : Prop :=
  ∀ branch, a.Offers branch → ∀ model,
    SatisfiesM (fun result => ∀ asked, result = .ok asked → Asks branch model asked)
      (branch.run model data a.settings)

/-- A call of `a` has led to an automaton by the passages of a trail, the latest first. -/
inductive Brings (a : Automaton m S E O) (c : Call E) :
    List (Passage m S E O) → Automaton m S E O → Prop
  | refl : Brings a c [] a
  | fire {earlier : List (Passage m S E O)} {p : Passage m S E O} {event : String}
      (earlier_brings : Brings a c earlier p.before)
      (pending : c.pending? earlier p.before = some event)
      (fires : p.before.Fires Asks event earlier.length p) : Brings a c (p :: earlier) p.after

end

/-- What some passages, the latest first, make of an automaton. -/
def replay (a : Automaton m S E O) (trail : List (Passage m S E O)) : Automaton m S E O :=
  trail.foldr (fun p reached => reached.move p.branch.target p.event p.depth p.model) a

variable {Asks : Branch m S E O → Value → ActionResult O → Prop}

namespace Brings

variable {a b : Automaton m S E O} {c : Call E} {trail : List (Passage m S E O)}

/-- **The passages say all that has happened.** -/
theorem eq_replay (h : Brings Asks a c trail b) : b = a.replay trail := by
  induction h with
  | refl => rfl
  | @fire earlier p _ _ _ _ ih =>
    rw [replay, List.foldr_cons, Passage.after]
    exact congrArg (fun reached => reached.move p.branch.target p.event p.depth p.model) ih

theorem eq_of_nil (h : Brings Asks a c [] b) : b = a := h.eq_replay

/-- What is known of the actions at first is known of them later. -/
theorem alwaysAsks [Monad m] (h : Brings Asks a c trail b) (hasks : AlwaysAsks Asks c.data a) :
    AlwaysAsks Asks c.data b := by
  induction h with
  | refl => exact hasks
  | fire _ _ _ ih => exact fun branch hoffers => ih branch (offers_after.mp hoffers)

end Brings

theorem AlwaysAsks.known [Monad m] {data : E} {a : Automaton m S E O} (h : AlwaysAsks Asks data a)
    (event : String) : KnownToAsk Asks data a event :=
  fun _ _ hresolve branch hbranch => h branch (offers_of_resolve? hresolve hbranch) a.model

/-! ### Calls that halt -/

/-- What is true when a call of `a` has halted in a step, after the passages of a trail. -/
structure StopsAfter (Asks : Branch m S E O → Value → ActionResult O → Prop)
    (a : Automaton m S E O) (c : Call E) (trail : List (Passage m S E O))
    (stopped : Automaton m S E O) (halt : Halt) : Prop where
  /-- These are the transitions of the call, one after the other. -/
  brings : Brings Asks a c trail stopped
  /-- The automaton is what they make of it, and nothing else has happened. -/
  replayed : stopped = a.replay trail
  /-- If there are none, it is the automaton that was called. -/
  unchanged : trail = [] → stopped = a
  /-- The event that comes next is the one that could not be handled. -/
  halts : ∃ event, c.pending? trail stopped = some event ∧ stopped.Halts Asks event halt

theorem Brings.stopsAfter {a b : Automaton m S E O} {c : Call E} {trail : List (Passage m S E O)}
    {event : String} {halt : Halt} (h : Brings Asks a c trail b)
    (hpending : c.pending? trail b = some event) (hhalts : b.Halts Asks event halt) :
    StopsAfter Asks a c trail b halt := by
  refine ⟨h, h.eq_replay, ?_, event, hpending, hhalts⟩
  rintro rfl
  exact h.eq_of_nil

variable [Monad m]

/-- How calls halt. While a call is under way, the passages so far make a chain. -/
theorem callRule_stopsAfter {a : Automaton m S E O} {c : Call E}
    (hasks : AlwaysAsks Asks c.data a) :
    CallRule Asks c.data
      (fun _ depth event trail b => Brings Asks a c trail b ∧ depth = trail.length ∧
        c.pending? trail b = some event)
      (fun trail b result => ∀ halt, result = .error halt → halt.isOfStep = true →
        StopsAfter Asks a c trail b halt) where
  known h := (h.1.alwaysAsks hasks).known _
  unhandled _ _ := by rintro _ ⟨⟩
  blocked _ _ := by rintro _ ⟨⟩
  halted := by
    rintro _ _ event trail b halt ⟨hbrings, -, hpending⟩ hhalts _ ⟨⟩ -
    exact hbrings.stopsAfter hpending hhalts
  rests _ _ _ := by rintro _ ⟨⟩
  exceeds _ _ _ := by rintro _ ⟨⟩ ⟨⟩
  goesOn := by
    rintro _ _ event trail p event' ⟨hbrings, rfl, hpending⟩ hfires hnext
    exact ⟨hbrings.fire hpending hfires, rfl, hnext⟩

/-- **A call that halts in a step has done what fired before, and nothing else.** Whatever the
automaton, the event, its data and the supplied code: if the call ends because a guard or an action
crashed or an update was refused, the automaton is what the transitions of the call make of it, one
after the other, each with its whole update. The event that comes next is the one that could not be
handled. If an update was refused, the failure names the present state and this event, and its cause
is why the update that was asked for cannot be applied to the present model. A call in which nothing
fired leaves the automaton as it was, so that it can be made again. Without the passages, the call
is what it was. -/
theorem halt_of_call [LawfulMonad m] (a : Automaton m S E O) (c : Call E)
    (hasks : AlwaysAsks Asks c.data a) :
    SatisfiesM (fun done => ∀ halt, done.2.2 = .error halt → halt.isOfStep = true →
        StopsAfter Asks a c done.1 done.2.1 halt) (a.callTrail [] c)
      ∧ Prod.snd <$> a.callTrail [] c = a.call c :=
  ⟨(callRule_stopsAfter hasks).callTrail ⟨.refl, rfl, rfl⟩, map_snd_callTrail [] a c⟩

end Automaton

namespace Definition

/-- The branches of the automaton of a definition are those of its transitions. -/
theorem exists_transition_of_offers {d : Definition m S E O} {settings : S} {s : Standing}
    {branch : Branch m S E O} (h : (d.realize settings s).Offers branch) :
    ∃ t ∈ d.transitions, branch ∈ t.branches := by
  obtain ⟨state, event, branches, hbranches, hmem⟩ := h
  rw [show (d.realize settings s).table = d.tableAfter s.log from rfl, branches?_tableAfter,
    branchesOf?] at hbranches
  split at hbranches
  · cases hbranches
  · next hmatching =>
    obtain rfl := Option.some.inj hbranches
    obtain ⟨t, ht, hbranch⟩ := List.mem_flatMap.mp hmem
    exact ⟨t, (List.mem_filter.mp ht).1, hbranch⟩

/-- A kiln that is heated as soon as it is filled. Its clay is to be taken out when it is hot, but
there is none. Actions are counted. -/
def kiln : Definition (StateM Nat) Unit Unit String where
  states := [.leaf "heating", .leaf "hot"]
  transitions :=
    [⟨rootState, some initEvent,
        [{ target := .state "heating"
           action := some ⟨fun _ _ _ => do
             modify (· + 1)
             pure (.ok ⟨[.add "/fuel" (.nat 1)], some "filled"⟩)⟩ }]⟩,
      ⟨"heating", none,
        [{ target := .state "hot"
           action := some ⟨fun _ _ _ => do
             modify (· + 1)
             pure (.ok ⟨[.add "/heat" (.nat 9), .remove "/clay"], some "baked"⟩)⟩ }]⟩]

/-- The kiln when it was just built. -/
def newKiln : Automaton (StateM Nat) Unit Unit String := kiln.realize () (.initial kiln.model)

/-- What is known of the actions of the kiln. -/
def kilnAsks (branch : Branch (StateM Nat) Unit Unit String) (_ : Value)
    (asked : ActionResult String) : Prop :=
  branch.target = .state "hot" → asked.update = [.add "/heat" (.nat 9), .remove "/clay"]

theorem alwaysAsks_kiln : Automaton.AlwaysAsks kilnAsks () newKiln := by
  intro branch hoffers model
  obtain ⟨t, ht, hbranch⟩ := exists_transition_of_offers hoffers
  rw [satisfiesM_iff_run]
  simp only [kiln, List.mem_cons, List.not_mem_nil, or_false] at ht
  rcases ht with rfl | rfl
  · obtain rfl := List.mem_singleton.mp hbranch
    rintro _ _ ⟨⟩ hhot
    exact absurd hhot (by decide)
  · obtain rfl := List.mem_singleton.mp hbranch
    rintro _ _ ⟨⟩ -
    rfl

theorem halt_of_call_kiln :
    kiln.build () = .ok newKiln ∧ Automaton.AlwaysAsks kilnAsks () newKiln ∧
      (∀ halt, ((newKiln.callTrail [] (.start ())).run 0).1.2.2 = .error halt →
        halt.isOfStep = true →
          Automaton.StopsAfter kilnAsks newKiln (.start ())
            ((newKiln.callTrail [] (.start ())).run 0).1.1
            ((newKiln.callTrail [] (.start ())).run 0).1.2.1 halt) ∧
      ((newKiln.callTrail [] (.start ())).run 0).1.2.2
        = .error (.failed (.modelUpdate "heating" "auto" (.nothingToRemove "/clay"))) ∧
      (((newKiln.callTrail [] (.start ())).run 0).1.1.length,
          ((newKiln.callTrail [] (.start ())).run 0).1.2.1.model,
          ((newKiln.callTrail [] (.start ())).run 0).2)
        = (1, .ofFields [("fuel", .nat 1)], 2) :=
  ⟨build_eq_ok_iff.mpr ⟨by decide, by decide, rfl⟩, alwaysAsks_kiln,
    satisfiesM_iff_run.mp (Automaton.halt_of_call newKiln (.start ()) alwaysAsks_kiln).1 0,
    by decide +kernel, by decide +kernel⟩

end Definition

end Reactive
