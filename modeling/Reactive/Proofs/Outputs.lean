import Reactive.Proofs.Passages

/-!
# Outputs

A call that ends well returns at most one output, though many actions may have run. It is that of
the action that ran last, but only if the automaton rests then. If the last transition led into a
state that calls for an event, and no branch for it passes, the call ends there as well, and returns
nothing: the output of the action that ran last is lost.

A call in which nothing fires has no output that could be returned. So what a call returns is known
from the last transition that it took and from the state in which it ended, and nothing else of the
call matters.

## Main definitions

* `lastOutput` — the output of the latest passage
* `Automaton.isResting` — the automaton waits for an event
* `Automaton.UnderWay`, `Automaton.Concluded` — a call before it ends, and after

## Main results

* `Automaton.satisfiesM_settleTrail_output` — the output of a call that is under way
* `Automaton.output_of_call` — the output of a call
* `Definition.output_lost_bell` — an output that is lost
-/

namespace Reactive

variable {m : Type → Type} {S E O : Type}

/-- What the action of the latest passage asked to be returned. -/
def lastOutput (trail : List (Passage m S E O)) : Option O :=
  trail.head?.bind fun p => p.asked.output

namespace Automaton

/-- Does the automaton wait for an event, and not call for one by itself? -/
def isResting (a : Automaton m S E O) : Bool := (a.table.cascadeEvent? a.current).isNone

theorem isResting_eq_true {a : Automaton m S E O} (h : a.table.cascadeEvent? a.current = none) :
    a.isResting = true := by
  rw [isResting, h]
  rfl

theorem isResting_eq_false {a : Automaton m S E O} {event : String}
    (h : a.table.cascadeEvent? a.current = some event) : a.isResting = false := by
  rw [isResting, h]
  rfl

/-- What is known when a call has ended: it led where its last transition did, and if it ended
well, whether that state is one to rest in decides on the output. -/
structure Concluded (trail : List (Passage m S E O)) (a : Automaton m S E O)
    (result : Except Halt (Option O)) : Prop where
  current : ∀ p earlier, trail = p :: earlier → a = p.after
  output : ∀ output, result = .ok output →
    output = if a.isResting then lastOutput trail else none

/-- A call that returned nothing before anything fired. -/
theorem concluded_nil (a : Automaton m S E O) : Concluded [] a (.ok none) where
  current := by rintro _ _ ⟨⟩
  output := by
    rintro _ ⟨⟩
    exact (ite_self _).symm

/-- The state of a call that is under way: nothing has fired yet, or the latest transition led into
a state that calls for an event. -/
def UnderWay (trail : List (Passage m S E O)) (depth : Nat) (a : Automaton m S E O) : Prop :=
  (trail = [] ∧ depth = 0) ∨
    ∃ p earlier, trail = p :: earlier ∧ depth ≠ 0 ∧ a = p.after ∧ a.isResting = false

namespace UnderWay

variable {trail : List (Passage m S E O)} {depth : Nat} {a : Automaton m S E O}

/-- After a transition into a state that calls for an event. -/
theorem after (depth : Nat) {p : Passage m S E O} {event : String}
    (h : p.after.table.cascadeEvent? p.after.current = some event) :
    UnderWay (p :: trail) (depth + 1) p.after :=
  .inr ⟨p, trail, rfl, Nat.succ_ne_zero depth, rfl, isResting_eq_false h⟩

/-- Where a call stops under way without a failure, it returns nothing. -/
theorem concluded (h : UnderWay trail depth a) : Concluded trail a (.ok none) := by
  rcases h with ⟨rfl, -⟩ | ⟨p, earlier, rfl, -, rfl, hresting⟩
  · exact concluded_nil a
  · refine ⟨?_, ?_⟩
    · rintro _ _ ⟨⟩
      rfl
    · rintro _ ⟨⟩
      rw [hresting]
      rfl

/-- Where nothing handles the event, a drop is counted if nothing has fired. -/
theorem concluded_drop (h : UnderWay trail depth a) :
    Concluded trail (if depth = 0 then a.drop else a) (.ok none) := by
  have hconcluded := h.concluded
  rcases h with ⟨rfl, rfl⟩ | ⟨p, earlier, rfl, hdepth, rfl, hresting⟩
  · exact concluded_nil _
  · rw [if_neg hdepth]
    exact hconcluded

/-- A failure returns nothing at all. -/
theorem concluded_halted (h : UnderWay trail depth a) (halt : Halt) :
    Concluded trail a (.error halt) :=
  ⟨h.concluded.current, by rintro _ ⟨⟩⟩

end UnderWay

/-- A call that ended where its last transition led, in a state to rest in. -/
theorem concluded_resting {p : Passage m S E O} (earlier : List (Passage m S E O))
    (h : p.after.table.cascadeEvent? p.after.current = none) :
    Concluded (p :: earlier) p.after (.ok p.asked.output) where
  current := by
    rintro _ _ ⟨⟩
    rfl
  output := by
    rintro _ ⟨⟩
    rw [isResting_eq_true h]
    rfl

variable [Monad m] [LawfulMonad m]

/-- How calls are concluded. A transition into a state that calls for an event keeps the call under
way. -/
theorem callRule_concluded (data : E) :
    CallRule (fun (_ : Branch m S E O) _ _ => True) data
      (fun _ depth _ trail a => UnderWay trail depth a) Concluded where
  known _ := knownToAsk_trivial data _ _
  unhandled h _ := h.concluded_drop
  blocked h _ := h.concluded
  halted h _ := h.concluded_halted _
  rests _ _ hnext := concluded_resting _ hnext
  exceeds _ _ hnext := (UnderWay.after 0 hnext).concluded_halted _
  goesOn _ _ hnext := .after _ hnext

/-- How a call that is under way is concluded. -/
theorem satisfiesM_settleTrail_output (data : E) (remaining depth : Nat) (event : String)
    {trail : List (Passage m S E O)} {a : Automaton m S E O} (h : UnderWay trail depth a) :
    SatisfiesM (fun done => Concluded done.1 done.2.1 done.2.2)
      (settleTrail data remaining depth event trail a) :=
  (callRule_concluded data).settleTrail h

/-- **The output of a call.** Whatever the automaton, the event, its data and the supplied code: a
call that ends well returns the output of the branch that fired last in it if the automaton rests
then, and otherwise nothing, whatever the branch asked for. Without the trail, the call is what it
was. -/
theorem output_of_call (a : Automaton m S E O) (c : Call E) :
    SatisfiesM (fun done =>
        (∀ p earlier, done.1 = p :: earlier → done.2.1 = p.after) ∧
        ∀ output, done.2.2 = .ok output →
          output = if done.2.1.isResting then lastOutput done.1 else none)
      (a.callTrail [] c)
      ∧ Prod.snd <$> a.callTrail [] c = a.call c := by
  refine ⟨?_, map_snd_callTrail [] a c⟩
  have hstart : ∀ a : Automaton m S E O, UnderWay [] 0 a := fun a => .inl ⟨rfl, rfl⟩
  suffices h : SatisfiesM (fun done => Concluded done.1 done.2.1 done.2.2) (a.callTrail [] c) from
    h.imp fun hdone => ⟨hdone.current, hdone.output⟩
  cases c with
  | start data =>
    rw [callTrail]
    split
    · exact satisfiesM_settleTrail_output data _ 0 initEvent (hstart a)
    · exact SatisfiesM.pure (concluded_nil a.drop)
  | send event data => exact satisfiesM_settleTrail_output data _ 0 event (hstart a)

end Automaton

namespace Definition

/-- An action that counts how often it ran, and asks for an output. -/
def strike (output : String) : Action (StateM Nat) Unit Unit String where
  run _ _ _ := do
    modify (· + 1)
    pure (.ok (.ofOutput output))

/-- A bell that may be tapped or rung. It stops ringing by itself when that is allowed, which it
never is. -/
def bell : Definition (StateM Nat) Unit Unit String where
  states := [.leaf "idle", .leaf "ringing"]
  events := ["tap", "ring"]
  transitions :=
    [⟨rootState, some initEvent, [{ target := .state "idle" }]⟩,
      ⟨"idle", some "tap", [{ target := .state "idle", action := some (strike "tick") }]⟩,
      ⟨"idle", some "ring", [{ target := .state "ringing", action := some (strike "ding") }]⟩,
      ⟨"ringing", none,
        [{ target := .state "idle", guard := some ⟨fun _ _ _ => pure (.ok false)⟩ }]⟩]

/-- The bell when it was just built. -/
def newBell : Automaton (StateM Nat) Unit Unit String :=
  .ofTable (.compile bell.states bell.transitions) bell.model () bell.config

/-- The bell when it was just started. -/
def idleBell : Automaton (StateM Nat) Unit Unit String := ((newBell.call (.start ())).run 0).1.1

/-- What comes of sending an event to the bell when it was just started. -/
def struck (event : String) :
    List (Passage (StateM Nat) Unit Unit String) × Automaton (StateM Nat) Unit Unit String ×
      Except Halt (Option String) :=
  ((idleBell.callTrail [] (.send event ())).run 0).1

theorem output_of_call_bell :
    (∀ output, (struck "tap").2.2 = .ok output →
      output = if (struck "tap").2.1.isResting then lastOutput (struck "tap").1 else none) ∧
      ((struck "tap").2.1.isResting, lastOutput (struck "tap").1, (struck "tap").2.2)
        = (true, some "tick", .ok (some "tick")) :=
  ⟨(satisfiesM_iff_run.mp (Automaton.output_of_call idleBell (.send "tap" ())).1 0).2,
    by decide +kernel⟩

/-- **An output may get lost.** The bell is accepted. When it is started and rung, one branch fires
and asks for an output, the call ends well, and nothing is returned. -/
theorem output_lost_bell :
    bell.build () = .ok newBell ∧
      (struck "ring").1.map (fun p => p.asked.output) = [some "ding"] ∧
      ((idleBell.call (.send "ring" ())).run 0).1.2 = .ok none := by
  refine ⟨?_, by decide +kernel, by decide +kernel⟩
  rw [build, show bell.problems = [] by decide, show Trace.isReservable _ = true by decide]
  rfl

end Definition

end Reactive
