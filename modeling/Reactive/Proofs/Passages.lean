import Reactive.Proofs.Coupling
import Reactive.Proofs.Run

/-!
# Passages

The log of a run says from where to where each transition led. Here more is kept: for every
transition that fires, the automaton as it was, the branch that was taken, what its action asked
for, and the model that came of it. A list of such passages, the latest first, is a trail. Logs are
trails of which only the firings are left, so erasing a trail gives the run itself.

With the branch at hand one can say once what a transition does, and prove once that what every
passage keeps is kept by runs. Which branch is taken depends on guards, which may be anything, so
nothing is said about that except that it was among the branches that handle the event.

## Main definitions

* `Passage`, `Passage.after`, `Passage.Lawful`
* `Automaton.handle` — `Automaton.step`, with the passage
* `Automaton.settleTrail`, `callTrail`, `runTrail` — calls and runs with a trail
* `Automaton.callTrails` — runs with a trail for each call
* `Automaton.Proceeds` — what an outcome has to bring about in a call
* `CallRule` — what holds while a call is under way, and when it ends
* `Kept`, `KeptInOrder` — what passages and drops preserve

## Main results

* `Automaton.map_settleTrail`, `map_callTrail`, `map_runTrail` — logs are erased trails
* `Automaton.map_snd_runTrail`, `map_snd_callTrails` — erasing the trails of a run gives the run
* `Automaton.satisfiesM_handle_of`, `satisfiesM_treats` — all that is known when an event is handled
* `Automaton.satisfiesM_settleTrail` — how calls go, outcome by outcome
* `CallRule.callTrail` — how calls end
* `KeptInOrder.runTrail`, `Kept.runTrail` — what is kept holds after every call
-/

namespace Reactive

variable {m : Type → Type} {S E O : Type}

/-- A transition that fires. -/
structure Passage (m : Type → Type) (S E O : Type) where
  /-- The automaton before. -/
  before : Automaton m S E O
  event : String
  /-- How many transitions of the same call fired before. -/
  depth : Nat
  branch : Branch m S E O
  /-- What the action of the branch asked for. -/
  asked : ActionResult O
  /-- The model with the update applied to it. -/
  model : Value

namespace Passage

/-- The state that is left. -/
def source (p : Passage m S E O) : String := p.before.current

/-- The automaton after a passage. -/
def after (p : Passage m S E O) : Automaton m S E O :=
  p.before.move p.branch.target p.event p.depth p.model

/-- The entry of the log for a passage. -/
def firing (p : Passage m S E O) : Firing := p.before.firing p.after p.event p.depth

/-- The log of a trail has left what the trail has left. -/
theorem map_source_firing (trail : List (Passage m S E O)) :
    (trail.map firing).map Firing.source = trail.map source :=
  List.map_map

/-- The branch handles the event, and the model is what its action asked for. -/
structure Lawful (p : Passage m S E O) : Prop where
  handled : ∃ state branches,
    p.before.table.resolve? p.before.current p.event = some (state, branches) ∧ p.branch ∈ branches
  updated : Patch.apply p.asked.update p.before.model = .ok p.model

end Passage

namespace Automaton

/-- What became of one event. -/
inductive Outcome (m : Type → Type) (S E O : Type) where
  /-- Nothing handles it. -/
  | unhandled
  /-- No guard passes. -/
  | blocked
  /-- A guard or an action crashed, or the model could not be updated. -/
  | halted (halt : Halt)
  /-- A branch fired. -/
  | passed (p : Passage m S E O)

/-- An outcome with less detail. -/
def Outcome.toStep : Outcome m S E O → Step m S E O
  | unhandled => .unhandled
  | blocked => .blocked
  | halted halt => .halted halt
  | passed p => .fired p.after p.asked.output

variable [Monad m]

/-- Handles one event, as the transition number `depth` of a call. -/
def handle (a : Automaton m S E O) (event : String) (data : E) (depth : Nat) :
    m (Outcome m S E O) := do
  match a.table.resolve? a.current event with
  | none => pure .unhandled
  | some (_, branches) =>
    match ← firstPassing a.model data a.settings branches with
    | .error crash => pure (.halted (.crashed crash))
    | .ok none => pure .blocked
    | .ok (some branch) =>
      match ← branch.run a.model data a.settings with
      | .error crash => pure (.halted (.crashed crash))
      | .ok asked =>
        match Patch.apply asked.update a.model with
        | .error cause => pure (.halted (.failed (.modelUpdate a.current event cause)))
        | .ok model => pure (.passed ⟨a, event, depth, branch, asked, model⟩)

/-- `settle`, with what fires put on top of a trail. -/
def settleTrail (data : E) :
    (remaining depth : Nat) → String → List (Passage m S E O) → Automaton m S E O →
      m (List (Passage m S E O) × Automaton m S E O × Except Halt (Option O))
  | remaining, depth, event, trail, a => do
    match ← a.handle event data depth with
    | .unhandled => pure (trail, if depth = 0 then a.drop else a, .ok none)
    | .blocked => pure (trail, a, .ok none)
    | .halted halt => pure (trail, a, .error halt)
    | .passed p =>
      match p.after.table.cascadeEvent? p.after.current with
      | none => pure (p :: trail, p.after, .ok p.asked.output)
      | some event' =>
        match remaining with
        | 0 =>
          pure (p :: trail, p.after,
            .error (.failed (.cascadeLimitExceeded p.after.current p.after.config.maxCascadeDepth)))
        | remaining + 1 => settleTrail data remaining (depth + 1) event' (p :: trail) p.after

/-- `call`, with what fires put on top of a trail. -/
def callTrail (trail : List (Passage m S E O)) (a : Automaton m S E O) :
    Call E → m (List (Passage m S E O) × Automaton m S E O × Except Halt (Option O))
  | .start data =>
    if a.current = rootState then
      settleTrail data a.config.maxCascadeDepth.toNat 0 initEvent trail a
    else pure (trail, a.drop, .ok none)
  | .send event data => settleTrail data a.config.maxCascadeDepth.toNat 0 event trail a

/-- `run`, with what fires put on top of a trail. -/
def runTrail : List (Call E) → List (Passage m S E O) → Automaton m S E O →
    m (List (List (Passage m S E O) × Automaton m S E O × Except Halt (Option O)))
  | [], _, _ => pure []
  | c :: rest, trail, a => do
    let done ← a.callTrail trail c
    let later ← runTrail rest done.1 done.2.1
    pure (done :: later)

/-- `run`, with a trail of its own for each call. -/
def callTrails : List (Call E) → Automaton m S E O →
    m (List (List (Passage m S E O) × Automaton m S E O × Except Halt (Option O)))
  | [], _ => pure []
  | c :: rest, a => do
    let done ← a.callTrail [] c
    let later ← callTrails rest done.2.1
    pure (done :: later)

variable [LawfulMonad m]

/-! ### What is known of a passage -/

/-- Only a guard keeps a branch from passing. -/
theorem satisfiesM_passes (branch : Branch m S E O) (model : Value) (data : E) (settings : S) :
    SatisfiesM (fun verdict => verdict = .ok false → branch.guard.isSome = true)
      (branch.passes model data settings) := by
  rw [Branch.passes]
  cases branch.guard with
  | none =>
    refine SatisfiesM.pure ?_
    rintro ⟨⟩
  | some guard => exact SatisfiesM.trivial.imp fun _ _ => rfl

/-- The branch that passes is one of those that were tried, and if none passes, each of them has
answered so. -/
theorem satisfiesM_firstPassing {model : Value} {data : E} {settings : S}
    {Answers : Branch m S E O → Bool → Prop} {branches : List (Branch m S E O)}
    (hanswers : ∀ branch ∈ branches,
      SatisfiesM (fun verdict => ∀ passes, verdict = .ok passes → Answers branch passes)
        (branch.passes model data settings)) :
    SatisfiesM (fun chosen => (∀ branch, chosen = .ok (some branch) → branch ∈ branches) ∧
        (chosen = .ok none → ∀ branch ∈ branches, Answers branch false))
      (firstPassing model data settings branches) := by
  induction branches with
  | nil => exact SatisfiesM.pure ⟨by rintro _ ⟨⟩, by rintro - _ ⟨⟩⟩
  | cons branch rest ih =>
    obtain ⟨hbranch, hrest⟩ := List.forall_mem_cons.mp hanswers
    rw [firstPassing]
    refine hbranch.bind fun verdict hverdict => ?_
    rcases verdict with crash | _ | _
    · exact SatisfiesM.pure ⟨by rintro _ ⟨⟩, by rintro ⟨⟩⟩
    · refine (ih hrest).imp fun hchosen => ⟨?_, ?_⟩
      · exact fun b hb => List.mem_cons_of_mem branch (hchosen.1 b hb)
      · exact fun hnone => List.forall_mem_cons.mpr ⟨hverdict false rfl, hchosen.2 hnone⟩
    · refine SatisfiesM.pure ⟨?_, by rintro ⟨⟩⟩
      rintro _ ⟨⟩
      exact List.mem_cons_self

/-- What is known of the passage when an automaton handles an event. -/
structure Handles (a : Automaton m S E O) (event : String) (depth : Nat) (p : Passage m S E O) :
    Prop where
  before : p.before = a
  event : p.event = event
  depth : p.depth = depth
  lawful : p.Lawful

/-- An event is handled in an automaton, by branches that all have guards. -/
def Guarded (a : Automaton m S E O) (event : String) : Prop :=
  ∃ owner branches, a.table.resolve? a.current event = some (owner, branches) ∧
    ∀ branch ∈ branches, branch.guard.isSome = true

section

/-! Something may be known of what actions ask for. `Asks branch model asked` is to hold whenever
the action of a branch asks for something in view of a model. -/

variable (Asks : Branch m S E O → Value → ActionResult O → Prop)

/-- Why the handling of an event halts: supplied code crashed, or the model could not be updated as
the action of a branch asked. -/
inductive Halts (a : Automaton m S E O) (event : String) : Halt → Prop
  | crashed {owner : String} {branches : List (Branch m S E O)} {crash : Crash}
      (handled : a.table.resolve? a.current event = some (owner, branches)) :
      Halts a event (.crashed crash)
  | refused {owner : String} {branches : List (Branch m S E O)} {branch : Branch m S E O}
      {asked : ActionResult O} {cause : Patch.Error}
      (handled : a.table.resolve? a.current event = some (owner, branches))
      (mem : branch ∈ branches) (asks : Asks branch a.model asked)
      (refused : Patch.apply asked.update a.model = .error cause) :
      Halts a event (.failed (.modelUpdate a.current event cause))

/-- What is known of the passage, and of what the action of its branch asked for. -/
structure Fires (a : Automaton m S E O) (event : String) (depth : Nat) (p : Passage m S E O) :
    Prop extends a.Handles event depth p where
  asks : Asks p.branch a.model p.asked

/-- What is known of the outcome when an automaton handles an event. -/
inductive Treats (a : Automaton m S E O) (event : String) (depth : Nat) : Outcome m S E O → Prop
  | unhandled (h : a.table.resolve? a.current event = none) : Treats a event depth .unhandled
  | blocked (h : a.Guarded event) : Treats a event depth .blocked
  | halted {halt : Halt} (h : a.Halts Asks event halt) : Treats a event depth (.halted halt)
  | passed {p : Passage m S E O} (h : a.Fires Asks event depth p) :
      Treats a event depth (.passed p)

/-- The branches that handle an event in an automaton ask for what they are known to. -/
def KnownToAsk (data : E) (a : Automaton m S E O) (event : String) : Prop :=
  ∀ owner branches, a.table.resolve? a.current event = some (owner, branches) →
    ∀ branch ∈ branches,
      SatisfiesM (fun result => ∀ asked, result = .ok asked → Asks branch a.model asked)
        (branch.run a.model data a.settings)

end

/-- The branches that handle an event in an automaton answer as they are known to, if they are
asked whether they pass. -/
def KnownToAnswer (Answers : Branch m S E O → Bool → Prop) (data : E) (a : Automaton m S E O)
    (event : String) : Prop :=
  ∀ owner branches, a.table.resolve? a.current event = some (owner, branches) →
    ∀ branch ∈ branches,
      SatisfiesM (fun verdict => ∀ passes, verdict = .ok passes → Answers branch passes)
        (branch.passes a.model data a.settings)

/-- **What becomes of an event**, case by case, where something may be known of what guards answer
and of what actions ask for. -/
theorem satisfiesM_handle_of {Answers : Branch m S E O → Bool → Prop}
    {Asks : Branch m S E O → Value → ActionResult O → Prop} {data : E} {a : Automaton m S E O}
    {event : String} {depth : Nat} {P : Outcome m S E O → Prop}
    (hanswers : KnownToAnswer Answers data a event) (hasks : KnownToAsk Asks data a event)
    (unhandled : a.table.resolve? a.current event = none → P .unhandled)
    (blocked : ∀ {owner branches}, a.table.resolve? a.current event = some (owner, branches) →
      (∀ branch ∈ branches, Answers branch false) → P .blocked)
    (halted : ∀ {halt}, a.Halts Asks event halt → P (.halted halt))
    (passed : ∀ {p}, a.Fires Asks event depth p → P (.passed p)) :
    SatisfiesM P (a.handle event data depth) := by
  rw [handle]
  cases hfound : a.table.resolve? a.current event with
  | none => exact SatisfiesM.pure (unhandled hfound)
  | some found =>
    obtain ⟨state, branches⟩ := found
    refine (satisfiesM_firstPassing (hanswers state branches hfound)).bind fun chosen hchosen => ?_
    rcases chosen with crash | _ | branch
    · exact SatisfiesM.pure (halted (.crashed hfound))
    · exact SatisfiesM.pure (blocked hfound (hchosen.2 rfl))
    · have hbranch : branch ∈ branches := hchosen.1 branch rfl
      refine (hasks state branches hfound branch hbranch).bind fun result hresult => ?_
      cases result with
      | error crash => exact SatisfiesM.pure (halted (.crashed hfound))
      | ok asked =>
        dsimp only
        cases happly : Patch.apply asked.update a.model with
        | error cause =>
          exact SatisfiesM.pure (halted (.refused hfound hbranch (hresult asked rfl) happly))
        | ok model =>
          refine SatisfiesM.pure (passed ⟨⟨rfl, rfl, rfl, ?_, happly⟩, hresult asked rfl⟩)
          exact ⟨state, branches, hfound, hbranch⟩

/-- **All that is known of an outcome**, if nothing is known of what guards answer. -/
theorem satisfiesM_treats {Asks : Branch m S E O → Value → ActionResult O → Prop} {data : E}
    {a : Automaton m S E O} {event : String} (hasks : KnownToAsk Asks data a event) (depth : Nat) :
    SatisfiesM (Treats Asks a event depth) (a.handle event data depth) := by
  have hanswers : KnownToAnswer (fun branch passes => passes = false → branch.guard.isSome = true)
      data a event := by
    intro _ _ _ branch _
    refine (satisfiesM_passes branch a.model data a.settings).imp ?_
    rintro _ hverdict _ rfl rfl
    exact hverdict rfl
  refine satisfiesM_handle_of hanswers hasks .unhandled ?_ .halted .passed
  exact fun hfound hall => .blocked ⟨_, _, hfound, fun branch hbranch => hall branch hbranch rfl⟩

/-- Nothing need be known of what actions ask for. -/
theorem knownToAsk_trivial (data : E) (a : Automaton m S E O) (event : String) :
    KnownToAsk (fun _ _ _ => True) data a event :=
  fun _ _ _ _ _ => SatisfiesM.trivial.imp fun _ _ _ => True.intro

/-- What is known of a passage. -/
theorem satisfiesM_handle (a : Automaton m S E O) (event : String) (data : E) (depth : Nat) :
    SatisfiesM (fun outcome => ∀ p, outcome = .passed p → a.Handles event depth p)
      (a.handle event data depth) := by
  refine (satisfiesM_treats (knownToAsk_trivial data a event) depth).imp fun h p hp => ?_
  rw [hp] at h
  cases h with
  | passed h => exact h.toHandles

/-! ### Logs are erased trails -/

/-- The log that is left of a trail, beside what else is known after a call. -/
def eraseTrail (done : List (Passage m S E O) × Automaton m S E O × Except Halt (Option O)) :
    List Firing × Automaton m S E O × Except Halt (Option O) :=
  (done.1.map Passage.firing, done.2)

theorem map_toStep_handle (a : Automaton m S E O) (event : String) (data : E) (depth : Nat) :
    Outcome.toStep <$> a.handle event data depth = a.step event data depth := by
  rw [handle, step]
  cases a.table.resolve? a.current event with
  | none => exact map_pure ..
  | some found =>
    simp only [map_bind]
    refine bind_congr fun chosen => ?_
    rcases chosen with crash | _ | branch
    · exact map_pure ..
    · exact map_pure ..
    · simp only [map_bind]
      refine bind_congr fun asked => ?_
      cases asked with
      | error crash => exact map_pure ..
      | ok asked =>
        dsimp only
        cases Patch.apply asked.update a.model with
        | error cause => exact map_pure ..
        | ok model => exact map_pure ..

/-- Erasing the trail of `settleTrail` gives `settleLog`. The induction is on the number of
transitions that are left. -/
theorem map_settleTrail (data : E) (remaining depth : Nat) (event : String)
    (trail : List (Passage m S E O)) (a : Automaton m S E O) :
    eraseTrail <$> settleTrail data remaining depth event trail a
      = settleLog data remaining depth event (trail.map Passage.firing) a := by
  induction remaining using Nat.strongRecOn generalizing depth event trail a with
  | ind remaining ih =>
    rw [settleTrail, settleLog, ← map_toStep_handle, map_bind, bind_map_left]
    refine bind_congr_of_satisfiesM (satisfiesM_handle a event data depth)
      fun outcome houtcome => ?_
    cases outcome with
    | unhandled | blocked | halted _ => exact map_pure ..
    | passed p =>
      obtain ⟨hbefore, hevent, hdepth, -⟩ := houtcome p rfl
      have hfiring : a.firing p.after event depth = p.firing := by
        rw [Passage.firing, hbefore, hevent, hdepth]
      simp only [Outcome.toStep, hfiring]
      cases p.after.table.cascadeEvent? p.after.current with
      | none => exact map_pure ..
      | some event' =>
        cases remaining with
        | zero => exact map_pure ..
        | succ remaining =>
          exact ih remaining (Nat.lt_succ_self _) (depth + 1) event' (p :: trail) p.after

theorem map_callTrail (trail : List (Passage m S E O)) (a : Automaton m S E O) (c : Call E) :
    eraseTrail <$> a.callTrail trail c = a.callLog (trail.map Passage.firing) c := by
  cases c with
  | start data =>
    rw [callTrail, callLog]
    split
    · exact map_settleTrail ..
    · exact map_pure ..
  | send event data => exact map_settleTrail ..

/-- **Erasing the trail of a run gives its log.** -/
theorem map_runTrail (calls : List (Call E)) (trail : List (Passage m S E O))
    (a : Automaton m S E O) : List.map eraseTrail <$> runTrail calls trail a
      = runLog calls (trail.map Passage.firing) a := by
  induction calls generalizing trail a with
  | nil => exact map_pure ..
  | cons c rest ih =>
    rw [runTrail, runLog, ← map_callTrail, map_bind, bind_map_left]
    refine bind_congr fun done => ?_
    have hrest := ih done.1 done.2.1
    rw [show (eraseTrail done).1 = done.1.map Passage.firing from rfl,
      show (eraseTrail done).2.1 = done.2.1 from rfl, ← hrest, map_bind, bind_map_left]
    simp

/-- Erasing the trail of a call gives the call. -/
theorem map_snd_callTrail (trail : List (Passage m S E O)) (a : Automaton m S E O) (c : Call E) :
    Prod.snd <$> a.callTrail trail c = a.call c := by
  rw [← map_snd_callLog (trail.map Passage.firing) a c, ← map_callTrail, Functor.map_map]
  rfl

/-- **Erasing the trail of a run gives the run.** -/
theorem map_snd_runTrail (calls : List (Call E)) (trail : List (Passage m S E O))
    (a : Automaton m S E O) : List.map Prod.snd <$> runTrail calls trail a = run calls a := by
  rw [← map_runLog calls (trail.map Passage.firing) a, ← map_runTrail, Functor.map_map]
  simp only [List.map_map]
  rfl

/-- Erasing the trails of the calls of a run gives the run. -/
theorem map_snd_callTrails (calls : List (Call E)) (a : Automaton m S E O) :
    List.map Prod.snd <$> callTrails calls a = run calls a := by
  induction calls generalizing a with
  | nil => exact map_pure ..
  | cons c rest ih =>
    rw [callTrails, run, ← map_snd_callTrail [] a c, map_bind, bind_map_left]
    refine bind_congr fun done => ?_
    rw [← ih done.2.1, map_bind, bind_map_left]
    simp only [map_pure, List.map_cons]

/-- What every call of a run ensures if it begins where `P` holds, and ends there. -/
theorem forall₂_callTrails {P : Automaton m S E O → Prop}
    {Q : Call E → List (Passage m S E O) × Automaton m S E O × Except Halt (Option O) → Prop}
    (hcall : ∀ a c, P a → SatisfiesM (fun done => Q c done ∧ P done.2.1) (a.callTrail [] c))
    (calls : List (Call E)) {a : Automaton m S E O} (h : P a) :
    SatisfiesM (List.Forall₂ Q calls) (a.callTrails calls) := by
  induction calls generalizing a with
  | nil => exact SatisfiesM.pure .nil
  | cons c rest ih =>
    rw [callTrails]
    refine (hcall a c h).bind fun done hdone => ?_
    exact (ih hdone.2).bind fun later hlater => SatisfiesM.pure (.cons hdone.1 hlater)

/-- What every call of a run ensures, whatever the call is. -/
theorem satisfiesM_callTrails {P : Automaton m S E O → Prop}
    {Q : List (Passage m S E O) → Automaton m S E O → Except Halt (Option O) → Prop}
    (hcall : ∀ a c, P a →
      SatisfiesM (fun done => Q done.1 done.2.1 done.2.2 ∧ P done.2.1) (a.callTrail [] c))
    (calls : List (Call E)) {a : Automaton m S E O} (h : P a) :
    SatisfiesM (fun dones => ∀ done ∈ dones, Q done.1 done.2.1 done.2.2) (a.callTrails calls) := by
  refine (forall₂_callTrails hcall calls h).imp fun hdones => ?_
  induction hdones with
  | nil => rintro _ ⟨⟩
  | cons hdone _ ih => exact List.forall_mem_cons.mpr ⟨hdone, ih⟩

end Automaton

/-! ### How calls go -/

/-- The event that a call sends. -/
def Call.event : Call E → String
  | start _ => initEvent
  | send event _ => event

/-- The data of the event. -/
def Call.data : Call E → E
  | start data | send _ data => data

namespace Automaton

section

variable (I : (remaining depth : Nat) → String → List (Passage m S E O) → Automaton m S E O → Prop)
  (Q : List (Passage m S E O) → Automaton m S E O → Except Halt (Option O) → Prop)

/-- With this outcome the call ends so that `Q` holds, or it goes on and `I` holds. -/
def Proceeds (remaining depth : Nat) (trail : List (Passage m S E O)) (a : Automaton m S E O) :
    Outcome m S E O → Prop
  | .unhandled => Q trail (if depth = 0 then a.drop else a) (.ok none)
  | .blocked => Q trail a (.ok none)
  | .halted halt => Q trail a (.error halt)
  | .passed p =>
    match p.after.table.cascadeEvent? p.after.current with
    | none => Q (p :: trail) p.after (.ok p.asked.output)
    | some event' =>
      match remaining with
      | 0 =>
        Q (p :: trail) p.after
          (.error (.failed (.cascadeLimitExceeded p.after.current p.after.config.maxCascadeDepth)))
      | remaining + 1 => I remaining (depth + 1) event' (p :: trail) p.after

end

variable [Monad m] [LawfulMonad m] {data : E}
  {I : (remaining depth : Nat) → String → List (Passage m S E O) → Automaton m S E O → Prop}
  {Q : List (Passage m S E O) → Automaton m S E O → Except Halt (Option O) → Prop}

/-- **How a call that is under way ends**, if every outcome ends it well or is in order. The
induction is on the number of transitions that are left. -/
theorem satisfiesM_settleTrail
    (hproceeds : ∀ {remaining depth event trail a}, I remaining depth event trail a →
      SatisfiesM (Proceeds I Q remaining depth trail a) (a.handle event data depth))
    {remaining depth : Nat} {event : String} {trail : List (Passage m S E O)}
    {a : Automaton m S E O} (h : I remaining depth event trail a) :
    SatisfiesM (fun done => Q done.1 done.2.1 done.2.2)
      (settleTrail data remaining depth event trail a) := by
  induction remaining using Nat.strongRecOn generalizing depth event trail a with
  | ind remaining ih =>
    rw [settleTrail]
    refine (hproceeds h).bind fun outcome houtcome => ?_
    cases outcome with
    | unhandled | blocked | halted _ => exact SatisfiesM.pure houtcome
    | passed p =>
      rw [Proceeds] at houtcome
      dsimp only
      cases hnext : p.after.table.cascadeEvent? p.after.current with
      | none =>
        rw [hnext] at houtcome
        exact SatisfiesM.pure houtcome
      | some event' =>
        rw [hnext] at houtcome
        cases remaining with
        | zero => exact SatisfiesM.pure houtcome
        | succ remaining => exact ih remaining (Nat.lt_succ_self _) houtcome

/-- A call is a late start, or it is settled from its first event on. -/
theorem satisfiesM_callTrail {c : Call E} {trail : List (Passage m S E O)} {a : Automaton m S E O}
    (hlate : Q trail a.drop (.ok none))
    (hsettled : SatisfiesM (fun done => Q done.1 done.2.1 done.2.2)
      (settleTrail c.data a.config.maxCascadeDepth.toNat 0 c.event trail a)) :
    SatisfiesM (fun done => Q done.1 done.2.1 done.2.2) (a.callTrail trail c) := by
  cases c with
  | start data =>
    rw [callTrail]
    split
    · exact hsettled
    · exact SatisfiesM.pure hlate
  | send event data => exact hsettled

end Automaton

/-- `I` holds while a call with some data is under way, with `remaining` transitions left behind
`depth` that have fired and an event to be handled, and `Q` holds when it ends. There is one clause
for each way in which a call ends, and one for a transition that the call goes on after. A late
start is dropped without a look at its event, so only behind a transition is it certain that an
event without effect had no handler. -/
structure CallRule (Asks : Branch m S E O → Value → ActionResult O → Prop) (data : E) [Monad m]
    (I : (remaining depth : Nat) → String → List (Passage m S E O) → Automaton m S E O → Prop)
    (Q : List (Passage m S E O) → Automaton m S E O → Except Halt (Option O) → Prop) : Prop where
  known : ∀ {remaining depth event trail a}, I remaining depth event trail a →
    a.KnownToAsk Asks data event
  unhandled : ∀ {remaining depth event trail a}, I remaining depth event trail a →
    (depth ≠ 0 → a.table.resolve? a.current event = none) →
      Q trail (if depth = 0 then a.drop else a) (.ok none)
  blocked : ∀ {remaining depth event trail a}, I remaining depth event trail a →
    a.Guarded event → Q trail a (.ok none)
  halted : ∀ {remaining depth event trail a halt}, I remaining depth event trail a →
    a.Halts Asks event halt → Q trail a (.error halt)
  rests : ∀ {remaining depth event trail p}, I remaining depth event trail p.before →
    p.before.Fires Asks event depth p → p.after.table.cascadeEvent? p.after.current = none →
      Q (p :: trail) p.after (.ok p.asked.output)
  exceeds : ∀ {depth event trail p event'}, I 0 depth event trail p.before →
    p.before.Fires Asks event depth p →
    p.after.table.cascadeEvent? p.after.current = some event' →
      Q (p :: trail) p.after
        (.error (.failed (.cascadeLimitExceeded p.after.current p.after.config.maxCascadeDepth)))
  goesOn : ∀ {remaining depth event trail p event'}, I (remaining + 1) depth event trail p.before →
    p.before.Fires Asks event depth p →
    p.after.table.cascadeEvent? p.after.current = some event' →
      I remaining (depth + 1) event' (p :: trail) p.after

namespace CallRule

variable [Monad m] [LawfulMonad m] {Asks : Branch m S E O → Value → ActionResult O → Prop}
  {data : E}
  {I : (remaining depth : Nat) → String → List (Passage m S E O) → Automaton m S E O → Prop}
  {Q : List (Passage m S E O) → Automaton m S E O → Except Halt (Option O) → Prop}

theorem proceeds (rule : CallRule Asks data I Q) {remaining depth : Nat} {event : String}
    {trail : List (Passage m S E O)} {a : Automaton m S E O} (h : I remaining depth event trail a) :
    SatisfiesM (Automaton.Proceeds I Q remaining depth trail a) (a.handle event data depth) := by
  refine (Automaton.satisfiesM_treats (rule.known h) depth).imp fun houtcome => ?_
  cases houtcome with
  | unhandled hnone => exact rule.unhandled h fun _ => hnone
  | blocked hguarded => exact rule.blocked h hguarded
  | halted hhalt => exact rule.halted h hhalt
  | @passed p hfires =>
    obtain rfl := hfires.before
    rw [Automaton.Proceeds]
    cases hnext : p.after.table.cascadeEvent? p.after.current with
    | none => exact rule.rests h hfires hnext
    | some event' =>
      cases remaining with
      | zero => exact rule.exceeds h hfires hnext
      | succ remaining => exact rule.goesOn h hfires hnext

/-- **How a call that is under way ends.** -/
theorem settleTrail (rule : CallRule Asks data I Q) {remaining depth : Nat} {event : String}
    {trail : List (Passage m S E O)} {a : Automaton m S E O} (h : I remaining depth event trail a) :
    SatisfiesM (fun done => Q done.1 done.2.1 done.2.2)
      (Automaton.settleTrail data remaining depth event trail a) :=
  Automaton.satisfiesM_settleTrail rule.proceeds h

/-- **How a call ends.** -/
theorem callTrail {c : Call E} (rule : CallRule Asks c.data I Q) {trail : List (Passage m S E O)}
    {a : Automaton m S E O} (h : I a.config.maxCascadeDepth.toNat 0 c.event trail a) :
    SatisfiesM (fun done => Q done.1 done.2.1 done.2.2) (a.callTrail trail c) :=
  Automaton.satisfiesM_callTrail (rule.unhandled h fun hdepth => absurd rfl hdepth)
    (rule.settleTrail h)

end CallRule

/-! ### What passages keep -/

/-- A passage comes next after some others, the latest first: it is the first one of its call, or it
goes on with the call of the latest. No call goes on past the limit. -/
structure Passage.Follows (earlier : List (Passage m S E O)) (p : Passage m S E O) : Prop where
  depth_eq : p.depth = 0 ∨ ∃ q ∈ earlier.head?, p.depth = q.depth + 1
  depth_le : p.depth ≤ p.before.config.maxCascadeDepth.toNat

/-- A property of trails and automata that drops preserve, and passages in the order in which calls
make them. -/
structure KeptInOrder (I : List (Passage m S E O) → Automaton m S E O → Prop) : Prop where
  passage : ∀ {trail p}, p.Lawful → p.Follows trail → I trail p.before → I (p :: trail) p.after
  drop : ∀ {trail a}, I trail a → I trail a.drop

namespace KeptInOrder

variable {I : List (Passage m S E O) → Automaton m S E O → Prop} [Monad m] [LawfulMonad m]

/-- What is kept, as a rule for calls. While a call is under way, the transitions that have fired
and those that are left make up the limit. -/
theorem callRule (hI : KeptInOrder I) (data : E) :
    CallRule (fun _ _ _ => True) data
      (fun remaining depth _ trail a => I trail a ∧
        (depth = 0 ∨ ∃ q ∈ trail.head?, depth = q.depth + 1) ∧
          remaining + depth = a.config.maxCascadeDepth.toNat)
      fun trail a _ => I trail a := by
  have hpassage : ∀ {remaining depth event trail} {p : Passage m S E O},
      (I trail p.before ∧ (depth = 0 ∨ ∃ q ∈ trail.head?, depth = q.depth + 1) ∧
        remaining + depth = p.before.config.maxCascadeDepth.toNat) →
      p.before.Fires (fun _ _ _ => True) event depth p → I (p :: trail) p.after := by
    rintro remaining depth event trail p ⟨hbefore, horder, hlimit⟩ hfires
    obtain rfl := hfires.depth
    exact hI.passage hfires.lawful ⟨horder, by omega⟩ hbefore
  refine ⟨fun _ => Automaton.knownToAsk_trivial data _ _, ?_, fun h _ => h.1, fun h _ => h.1,
    fun h hfires _ => hpassage h hfires, fun h hfires _ => hpassage h hfires, ?_⟩
  · intro _ depth _ trail a h _
    split
    · exact hI.drop h.1
    · exact h.1
  · intro remaining depth event trail p event' h hfires _
    refine ⟨hpassage h hfires, Or.inr ⟨p, rfl, congrArg (· + 1) hfires.depth.symm⟩, ?_⟩
    have hlimit := h.2.2
    show remaining + (depth + 1) = p.before.config.maxCascadeDepth.toNat
    omega

/-- **What is kept holds after a call.** -/
theorem callTrail (hI : KeptInOrder I) {trail : List (Passage m S E O)} {a : Automaton m S E O}
    (h : I trail a) (c : Call E) :
    SatisfiesM (fun done => I done.1 done.2.1) (a.callTrail trail c) :=
  (hI.callRule c.data).callTrail ⟨h, Or.inl rfl, Nat.add_zero _⟩

/-- **What is kept holds after every call of a run.** -/
theorem runTrail (hI : KeptInOrder I) (calls : List (Call E)) {trail : List (Passage m S E O)}
    {a : Automaton m S E O} (h : I trail a) :
    SatisfiesM (fun dones => ∀ done ∈ dones, I done.1 done.2.1)
      (Automaton.runTrail calls trail a) := by
  induction calls generalizing trail a with
  | nil => exact SatisfiesM.pure (by rintro _ ⟨⟩)
  | cons c rest ih =>
    rw [Automaton.runTrail]
    refine (hI.callTrail h c).bind fun done hdone => ?_
    refine (ih hdone).bind fun later hlater => SatisfiesM.pure ?_
    exact List.forall_mem_cons.mpr ⟨hdone, hlater⟩

end KeptInOrder

/-- A property of trails and automata that passages and drops preserve. -/
structure Kept (I : List (Passage m S E O) → Automaton m S E O → Prop) : Prop where
  passage : ∀ {trail p}, p.Lawful → I trail p.before → I (p :: trail) p.after
  drop : ∀ {trail a}, I trail a → I trail a.drop

namespace Kept

variable {I : List (Passage m S E O) → Automaton m S E O → Prop}

/-- Along with a property, what it says of each passage at its time is kept. -/
theorem and_suffix (hI : Kept I) {Q : List (Passage m S E O) → Passage m S E O → Prop}
    (hQ : ∀ {trail p}, p.Lawful → I trail p.before → Q trail p) :
    Kept fun trail a => I trail a ∧ ∀ p earlier, p :: earlier <:+ trail → Q earlier p where
  passage := by
    rintro trail q hq ⟨hbefore, hall⟩
    refine ⟨hI.passage hq hbefore, fun p earlier hsuffix => ?_⟩
    rcases List.suffix_cons_iff.mp hsuffix with heq | hsuffix
    · obtain ⟨rfl, rfl⟩ := List.cons_eq_cons.mp heq
      exact hQ hq hbefore
    · exact hall p earlier hsuffix
  drop := fun ⟨ha, hall⟩ => ⟨hI.drop ha, hall⟩

theorem inOrder (hI : Kept I) : KeptInOrder I := ⟨fun hp _ h => hI.passage hp h, hI.drop⟩

variable [Monad m] [LawfulMonad m]

theorem runTrail (hI : Kept I) (calls : List (Call E)) {trail : List (Passage m S E O)}
    {a : Automaton m S E O} (h : I trail a) :
    SatisfiesM (fun dones => ∀ done ∈ dones, I done.1 done.2.1)
      (Automaton.runTrail calls trail a) :=
  hI.inOrder.runTrail calls h

end Kept

end Reactive
