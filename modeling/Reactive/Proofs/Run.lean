import Mathlib
import Reactive.Automaton

/-!
# Runs of automata

A run is a list of calls, made one after the other whatever becomes of them: an automaton whose
call halted can be called again.

Which transitions fire inside a call is not part of its result, and the trace keeps only the latest
of them. So there is also the run with a log: the same calls, where every transition that fires is
written down. Erasing the log gives the run itself.

## Main definitions

* `Call`, `Automaton.call`, `Automaton.run`
* `Automaton.settleLog`, `callLog`, `runLog` — the same with a log

* `Automaton.Unseen` — a change that steps do not see

## Main results

* `Automaton.map_snd_settleLog`, `map_snd_callLog`, `map_runLog` — erasing the log
* `Automaton.Unseen.map_step`
-/

namespace Reactive

/-- What may be asked of an automaton. -/
inductive Call (E : Type) where
  /-- To start, with the data of `init`. -/
  | start (data : E)
  /-- To handle an event. -/
  | send (event : String) (data : E)

namespace Automaton

variable {m : Type → Type} {S E O : Type} [Monad m]

/-- Makes a call. -/
def call (a : Automaton m S E O) : Call E → m (Automaton m S E O × Except Halt (Option O))
  | .start data => a.startWith data
  | .send event data => a.send event data

/-- Makes calls one after the other. Given are the automaton after each call and its result. -/
def run : List (Call E) → Automaton m S E O → m (List (Automaton m S E O × Except Halt (Option O)))
  | [], _ => pure []
  | c :: rest, a => do
    let done ← a.call c
    let later ← run rest done.1
    pure (done :: later)

/-! ### Runs with a log

The log holds what has fired, the latest first. -/

/-- The entry of the log for a transition from `a` to `next`. -/
def firing (a next : Automaton m S E O) (event : String) (depth : Nat) : Firing :=
  ⟨a.current, event, next.current, .ofNat depth⟩

/-- `settle`, with what fires put on top of a log. -/
def settleLog (data : E) :
    (remaining depth : Nat) → String → List Firing → Automaton m S E O →
      m (List Firing × Automaton m S E O × Except Halt (Option O))
  | remaining, depth, event, log, a => do
    match ← a.step event data depth with
    | .unhandled => pure (log, if depth = 0 then a.drop else a, .ok none)
    | .blocked => pure (log, a, .ok none)
    | .halted halt => pure (log, a, .error halt)
    | .fired next output =>
      match next.table.cascadeEvent? next.current with
      | none => pure (a.firing next event depth :: log, next, .ok output)
      | some event' =>
        match remaining with
        | 0 =>
          pure (a.firing next event depth :: log, next,
            .error (.failed (.cascadeLimitExceeded next.current next.config.maxCascadeDepth)))
        | remaining + 1 =>
          settleLog data remaining (depth + 1) event' (a.firing next event depth :: log) next

/-- `call`, with what fires put on top of a log. -/
def callLog (log : List Firing) (a : Automaton m S E O) :
    Call E → m (List Firing × Automaton m S E O × Except Halt (Option O))
  | .start data =>
    if a.current = rootState then
      settleLog data a.config.maxCascadeDepth.toNat 0 initEvent log a
    else pure (log, a.drop, .ok none)
  | .send event data => settleLog data a.config.maxCascadeDepth.toNat 0 event log a

/-- `run`, with what fires put on top of a log. -/
def runLog : List (Call E) → List Firing → Automaton m S E O →
    m (List (List Firing × Automaton m S E O × Except Halt (Option O)))
  | [], _, _ => pure []
  | c :: rest, log, a => do
    let done ← a.callLog log c
    let later ← runLog rest done.1 done.2.1
    pure (done :: later)

variable [LawfulMonad m]

/-- Erasing the log of `settleLog` gives `settle`. The induction is on the number of transitions
that are left. -/
theorem map_snd_settleLog (data : E) (remaining depth : Nat) (event : String) (log : List Firing)
    (a : Automaton m S E O) :
    Prod.snd <$> settleLog data remaining depth event log a
      = settle data remaining depth event a := by
  induction remaining using Nat.strongRecOn generalizing depth event log a with
  | ind remaining ih =>
    rw [settleLog, settle, map_bind]
    refine bind_congr fun step => ?_
    cases step with
    | unhandled | blocked | halted _ => simp
    | fired next output =>
      cases hcalled : next.table.cascadeEvent? next.current with
      | none => simp [hcalled]
      | some event' =>
        cases remaining with
        | zero => simp [hcalled]
        | succ remaining =>
          have hrest := ih remaining (Nat.lt_succ_self _) (depth + 1) event'
            (a.firing next event depth :: log) next
          simpa [hcalled] using hrest

theorem map_snd_callLog (log : List Firing) (a : Automaton m S E O) (c : Call E) :
    Prod.snd <$> a.callLog log c = a.call c := by
  cases c with
  | start data =>
    rw [callLog, call, startWith]
    split
    · exact map_snd_settleLog ..
    · simp
  | send event data => exact map_snd_settleLog ..

/-- **Erasing the log of a run gives the run.** -/
theorem map_runLog (calls : List (Call E)) (log : List Firing) (a : Automaton m S E O) :
    List.map Prod.snd <$> runLog calls log a = run calls a := by
  induction calls generalizing log a with
  | nil => simp [runLog, run]
  | cons c rest ih =>
    rw [runLog, run, ← map_snd_callLog log a c, map_bind, bind_map_left]
    refine bind_congr fun done => ?_
    rw [← ih done.1 done.2.1, map_bind, bind_map_left]
    simp

/-! ### What steps do not see -/

/-- A step with changed automata. -/
def Step.map (f : Automaton m S E O → Automaton m S E O) : Step m S E O → Step m S E O
  | .unhandled => .unhandled
  | .blocked => .blocked
  | .halted halt => .halted halt
  | .fired next output => .fired (f next) output

/-- A change of automata that makes no difference to what a step looks at, and that can be made
before a transition as well as after it. -/
structure Unseen (f : Automaton m S E O → Automaton m S E O) : Prop where
  table : ∀ a, (f a).table = a.table
  current : ∀ a, (f a).current = a.current
  model : ∀ a, (f a).model = a.model
  settings : ∀ a, (f a).settings = a.settings
  move : ∀ (a : Automaton m S E O) target event depth model,
    (f a).move target event depth model = f (a.move target event depth model)

/-- A step after a change does the same. -/
theorem Unseen.map_step {f : Automaton m S E O → Automaton m S E O} (hf : Unseen f)
    (a : Automaton m S E O) (event : String) (data : E) (depth : Nat) :
    Step.map f <$> a.step event data depth = (f a).step event data depth := by
  rw [step, step, hf.table, hf.current, hf.model, hf.settings]
  cases a.table.resolve? a.current event with
  | none => exact map_pure ..
  | some found =>
    simp only [map_bind]
    refine bind_congr fun chosen => ?_
    rcases chosen with crash | _ | branch
    · exact map_pure ..
    · exact map_pure ..
    · simp only [map_bind]
      refine bind_congr fun result => ?_
      cases result with
      | error crash => exact map_pure ..
      | ok result =>
        dsimp only
        cases Patch.apply result.update a.model with
        | error cause => exact map_pure ..
        | ok model =>
          dsimp only
          rw [hf.move]
          exact map_pure ..

end Automaton

end Reactive
