import Reactive.Proofs.BaseSignals
import Reactive.Proofs.Writes

/-!
# What pulls of an observer show

A signal with a source and the mailbox between them remember the last write that was accepted,
whether a pull has seen it, and the last value that was new. In these terms the rules fit into a few
lines. Pulls of the signal are what the rules give, in whatever order the source writes and the
signal is pulled.

## Main definitions

* `SafeObserver` — an observer whose comparison does not crash
* `SafeObserver.State`, `State.write`, `pull`, `verdicts` — the rules
* `Orderly` — what is promised of the verdicts of a run
* `SafeObserver.Obeys` — rules in which comparisons may break off
* `Observer.definition` — the automaton behind the signal, as a definition

## Main results

* `Observer.settle_temp`, `settle_pull` — the two transitions of a pull
* `SafeObserver.coupled_pull_unless` — one pull, if the comparison may break off
* `SafeObserver.coupled_pull` — one pull, if it cannot
* `SafeObserver.play_observe` — a new signal, and writes and pulls in any order
-/

namespace Reactive

variable {n : Type → Type}

/-! ### The rules -/

/-- An observer whose comparison does not crash. -/
structure SafeObserver (n : Type → Type) where
  /-- Is the first value as good as the second? If absent, what is pushed is always new. -/
  equals : Option (Value → Value → n Bool) := none

namespace SafeObserver

/-- What is to be remembered. -/
structure State where
  /-- The last write that was accepted. -/
  written? : Option Push
  /-- Has a pull seen it? -/
  seen : Bool
  /-- The last new value. -/
  last? : Option Value
  deriving DecidableEq

namespace State

/-- Nothing was written yet. -/
def fresh : State := ⟨none, false, none⟩

/-- A write is accepted unless an error or a completion was. -/
def write (state : State) (p : Push) : State :=
  match state.written? with
  | some (.error _) | some .complete => state
  | some (.next _) | none => { state with written? := some p, seen := false }

/-- The mailbox in a state. -/
def slot (state : State) : Slot :=
  match state.written? with
  | none => .empty
  | some (.next value) => .value value !state.seen
  | some (.error cause) => .error cause
  | some .complete => .completed

/-- The state in which a mailbox is that no pull has looked into. -/
def ofSlot : Slot → State
  | .empty => fresh
  | .value value _ => ⟨some (.next value), false, none⟩
  | .error cause => ⟨some (.error cause), false, none⟩
  | .completed => ⟨some .complete, false, none⟩

end State

variable [Monad n]

/-- The same with a comparison that might crash, among code that can reach the exchange. -/
def toObserver (o : SafeObserver n) : Observer (StateT Exchange n) :=
  ⟨o.equals.map fun equals a b => StateT.lift (Except.ok <$> equals a b)⟩

/-- Compares a value with the last one. Without a comparison no value is the same. -/
def isSame (o : SafeObserver n) (value last : Value) : n Bool :=
  match o.equals with
  | some equals => equals value last
  | none => pure false

/-- **The rules.** -/
def pull (o : SafeObserver n) (state : State) : n (State × Verdict) :=
  match state.written? with
  | none => pure (state, .absent)
  | some (.error cause) => pure (state, .ended (.sourceFailed cause))
  | some .complete => pure (state, .ended .completed)
  | some (.next value) =>
    let renewed : State × Verdict :=
      ({ state with seen := true, last? := some value }, .new value)
    match state.last? with
    | none => pure renewed
    | some last =>
      let repeated : State × Verdict := ({ state with seen := true }, .same last)
      if state.seen then pure repeated
      else do
        if ← o.isSame value last then pure repeated else pure renewed

end SafeObserver

/-- Either the source writes or the signal is pulled. -/
inductive Exchanged where
  | write (p : Push)
  | pull

namespace SafeObserver

variable [Monad n]

/-- What the pulls of a run find. -/
def verdicts (o : SafeObserver n) : List Exchanged → State → n (List Verdict)
  | [], _ => pure []
  | .write p :: rest, state => o.verdicts rest (state.write p)
  | .pull :: rest, state => do
    let ruled ← o.pull state
    let later ← o.verdicts rest ruled.1
    pure (ruled.2 :: later)

end SafeObserver

/-- The turn of a run with a mailbox to write into. -/
def Exchanged.turn [Monad n] (mailbox : MailboxId) : Exchanged → Turn (StateT Exchange n)
  | write p => .act (modifyThe Exchange fun x => x.write mailbox p)
  | pull => .pull

namespace Observer

open BaseSignal

variable {m : Type → Type} [Monad m]

/-! ### The automaton -/

/-- What the automaton behind an observer is compiled from. -/
def definition (m : Type → Type) [Monad m] : Definition m (Observer m) Slot Emission :=
  BaseSignal.definition transitions initialModel

theorem problems_definition : (definition m).problems = [] := rfl

/-- The states in which a call ends. -/
theorem followUp?_eq_none {state : String}
    (h : state ∈ [initState, newState, sameState, errorState, doneState]) :
    (definition m).followUp? state = none := by
  simp only [List.mem_cons, List.not_mem_nil, or_false] at h
  rcases h with rfl | rfl | rfl | rfl | rfl <;> rfl

/-- What becomes of what was collected. -/
def judge (o : Observer m) (slot : Slot) (s : Standing) :
    m (Standing × Except Halt (Option Emission)) :=
  match slot with
  | .empty =>
    pure ((definition m).move s (.state initState) autoEvent 1 s.model, .ok (some .init))
  | .error cause =>
    pure ((definition m).move s (.state errorState) autoEvent 1
        (assign [("error", .string (SignalFault.source cause).message)] s.model),
      .ok (some (.error (SignalFault.source cause).message)))
  | .completed =>
    pure ((definition m).move s (.state doneState) autoEvent 1 s.model, .ok (some .done))
  | .value value fresh => do
    match ← isNew.check s.model (.value value fresh) o with
    | .error crash => pure (s, .error (.crashed crash))
    | .ok true =>
      pure ((definition m).move s (.state newState) autoEvent 1
          (assign [("cache", value), ("primed", .bool true)] s.model),
        .ok (some (.new value)))
    | .ok false =>
      pure ((definition m).move s (.state sameState) autoEvent 1 s.model,
        .ok (some (.same (field s.model "cache"))))

/-- What a pull has seen is not new. -/
theorem check_isNew_stale (o : Observer m) (model value : Value) :
    isNew.check model (.value value false) o = pure (.ok false) := rfl

/-- Without a comparison, and before the first value, what is pushed is new. -/
theorem check_isNew_fresh {o : Observer m} {model : Value}
    (h : o.equals = none ∨ isPrimed model = false) (value : Value) :
    isNew.check model (.value value true) o = pure (.ok true) := by
  rcases h with h | h
  · simp only [isNew, h]
  · simp only [isNew, h, Bool.false_eq_true, if_false]
    cases o.equals <;> rfl

variable [LawfulMonad m]

/-- A start fires one transition. -/
theorem start_eq (o : Observer m) : o.start
    = pure ((definition m).realize o (started (transitions (m := m)) initialModel), .init) :=
  start_realize problems_definition rfl (followUp?_eq_none (by simp)) o .empty

/-- The second transition of a pull judges what was collected, and ends the call. -/
theorem settle_temp {o : Observer m} {s : Standing} (hstate : s.current = tempState)
    (hmodel : s.model.isObject = true) (slot : Slot) (remaining : Nat) :
    (definition m).settle o slot remaining 1 autoEvent s = judge o slot s := by
  have hhandler : (definition m).handler? s.current autoEvent
      = some (tempState, [branch errorState (some isError) (some enterError),
        branch doneState (some isCompleted) (some (emit .done)),
        branch newState (some isNew) (some enterNew),
        branch sameState (some hasValue) (some enterSame),
        branch initState none (some (emit .init))]) := by
    rw [hstate]
    rfl
  rw [Definition.settle_of_handler hhandler, judge.eq_def, attempt_of_check rfl]
  cases slot with
  | error cause =>
    rw [if_pos rfl]
    exact fire_update_resting hmodel rfl (followUp?_eq_none (by simp)) remaining 1
  | completed =>
    rw [if_neg (by simp), attempt_of_check rfl, if_pos (by simp)]
    exact fire_output_resting rfl (followUp?_eq_none (by simp)) remaining 1
  | empty =>
    rw [if_neg (by simp), attempt_of_check rfl, if_neg (by simp), attempt_of_check rfl,
      if_neg (by simp), attempt_of_check rfl, if_neg (by simp)]
    exact fire_output_resting rfl (followUp?_eq_none (by simp)) remaining 1
  | value value fresh =>
    rw [if_neg (by simp), attempt_of_check rfl, if_neg (by simp)]
    show (isNew.check s.model (.value value fresh) o >>= _) >>= _ = _
    rw [bind_assoc]
    refine bind_congr fun verdict => ?_
    match verdict with
    | .error crash => exact pure_bind ..
    | .ok true => exact fire_update_resting hmodel rfl (followUp?_eq_none (by simp)) remaining 1
    | .ok false =>
      show Definition.attempt o (.value value fresh) autoEvent s
        [branch sameState (some hasValue) (some enterSame),
          branch initState none (some (emit .init))] >>= _ = _
      rw [attempt_of_check rfl, if_pos rfl]
      exact fire_output_resting rfl (followUp?_eq_none (by simp)) remaining 1

/-- The first transition of a pull only goes on, so that what was collected is judged. -/
theorem settle_pull {o : Observer m} {s : Standing} {state : String}
    (hmodel : s.model.isObject = true) (hhandler : (definition m).handler? s.current pullEvent
      = some (state, [branch tempState none none])) (slot : Slot) (remaining : Nat) :
    (definition m).settle o slot (remaining + 1) 0 pullEvent s
      = judge o slot ((definition m).move s (.state tempState) pullEvent 0 s.model) := by
  have hauto : (definition m).followUp? tempState = some autoEvent := rfl
  have hobject : ((definition m).move s (.state tempState) pullEvent 0 s.model).model.isObject
      = true := hmodel
  have hjudge : (definition m).settle o slot remaining 1 autoEvent
        ((definition m).move s (.state tempState) pullEvent 0 s.model)
      = judge o slot ((definition m).move s (.state tempState) pullEvent 0 s.model) :=
    settle_temp rfl hobject slot remaining
  rw [Definition.settle_of_handler hhandler, ← hjudge]
  show pure (Attempt.fires (.state tempState) s.model none) >>= _ = _
  rw [pure_bind]
  exact Definition.follow_fires_automatic hauto

/-- A pull of a signal that has failed. -/
theorem settle_error {o : Observer m} {s : Standing} (hstate : s.current = errorState)
    (slot : Slot) (remaining : Nat) : (definition m).settle o slot remaining 0 pullEvent s
      = pure ((definition m).move s (.state errorState) pullEvent 0 s.model,
          .ok (some (.error (textField s.model "error")))) := by
  have hhandler : (definition m).handler? s.current pullEvent
      = some (errorState, [branch errorState none (some repeatError)]) := by
    rw [hstate]
    rfl
  exact settle_emit hhandler rfl (followUp?_eq_none (by simp)) remaining 0

/-- A pull of a signal that is complete. -/
theorem settle_done {o : Observer m} {s : Standing} (hstate : s.current = doneState)
    (slot : Slot) (remaining : Nat) : (definition m).settle o slot remaining 0 pullEvent s
      = pure ((definition m).move s (.state doneState) pullEvent 0 s.model, .ok (some .done)) := by
  have hhandler : (definition m).handler? s.current pullEvent
      = some (doneState, [branch doneState none (some (emit .done))]) := by
    rw [hstate]
    rfl
  exact settle_emit hhandler rfl (followUp?_eq_none (by simp)) remaining 0

end Observer

namespace SafeObserver

open BaseSignal

/-! ### Standings and states -/

theorem State.slot_write (state : State) (p : Push) :
    (state.write p).slot = state.slot.write p := by
  obtain ⟨written?, seen, last?⟩ := state
  match written? with
  | none => cases p <;> rfl
  | some (.next value) => cases p <;> rfl
  | some (.error cause) => rfl
  | some .complete => rfl

theorem State.last?_write (state : State) (p : Push) : (state.write p).last? = state.last? := by
  obtain ⟨written?, seen, last?⟩ := state
  match written? with
  | none | some (.next _) | some (.error _) | some .complete => rfl

theorem State.written?_write (state : State) (p : Push) : (state.write p).written? ≠ none := by
  obtain ⟨written?, seen, last?⟩ := state
  match written? with
  | none | some (.next _) | some (.error _) | some .complete => exact nofun

theorem State.slot_foldl_write (pushes : List Push) (state : State) :
    (pushes.foldl State.write state).slot = pushes.foldl Slot.write state.slot :=
  (List.foldl_hom State.slot fun state p => (state.slot_write p).symm).symm

/-- Writing into a mailbox that no pull has looked into. -/
theorem State.ofSlot_foldl_write (pushes : List Push) :
    ofSlot (pushes.foldl Slot.write .empty) = pushes.foldl State.write fresh := by
  refine (List.foldl_hom ofSlot fun slot p => ?_).symm
  cases slot <;> cases p <;> rfl

/-- What the automaton is like, and what it shows, in a state. -/
inductive State.Stands (s : Standing) (current : Emission) (state : State) : Prop
  /-- No value was seen yet. -/
  | waiting (hcurrent : s.current = initState) (hmodel : s.model.isObject = true)
      (hprimed : isPrimed s.model = false) (hseen : state.seen = false) (hlast : state.last? = none)
      (hshown : current = .init)
  /-- The last new value is `last`. -/
  | running (last : Value) (hcurrent : s.current = newState ∨ s.current = sameState)
      (hmodel : s.model.isObject = true) (hprimed : isPrimed s.model = true)
      (hcache : field s.model "cache" = last) (hwritten : state.written? ≠ none)
      (hlast : state.last? = some last) (hshown : current = .new last ∨ current = .same last)
  | failed (cause : String) (hcurrent : s.current = errorState)
      (hwritten : state.written? = some (.error cause))
      (htext : textField s.model "error" = (SignalFault.source cause).message)
      (hshown : current = (Ending.sourceFailed cause).emission)
  | completed (hcurrent : s.current = doneState) (hwritten : state.written? = some .complete)
      (hshown : current = .done)

/-- As long as the signal goes on, its last new value is shown. -/
theorem State.Stands.shows_last {s : Standing} {current : Emission} {state : State}
    (h : state.Stands s current) {last value : Value} (hlast : state.last? = some last)
    (hwritten : state.written? = some (.next value)) :
    current = .new last ∨ current = .same last := by
  cases h with
  | waiting _ _ _ _ hnone _ =>
    rw [hlast] at hnone
    exact nomatch hnone
  | running other _ _ _ _ _ hother hshown =>
    obtain rfl : last = other := Option.some.inj (hlast.symm.trans hother)
    exact hshown
  | failed cause _ hfailed _ _ =>
    rw [hwritten] at hfailed
    exact nomatch hfailed
  | completed _ hcompleted _ =>
    rw [hwritten] at hcompleted
    exact nomatch hcompleted

/-- A write does not move the automaton. -/
theorem State.Stands.write {s : Standing} {current : Emission} {state : State}
    (h : state.Stands s current) (p : Push) : (state.write p).Stands s current := by
  obtain ⟨written?, seen, last?⟩ := state
  cases h with
  | waiting hcurrent hmodel hprimed hseen hlast hshown =>
    refine .waiting hcurrent hmodel hprimed ?_ ?_ hshown
    · match written? with
      | none | some (.next _) => rfl
      | some (.error _) | some .complete => exact hseen
    · match written? with
      | none | some (.next _) | some (.error _) | some .complete => exact hlast
  | running last hcurrent hmodel hprimed hcache hwritten hlast hshown =>
    refine .running last hcurrent hmodel hprimed hcache ?_ ?_ hshown
    · match written? with
      | none | some (.next _) => exact nofun
      | some (.error _) | some .complete => exact hwritten
    · match written? with
      | none | some (.next _) | some (.error _) | some .complete => exact hlast
  | failed cause hcurrent hwritten htext hshown =>
    obtain rfl : written? = some (.error cause) := hwritten
    exact .failed cause hcurrent rfl htext hshown
  | completed hcurrent hwritten hshown =>
    obtain rfl : written? = some .complete := hwritten
    exact .completed hcurrent rfl hshown

variable [Monad n] [LawfulMonad n]

/-- What a pull of the automaton has to do with a pull by the rules. -/
structure Agrees (x : Exchange) (state : State)
    (done : (Standing × Except Halt (Option Emission)) × Exchange) (ruled : State × Verdict) :
    Prop where
  exchange : done.2 = x
  result : done.1.2 = .ok (some ruled.2.emission)
  stands : ruled.1.Stands done.1.1 ruled.2.emission
  slot : ruled.1.slot = state.slot.collected
  same : ∀ last, ruled.2 = .same last →
    state.last? = some last ∧ ∃ value, state.written? = some (.next value)

/-! ### Comparisons that break off

As with generators, the comparison may crash, and the same rules hold until then if it may break off
in them. -/

section

variable {κ : Type} {toCrash : κ → Crash} {o : Observer (StateT Exchange n)}
  {r : SafeObserver (ExceptT κ n)}

/-- An observer obeys some rules. What is an exception to the rules is a crash of its comparison. -/
structure Obeys (o : Observer (StateT Exchange n)) (toCrash : κ → Crash)
    (r : SafeObserver (ExceptT κ n)) : Prop where
  equals : o.equals = r.equals.map fun equals a b =>
    StateT.lift (Except.mapError toCrash <$> (equals a b).run)

/-- What a pull of the automaton has to do with a pull by the rules, if there may be exceptions.
These leave the automaton in the middle of the pull. -/
def AgreesUnless (toCrash : κ → Crash) (x : Exchange) (state : State)
    (done : (Standing × Except Halt (Option Emission)) × Exchange) :
    Except κ (State × Verdict) → Prop
  | .ok ruled => Agrees x state done ruled
  | .error exception =>
    done.2 = x ∧ done.1.1.current = tempState ∧
      done.1.2 = .error (.crashed (toCrash exception))

/-- After the first value, what is pushed is new if it is not the same as the last. -/
theorem check_isNew_of_primed (hobeys : Obeys o toCrash r) {model : Value}
    (h : isPrimed model = true) (value : Value) (x : Exchange) :
    (Observer.isNew.check model (.value value true) o).run x
      = (fun result => ((result.map not).mapError toCrash, x)) <$>
          (r.isSame value (field model "cache")).run := by
  obtain ⟨equals?⟩ := r
  have hequals := hobeys.equals
  cases equals? with
  | none =>
    rw [Observer.check_isNew_fresh (Or.inl hequals) value, isSame, StateT.run_pure,
      ExceptT.run_pure, map_pure]
    rfl
  | some equals =>
    obtain ⟨own⟩ := o
    obtain rfl : own = some fun a b =>
        StateT.lift (Except.mapError toCrash <$> (equals a b).run) := hequals
    show StateT.run (if isPrimed model then
      StateT.lift (Except.mapError toCrash <$> (equals value (field model "cache")).run) >>= _
      else _) x = _
    rw [if_pos h, StateT.run_bind, StateT.run_lift, isSame, map_eq_pure_bind, map_eq_pure_bind,
      bind_assoc, bind_assoc]
    refine bind_congr fun result => ?_
    rw [pure_bind, pure_bind]
    cases result <;> rfl

omit [LawfulMonad n] in
/-- A new value is stored and shown. -/
theorem agrees_new {s : Standing} (x : Exchange) (hmodel : s.model.isObject = true) (value : Value)
    (seen : Bool) (last? : Option Value) :
    Agrees x ⟨some (.next value), seen, last?⟩
      (((Observer.definition (StateT Exchange n)).move s (.state newState) autoEvent 1
        (assign [("cache", value), ("primed", .bool true)] s.model), .ok (some (.new value))), x)
      (⟨some (.next value), true, some value⟩, .new value) := by
  refine ⟨rfl, rfl, .running value (Or.inl rfl) ?_ ?_ ?_ ?_ rfl (Or.inl rfl), rfl, ?_⟩
  · exact (isObject_assign _ _).trans hmodel
  · show decide (field (assign _ s.model) "primed" = .bool true) = true
    simp [field_assign hmodel]
  · show field (assign _ s.model) "cache" = value
    simp [field_assign hmodel]
  · rintro ⟨⟩
  · rintro _ ⟨⟩

omit [LawfulMonad n] in
/-- The last new value is shown again. -/
theorem agrees_same {s : Standing} (x : Exchange) (hmodel : s.model.isObject = true)
    (hprimed : isPrimed s.model = true) {last : Value} (hcache : field s.model "cache" = last)
    (value : Value) (seen : Bool) :
    Agrees x ⟨some (.next value), seen, some last⟩
      (((Observer.definition (StateT Exchange n)).move s (.state sameState) autoEvent 1 s.model,
        .ok (some (.same last))), x) (⟨some (.next value), true, some last⟩, .same last) := by
  refine ⟨rfl, rfl, .running last (Or.inr rfl) hmodel hprimed hcache ?_ rfl (Or.inr rfl), rfl, ?_⟩
  · rintro ⟨⟩
  · rintro _ ⟨⟩
    exact ⟨rfl, value, rfl⟩

/-- Judging what was collected. -/
theorem coupled_judge (hobeys : Obeys o toCrash r) {s : Standing} {state : State} (x : Exchange)
    (htemp : s.current = tempState) (hmodel : s.model.isObject = true)
    (hprimed : isPrimed s.model = state.last?.isSome)
    (hcache : ∀ last, state.last? = some last → field s.model "cache" = last)
    (hunseen : state.last? = none → state.seen = false)
    (hwritten : state.written? = none → state.last? = none) :
    Coupled (AgreesUnless toCrash x state) ((Observer.judge o state.slot s).run x)
      (r.pull state).run := by
  obtain ⟨written?, seen, last?⟩ := state
  cases written? with
  | none =>
    obtain rfl : last? = none := hwritten rfl
    obtain rfl : seen = false := hunseen rfl
    exact Coupled.pure ⟨rfl, rfl, .waiting rfl hmodel hprimed rfl rfl rfl, rfl, by rintro _ ⟨⟩⟩
  | some push =>
    cases push with
    | error cause =>
      refine Coupled.pure ⟨rfl, rfl, .failed cause rfl rfl ?_ rfl, rfl, by rintro _ ⟨⟩⟩
      show textField (assign _ s.model) "error" = _
      simp [textField, field_assign hmodel, Value.asString?]
    | complete => exact Coupled.pure ⟨rfl, rfl, .completed rfl rfl rfl, rfl, by rintro _ ⟨⟩⟩
    | next value =>
      cases last? with
      | none =>
        obtain rfl : seen = false := hunseen rfl
        show Coupled _ ((Observer.judge o (.value value true) s).run x) _
        rw [Observer.judge, Observer.check_isNew_fresh (Or.inr hprimed), pure_bind]
        exact Coupled.pure (agrees_new x hmodel value false none)
      | some last =>
        have hlast : field s.model "cache" = last := hcache last rfl
        cases seen with
        | true =>
          show Coupled _ ((Observer.judge o (.value value false) s).run x) _
          rw [Observer.judge, Observer.check_isNew_stale, pure_bind, hlast]
          exact Coupled.pure (agrees_same x hmodel hprimed hlast value true)
        | false =>
          show Coupled _ ((Observer.judge o (.value value true) s).run x) _
          rw [Observer.judge, StateT.run_bind, check_isNew_of_primed hobeys hprimed, hlast,
            bind_map_left]
          show Coupled _ _ ((r.isSame value last >>= fun same => if same then _ else _).run)
          rw [ExceptT.run_bind]
          refine Coupled.bind_left fun result => ?_
          rcases result with exception | _ | _
          · exact Coupled.pure ⟨rfl, htemp, rfl⟩
          · exact Coupled.pure (agrees_new x hmodel value false (some last))
          · exact Coupled.pure (agrees_same x hmodel hprimed hlast value false)

/-- **One pull of the automaton**, up to an exception. -/
theorem coupled_settle_unless (hobeys : Obeys o toCrash r) {s : Standing} {current : Emission}
    {state : State} (h : state.Stands s current) (x : Exchange) :
    Coupled (AgreesUnless toCrash x state)
      (((Observer.definition (StateT Exchange n)).settle o state.slot 10000 0 pullEvent s).run x)
      (r.pull state).run := by
  cases h with
  | waiting hcurrent hmodel hprimed hseen hlast hshown =>
    have hhandler : (Observer.definition (StateT Exchange n)).handler? s.current pullEvent
        = some (initState, [branch tempState none none]) := by
      rw [hcurrent]
      rfl
    rw [Observer.settle_pull hmodel hhandler]
    refine coupled_judge hobeys x rfl hmodel ?_ ?_ (fun _ => hseen) (fun _ => hlast)
    · rw [hlast]
      exact hprimed
    · rw [hlast]
      exact nofun
  | running last hcurrent hmodel hprimed hcache hwritten hlast hshown =>
    have hhandler : (Observer.definition (StateT Exchange n)).handler? s.current pullEvent
        = some (runningState, [branch tempState none none]) := by
      rcases hcurrent with hcurrent | hcurrent <;> rw [hcurrent] <;> rfl
    rw [Observer.settle_pull hmodel hhandler]
    refine coupled_judge hobeys x rfl hmodel ?_ ?_ ?_ (fun hnone => absurd hnone hwritten)
    · rw [hlast]
      exact hprimed
    · rintro _ hsome
      rw [hlast] at hsome
      exact hcache.trans (Option.some.inj hsome)
    · intro hnone
      rw [hlast] at hnone
      exact nomatch hnone
  | failed cause hcurrent hwritten htext hshown =>
    obtain ⟨written?, seen, last?⟩ := state
    obtain rfl : written? = some (.error cause) := hwritten
    rw [Observer.settle_error hcurrent, htext]
    exact Coupled.pure ⟨rfl, rfl, .failed cause rfl rfl htext rfl, rfl, nofun⟩
  | completed hcurrent hwritten hshown =>
    obtain ⟨written?, seen, last?⟩ := state
    obtain rfl : written? = some .complete := hwritten
    rw [Observer.settle_done hcurrent]
    exact Coupled.pure ⟨rfl, rfl, .completed rfl rfl rfl, rfl, nofun⟩

/-- A signal with an observer and a mailbox of its own are in a state. -/
def State.Describes (o : Observer (StateT Exchange n)) (mailbox : MailboxId)
    (signal : Signal (StateT Exchange n)) (x : Exchange) (state : State) : Prop :=
  ∃ (s : Standing) (subscription : Subscription (StateT Exchange n)),
    signal = .observed ((Observer.definition (StateT Exchange n)).realize o s)
        (modifyGetThe Exchange fun x => x.collect mailbox) subscription signal.current ∧
      state.Stands s signal.current ∧ x.slot mailbox = state.slot ∧ mailbox < x.mailboxes.length

/-- A signal with an observer was left in the middle of a pull. -/
def Stuck (o : Observer (StateT Exchange n)) (mailbox : MailboxId)
    (signal : Signal (StateT Exchange n)) : Prop :=
  ∃ (s : Standing) (subscription : Subscription (StateT Exchange n)),
    signal = .observed ((Observer.definition (StateT Exchange n)).realize o s)
        (modifyGetThe Exchange fun x => x.collect mailbox) subscription signal.current ∧
      s.current = tempState

omit [LawfulMonad n] in
/-- A write into the mailbox is a write in the rules. -/
theorem State.Describes.write {mailbox : MailboxId} {signal : Signal (StateT Exchange n)}
    {x : Exchange} {state : State} (h : state.Describes o mailbox signal x) (p : Push) :
    (state.write p).Describes o mailbox signal (x.write mailbox p) := by
  obtain ⟨s, subscription, hsignal, hstands, hslot, hmailbox⟩ := h
  refine ⟨s, subscription, hsignal, hstands.write p, ?_, ?_⟩
  · rw [x.slot_write hmailbox, if_pos rfl, hslot, state.slot_write]
  · rw [x.length_mailboxes_write]
    exact hmailbox

/-- The signal of an observer that was not pulled yet. -/
def opened (o : Observer (StateT Exchange n)) (mailbox : MailboxId)
    (subscription : Subscription (StateT Exchange n)) : Signal (StateT Exchange n) :=
  .observed ((Observer.definition (StateT Exchange n)).realize o
      (started (Observer.transitions (m := StateT Exchange n)) Observer.initialModel))
    (modifyGetThe Exchange fun x => x.collect mailbox) subscription .init

/-- A new signal has a mailbox of its own. -/
theorem run_observe_opened (o : Observer (StateT Exchange n)) (source : Source (StateT Exchange n))
    (x : Exchange) : (Signal.observe source o).run x
      = (fun subscribed => (opened o x.mailboxes.length subscribed.1, subscribed.2)) <$>
          (source.subscribe x.mailboxes.length).run x.openMailbox.2 := by
  rw [Signal.observe, StateT.run_bind]
  show pure x.openMailbox >>= _ = _
  rw [pure_bind, StateT.run_bind, map_eq_pure_bind]
  refine bind_congr fun subscribed => ?_
  rw [Observer.start_eq, pure_bind]
  rfl

omit [LawfulMonad n] in
/-- It is in the state that its source left the mailbox in. -/
theorem describes_opened (o : Observer (StateT Exchange n)) {x x' : Exchange}
    (h : x.openMailbox.2.Receives x') (subscription : Subscription (StateT Exchange n)) :
    (State.ofSlot (x'.slot x.mailboxes.length)).Describes o x.mailboxes.length
      (opened o x.mailboxes.length subscription) x' := by
  have hopened : x.mailboxes.length < x.openMailbox.2.mailboxes.length := by
    simp [Exchange.openMailbox]
  have hempty : x.openMailbox.2.slot x.mailboxes.length = .empty := by
    simp [Exchange.openMailbox, Exchange.slot]
  obtain ⟨hmailbox, pushes, hpushes⟩ := h _ hopened
  rw [hempty] at hpushes
  have hstands : (pushes.foldl State.write .fresh).Stands
      (started (Observer.transitions (m := StateT Exchange n)) Observer.initialModel) .init :=
    List.foldlRecOn pushes State.write (.waiting rfl rfl rfl rfl rfl rfl)
      fun _ hstands p _ => hstands.write p
  refine ⟨_, subscription, rfl, ?_, ?_, hmailbox⟩
  · rw [hpushes, State.ofSlot_foldl_write]
    exact hstands
  · rw [hpushes, State.ofSlot_foldl_write, State.slot_foldl_write]
    rfl

/-- What the pull of a signal has to do with a pull by the rules, if there may be exceptions. -/
def PullsUnless (o : Observer (StateT Exchange n)) (toCrash : κ → Crash) (mailbox : MailboxId)
    (state : State) (before : Emission) (x : Exchange)
    (done : (Signal (StateT Exchange n) × Option Crash) × Exchange) :
    Except κ (State × Verdict) → Prop
  | .ok ruled => done.1.2 = none ∧ done.2 = (x.collect mailbox).2 ∧
      ruled.1.Describes o mailbox done.1.1 done.2 ∧ done.1.1.current = ruled.2.emission ∧
        ∀ last, ruled.2 = .same last →
          state.last? = some last ∧ ∃ value, state.written? = some (.next value)
  | .error exception =>
    done.1.2 = some (toCrash exception) ∧ Stuck o mailbox done.1.1 ∧ done.1.1.current = before

/-- One pull of the signal, up to an exception. All that it does to the exchange is to look into the
mailbox, even if there is one. -/
theorem coupled_pull_collect (hobeys : Obeys o toCrash r) {mailbox : MailboxId} {state : State}
    {signal : Signal (StateT Exchange n)} {x : Exchange}
    (h : state.Describes o mailbox signal x) :
    Coupled (fun done ruled => PullsUnless o toCrash mailbox state signal.current x done ruled ∧
        done.2 = (x.collect mailbox).2)
      (signal.pull.run x) (r.pull state).run := by
  obtain ⟨s, subscription, hsignal, hstands, hslot, hmailbox⟩ := h
  have hcollect : (modifyGetThe Exchange fun x => x.collect mailbox : StateT Exchange n Slot).run x
      = pure (state.slot, (x.collect mailbox).2) := by
    rw [← hslot]
    rfl
  have hlength : mailbox < (x.collect mailbox).2.mailboxes.length := by
    rw [Exchange.collect, List.length_modify]
    exact hmailbox
  have hcollected : (x.collect mailbox).2.slot mailbox = state.slot.collected := by
    rw [x.slot_collect, if_pos rfl, hslot]
  rw [hsignal, Signal.pull, StateT.run_bind, hcollect, pure_bind, Observer.definition,
    drive_realize Observer.problems_definition, bind_map_left, StateT.run_bind,
    ← bind_pure (r.pull state).run]
  refine (coupled_settle_unless hobeys hstands _).bind ?_
  rintro ⟨⟨s', result⟩, x'⟩ (exception | ruled) hagrees
  · obtain ⟨hexchange, htemp, hresult⟩ := hagrees
    obtain rfl : result = .error (.crashed (toCrash exception)) := hresult
    exact Coupled.pure ⟨⟨rfl, ⟨s', subscription, rfl, htemp⟩, rfl⟩, hexchange⟩
  · obtain ⟨hexchange, hresult, hstands', hslot', hsame⟩ := hagrees
    obtain rfl : result = .ok (some ruled.2.emission) := hresult
    obtain rfl : x' = (x.collect mailbox).2 := hexchange
    exact Coupled.pure
      ⟨⟨rfl, rfl, ⟨s', subscription, rfl, hstands', hcollected.trans hslot'.symm, hlength⟩, rfl,
        hsame⟩, rfl⟩

/-- **One pull of the signal**, up to an exception. -/
theorem coupled_pull_unless (hobeys : Obeys o toCrash r) {mailbox : MailboxId} {state : State}
    {signal : Signal (StateT Exchange n)} {x : Exchange}
    (h : state.Describes o mailbox signal x) :
    Coupled (PullsUnless o toCrash mailbox state signal.current x) (signal.pull.run x)
      (r.pull state).run :=
  (coupled_pull_collect hobeys h).mono fun _ _ hpulls => hpulls.1

end

/-! ### Comparisons that cannot crash -/

/-- The same rules where there might be exceptions. -/
def lift (κ : Type) (o : SafeObserver n) : SafeObserver (ExceptT κ n) :=
  ⟨o.equals.map fun equals a b => ExceptT.lift (equals a b)⟩

theorem run_isSame_lift (κ : Type) (o : SafeObserver n) (value last : Value) :
    ((o.lift κ).isSame value last).run = Except.ok <$> o.isSame value last := by
  rw [isSame, isSame, lift]
  cases o.equals with
  | none => exact (map_pure Except.ok _).symm
  | some equals => rfl

/-- There are none. -/
theorem run_pull_lift (κ : Type) (o : SafeObserver n) (state : State) :
    ((o.lift κ).pull state).run = Except.ok <$> o.pull state := by
  obtain ⟨written?, seen, last?⟩ := state
  unfold pull
  cases written? with
  | none => exact (map_pure Except.ok _).symm
  | some push =>
    cases push with
    | error cause => exact (map_pure Except.ok _).symm
    | complete => exact (map_pure Except.ok _).symm
    | next value =>
      cases last? with
      | none => exact (map_pure Except.ok _).symm
      | some last =>
        cases seen with
        | true => exact (map_pure Except.ok _).symm
        | false =>
          dsimp only
          rw [if_neg (by simp), if_neg (by simp), ExceptT.run_bind, run_isSame_lift,
            bind_map_left, map_bind]
          refine bind_congr fun same => ?_
          cases same with
          | true => exact (map_pure Except.ok _).symm
          | false => exact (map_pure Except.ok _).symm

theorem obeys_lift (o : SafeObserver n) : Obeys o.toObserver Empty.elim (o.lift Empty) where
  equals := by
    rw [lift, Option.map_map]
    refine congrArg (Option.map · o.equals) ?_
    funext equals a b
    show StateT.lift _ = StateT.lift (Except.mapError Empty.elim <$> Except.ok <$> equals a b)
    rw [Functor.map_map]
    rfl

/-! ### Signals -/

/-- A signal is one of this observer with a mailbox of its own, both in a state. -/
def Represents (o : SafeObserver n) (mailbox : MailboxId) (state : State)
    (signal : Signal (StateT Exchange n)) (x : Exchange) : Prop :=
  ∃ (s : Standing) (subscription : Subscription (StateT Exchange n)),
    signal = .observed ((Observer.definition (StateT Exchange n)).realize o.toObserver s)
        (modifyGetThe Exchange fun x => x.collect mailbox) subscription signal.current ∧
      state.Stands s signal.current ∧ x.slot mailbox = state.slot ∧ mailbox < x.mailboxes.length

omit [LawfulMonad n] in
/-- What is written is accepted by the rules as well. -/
theorem Represents.receive {o : SafeObserver n} {mailbox : MailboxId} {state : State}
    {signal : Signal (StateT Exchange n)} {x x' : Exchange}
    (h : o.Represents mailbox state signal x) (hreceives : x.ReceivesAt x' mailbox) :
    ∃ pushes : List Push, o.Represents mailbox (pushes.foldl State.write state) signal x' := by
  obtain ⟨s, subscription, hsignal, hstands, hslot, hmailbox⟩ := h
  obtain ⟨hmailbox', pushes, hpushes⟩ := hreceives hmailbox
  have hstands' : (pushes.foldl State.write state).Stands s signal.current :=
    List.foldlRecOn pushes State.write hstands fun _ hstands p _ => hstands.write p
  refine ⟨pushes, s, subscription, hsignal, hstands', ?_, hmailbox'⟩
  rw [hpushes, hslot, State.slot_foldl_write]

/-- What the pull of a signal has to do with a pull by the rules. -/
structure PullsAs (o : SafeObserver n) (mailbox : MailboxId) (state : State) (x : Exchange)
    (done : (Signal (StateT Exchange n) × Option Crash) × Exchange) (ruled : State × Verdict) :
    Prop where
  crash : done.1.2 = none
  exchange : done.2 = (x.collect mailbox).2
  represents : o.Represents mailbox ruled.1 done.1.1 done.2
  shown : done.1.1.current = ruled.2.emission
  /-- The same as before is shown only if it is the last new value. -/
  same : ∀ last, ruled.2 = .same last →
    state.last? = some last ∧ ∃ value, state.written? = some (.next value)

/-- **One pull of the signal.** -/
theorem coupled_pull (o : SafeObserver n) {mailbox : MailboxId} {state : State}
    {signal : Signal (StateT Exchange n)} {x : Exchange}
    (h : o.Represents mailbox state signal x) :
    Coupled (PullsAs o mailbox state x) (signal.pull.run x) (o.pull state) := by
  have hlifted := coupled_pull_unless o.obeys_lift
    (show state.Describes o.toObserver mailbox signal x from h)
  rw [run_pull_lift] at hlifted
  refine hlifted.of_ok fun _ _ hpulls => ?_
  obtain ⟨hcrash, hexchange, hdescribes, hshown, hsame⟩ := hpulls
  exact ⟨hcrash, hexchange, hdescribes, hshown, hsame⟩

/-- The signal of this observer that was not pulled yet. -/
def newSignal (o : SafeObserver n) (mailbox : MailboxId)
    (subscription : Subscription (StateT Exchange n)) : Signal (StateT Exchange n) :=
  .observed ((Observer.definition (StateT Exchange n)).realize o.toObserver
      (started (Observer.transitions (m := StateT Exchange n)) Observer.initialModel))
    (modifyGetThe Exchange fun x => x.collect mailbox) subscription .init

theorem run_observe (o : SafeObserver n) (source : Source (StateT Exchange n)) (x : Exchange) :
    (Signal.observe source o.toObserver).run x
      = (fun subscribed => (o.newSignal x.mailboxes.length subscribed.1, subscribed.2)) <$>
          (source.subscribe x.mailboxes.length).run x.openMailbox.2 :=
  run_observe_opened o.toObserver source x

omit [LawfulMonad n] in
theorem represents_newSignal (o : SafeObserver n) {x x' : Exchange}
    (h : x.openMailbox.2.Receives x') (subscription : Subscription (StateT Exchange n)) :
    o.Represents x.mailboxes.length (.ofSlot (x'.slot x.mailboxes.length))
      (o.newSignal x.mailboxes.length subscription) x' :=
  describes_opened o.toObserver h subscription

/-- **Writes and pulls in any order.** The induction is on the list of both. -/
theorem play_represents (o : SafeObserver n) (turns : List Exchanged) {mailbox : MailboxId}
    {state : State} {signal : Signal (StateT Exchange n)} {x : Exchange}
    (h : o.Represents mailbox state signal x) :
    (fun done => done.1.map fun shown => (shown.1.current, shown.2)) <$>
        (signal.play (turns.map (Exchanged.turn mailbox))).run x
      = (List.map fun verdict => (verdict.emission, none)) <$> o.verdicts turns state := by
  induction turns generalizing state signal x with
  | nil =>
    rw [verdicts, map_pure]
    exact map_pure ..
  | cons turn rest ih =>
    cases turn with
    | write p =>
      have hwritten : o.Represents mailbox (state.write p) signal (x.write mailbox p) :=
        State.Describes.write h p
      rw [verdicts, ← ih hwritten, List.map_cons, Exchanged.turn, Signal.play, StateT.run_bind]
      exact congrArg _ (pure_bind ..)
    | pull =>
      have hcoupled : Coupled Eq
          ((fun done => done.1.map fun shown => (shown.1.current, shown.2)) <$>
            (signal.play ((Exchanged.pull :: rest).map (Exchanged.turn mailbox))).run x)
          ((List.map fun verdict => (verdict.emission, none)) <$>
            o.verdicts (.pull :: rest) state) := by
        rw [List.map_cons, Exchanged.turn, Signal.play, StateT.run_bind, verdicts, map_bind,
          map_bind]
        refine (o.coupled_pull h).bind ?_
        rintro ⟨⟨signal', crash?⟩, x'⟩ ruled ⟨hcrash, -, hrepresents, hshown, -⟩
        obtain rfl : crash? = none := hcrash
        have hcurrent : signal'.current = ruled.2.emission := hshown
        have hlater := congrArg (List.cons (signal'.current, none) <$> ·) (ih hrepresents)
        simp only [Functor.map_map] at hlater
        simp only [bind_pure_comp, StateT.run_map, Functor.map_map, List.map_cons]
        rw [hlater, hcurrent]
        exact Coupled.refl _
      exact hcoupled.eq

/-! ### Order -/

end SafeObserver

/-- What is promised of the verdicts of a run, where `last?` is the last new value before them.
There is no return to having no value, a value that is the same is the last new one, and an end is
final. -/
def Orderly : Option Value → List Verdict → Prop
  | _, [] => True
  | last?, .absent :: rest => last? = none ∧ Orderly none rest
  | _, .new value :: rest => Orderly (some value) rest
  | last?, .same value :: rest => last? = some value ∧ Orderly last? rest
  | _, .ended ending :: rest => ∀ verdict ∈ rest, verdict = .ended ending

namespace SafeObserver

variable [Monad n] [LawfulMonad n]

/-- After an error or a completion was accepted, every pull finds it. -/
theorem verdicts_closed (o : SafeObserver n) {state : State} {ending : Ending}
    (hwrite : ∀ p, state.write p = state) (hpull : o.pull state = pure (state, .ended ending))
    (turns : List Exchanged) :
    SatisfiesM (fun verdicts => ∀ verdict ∈ verdicts, verdict = .ended ending)
      (o.verdicts turns state) := by
  induction turns with
  | nil => exact SatisfiesM.pure nofun
  | cons turn rest ih =>
    cases turn with
    | write p =>
      rw [verdicts, hwrite]
      exact ih
    | pull =>
      rw [verdicts, hpull, pure_bind]
      refine ih.bind fun later hlater => SatisfiesM.pure ?_
      exact List.forall_mem_cons.mpr ⟨rfl, hlater⟩

/-- One more verdict in front. -/
theorem orderly_cons (o : SafeObserver n) {turns : List Exchanged} {state : State}
    {verdict : Verdict} {last? : Option Value} {P : List Verdict → Prop}
    (h : SatisfiesM P (o.verdicts turns state))
    (hcons : ∀ later, P later → Orderly last? (verdict :: later)) :
    SatisfiesM (Orderly last?) (do
      let ruled ← (pure (state, verdict) : n (State × Verdict))
      let later ← o.verdicts turns ruled.1
      pure (ruled.2 :: later)) := by
  rw [pure_bind]
  exact h.bind fun later hlater => SatisfiesM.pure (hcons later hlater)

/-- **The verdicts of a run are in order.** The induction is on the turns; what it needs to know of
the state is that a last value was written. -/
theorem orderly_verdicts (o : SafeObserver n) (turns : List Exchanged) {state : State}
    (h : state.written? = none → state.last? = none) :
    SatisfiesM (Orderly state.last?) (o.verdicts turns state) := by
  induction turns generalizing state with
  | nil => exact SatisfiesM.pure trivial
  | cons turn rest ih =>
    cases turn with
    | write p =>
      have hwritten : (state.write p).written? = none → (state.write p).last? = none :=
        fun hnone => absurd hnone (state.written?_write p)
      rw [verdicts, ← state.last?_write p]
      exact ih hwritten
    | pull =>
      obtain ⟨written?, seen, last?⟩ := state
      rw [verdicts]
      match written? with
      | none =>
        obtain rfl : last? = none := h rfl
        exact o.orderly_cons (ih h) fun _ hlater => ⟨rfl, hlater⟩
      | some (.error cause) =>
        exact o.orderly_cons (o.verdicts_closed (fun _ => rfl) rfl rest) fun _ hlater => hlater
      | some .complete =>
        exact o.orderly_cons (o.verdicts_closed (fun _ => rfl) rfl rest) fun _ hlater => hlater
      | some (.next value) =>
        have hnew : SatisfiesM (Orderly last?) (do
            let ruled ← (pure (⟨some (.next value), true, some value⟩, .new value) :
              n (State × Verdict))
            let later ← o.verdicts rest ruled.1
            pure (ruled.2 :: later)) :=
          o.orderly_cons (ih nofun) fun _ hlater => hlater
        match last?, seen with
        | none, _ => exact hnew
        | some last, true => exact o.orderly_cons (ih nofun) fun _ hlater => ⟨rfl, hlater⟩
        | some last, false =>
          show SatisfiesM _ ((o.isSame value last >>= fun same => if same then _ else _) >>= _)
          rw [bind_assoc]
          refine SatisfiesM.trivial.bind fun same _ => ?_
          cases same with
          | true => exact o.orderly_cons (ih nofun) fun _ hlater => ⟨rfl, hlater⟩
          | false => exact hnew

/-- **A signal with a source shows what the rules say.** At first there is no value. Then the source
is subscribed to, writes come and the signal is pulled in any order. What is shown is the emission
of a verdict, and so never a failure of the automaton, and verdicts are in order. -/
theorem play_observe (o : SafeObserver n) {source : Source (StateT Exchange n)}
    (hsource : source.OnlyWrites) (turns : List Exchanged) (x : Exchange) :
    (do
        let signal ← Signal.observe source o.toObserver
        let later ← signal.play (turns.map (Exchanged.turn x.mailboxes.length))
        pure (signal.current, later.map fun done => (done.1.current, done.2)) :
          StateT Exchange n (Emission × List (Emission × Option Crash))).run' x
      = ((source.subscribe x.mailboxes.length).run x.openMailbox.2 >>= fun subscribed =>
          (fun verdicts => (.init, verdicts.map fun verdict => (verdict.emission, none))) <$>
            o.verdicts turns (.ofSlot (subscribed.2.slot x.mailboxes.length)))
    ∧ (∀ pushes : List Push,
        State.ofSlot (pushes.foldl Slot.write .empty) = pushes.foldl State.write .fresh)
    ∧ (∀ slot : Slot, SatisfiesM (Orderly none) (o.verdicts turns (.ofSlot slot)))
    ∧ ∀ (verdict : Verdict) (cause : String),
        verdict.emission ≠ .error (SignalFault.automaton cause).message := by
  refine ⟨?_, State.ofSlot_foldl_write, fun slot => ?_, Verdict.emission_ne_automaton⟩
  · rw [StateT.run'_eq, StateT.run_bind, o.run_observe, bind_map_left, map_bind]
    refine bind_congr_of_satisfiesM (hsource _ _) fun subscribed hsubscribed => ?_
    have hplay := o.play_represents turns (o.represents_newSignal hsubscribed subscribed.1)
    have hshown := congrArg ((fun shown => (Emission.init, shown)) <$> ·) hplay
    simp only [Functor.map_map] at hshown
    simp only [bind_pure_comp, StateT.run_map, Functor.map_map]
    exact hshown
  · have hlast : (State.ofSlot slot).last? = none := by cases slot <;> rfl
    rw [← hlast]
    exact o.orderly_verdicts turns fun _ => hlast

/-- Compares by equality of values. -/
def careful : SafeObserver Id := ⟨some fun a b => pure (a.alike b)⟩

/-- An exchange with one subject, which holds the number one. -/
def oneSubject : Exchange := ⟨[], [.ofValue? (some (.nat 1))]⟩

theorem play_observe_careful :
    (Source.ofSubject 0 : Source (StateT Exchange Id)).OnlyWrites ∧
      (do
        let signal ← Signal.observe (Source.ofSubject 0) careful.toObserver
        let later ← signal.play (List.map (Exchanged.turn oneSubject.mailboxes.length)
          [.pull, .write (.next (.nat 1)), .pull, .write (.next (.nat 2)), .write (.next .null),
            .pull, .pull, .write (.error "gone"), .write (.next (.nat 3)), .pull])
        pure (signal.current, later.map fun done => (done.1.current, done.2)) :
          StateT Exchange Id (Emission × List (Emission × Option Crash))).run' oneSubject
        = pure (.init, [(.new (.nat 1), none), (.same (.nat 1), none), (.new .null, none),
            (.same .null, none),
            (.error "behavior > error emitted by the source behavior: gone", none)]) := by
  refine ⟨Source.onlyWrites_ofSubject 0, ?_⟩
  rw [(careful.play_observe (Source.onlyWrites_ofSubject 0) _ oneSubject).1]
  rfl

end SafeObserver

end Reactive
