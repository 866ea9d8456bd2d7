import Reactive.Proofs.Combination
import Reactive.Proofs.Replays

/-!
# Rules that signals show by

A combined signal keeps its last result, to replay it while nothing is new below. What is kept is
written on some ways through a pull and not on others. Here what it shows is told without anything
that is kept: a rule is given the latest new output that the signal has shown so far, and what its
inputs show now.

Inputs are of any kind, and so is the function: it may have effects, and inputs and function may
crash. What is compared is not only what is shown but the computations themselves, in any monad. So
the rule also tells what is pulled and what is called, how often, and in which order.

## Main definitions

* `Emission.newest?` — the output of the latest new emission
* `Sight` — what is seen after a pull
* `Rule`, `Rule.play` — turns by a rule
* `Signal.pullEach` — every input is pulled once, in order
* `combineRule` — the rule of combined signals

## Main results

* `Rule.map_play_eq` — signals that go by a rule in every pull do so in every run
* `Rule.map_play_eq_of_step` — so do signals that keep their latest new output
* `Signal.pullAll_eq_pullEach`
* `Rule.kept_combineStep` — what a combined signal keeps is its latest new output
* `Signal.play_combine_eq` — combined signals go by their rule
-/

namespace Reactive

variable {m : Type → Type} {σ γ : Type}

/-! ### Rules -/

/-- The output of the latest new emission, if any. The latest comes first. -/
def Emission.newest? (past : List Emission) : Option Value :=
  (past.find? fun e => e.controlState = .new).map Emission.output

theorem Emission.newest?_cons (e : Emission) (past : List Emission) :
    newest? (e :: past) = if e.controlState = .new then some e.output else newest? past := by
  by_cases h : e.controlState = .new
  · simp [newest?, h]
  · simp [newest?, h]

/-- What is seen after a pull of a signal: what is below it, and what it shows. -/
structure Sight (γ : Type) where
  below : γ
  shown : Emission
  /-- The pull was given up. -/
  crash? : Option Crash
  deriving DecidableEq

/-- What is seen of a signal and, by looking into it, of what is below. -/
def Sight.of (look : Signal m → γ) (done : Signal m × Option Crash) : Sight γ :=
  ⟨look done.1, done.1.current, done.2⟩

/-- What to show next, if the latest new output shown so far is this, and this is seen below. -/
def Rule (m : Type → Type) (γ : Type) : Type :=
  Option Value → γ → m (Except Crash Emission)

namespace Rule

section Runs

variable [Monad m]

/-- A pull by a rule. What is below is pulled, and after that the rule is asked once. After a crash
there is nothing new to show. Given are all emissions up to now, the latest first, and what is
seen. -/
def pull (rule : Rule m γ) (advance : σ → m (σ × Option Crash)) (look : σ → γ)
    (past : List Emission) (s : σ) : m (List Emission × σ × Sight γ) := do
  match ← advance s with
  | (s', some crash) => pure (past, s', ⟨look s', past.headD .init, some crash⟩)
  | (s', none) =>
    match ← rule (Emission.newest? past) (look s') with
    | .ok e => pure (e :: past, s', ⟨look s', e, none⟩)
    | .error crash => pure (past, s', ⟨look s', past.headD .init, some crash⟩)

/-- Takes turns by a rule. Given is what is seen after each pull. -/
def play (rule : Rule m γ) (advance : σ → m (σ × Option Crash)) (look : σ → γ) :
    List (Turn m) → List Emission → σ → m (List (Sight γ))
  | [], _, _ => pure []
  | .act action :: rest, past, s => do
    action
    play rule advance look rest past s
  | .pull :: rest, past, s => do
    let (past', s', sight) ← rule.pull advance look past s
    let later ← play rule advance look rest past' s'
    pure (sight :: later)

variable [LawfulMonad m]

/-- **Signals that go by a rule in every pull do so in every run.** How a signal is related to what
it showed and to what is below it is up to the kind of signal. The induction is on the turns. -/
theorem map_play_eq {rule : Rule m γ} {advance : σ → m (σ × Option Crash)} {look : σ → γ}
    {look' : Signal m → γ} {R : List Emission → σ → Signal m → Prop}
    (hpull : ∀ past s t, R past s t → Coupled
      (fun done next => R next.1 next.2.1 done.1 ∧ Sight.of look' done = next.2.2)
      t.pull (rule.pull advance look past s))
    (turns : List (Turn m)) {past : List Emission} {s : σ} {t : Signal m} (h : R past s t) :
    List.map (Sight.of look') <$> t.play turns = rule.play advance look turns past s := by
  refine Coupled.map_eq ?_
  induction turns generalizing past s t with
  | nil => exact Coupled.pure rfl
  | cons turn rest ih =>
    cases turn with
    | act action => exact Coupled.bind_left fun _ => ih h
    | pull =>
      refine (hpull past s t h).bind fun done next hnext => ?_
      obtain ⟨hrelated, hsight⟩ := hnext
      refine (ih hrelated).bind fun later sights hlater => Coupled.pure ?_
      rw [List.map_cons, hsight, hlater]

end Runs

/-! ### Steps that keep something -/

/-- What is kept beside an emission: its output if it is new, and else what was kept before. -/
def kept (last : Value) (e : Emission) : Value :=
  if e.controlState = .new then e.output else last

/-- What is kept is the latest new output. -/
theorem kept_newest (past : List Emission) (e : Emission) :
    kept ((Emission.newest? past).getD .null) e
      = (Emission.newest? (e :: past)).getD .null := by
  rw [Emission.newest?_cons, kept, apply_ite (Option.getD · Value.null), Option.getD_some]

variable [Monad m] [LawfulMonad m]

/-- **Signals that keep their latest new output go by a rule.** Given are signals that consist of
what is below, what is kept and what is shown. In a pull they take a step after what is below was
pulled, and what the step keeps is the latest new output, as far as the rule tells what to show. -/
theorem map_play_eq_of_step {rule : Rule m γ} {advance : σ → m (σ × Option Crash)} {look : σ → γ}
    {look' : Signal m → γ} {step : Value → γ → m (Except Crash (Value × Emission))}
    (above : σ → Value → Emission → Signal m)
    (hpull : ∀ s last e, (above s last e).pull = do
      match ← advance s with
      | (s', some crash) => pure (above s' last e, some crash)
      | (s', none) =>
        match ← step last (look s') with
        | .ok (last', e') => pure (above s' last' e', none)
        | .error crash => pure (above s' last e, some crash))
    (hkept : ∀ last below, step (last.getD .null) below
      = Except.map (fun e => (kept (last.getD .null) e, e)) <$> rule last below)
    (hsight : ∀ s last e crash?, Sight.of look' (above s last e, crash?) = ⟨look s, e, crash?⟩)
    (turns : List (Turn m)) (s : σ) :
    List.map (Sight.of look') <$> (above s .null .init).play turns
      = rule.play advance look turns [] s := by
  refine map_play_eq
    (R := fun past s t => t = above s ((Emission.newest? past).getD .null) (past.headD .init))
    (fun past s t ht => ?_) turns rfl
  rw [ht, hpull, pull]
  refine Coupled.bind_left fun done => ?_
  obtain ⟨s', crash?⟩ := done
  cases crash? with
  | some crash => exact Coupled.pure ⟨rfl, hsight ..⟩
  | none =>
    dsimp only
    rw [hkept, bind_map_left]
    refine Coupled.bind_left fun result => ?_
    cases result with
    | ok e => exact Coupled.pure ⟨by rw [← kept_newest]; rfl, hsight ..⟩
    | error crash => exact Coupled.pure ⟨rfl, hsight ..⟩

end Rule

/-! ### Inputs -/

namespace Signal

variable [Monad m]

/-- Pulls a signal, unless something crashed before. -/
def pullUnless (s : Signal m) : StateT (Option Crash) m (Signal m) := fun crash? =>
  match crash? with
  | none => s.pull
  | some crash => pure (s, some crash)

/-- Pulls each signal once, in order, until one crashes. -/
def pullEach (signals : List (Signal m)) : m (List (Signal m) × Option Crash) :=
  (signals.mapM pullUnless).run none

variable [LawfulMonad m]

/-- After a crash no signal is pulled. -/
theorem run_mapM_pullUnless_some (crash : Crash) (signals : List (Signal m)) :
    (signals.mapM pullUnless).run (some crash) = pure (signals, some crash) := by
  induction signals with
  | nil => rfl
  | cons s rest ih =>
    rw [List.mapM_cons, StateT.run_bind]
    show pure (s, some crash) >>= _ = _
    rw [pure_bind, StateT.run_bind, ih, pure_bind]
    rfl

/-- **Inputs are pulled once each, in order.** -/
theorem pullAll_eq_pullEach (signals : List (Signal m)) : pullAll signals = pullEach signals := by
  induction signals with
  | nil => rfl
  | cons s rest ih =>
    rw [pullAll, pullEach, List.mapM_cons, StateT.run_bind]
    show _ = s.pull >>= _
    refine bind_congr fun done => ?_
    obtain ⟨s', crash?⟩ := done
    rw [StateT.run_bind]
    cases crash? with
    | some crash =>
      rw [run_mapM_pullUnless_some, pure_bind]
      rfl
    | none =>
      rw [ih]
      rfl

end Signal

/-! ### Combined signals -/

section Combined

variable [Monad m]

/-- The rule of combined signals. Of the cases that apply the first counts. -/
def combineRule (f : List Value → m (Except Crash Value)) : Rule m (List Emission) :=
  fun newest? shown =>
    if ∃ e ∈ shown, e.controlState = .error then
      let failed := shown.filter fun e => e.controlState = .error
      pure (.ok (.error ("\n".intercalate (failed.map fun e => e.output.display))))
    else if ∃ e ∈ shown, e.controlState = .done then pure (.ok .done)
    else if ∃ e ∈ shown, e.controlState = .init ∨ e.output = .null then pure (.ok (.new .null))
    else if ∀ e ∈ shown, e.controlState = .same then pure (.ok (.same (newest?.getD .null)))
    else Except.map Emission.new <$> f (shown.map Emission.output)

end Combined

namespace Emission

/-- The messages of those that failed. -/
theorem filterMap_errorMessage? (shown : List Emission) :
    shown.filterMap errorMessage?
      = (shown.filter fun e => e.controlState = .error).map fun e => e.output.display := by
  induction shown with
  | nil => rfl
  | cons e rest ih =>
    by_cases h : e.controlState = .error
    · simp [errorMessage?, h, ih]
    · simp [errorMessage?, h, ih]

/-- What has not come to an end is absent if it has no value yet, or null in its place. -/
theorem isAbsent_iff {e : Emission} (herror : e.controlState ≠ .error)
    (hdone : e.controlState ≠ .done) :
    e.isAbsent = true ↔ e.controlState = .init ∨ e.output = .null := by
  obtain ⟨state, output⟩ := e
  cases state with
  | init => simp [isAbsent]
  | new | same => simp [isAbsent]
  | error => exact absurd rfl herror
  | done => exact absurd rfl hdone

end Emission

/-- What emissions amount to, in the words of the rule. -/
theorem Combination.of_eq (shown : List Emission) :
    of shown
      = if ∃ e ∈ shown, e.controlState = .error then
          failed ("\n".intercalate
            ((shown.filter fun e => e.controlState = .error).map fun e => e.output.display))
        else if ∃ e ∈ shown, e.controlState = .done then finished
        else if ∃ e ∈ shown, e.controlState = .init ∨ e.output = .null then absent
        else if ∀ e ∈ shown, e.controlState = .same then unchanged
        else changed (shown.map Emission.output) := by
  rw [of, Emission.filterMap_errorMessage?]
  by_cases herror : ∃ e ∈ shown, e.controlState = .error
  · have hfailed : (shown.filter fun e => e.controlState = .error) ≠ [] := by
      obtain ⟨e, he, hstate⟩ := herror
      exact List.ne_nil_of_mem (List.mem_filter.mpr ⟨he, decide_eq_true hstate⟩)
    rw [if_pos herror]
    exact if_pos (mt List.map_eq_nil_iff.mp hfailed)
  have hfailed : (shown.filter fun e => e.controlState = .error) = [] := by
    refine List.filter_eq_nil_iff.mpr fun e he hstate => herror ⟨e, he, of_decide_eq_true hstate⟩
  simp only [hfailed, List.map_nil, ne_eq, not_true_eq_false, if_false, if_neg herror]
  by_cases hdone : ∃ e ∈ shown, e.controlState = .done
  · simp [hdone]
  have habsent : (shown.any Emission.isAbsent = true)
      ↔ ∃ e ∈ shown, e.controlState = .init ∨ e.output = .null := by
    rw [List.any_eq_true]
    refine exists_congr fun e => and_congr_right fun he => ?_
    exact Emission.isAbsent_iff (fun h => herror ⟨e, he, h⟩) fun h => hdone ⟨e, he, h⟩
  simp [hdone, habsent]

namespace Rule

variable [Monad m] [LawfulMonad m]

/-- **What a combined signal keeps is its latest new output.** -/
theorem kept_combineStep (f : List Value → m (Except Crash Value)) (last : Option Value)
    (shown : List Emission) :
    Signal.combineStep f (last.getD .null) shown
      = Except.map (fun e => (kept (last.getD .null) e, e)) <$> combineRule f last shown := by
  rw [Signal.combineStep, combineRule, Combination.of_eq]
  split_ifs with herror hdone habsent hsame
  · rw [map_pure]
    rfl
  · rw [map_pure]
    rfl
  · rw [map_pure]
    rfl
  · rw [map_pure]
    rfl
  · rw [Functor.map_map, map_eq_pure_bind]
    refine bind_congr fun result => ?_
    cases result with
    | ok v => rfl
    | error crash => rfl

end Rule

namespace Signal

variable [Monad m] [LawfulMonad m]

/-- **Combined signals go by their rule.** Signals of any kind are combined by a function that may
have effects. However often the result is pulled, and whatever happens in between, in each pull
every input is pulled once, in order, until one crashes, and then what is shown depends on what the
inputs show and on the latest new output of the combined signal. The function is called once if the
last case of the rule applies, and else not at all. -/
theorem play_combine_eq (f : List Value → m (Except Crash Value)) (inputs : List (Signal m))
    (turns : List (Turn m)) :
    List.map (Sight.of fun t => t.inputs.map current) <$> (combine f inputs).play turns
      = (combineRule f).play pullEach (List.map current) turns [] inputs := by
  refine Rule.map_play_eq_of_step (fun inputs last e => combined inputs f last e)
    (fun inputs last e => ?_) (Rule.kept_combineStep f) (fun _ _ _ _ => rfl) turns inputs
  rw [Signal.pull, pullAll_eq_pullEach]
  refine bind_congr fun done => ?_
  obtain ⟨inputs', crash?⟩ := done
  cases crash? with
  | some crash => rfl
  | none => rfl

/-- A tape that signals read from, and what a function was called with so far. -/
structure Desk where
  tape : List Emission
  calls : List (List Value)
  deriving DecidableEq

/-- A signal that shows what comes next on the tape. -/
def scripted : Signal (StateM Desk) :=
  foreign ⟨modifyGet fun desk => (.ok (desk.tape.headD .init), { desk with tape := desk.tape.tail }),
    pure ()⟩ .init

/-- A function that counts its calls. -/
def countCalls (values : List Value) : StateM Desk (Except Crash Value) :=
  modifyGet fun desk =>
    (.ok (.nat (desk.calls.length + 1)), { desk with calls := desk.calls ++ [values] })

/-- Two signals are combined and pulled as often as the tape has something for both. -/
def deskRun (tape : List Emission) : List (Sight (List Emission)) × Desk :=
  (List.map (Sight.of fun t => t.inputs.map current) <$>
    (combine countCalls [scripted, scripted]).play
      (List.replicate (tape.length / 2) .pull)).run ⟨tape, []⟩

/-- In seven pulls every case of the rule applies. In between the signals fail, and are complete. -/
def allCases : List Emission :=
  [.same (.nat 1), .same (.nat 10), .new (.nat 1), .new (.nat 10), .error "stuck",
    ⟨.error, .bool true⟩, .done, .same (.nat 10), .same (.nat 1), .same (.nat 10), .init,
    .same (.nat 10), .new (.nat 2), .same (.nat 10)]

theorem play_combine_eq_allCases :
    deskRun allCases = ((combineRule countCalls).play pullEach (List.map current)
        (List.replicate 7 .pull) [] [scripted, scripted]).run ⟨allCases, []⟩ ∧
      (deskRun allCases).1.map Sight.shown
        = [.same .null, .new (.nat 1), .error "stuck\ntrue", .done, .same (.nat 1), .new .null,
          .new (.nat 2)] ∧
      (deskRun allCases).2.calls = [[.nat 1, .nat 10], [.nat 2, .nat 10]] :=
  ⟨congrArg (fun run => run ⟨allCases, []⟩)
      (play_combine_eq countCalls [scripted, scripted] (List.replicate 7 .pull)),
    by decide +kernel, by decide +kernel⟩

end Signal

end Reactive
