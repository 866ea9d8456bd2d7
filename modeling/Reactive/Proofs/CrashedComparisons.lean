import Reactive.Proofs.GeneratorPulls
import Reactive.Proofs.ObserverPulls

/-!
# Comparisons that crash

The comparison that a base signal was given may crash, and then the pull crashes as well. Up to there
pulls go by the rules. The crash leaves the automaton of the signal in the middle of the pull, in a
state that handles no further one: all later pulls are dropped, and the signal shows for ever what it
showed before. The generator is not called any more, and nothing that the source writes is seen, not
even its error or its completion.

## Main definitions

* `Generator.rules`, `SafeObserver.toCrashing` — the rules, in which a crash is an exception
* `Generator.showings`, `SafeObserver.showings` — what pulls show, up to a crash and after it

## Main results

* `BaseSignal.drive_stuck` — a pull in the middle of a pull
* `SafeGenerator.Stuck.watch`, `SafeObserver.Stuck.play` — all later pulls
* `BaseSignal.pulls_until_crash`
-/

namespace Reactive

variable {m : Type → Type}

/-! ### After the crash -/

namespace BaseSignal

variable {S E : Type} [Monad m] [LawfulMonad m]

/-- **In the middle of a pull nothing handles another one.** It is dropped, and what is shown stays
as it was. -/
theorem drive_stuck {transitions : List (Transition m S E Emission)} {model : Value}
    (h : (definition transitions model).problems = [])
    (hunhandled : (definition transitions model).handler? tempState pullEvent = none)
    {s : Standing} (hs : s.current = tempState) (settings : S) (data : E) (current : Emission) :
    drive ((definition transitions model).realize settings s) data current
      = pure ((definition transitions model).realize settings s.drop, .ok current) := by
  rw [drive_realize h, Definition.settle, hs, hunhandled]
  exact map_pure ..

end BaseSignal

open BaseSignal

namespace SafeGenerator.Stuck

variable [Monad m] [LawfulMonad m] {g : Generator m} {signal : Signal m}

/-- A pull changes nothing but a count. -/
theorem pull (h : Stuck g signal) : ∃ later, signal.pull = pure (later, none) ∧ Stuck g later ∧
    later.current = signal.current := by
  obtain ⟨s, hsignal, hs⟩ := h
  refine ⟨.generated ((Generator.definition m).realize g s.drop) signal.current, ?_,
    ⟨s.drop, rfl, hs⟩, rfl⟩
  rw [hsignal, Signal.pull, Generator.definition,
    drive_stuck Generator.problems_definition rfl hs, pure_bind]
  rfl

/-- **All later pulls show the same.** -/
theorem watch (h : Stuck g signal) (count : Nat) :
    signal.watch count = pure (List.replicate count (signal.current, none)) := by
  induction count generalizing signal with
  | zero => rfl
  | succ count ih =>
    obtain ⟨later, hpull, hstuck, hcurrent⟩ := h.pull
    rw [Signal.watch, hpull, pure_bind, ih hstuck, pure_bind, hcurrent]
    rfl

end SafeGenerator.Stuck

/-- How many pulls there are among some turns. -/
def Exchanged.pulls : List Exchanged → Nat
  | [] => 0
  | .write _ :: rest => pulls rest
  | .pull :: rest => pulls rest + 1

namespace SafeObserver.Stuck

variable [Monad m] [LawfulMonad m] {o : Observer (StateT Exchange m)} {mailbox : MailboxId}
  {signal : Signal (StateT Exchange m)}

/-- A pull looks into the mailbox and changes nothing else but a count. -/
theorem pull (h : Stuck o mailbox signal) (x : Exchange) :
    ∃ later, signal.pull.run x = pure ((later, none), (x.collect mailbox).2) ∧
      Stuck o mailbox later ∧ later.current = signal.current := by
  obtain ⟨s, subscription, hsignal, hs⟩ := h
  refine ⟨.observed ((Observer.definition (StateT Exchange m)).realize o s.drop)
    (modifyGetThe Exchange fun x => x.collect mailbox) subscription signal.current,
    ?_, ⟨s.drop, subscription, rfl, hs⟩, rfl⟩
  have hcollect : (modifyGetThe Exchange fun x => x.collect mailbox : StateT Exchange m Slot).run x
      = pure (x.collect mailbox) := rfl
  rw [hsignal, Signal.pull, StateT.run_bind, hcollect, pure_bind, Observer.definition,
    drive_stuck Observer.problems_definition rfl hs, pure_bind]
  rfl

/-- **All later pulls show the same**, whatever is written. -/
theorem play (h : Stuck o mailbox signal) (turns : List Exchanged) (x : Exchange) :
    (fun done => done.1.map fun shown => (shown.1.current, shown.2)) <$>
        (signal.play (turns.map (Exchanged.turn mailbox))).run x
      = pure (List.replicate (Exchanged.pulls turns) (signal.current, none)) := by
  induction turns generalizing signal x with
  | nil => exact map_pure ..
  | cons turn rest ih =>
    cases turn with
    | write p =>
      rw [List.map_cons, Exchanged.turn, Signal.play, StateT.run_bind]
      exact (congrArg _ (pure_bind ..)).trans (ih h (x.write mailbox p))
    | pull =>
      obtain ⟨later, hpull, hstuck, hcurrent⟩ := h.pull x
      have hlater := congrArg (List.cons (signal.current, none) <$> ·)
        (ih hstuck (x.collect mailbox).2)
      rw [List.map_cons, Exchanged.turn, Signal.play, StateT.run_bind, hpull, pure_bind]
      simp only [Functor.map_map, map_pure, hcurrent] at hlater
      simp only [bind_pure_comp, StateT.run_map, Functor.map_map, List.map_cons, hcurrent]
      exact hlater

end SafeObserver.Stuck

/-! ### Up to the crash -/

/-- Exceptions that are crashes need no translation. -/
theorem mapError_id {α : Type} : (Except.mapError id : Except Crash α → Except Crash α) = id := by
  funext result
  cases result <;> rfl

namespace Generator

variable [Monad m]

/-- The rules for a generator, where a crash of its comparison is an exception. -/
def rules (g : Generator m) : SafeGenerator (ExceptT Crash m) where
  next := ExceptT.lift g.next
  equals := g.equals.map fun equals a b => ExceptT.mk (equals a b)
  sentinel := g.sentinel

/-- What several pulls show in a phase of the rules, where `shown` is what is shown before, and which
of them crash. Once a comparison has crashed, no pull does anything. -/
def showings (g : Generator m) :
    Nat → SafeGenerator.Phase → (shown : Emission) → m (List (Emission × Option Crash))
  | 0, _, _ => pure []
  | count + 1, phase, shown => do
    match ← (g.rules.pull phase).run with
    | .ok ruled =>
      let later ← showings g count ruled.1 ruled.2.emission
      pure ((ruled.2.emission, none) :: later)
    | .error crash => pure ((shown, some crash) :: List.replicate count (shown, none))

variable [LawfulMonad m]

theorem obeys_rules (g : Generator m) : SafeGenerator.Obeys g id g.rules where
  next := rfl
  sentinel := rfl
  compare value last := by
    rw [mapError_id, id_map, compare, SafeGenerator.isSame, rules]
    cases g.equals with
    | none => rfl
    | some equals => rfl

/-- **Any number of pulls.** The induction is on their number, up to a crash. -/
theorem watch_describes (g : Generator m) (count : Nat) {phase : SafeGenerator.Phase}
    {signal : Signal m} (h : phase.Describes g signal) :
    signal.watch count = g.showings count phase signal.current := by
  induction count generalizing phase signal with
  | zero => rfl
  | succ count ih =>
    have hcoupled :
        Coupled Eq (signal.watch (count + 1)) (g.showings (count + 1) phase signal.current) := by
      rw [Signal.watch, showings]
      refine (SafeGenerator.coupled_pull_unless g.obeys_rules h).bind ?_
      rintro ⟨later, crash?⟩ (crash | ruled) hpulls
      · obtain ⟨hcrash, hstuck, hcurrent⟩ := hpulls
        obtain rfl : crash? = some crash := hcrash
        rw [hstuck.watch, pure_bind, hcurrent]
        exact Coupled.refl _
      · obtain ⟨hcrash, hdescribes, hshown, -⟩ := hpulls
        obtain rfl : crash? = none := hcrash
        rw [ih hdescribes, show later.current = ruled.2.emission from hshown]
        exact Coupled.refl _
    exact hcoupled.eq

end Generator

namespace SafeObserver

variable [Monad m]

/-- The observer whose comparison crashes wherever the rules make an exception. -/
def toCrashing (r : SafeObserver (ExceptT Crash m)) : Observer (StateT Exchange m) :=
  ⟨r.equals.map fun equals a b => StateT.lift (equals a b).run⟩

/-- What the pulls of a run show in a state of the rules, where `shown` is what is shown before, and
which of them crash. Once a comparison has crashed, no pull does anything. -/
def showings (r : SafeObserver (ExceptT Crash m)) :
    List Exchanged → State → (shown : Emission) → m (List (Emission × Option Crash))
  | [], _, _ => pure []
  | .write p :: rest, state, shown => showings r rest (state.write p) shown
  | .pull :: rest, state, shown => do
    match ← (r.pull state).run with
    | .ok ruled =>
      let later ← showings r rest ruled.1 ruled.2.emission
      pure ((ruled.2.emission, none) :: later)
    | .error crash =>
      pure ((shown, some crash) :: List.replicate (Exchanged.pulls rest) (shown, none))

variable [LawfulMonad m]

theorem obeys_toCrashing (r : SafeObserver (ExceptT Crash m)) : Obeys r.toCrashing id r where
  equals := by
    simp only [mapError_id, id_map]
    rfl

/-- **Writes and pulls in any order.** The induction is on the list of both, up to a crash. -/
theorem play_describes (r : SafeObserver (ExceptT Crash m)) (turns : List Exchanged)
    {mailbox : MailboxId} {state : State} {signal : Signal (StateT Exchange m)} {x : Exchange}
    (h : state.Describes r.toCrashing mailbox signal x) :
    (fun done => done.1.map fun shown => (shown.1.current, shown.2)) <$>
        (signal.play (turns.map (Exchanged.turn mailbox))).run x
      = r.showings turns state signal.current := by
  induction turns generalizing state signal x with
  | nil => exact map_pure ..
  | cons turn rest ih =>
    cases turn with
    | write p =>
      rw [showings, List.map_cons, Exchanged.turn, Signal.play, StateT.run_bind]
      exact (congrArg _ (pure_bind ..)).trans (ih (h.write p))
    | pull =>
      have hcoupled : Coupled Eq
          ((fun done => done.1.map fun shown => (shown.1.current, shown.2)) <$>
            (signal.play ((Exchanged.pull :: rest).map (Exchanged.turn mailbox))).run x)
          (r.showings (.pull :: rest) state signal.current) := by
        rw [List.map_cons, Exchanged.turn, Signal.play, StateT.run_bind, showings, map_bind]
        refine (coupled_pull_unless r.obeys_toCrashing h).bind ?_
        rintro ⟨⟨later, crash?⟩, x'⟩ (crash | ruled) hpulls
        · obtain ⟨hcrash, hstuck, hcurrent⟩ := hpulls
          obtain rfl : crash? = some crash := hcrash
          have hlater := congrArg (List.cons (later.current, some crash) <$> ·)
            (hstuck.play rest x')
          simp only [Functor.map_map, map_pure] at hlater
          simp only [bind_pure_comp, StateT.run_map, Functor.map_map, List.map_cons]
          rw [hlater, show later.current = signal.current from hcurrent]
          exact Coupled.refl _
        · obtain ⟨hcrash, -, hdescribes, hshown, -⟩ := hpulls
          obtain rfl : crash? = none := hcrash
          have hlater := congrArg (List.cons (later.current, none) <$> ·) (ih hdescribes)
          simp only [Functor.map_map] at hlater
          simp only [bind_pure_comp, StateT.run_map, Functor.map_map, List.map_cons]
          rw [hlater, show later.current = ruled.2.emission from hshown]
          exact Coupled.refl _
      exact hcoupled.eq

end SafeObserver

/-! ### Both kinds of base signals -/

namespace BaseSignal

/-- **Pulls of base signals go by the rules until a comparison crashes**, and do nothing from then
on. A signal with a generator is pulled any number of times. A signal with a source is pulled, and
its source writes, in any order. The pull in which the comparison crashes gives the crash back and
shows what was shown before. So does every later one, which does not crash: it does not call the
generator and looks at nothing that was written. -/
theorem pulls_until_crash [Monad m] [LawfulMonad m] (g : Generator m) (count : Nat)
    (r : SafeObserver (ExceptT Crash m)) {source : Source (StateT Exchange m)}
    (hsource : source.OnlyWrites) (turns : List Exchanged) (x : Exchange) :
    (do
        let signal ← Signal.generate g
        let later ← signal.watch count
        pure (signal.current, later))
      = (fun shown => (.init, shown)) <$> g.showings count .fresh .init
    ∧ (do
        let signal ← Signal.observe source r.toCrashing
        let later ← signal.play (turns.map (Exchanged.turn x.mailboxes.length))
        pure (signal.current, later.map fun done => (done.1.current, done.2)) :
          StateT Exchange m (Emission × List (Emission × Option Crash))).run' x
      = ((source.subscribe x.mailboxes.length).run x.openMailbox.2 >>= fun subscribed =>
          (fun shown => (.init, shown)) <$>
            r.showings turns (.ofSlot (subscribed.2.slot x.mailboxes.length)) .init) := by
  constructor
  · have hfresh : SafeGenerator.Phase.fresh.Describes g (.generated
        ((Generator.definition m).realize g
          (started (Generator.transitions (m := m)) Generator.initialModel)) .init) :=
      ⟨_, rfl, rfl, rfl, rfl, rfl⟩
    rw [Signal.generate, Generator.start_eq, pure_bind, pure_bind, g.watch_describes count hfresh]
    exact (map_eq_pure_bind _ _).symm
  · rw [StateT.run'_eq, StateT.run_bind, SafeObserver.run_observe_opened, bind_map_left, map_bind]
    refine bind_congr_of_satisfiesM (hsource _ _) fun subscribed hsubscribed => ?_
    have hplay := r.play_describes turns
      (SafeObserver.describes_opened r.toCrashing hsubscribed subscribed.1)
    have hshown := congrArg ((fun shown => (Emission.init, shown)) <$> ·) hplay
    simp only [Functor.map_map] at hshown
    simp only [bind_pure_comp, StateT.run_map, Functor.map_map]
    exact hshown

/-- Gives two numbers and then fails, counting its calls. Its comparison crashes. -/
def touchy : Generator (StateM Nat) where
  next := do
    let calls ← get
    set (calls + 1)
    pure (.ok (if calls < 2 then .ok (.nat calls) else .error "boom"))
  equals := some fun _ _ => pure (.error (.saying "no match"))

/-- Compares numbers only. -/
def choosy : SafeObserver (ExceptT Crash (StateM Nat)) :=
  ⟨some fun a b => ExceptT.mk (pure (match a, b with
    | .number _, .number _ => .ok (a.alike b)
    | _, _ => .error (.saying "no number")))⟩

/-- A signal of the only subject is pulled, the subject is given something else than a number and
the signal is pulled again, and then the subject fails. -/
def choosyTurns : List Exchanged :=
  [.pull, .write (.next .null), .pull, .write (.error "gone"), .pull]

theorem pulls_until_crash_touchy :
    (Source.ofSubject 0 : Source (StateT Exchange (StateM Nat))).OnlyWrites ∧
      ((do
        let signal ← Signal.generate touchy
        let later ← signal.watch 4
        pure (signal.current, later) : StateM Nat (Emission × List (Emission × Option Crash))).run
          0).1
        = (.init, [(.new (.nat 0), none), (.new (.nat 0), some (.saying "no match")),
            (.new (.nat 0), none), (.new (.nat 0), none)]) ∧
      ((do
        let signal ← Signal.observe (Source.ofSubject 0) choosy.toCrashing
        let later ← signal.play
          (choosyTurns.map (Exchanged.turn SafeObserver.oneSubject.mailboxes.length))
        pure (signal.current, later.map fun done => (done.1.current, done.2)) :
          StateT Exchange (StateM Nat) (Emission × List (Emission × Option Crash))).run'
            SafeObserver.oneSubject).run 0
        = ((.init, [(.new (.nat 1), none), (.new (.nat 1), some (.saying "no number")),
            (.new (.nat 1), none)]), 0) := by
  obtain ⟨hwatch, hplay⟩ := pulls_until_crash touchy 4 choosy (Source.onlyWrites_ofSubject 0)
    choosyTurns SafeObserver.oneSubject
  refine ⟨Source.onlyWrites_ofSubject 0, ?_, ?_⟩
  · rw [hwatch]
    rfl
  · rw [hplay]
    rfl

/-- Three pulls of the touchy signal, and how often its generator was called. -/
def touchyPulls : List (Emission × Option Crash) × Nat :=
  (do
    let signal ← Signal.generate touchy
    signal.watch 3 : StateM Nat (List (Emission × Option Crash))).run 0

/-- The pulls of the choosy signal. -/
def choosyPulls : List (Emission × Option Crash) :=
  ((do
    let signal ← Signal.observe (Source.ofSubject 0) choosy.toCrashing
    let later ← signal.play (choosyTurns.map (Exchanged.turn 0))
    pure (later.map fun done => (done.1.current, done.2)) :
      StateT Exchange (StateM Nat) (List (Emission × Option Crash))).run'
        SafeObserver.oneSubject).run 0 |>.1

/-- **A comparison that crashes is the end of a signal, which does not show it.** One signal shows a
value after each of three pulls, but the third has not called the generator. The source of the other
has failed before its third pull, which shows the value from before. -/
theorem end_of_touchy :
    touchyPulls = ([(.new (.nat 0), none), (.new (.nat 0), some (.saying "no match")),
        (.new (.nat 0), none)], 2) ∧
      choosyPulls = [(.new (.nat 1), none), (.new (.nat 1), some (.saying "no number")),
        (.new (.nat 1), none)] := by
  decide +kernel

end BaseSignal

end Reactive
