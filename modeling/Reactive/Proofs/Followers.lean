import Reactive.Proofs.CrashedComparisons
import Reactive.Proofs.Subjects
import Reactive.Proofs.Worlds

/-!
# One signal of a subject

A signal that was created on a subject has turns: its mailbox is written into, or it is pulled.
What its mailbox holds depends on these turns alone. If its comparison is a function of the two
values, so does all that it shows. This is what is kept along its turns, whatever is done elsewhere
in the exchange in between.

## Main definitions

* `Exchanged.leaves` — what a turn leaves in the mailbox
* `SafeObserver.anywhere` — a comparison that is a function, among code with effects
* `SafeObserver.shown`, `shownFrom` — what pulls show, a function of the turns
* `Follows` — a signal has had some turns and has shown something

## Main results

* `Follows.of_slot_eq`, `Follows.write`, `Follows.pull` — what happens to a signal
* `Follows.shown_eq` — what was shown is what the rules say
* `perform_observe`, `follows_opened` — a new signal
-/

namespace Reactive

variable {σ : Type}

open World

/-! ### Turns of a mailbox -/

namespace Exchanged

/-- What a turn leaves in the mailbox. -/
def leaves (slot : Slot) : Exchanged → Slot
  | write p => slot.write p
  | pull => slot.collected

/-- What a turn writes. -/
def write? : Exchanged → Option Push
  | write p => some p
  | pull => none

theorem foldl_leaves_map_write (pushes : List Push) (slot : Slot) :
    (pushes.map write).foldl leaves slot = pushes.foldl Slot.write slot :=
  List.foldl_map

end Exchanged

/-! ### Comparisons that are functions -/

namespace SafeObserver

/-- A comparison without effects, among code that has some. -/
def anywhere (p : SafeObserver (ExceptT Crash Id)) : SafeObserver (ExceptT Crash (StateM σ)) :=
  ⟨p.equals.map fun equals a b => ExceptT.mk (pure (equals a b).run)⟩

theorem run_isSame_anywhere (p : SafeObserver (ExceptT Crash Id)) (value last : Value) :
    ((p.anywhere : SafeObserver (ExceptT Crash (StateM σ))).isSame value last).run
      = pure (p.isSame value last).run.run := by
  rw [isSame, isSame, anywhere]
  cases p.equals with
  | none => rfl
  | some equals => rfl

/-- Pulls by the rules have no effects either. -/
theorem run_pull_anywhere (p : SafeObserver (ExceptT Crash Id)) (state : State) :
    ((p.anywhere : SafeObserver (ExceptT Crash (StateM σ))).pull state).run
      = pure (p.pull state).run.run := by
  obtain ⟨written?, seen, last?⟩ := state
  unfold pull
  cases written? with
  | none => rfl
  | some push =>
    cases push with
    | error cause => rfl
    | complete => rfl
    | next value =>
      cases last? with
      | none => rfl
      | some last =>
        cases seen with
        | true => rfl
        | false =>
          dsimp only
          rw [if_neg (by simp), if_neg (by simp), ExceptT.run_bind, ExceptT.run_bind,
            run_isSame_anywhere, pure_bind, Id.run_bind]
          rcases (p.isSame value last).run.run with crash | _ | _
          · rfl
          · rfl
          · rfl

/-- What the pulls among some turns show in a state of the rules, where `current` is what is shown
before, and which of them crash. -/
def shownFrom (p : SafeObserver (ExceptT Crash Id)) (turns : List Exchanged) (state : State)
    (current : Emission) : List (Emission × Option Crash) :=
  (p.showings turns state current).run

/-- What the pulls among the turns of a new signal show, and which of them crash. -/
def shown (p : SafeObserver (ExceptT Crash Id)) (turns : List Exchanged) :
    List (Emission × Option Crash) :=
  p.shownFrom turns .fresh .init

/-- Writes show nothing. -/
theorem shownFrom_map_write (p : SafeObserver (ExceptT Crash Id)) (pushes : List Push)
    (later : List Exchanged) (state : State) (current : Emission) :
    p.shownFrom (pushes.map .write ++ later) state current
      = p.shownFrom later (pushes.foldl State.write state) current := by
  induction pushes generalizing state with
  | nil => rfl
  | cons push rest ih => exact ih (state.write push)

theorem shownFrom_pull_of_ok {p : SafeObserver (ExceptT Crash Id)} {state : State}
    {ruled : State × Verdict} (h : (p.pull state).run.run = .ok ruled) (later : List Exchanged)
    (current : Emission) : p.shownFrom (.pull :: later) state current
      = (ruled.2.emission, none) :: p.shownFrom later ruled.1 ruled.2.emission := by
  show Id.run ((p.pull state).run >>= _) = _
  rw [Id.run_bind, h]
  rfl

theorem shownFrom_pull_of_error {p : SafeObserver (ExceptT Crash Id)} {state : State}
    {crash : Crash} (h : (p.pull state).run.run = .error crash) (later : List Exchanged)
    (current : Emission) : p.shownFrom (.pull :: later) state current
      = (current, some crash) :: List.replicate (Exchanged.pulls later) (current, none) := by
  show Id.run ((p.pull state).run >>= _) = _
  rw [Id.run_bind, h]
  rfl

end SafeObserver

open SafeObserver

/-! ### Following a subject -/

/-- How things stand with a signal that has had some turns and has shown something, up to a crash of
its comparison: it is in a state of the rules, and if the comparison is a function, the rules said
what was shown and say what comes next. -/
structure Goes (r : SafeObserver (ExceptT Crash (StateM σ))) (mailbox : MailboxId)
    (turns : List Exchanged) (shown : List (Emission × Option Crash))
    (signal : Signal (World σ)) (x : Exchange) (state : State) : Prop where
  describes : state.Describes r.toCrashing mailbox signal x
  shown : ∀ p : SafeObserver (ExceptT Crash Id), r = p.anywhere → ∀ later,
    p.shown (turns ++ later) = shown ++ p.shownFrom later state signal.current

/-- How things stand with such a signal after the crash. -/
structure Rests (r : SafeObserver (ExceptT Crash (StateM σ))) (mailbox : MailboxId)
    (turns : List Exchanged) (shown : List (Emission × Option Crash))
    (signal : Signal (World σ)) : Prop where
  stuck : Stuck r.toCrashing mailbox signal
  shown : ∀ p : SafeObserver (ExceptT Crash Id), r = p.anywhere → ∀ later, p.shown (turns ++ later)
    = shown ++ List.replicate (Exchanged.pulls later) (signal.current, none)

/-- A signal with a mailbox has had some turns and has shown something. -/
structure Follows (r : SafeObserver (ExceptT Crash (StateM σ))) (mailbox : MailboxId)
    (turns : List Exchanged) (shown : List (Emission × Option Crash))
    (signal : Signal (World σ)) (x : Exchange) : Prop where
  lt : mailbox < x.mailboxes.length
  /-- The mailbox has had these turns, and no others. -/
  slot : x.slot mailbox = turns.foldl Exchanged.leaves .empty
  standing : (∃ state, Goes r mailbox turns shown signal x state) ∨
    Rests r mailbox turns shown signal

namespace Follows

variable {r : SafeObserver (ExceptT Crash (StateM σ))} {mailbox : MailboxId}
  {turns : List Exchanged} {shown : List (Emission × Option Crash)} {signal : Signal (World σ)}
  {x x' : Exchange}

/-- **Nothing that is done elsewhere matters.** -/
theorem of_slot_eq (h : Follows r mailbox turns shown signal x)
    (hlt : mailbox < x'.mailboxes.length) (hslot : x'.slot mailbox = x.slot mailbox) :
    Follows r mailbox turns shown signal x' := by
  refine ⟨hlt, hslot.trans h.slot, h.standing.imp ?_ id⟩
  rintro ⟨state, ⟨s, subscription, hsignal, hstands, hstate, -⟩, hshown⟩
  exact ⟨state, ⟨s, subscription, hsignal, hstands, hslot.trans hstate, hlt⟩, hshown⟩

/-- **A write is a turn.** -/
theorem write (h : Follows r mailbox turns shown signal x) {push : Push}
    (hlt : mailbox < x'.mailboxes.length)
    (hslot : x'.slot mailbox = (x.slot mailbox).write push) :
    Follows r mailbox (turns ++ [.write push]) shown signal x' := by
  refine ⟨hlt, ?_, h.standing.imp ?_ ?_⟩
  · rw [hslot, h.slot, List.foldl_append]
    rfl
  · rintro ⟨state, ⟨s, subscription, hsignal, hstands, hstate, -⟩, hshown⟩
    refine ⟨state.write push, ⟨s, subscription, hsignal, hstands.write push, ?_, hlt⟩, ?_⟩
    · rw [hslot, hstate, state.slot_write]
    · intro p hp later
      rw [List.append_assoc]
      exact hshown p hp (.write push :: later)
  · rintro ⟨hstuck, hshown⟩
    refine ⟨hstuck, fun p hp later => ?_⟩
    rw [List.append_assoc]
    exact hshown p hp (.write push :: later)

/-- **A pull is a turn.** It shows something, and does nothing to the exchange but to look into the
mailbox. -/
theorem pull (h : Follows r mailbox turns shown signal x) (w : σ) :
    Follows r mailbox (turns ++ [.pull])
        (shown ++ [((perform signal.pull x w).1.1.1.current, (perform signal.pull x w).1.1.2)])
        (perform signal.pull x w).1.1.1 (perform signal.pull x w).1.2 ∧
      (perform signal.pull x w).1.2 = (x.collect mailbox).2 := by
  have hlt : mailbox < (x.collect mailbox).2.mailboxes.length := by
    rw [Exchange.collect, List.length_modify]
    exact h.lt
  have hslot : (x.collect mailbox).2.slot mailbox
      = (turns ++ [Exchanged.pull]).foldl Exchanged.leaves .empty := by
    rw [x.slot_collect, if_pos rfl, h.slot, List.foldl_append]
    rfl
  rcases h.standing with ⟨state, hdescribes, hshown⟩ | ⟨hstuck, hshown⟩
  · obtain ⟨⟨hpulls, hexchange⟩, -⟩ :=
      (coupled_pull_collect r.obeys_toCrashing hdescribes).perform w
    rw [hexchange]
    refine ⟨⟨hlt, hslot, ?_⟩, rfl⟩
    cases hruled : ((r.pull state).run.run w).1 with
    | ok ruled =>
      rw [hruled] at hpulls
      obtain ⟨hcrash, -, hdescribes', hcurrent, -⟩ := hpulls
      rw [hexchange] at hdescribes'
      refine Or.inl ⟨ruled.1, hdescribes', ?_⟩
      rintro p rfl later
      rw [run_pull_anywhere] at hruled
      rw [List.append_assoc, hcurrent, hcrash]
      refine (hshown p rfl (.pull :: later)).trans ?_
      rw [shownFrom_pull_of_ok hruled, List.append_assoc]
      rfl
    | error crash =>
      rw [hruled] at hpulls
      obtain ⟨hcrash, hstuck, hcurrent⟩ := hpulls
      refine Or.inr ⟨hstuck, ?_⟩
      rintro p rfl later
      rw [run_pull_anywhere] at hruled
      rw [List.append_assoc, hcurrent, hcrash]
      refine (hshown p rfl (.pull :: later)).trans ?_
      rw [shownFrom_pull_of_error hruled, List.append_assoc]
      rfl
  · obtain ⟨signal', hpull, hstuck', hcurrent⟩ := hstuck.pull x
    have hperform : perform signal.pull x w = (((signal', none), (x.collect mailbox).2), w) := by
      rw [perform, hpull]
      rfl
    rw [hperform]
    refine ⟨⟨hlt, hslot, Or.inr ⟨hstuck', fun p hp later => ?_⟩⟩, rfl⟩
    rw [List.append_assoc]
    refine (hshown p hp (.pull :: later)).trans ?_
    rw [List.append_assoc, hcurrent]
    rfl

/-- **What was shown is what the rules say**, if the comparison is a function. -/
theorem shown_eq (h : Follows r mailbox turns shown signal x)
    {p : SafeObserver (ExceptT Crash Id)} (hp : r = p.anywhere) : p.shown turns = shown := by
  rcases h.standing with ⟨state, hgoes⟩ | hrests
  · have hshown := hgoes.shown p hp []
    rw [List.append_nil] at hshown
    exact hshown.trans (List.append_nil shown)
  · have hshown := hrests.shown p hp []
    rw [List.append_nil] at hshown
    exact hshown.trans (List.append_nil shown)

/-- It collects from its mailbox. -/
theorem observed (h : Follows r mailbox turns shown signal x) :
    ∃ automaton subscription, signal = .observed automaton
      (modifyGetThe Exchange fun x => x.collect mailbox) subscription signal.current := by
  rcases h.standing with ⟨_, ⟨s, subscription, hsignal, -⟩, -⟩ | ⟨⟨s, subscription, hsignal, -⟩, -⟩
  · exact ⟨_, subscription, hsignal⟩
  · exact ⟨_, subscription, hsignal⟩

end Follows

/-- A pull of a signal with a source leaves its subscription as it is. -/
theorem Signal.satisfiesM_release_pull {m : Type → Type} [Monad m] [LawfulMonad m]
    (automaton : Automaton m (Observer m) Slot Emission) (collect : m Slot)
    (subscription : Subscription m) (current : Emission) :
    SatisfiesM (fun done => done.1.release = subscription.release)
      (Signal.observed automaton collect subscription current).pull := by
  rw [Signal.pull]
  refine SatisfiesM.trivial.bind fun slot _ => ?_
  refine SatisfiesM.trivial.bind fun done _ => ?_
  obtain ⟨automaton', result⟩ := done
  cases result with
  | ok emission => exact SatisfiesM.pure rfl
  | error crash => exact SatisfiesM.pure rfl

/-! ### New signals -/

/-- The subscription of a number that a subject gave, if it gave one. -/
def subscriptionOf (id : SubjectId) : Option Nat → Subscription (World σ)
  | some number => ⟨some (modifyThe Exchange fun x => x.unsubscribe id number)⟩
  | none => .empty

/-- A signal is created on a subject: a mailbox is opened for it and subscribed. -/
theorem perform_observe (id : SubjectId) (o : Observer (World σ)) (x : Exchange) (w : σ) :
    perform (Signal.observe (.ofSubject id) o) x w
      = ((opened o x.mailboxes.length (subscriptionOf id (x.enroll id).1), (x.enroll id).2), w) := by
  have hsubscribe : ((Source.ofSubject id : Source (World σ)).subscribe x.mailboxes.length).run
        x.openMailbox.2
      = pure (subscriptionOf id (x.enroll id).1, (x.enroll id).2) := by
    show (do
      match ← modifyGetThe Exchange fun x' => x'.subscribe id x.mailboxes.length with
      | some number => pure ⟨some (modifyThe Exchange fun x => x.unsubscribe id number)⟩
      | none => pure .empty : World σ (Subscription (World σ))).run x.openMailbox.2 = _
    rw [StateT.run_bind]
    show pure (x.enroll id) >>= _ = _
    rw [pure_bind]
    cases (x.enroll id).1 with
    | none => rfl
    | some number => rfl
  rw [perform, run_observe_opened, hsubscribe]
  rfl

/-- **A new signal has been greeted**, and has shown nothing. -/
theorem follows_opened (r : SafeObserver (ExceptT Crash (StateM σ))) (id : SubjectId) (x : Exchange)
    (subscription : Subscription (World σ)) :
    Follows r x.mailboxes.length ((x.subject id).greeting?.toList.map .write) []
      (opened r.toCrashing x.mailboxes.length subscription) (x.enroll id).2 := by
  have hslot := x.slot_enroll_new id
  have hdescribes := describes_opened r.toCrashing
    (Exchange.Receives.subscribe x.openMailbox.2 id x.mailboxes.length) subscription
  refine ⟨?_, ?_, Or.inl ⟨_, hdescribes, ?_⟩⟩
  · rw [Exchange.length_mailboxes_enroll]
    exact Nat.lt_succ_self _
  · rw [hslot, Exchanged.foldl_leaves_map_write]
  · intro p _ later
    show _ = p.shownFrom later (.ofSlot ((x.enroll id).2.slot x.mailboxes.length)) .init
    rw [hslot, State.ofSlot_foldl_write]
    exact p.shownFrom_map_write _ later .fresh .init

end Reactive
