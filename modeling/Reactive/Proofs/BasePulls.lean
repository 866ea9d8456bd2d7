import Reactive.Proofs.CrashedComparisons
import Reactive.Proofs.Worlds

/-!
# Pulls of base signals among other code

The generator and the comparison of a base signal are code in a world. All that they do to mailboxes
is writing. In the world there may be a book in which code makes entries; with it the calls of
generators can be counted. Whatever such code does, a pull of a base signal leaves it as a base
signal should be, and what it shows goes on from what it showed: an end stays as it is, there is no
return to having no value, and the same as before is the same as before.

## Main definitions

* `Enters`, `Tame` — code that makes given entries, and code that makes none
* `Emission.Continues` — what a base signal shows goes on
* `Generator.Sound`, `Observer.Sound` — base signals as they should be

## Main results

* `Generator.perform_pull`, `Observer.perform_pull` — one pull
* `Observer.Sound.receive` — writing is harmless
-/

namespace Reactive

open World BaseSignal

variable {σ L α β : Type} {crashes : Set Crash} {book : σ → List L}

/-! ### Code that makes entries -/

/-- Code that does nothing to mailboxes but writing, and makes these entries in a book. -/
structure Enters (book : σ → List L) (entries : List L) (code : World σ α) : Prop where
  writes : OnlyWrites code
  book : ∀ x w, book (perform code x w).2 = book w ++ entries

/-- Code that makes no entries, and crashes only in certain ways. -/
structure Tame (crashes : Set Crash) (book : σ → List L) (code : World σ (Except Crash α)) :
    Prop where
  enters : Enters book [] code
  crash : ∀ x w crash, (perform code x w).1.1 = .error crash → crash ∈ crashes

namespace Enters

variable {entries later : List L}

theorem receives {code : World σ α} (h : Enters book entries code) (x : Exchange) (w : σ) :
    x.Receives (perform code x w).1.2 := h.writes.perform x w

theorem pure (a : α) : Enters book [] (Pure.pure a : World σ α) :=
  ⟨OnlyWrites.pure a, fun _ w => (List.append_nil (book w)).symm⟩

theorem bind {code : World σ α} {next : α → World σ β} (hcode : Enters book entries code)
    (hnext : ∀ a, Enters book later (next a)) : Enters book (entries ++ later) (code >>= next) := by
  refine ⟨hcode.writes.bind fun a => (hnext a).writes, fun x w => ?_⟩
  rw [perform_bind, (hnext _).book, hcode.book, List.append_assoc]

theorem bind_nil {code : World σ α} {next : α → World σ β} (hcode : Enters book [] code)
    (hnext : ∀ a, Enters book [] (next a)) : Enters book [] (code >>= next) := hcode.bind hnext

end Enters

namespace Tame

theorem ok (a : α) : Tame crashes book (Pure.pure (.ok a) : World σ (Except Crash α)) :=
  ⟨Enters.pure _, fun _ _ _ h => by cases h⟩

theorem receives {code : World σ (Except Crash α)} (h : Tame crashes book code) (x : Exchange)
    (w : σ) : x.Receives (perform code x w).1.2 := h.enters.receives x w

theorem book_eq {code : World σ (Except Crash α)} (h : Tame crashes book code) (x : Exchange)
    (w : σ) : book (perform code x w).2 = book w :=
  (h.enters.book x w).trans (List.append_nil (book w))

end Tame

/-! ### What is shown goes on -/

/-- What a base signal shows goes on from what it showed before. -/
structure Emission.Continues (before after : Emission) : Prop where
  ended : before.controlState.isTerminal = true → after = before
  init : after.controlState = .init → before.controlState = .init
  same : after.controlState = .same → after.output = before.output

theorem Emission.Continues.refl (e : Emission) : e.Continues e :=
  ⟨fun _ => rfl, id, fun _ => rfl⟩

/-- There is nothing to show only after the verdict that says so. -/
theorem Verdict.eq_absent {verdict : Verdict} (h : verdict.emission.controlState = .init) :
    verdict = .absent := by
  cases verdict with
  | absent => rfl
  | new _ | same _ => cases h
  | ended ending =>
    cases ending with
    | completed | sourceFailed _ => cases h
    | generatorFailed phase _ => cases phase <;> cases h

/-- What a pull of a base signal comes to. Of the signal it is said that it is as it should be, of
the mailboxes that some of them were only written into. -/
structure BasePull (crashes : Set Crash) (book : σ → List L) (entries : List L)
    (sound : Signal (World σ) → Exchange → Prop) (elsewhere : MailboxId → Prop)
    (before : Signal (World σ)) (x : Exchange) (w : σ)
    (done : ((Signal (World σ) × Option Crash) × Exchange) × σ) : Prop where
  sound : sound done.1.1.1 done.1.2
  receives : ∀ mailbox, elsewhere mailbox → x.ReceivesAt done.1.2 mailbox
  continues : before.current.Continues done.1.1.1.current
  crash : ∀ crash, done.1.1.2 = some crash →
    crash ∈ crashes ∧ done.1.1.1.current = before.current
  /-- Only what has not ended makes entries. -/
  book : crashes = ∅ → book done.2
    = book w ++ if before.current.controlState.isTerminal = true then [] else entries

/-! ### Signals with a generator -/

namespace SafeGenerator

/-- What a signal shows in a phase. -/
def Phase.Shows : Phase → Emission → Prop
  | .fresh, current => current = .init
  | .running last, current => current = .new last ∨ current = .same last
  | .ended ending, current => current = ending.emission

theorem Phase.Stands.shows {s : Standing} {current : Emission} {phase : Phase}
    (h : phase.Stands s current) : phase.Shows current := by
  cases phase with
  | fresh => exact h.2.2.2
  | running last => exact h.2.2.2.2
  | ended ending =>
    cases ending with
    | completed => exact h.2
    | sourceFailed _ | generatorFailed _ _ => exact h.2.2

/-- An ended signal shows an end, and no other signal does. -/
theorem Phase.Shows.isTerminal {phase : Phase} {current : Emission} (h : phase.Shows current) :
    current.controlState.isTerminal = true ↔ ∃ ending, phase = .ended ending := by
  cases phase with
  | fresh =>
    obtain rfl : current = .init := h
    exact ⟨by rintro ⟨⟩, by rintro ⟨_, ⟨⟩⟩⟩
  | running last =>
    refine ⟨fun hterminal => ?_, by rintro ⟨_, ⟨⟩⟩⟩
    rcases h with rfl | rfl
    · cases hterminal
    · cases hterminal
  | ended ending =>
    obtain rfl : current = ending.emission := h
    refine ⟨fun _ => ⟨ending, rfl⟩, fun _ => ?_⟩
    cases ending with
    | completed | sourceFailed _ => rfl
    | generatorFailed phase _ => cases phase <;> rfl

/-- Only a signal that was not pulled has nothing to show. -/
theorem Phase.Shows.eq_fresh {phase : Phase} {current : Emission} (h : phase.Shows current)
    (hinit : current.controlState = .init) : phase = .fresh := by
  cases phase with
  | fresh => rfl
  | running last =>
    rcases h with rfl | rfl
    · cases hinit
    · cases hinit
  | ended ending =>
    have hterminal := h.isTerminal.mpr ⟨ending, rfl⟩
    rw [hinit] at hterminal
    cases hterminal

/-- What a pull in a phase comes to: it does not lead back to having no value, and an end is
repeated. -/
structure Phase.Leads (phase : Phase) (ruled : Phase × Verdict) : Prop where
  left : ruled.1 ≠ .fresh
  ended : ∀ ending, phase = .ended ending → ruled = (.ended ending, .ended ending)

/-- What is shown goes on. -/
theorem Phase.Leads.continues {phase : Phase} {ruled : Phase × Verdict} {before : Emission}
    (h : phase.Leads ruled) (hbefore : phase.Shows before)
    (hafter : ruled.1.Shows ruled.2.emission)
    (hsame : ∀ last, ruled.2 = .same last → phase = .running last) :
    before.Continues ruled.2.emission := by
  refine ⟨fun hterminal => ?_, fun hinit => ?_, fun hstate => ?_⟩
  · obtain ⟨ending, rfl⟩ := hbefore.isTerminal.mp hterminal
    rw [h.ended ending rfl]
    exact hbefore.symm
  · exact absurd (hafter.eq_fresh hinit) h.left
  · obtain ⟨last, hverdict⟩ := Verdict.eq_same hstate
    obtain rfl : phase = .running last := hsame last hverdict
    rw [hverdict]
    rcases hbefore with rfl | rfl
    · rfl
    · rfl

/-- What is true of a pull by the rules in a world, up to a crash. -/
structure RuledIn (crashes : Set Crash) (book : σ → List L) (entries : List L) (phase : Phase)
    (code : World σ (Except Crash (Phase × Verdict))) : Prop where
  enters : Enters book entries code
  crash : ∀ x w crash, (perform code x w).1.1 = .error crash → crash ∈ crashes
  leads : ∀ x w ruled, (perform code x w).1.1 = .ok ruled → phase.Leads ruled

theorem RuledIn.pure {phase : Phase} {ruled : Phase × Verdict} (h : phase.Leads ruled) :
    RuledIn crashes book [] phase (Pure.pure (.ok ruled)) := by
  refine ⟨Enters.pure _, by rintro _ _ _ ⟨⟩, ?_⟩
  rintro _ _ _ ⟨⟩
  exact h

theorem RuledIn.crashed {phase : Phase} {crash : Crash} (h : crash ∈ crashes) :
    RuledIn crashes book [] phase (Pure.pure (.error crash)) := by
  refine ⟨Enters.pure _, ?_, by rintro _ _ _ ⟨⟩⟩
  rintro _ _ _ ⟨⟩
  exact h

/-- Other code first. Of its results only those count that it can have. -/
theorem RuledIn.bind {phase : Phase} {first later : List L} {code : World σ α}
    {next : α → World σ (Except Crash (Phase × Verdict))} (hcode : Enters book first code)
    (henters : ∀ a, Enters book later (next a))
    (hnext : ∀ x w, RuledIn crashes book later phase (next (perform code x w).1.1)) :
    RuledIn crashes book (first ++ later) phase (code >>= next) :=
  ⟨hcode.bind henters, fun x w => (hnext x w).crash _ _, fun x w => (hnext x w).leads _ _⟩

/-- Other code first, with any result. -/
theorem RuledIn.bind_all {phase : Phase} {first later : List L} {code : World σ α}
    {next : α → World σ (Except Crash (Phase × Verdict))} (hcode : Enters book first code)
    (hnext : ∀ a, RuledIn crashes book later phase (next a)) :
    RuledIn crashes book (first ++ later) phase (code >>= next) :=
  RuledIn.bind hcode (fun a => (hnext a).enters) fun _ _ => hnext _

end SafeGenerator

namespace Generator

open SafeGenerator

variable {g : Generator (World σ)} {entries : List L} {signal : Signal (World σ)}

/-- A signal with a generator as it should be: it is in a phase, or its comparison has crashed in the
middle of a pull. -/
def Sound (crashes : Set Crash) (g : Generator (World σ)) (signal : Signal (World σ)) : Prop :=
  (∃ phase : Phase, phase.Describes g signal) ∨
    crashes.Nonempty ∧ Stuck g signal ∧
      (signal.current.controlState = .init → signal.current.output = .null)

theorem tame_isSame (hcompare : ∀ a b, Tame crashes book (g.compare a b)) (value last : Value) :
    Tame crashes book (g.rules.isSame value last).run := by
  have hsame : (g.rules.isSame value last).run = g.compare value last := by
    have hobeys := g.obeys_rules.compare value last
    rw [mapError_id, id_map] at hobeys
    exact hobeys.symm
  rw [hsame]
  exact hcompare value last

/-- Judging a value makes no entries. -/
theorem ruledIn_judge (hcompare : ∀ a b, Tame crashes book (g.compare a b)) {phase : Phase}
    (hopen : ∀ ending, phase ≠ .ended ending) (last? : Option Value) (value : Value) :
    RuledIn crashes book [] phase (g.rules.judge last? value).run := by
  have hleads : ∀ ruled : Phase × Verdict, ruled.1 ≠ .fresh → phase.Leads ruled :=
    fun ruled hleft => ⟨hleft, fun ending hended => absurd hended (hopen ending)⟩
  unfold SafeGenerator.judge
  split
  · exact RuledIn.pure (hleads _ (by rintro ⟨⟩))
  · cases last? with
    | none => exact RuledIn.pure (hleads _ (by rintro ⟨⟩))
    | some last =>
      have hsame := tame_isSame hcompare value last
      rw [ExceptT.run_bind]
      show RuledIn crashes book ([] ++ []) phase _
      refine RuledIn.bind hsame.enters (fun result => ?_) fun x w => ?_
      · rcases result with crash | _ | _
        · exact Enters.pure _
        · exact Enters.pure _
        · exact Enters.pure _
      · cases hresult : (perform (g.rules.isSame value last).run x w).1.1 with
        | error crash => exact RuledIn.crashed (hsame.crash x w crash hresult)
        | ok same =>
          cases same with
          | true => exact RuledIn.pure (hleads _ (by rintro ⟨⟩))
          | false => exact RuledIn.pure (hleads _ (by rintro ⟨⟩))

/-- The entries of a pull in a phase are those of the generator, unless the signal has ended. -/
theorem ruledIn_pull (hnext : Enters book entries g.next)
    (hcompare : ∀ a b, Tame crashes book (g.compare a b)) (phase : Phase) :
    RuledIn crashes book (match phase with | .ended _ => [] | .fresh | .running _ => entries) phase
      (g.rules.pull phase).run := by
  have hadvance : (∀ ending, phase ≠ .ended ending) → ∀ pull last?,
      RuledIn crashes book entries phase (g.rules.advance pull last?).run := by
    intro hopen pull last?
    have hended : ∀ ending, RuledIn crashes book [] phase
        (pure (.ok (.ended ending, .ended ending))) :=
      fun ending => RuledIn.pure ⟨by rintro ⟨⟩, fun other hother => absurd hother (hopen other)⟩
    rw [advance, ExceptT.run_bind, show g.rules.next = ExceptT.lift g.next from rfl,
      ExceptT.run_lift, bind_map_left, ← List.append_nil entries]
    refine RuledIn.bind_all hnext fun result => ?_
    rcases result with crash | cause | value
    · exact hended _
    · exact hended _
    · exact ruledIn_judge hcompare hopen last? value
  cases phase with
  | fresh => exact hadvance (by rintro _ ⟨⟩) .first none
  | running last => exact hadvance (by rintro _ ⟨⟩) .subsequent (some last)
  | ended ending =>
    refine RuledIn.pure ⟨by rintro ⟨⟩, ?_⟩
    rintro _ ⟨⟩
    rfl

/-- **A pull of a signal with a generator.** -/
theorem perform_pull (hnext : Enters book entries g.next)
    (hcompare : ∀ a b, Tame crashes book (g.compare a b)) (hsound : g.Sound crashes signal)
    (x : Exchange) (w : σ) :
    BasePull crashes book entries (fun signal _ => g.Sound crashes signal) (fun _ => True) signal x w
      (perform signal.pull x w) := by
  rcases hsound with ⟨phase, hdescribes⟩ | ⟨hcrashes, hstuck, hnull⟩
  · obtain ⟨hpulls, hexchange, hworld⟩ :=
      (coupled_pull_unless g.obeys_rules hdescribes).perform_both x w
    have hruled := ruledIn_pull hnext hcompare phase
    have hreceives : x.Receives (perform signal.pull x w).1.2 := by
      rw [hexchange]
      exact hruled.enters.receives x w
    have hbook := hruled.enters.book x w
    rw [← hworld] at hbook
    obtain ⟨s, -, hstands⟩ := hdescribes
    have hshows := hstands.shows
    have hentries : book (perform signal.pull x w).2 = book w ++
        if signal.current.controlState.isTerminal = true then [] else entries := by
      rw [hbook]
      cases phase with
      | fresh | running last =>
        rw [if_neg]
        rintro hterminal
        obtain ⟨_, hended⟩ := hshows.isTerminal.mp hterminal
        cases hended
      | ended ending => rw [if_pos (hshows.isTerminal.mpr ⟨ending, rfl⟩)]
    cases hresult : (perform (g.rules.pull phase).run x w).1.1 with
    | error crash =>
      rw [hresult] at hpulls
      obtain ⟨hcrash, hstuck, hcurrent⟩ := hpulls
      have hmem : crash ∈ crashes := hruled.crash x w crash hresult
      constructor
      case sound =>
        refine Or.inr ⟨⟨crash, hmem⟩, hstuck, ?_⟩
        rw [hcurrent]
        intro hinit
        obtain rfl := hshows.eq_fresh hinit
        exact congrArg Emission.output hshows
      case receives => exact fun mailbox _ => hreceives mailbox
      case continues =>
        rw [hcurrent]
        exact Emission.Continues.refl _
      case crash =>
        rintro other hother
        obtain rfl : crash = other := Option.some.inj (hcrash.symm.trans hother)
        exact ⟨hmem, hcurrent⟩
      case book => exact fun _ => hentries
    | ok ruled =>
      rw [hresult] at hpulls
      obtain ⟨hcrash, hdescribes', hcurrent, hsame⟩ := hpulls
      have hleads := hruled.leads x w ruled hresult
      obtain ⟨s', hsignal', hstands'⟩ := hdescribes'
      rw [hcurrent] at hstands'
      constructor
      case sound =>
        refine Or.inl ⟨ruled.1, s', hsignal', ?_⟩
        rw [hcurrent]
        exact hstands'
      case receives => exact fun mailbox _ => hreceives mailbox
      case continues =>
        rw [hcurrent]
        exact hleads.continues hshows hstands'.shows hsame
      case crash =>
        intro crash hother
        rw [hcrash] at hother
        cases hother
      case book => exact fun _ => hentries
  · obtain ⟨later, hpull, hstuck', hcurrent⟩ := hstuck.pull
    rw [hpull, perform_pure]
    constructor
    case sound =>
      refine Or.inr ⟨hcrashes, hstuck', ?_⟩
      rw [hcurrent]
      exact hnull
    case receives => exact fun mailbox _ => Exchange.Receives.refl x mailbox
    case continues =>
      rw [hcurrent]
      exact Emission.Continues.refl _
    case crash => rintro _ ⟨⟩
    case book => exact fun hnone => absurd hcrashes (Set.not_nonempty_iff_eq_empty.mpr hnone)

end Generator

/-! ### Signals with a source -/

/-- There is no output where there is nothing to show. -/
theorem SafeObserver.State.Stands.output_of_init {s : Standing} {current : Emission}
    {state : SafeObserver.State} (h : state.Stands s current)
    (hinit : current.controlState = .init) : current.output = .null := by
  cases h with
  | waiting _ _ _ _ _ hshown => rw [hshown]; rfl
  | running last _ _ _ _ _ _ hshown =>
    rcases hshown with rfl | rfl
    · cases hinit
    · cases hinit
  | failed cause _ _ _ hshown =>
    rw [hshown] at hinit
    cases hinit
  | completed _ _ hshown =>
    rw [hshown] at hinit
    cases hinit

namespace Observer

open SafeObserver

variable {o : Observer (World σ)} {mailbox : MailboxId} {signal : Signal (World σ)}

/-- A signal with a source, and its mailbox, as they should be: they are in a state, or the
comparison has crashed in the middle of a pull. -/
def Sound (crashes : Set Crash) (o : Observer (World σ)) (mailbox : MailboxId)
    (signal : Signal (World σ)) (x : Exchange) : Prop :=
  mailbox < x.mailboxes.length ∧
    ((∃ state : State, state.Describes o mailbox signal x) ∨
      crashes.Nonempty ∧ Stuck o mailbox signal ∧
        (signal.current.controlState = .init → signal.current.output = .null))

/-- **Writing is harmless.** -/
theorem Sound.receive {x x' : Exchange} (h : o.Sound crashes mailbox signal x)
    (hreceives : x.ReceivesAt x' mailbox) : o.Sound crashes mailbox signal x' := by
  obtain ⟨hmailbox, hsound⟩ := h
  obtain ⟨hmailbox', pushes, hpushes⟩ := hreceives hmailbox
  refine ⟨hmailbox', ?_⟩
  rcases hsound with ⟨state, s, subscription, hsignal, hstands, hslot, -⟩ | hstuck
  · refine Or.inl ⟨pushes.foldl State.write state, s, subscription, hsignal, ?_, ?_, hmailbox'⟩
    · exact List.foldlRecOn pushes State.write hstands fun _ hstands p _ => hstands.write p
    · rw [hpushes, hslot, State.slot_foldl_write]
  · exact Or.inr hstuck

/-- The comparison of an observer, if it has one, makes no entries. -/
def IsTame (crashes : Set Crash) (book : σ → List L) (o : Observer (World σ)) : Prop :=
  ∀ equals, o.equals = some equals → ∀ a b, Tame crashes book (equals a b)

/-- Looking whether a value is new makes no entries. -/
theorem IsTame.check (h : o.IsTame crashes book) (model : Value) (slot : Slot) :
    Tame crashes book (isNew.check model slot o) := by
  match slot with
  | .empty | .error _ | .completed | .value _ false => exact Tame.ok false
  | .value value true =>
    cases hequals : o.equals with
    | none =>
      rw [check_isNew_fresh (Or.inl hequals)]
      exact Tame.ok true
    | some equals =>
      have hcompare := h equals hequals value (field model "cache")
      simp only [isNew, hequals]
      split
      · refine ⟨?_, fun x w crash hcrash => ?_⟩
        · refine Enters.bind_nil hcompare.enters fun result => ?_
          cases result with
          | ok same => exact Enters.pure _
          | error crash => exact Enters.pure _
        · rw [perform_bind] at hcrash
          cases hresult : (perform (equals value (field model "cache")) x w).1.1 with
          | ok same =>
            rw [hresult] at hcrash
            cases hcrash
          | error before =>
            rw [hresult] at hcrash
            obtain rfl : before = crash := Except.error.inj hcrash
            exact hcompare.crash x w before hresult
      · exact Tame.ok true

/-- What a call of the automaton in a state comes to, where `before` was shown. -/
structure Settled (crashes : Set Crash) (book : σ → List L) (state : State) (before : Emission)
    (x : Exchange) (w : σ)
    (done : ((Standing × Except Halt (Option Emission)) × Exchange) × σ) : Prop where
  receives : x.Receives done.1.2
  book : book done.2 = book w
  result : (∃ ruled, Agrees done.1.2 state done.1 ruled ∧ before.Continues ruled.2.emission) ∨
    ∃ crash ∈ crashes, done.1.1.1.current = tempState ∧ done.1.1.2 = .error (.crashed crash)

/-- What is shown before an end: the last new value, if there is one. -/
def ShowsLast (last? : Option Value) (e : Emission) : Prop :=
  match last? with
  | none => e = .init
  | some last => e = .new last ∨ e = .same last

theorem continues_of_agrees {x : Exchange} {state : State} {before : Emission}
    {done : (Standing × Except Halt (Option Emission)) × Exchange} {ruled : State × Verdict}
    (h : Agrees x state done ruled) (hbefore : ShowsLast state.last? before)
    (habsent : ruled.2 = .absent → state.last? = none) :
    before.Continues ruled.2.emission := by
  refine ⟨fun hterminal => ?_, fun hinit => ?_, fun hstate => ?_⟩
  · exfalso
    cases hlast : state.last? with
    | none =>
      rw [hlast] at hbefore
      obtain rfl : before = .init := hbefore
      cases hterminal
    | some last =>
      rw [hlast] at hbefore
      rcases hbefore with rfl | rfl
      · cases hterminal
      · cases hterminal
  · rw [habsent (Verdict.eq_absent hinit)] at hbefore
    exact congrArg Emission.controlState hbefore
  · obtain ⟨last, hverdict⟩ := Verdict.eq_same hstate
    obtain ⟨hlast, -⟩ := h.same last hverdict
    rw [hlast] at hbefore
    rw [hverdict]
    rcases hbefore with rfl | rfl
    · rfl
    · rfl

/-- What needs no comparison. -/
theorem settled_pure {x : Exchange} {state : State} {before : Emission}
    {done : Standing × Except Halt (Option Emission)} {ruled : State × Verdict}
    (h : Agrees x state (done, x) ruled) (hbefore : before.Continues ruled.2.emission) (w : σ) :
    Settled crashes book state before x w ((done, x), w) :=
  ⟨Exchange.Receives.refl x, rfl, Or.inl ⟨ruled, h, hbefore⟩⟩

/-- Judging what was collected. -/
theorem settled_judge (htame : o.IsTame crashes book) {s : Standing} {state : State}
    {before : Emission} (htemp : s.current = tempState) (hmodel : s.model.isObject = true)
    (hprimed : isPrimed s.model = state.last?.isSome)
    (hcache : ∀ last, state.last? = some last → field s.model "cache" = last)
    (hunseen : state.last? = none → state.seen = false)
    (hwritten : state.written? = none → state.last? = none)
    (hbefore : ShowsLast state.last? before) (x : Exchange) (w : σ) :
    Settled crashes book state before x w (perform (judge o state.slot s) x w) := by
  obtain ⟨written?, seen, last?⟩ := state
  cases written? with
  | none =>
    obtain rfl : last? = none := hwritten rfl
    obtain rfl : seen = false := hunseen rfl
    have hagrees : Agrees x ⟨none, false, none⟩
        (((definition (World σ)).move s (.state initState) autoEvent 1 s.model,
          .ok (some .init)), x) (⟨none, false, none⟩, .absent) :=
      ⟨rfl, rfl, .waiting rfl hmodel hprimed rfl rfl rfl, rfl, by rintro _ ⟨⟩⟩
    exact settled_pure hagrees (continues_of_agrees hagrees hbefore fun _ => rfl) w
  | some push =>
    cases push with
    | error cause =>
      have hagrees : Agrees x ⟨some (.error cause), seen, last?⟩
          (((definition (World σ)).move s (.state errorState) autoEvent 1
            (assign [("error", .string (SignalFault.source cause).message)] s.model),
            .ok (some (.error (SignalFault.source cause).message))), x)
          (⟨some (.error cause), seen, last?⟩, .ended (.sourceFailed cause)) := by
        refine ⟨rfl, rfl, .failed cause rfl rfl ?_ rfl, rfl, by rintro _ ⟨⟩⟩
        show textField (assign _ s.model) "error" = _
        simp [textField, field_assign hmodel, Value.asString?]
      exact settled_pure hagrees (continues_of_agrees hagrees hbefore (by rintro ⟨⟩)) w
    | complete =>
      have hagrees : Agrees x ⟨some .complete, seen, last?⟩
          (((definition (World σ)).move s (.state doneState) autoEvent 1 s.model,
            .ok (some .done)), x) (⟨some .complete, seen, last?⟩, .ended .completed) :=
        ⟨rfl, rfl, .completed rfl rfl rfl, rfl, by rintro _ ⟨⟩⟩
      exact settled_pure hagrees (continues_of_agrees hagrees hbefore (by rintro ⟨⟩)) w
    | next value =>
      cases last? with
      | none =>
        obtain rfl : seen = false := hunseen rfl
        show Settled _ _ _ _ _ _ (perform (judge o (.value value true) s) x w)
        rw [judge, check_isNew_fresh (Or.inr hprimed), pure_bind]
        have hagrees := agrees_new (n := StateM σ) x hmodel value false none
        exact settled_pure hagrees (continues_of_agrees hagrees hbefore (by rintro ⟨⟩)) w
      | some last =>
        have hlast : field s.model "cache" = last := hcache last rfl
        cases seen with
        | true =>
          show Settled _ _ _ _ _ _ (perform (judge o (.value value false) s) x w)
          rw [judge, check_isNew_stale, pure_bind, hlast]
          have hagrees := agrees_same (n := StateM σ) x hmodel hprimed hlast value true
          exact settled_pure hagrees (continues_of_agrees hagrees hbefore (by rintro ⟨⟩)) w
        | false =>
          have hcheck := htame.check s.model (.value value true)
          show Settled _ _ _ _ _ _ (perform (judge o (.value value true) s) x w)
          rw [judge, perform_bind, hlast]
          have hreceives := hcheck.receives x w
          have hbook := hcheck.book_eq x w
          have hcrash := hcheck.crash x w
          revert hreceives hbook hcrash
          generalize perform (isNew.check s.model (.value value true) o) x w = checked
          obtain ⟨⟨result, x'⟩, w'⟩ := checked
          intro hreceives hbook hcrash
          rcases result with crash | _ | _
          · exact ⟨hreceives, hbook, Or.inr ⟨crash, hcrash crash rfl, htemp, rfl⟩⟩
          · have hagrees := agrees_same (n := StateM σ) x' hmodel hprimed hlast value false
            exact ⟨hreceives, hbook,
              Or.inl ⟨_, hagrees, continues_of_agrees hagrees hbefore (by rintro ⟨⟩)⟩⟩
          · have hagrees := agrees_new (n := StateM σ) x' hmodel value false (some last)
            exact ⟨hreceives, hbook,
              Or.inl ⟨_, hagrees, continues_of_agrees hagrees hbefore (by rintro ⟨⟩)⟩⟩

/-- **A call of the automaton.** -/
theorem settled_pull (htame : o.IsTame crashes book) {s : Standing} {current : Emission}
    {state : State} (h : state.Stands s current) (x : Exchange) (w : σ) :
    Settled crashes book state current x w
      (perform ((definition (World σ)).settle o state.slot 10000 0 pullEvent s) x w) := by
  cases h with
  | waiting hcurrent hmodel hprimed hseen hlast hshown =>
    have hhandler : (definition (World σ)).handler? s.current pullEvent
        = some (initState, [branch tempState none none]) := by
      rw [hcurrent]
      rfl
    rw [settle_pull hmodel hhandler]
    refine settled_judge (s := (definition (World σ)).move s (.state tempState) pullEvent 0 s.model)
      htame rfl hmodel ?_ ?_ (fun _ => hseen) (fun _ => hlast) ?_ x w
    · rw [hlast]
      exact hprimed
    · rw [hlast]
      rintro _ ⟨⟩
    · rw [hlast]
      exact hshown
  | running last hcurrent hmodel hprimed hcache hwritten hlast hshown =>
    have hhandler : (definition (World σ)).handler? s.current pullEvent
        = some (runningState, [branch tempState none none]) := by
      rcases hcurrent with hcurrent | hcurrent <;> rw [hcurrent] <;> rfl
    rw [settle_pull hmodel hhandler]
    refine settled_judge (s := (definition (World σ)).move s (.state tempState) pullEvent 0 s.model)
      htame rfl hmodel ?_ ?_ ?_ (fun hnone => absurd hnone hwritten) ?_ x w
    · rw [hlast]
      exact hprimed
    · rintro _ hsome
      rw [hlast] at hsome
      exact hcache.trans (Option.some.inj hsome)
    · intro hnone
      rw [hlast] at hnone
      cases hnone
    · rw [hlast]
      exact hshown
  | failed cause hcurrent hwritten htext hshown =>
    obtain ⟨written?, seen, last?⟩ := state
    obtain rfl : written? = some (.error cause) := hwritten
    have hagrees : Agrees x ⟨some (.error cause), seen, last?⟩
        (((definition (World σ)).move s (.state errorState) pullEvent 0 s.model,
          .ok (some (.error (SignalFault.source cause).message))), x)
        (⟨some (.error cause), seen, last?⟩, .ended (.sourceFailed cause)) :=
      ⟨rfl, rfl, .failed cause rfl rfl htext rfl, rfl, by rintro _ ⟨⟩⟩
    rw [settle_error hcurrent, htext, hshown]
    exact settled_pure hagrees (Emission.Continues.refl _) w
  | completed hcurrent hwritten hshown =>
    obtain ⟨written?, seen, last?⟩ := state
    obtain rfl : written? = some .complete := hwritten
    have hagrees : Agrees x ⟨some .complete, seen, last?⟩
        (((definition (World σ)).move s (.state doneState) pullEvent 0 s.model,
          .ok (some .done)), x) (⟨some .complete, seen, last?⟩, .ended .completed) :=
      ⟨rfl, rfl, .completed rfl rfl rfl, rfl, by rintro _ ⟨⟩⟩
    rw [settle_done hcurrent, hshown]
    exact settled_pure hagrees (Emission.Continues.refl _) w

/-- A pull looks into the mailbox and calls the automaton. -/
theorem perform_pull_eq (s : Standing) (subscription : Subscription (World σ)) (current : Emission)
    (x : Exchange) (w : σ) :
    perform (Signal.observed ((definition (World σ)).realize o s)
        (modifyGetThe Exchange fun x => x.collect mailbox) subscription current).pull x w
      = let settled := perform ((definition (World σ)).settle o (x.slot mailbox) 10000 0 pullEvent s)
          (x.collect mailbox).2 w
        let pulled (shown : Emission) : Signal (World σ) :=
          .observed ((definition (World σ)).realize o settled.1.1.1)
            (modifyGetThe Exchange fun x => x.collect mailbox) subscription shown
        match emissionOf current settled.1.1.2 with
        | .ok shown => (((pulled shown, none), settled.1.2), settled.2)
        | .error crash => (((pulled current, some crash), settled.1.2), settled.2) := by
  rw [Signal.pull, perform_bind]
  show perform (drive ((definition (World σ)).realize o s) (x.slot mailbox) current >>= _)
    (x.collect mailbox).2 w = _
  rw [definition, drive_realize problems_definition, bind_map_left, perform_bind]
  dsimp only
  generalize perform ((BaseSignal.definition transitions initialModel).settle o (x.slot mailbox)
    10000 0 pullEvent s) (x.collect mailbox).2 w = settled
  cases emissionOf current settled.1.1.2 with
  | ok shown => rfl
  | error crash => rfl

/-- **A pull of a signal with a source.** -/
theorem perform_pull (htame : o.IsTame crashes book) {x : Exchange}
    (hsound : o.Sound crashes mailbox signal x) (w : σ) :
    BasePull crashes book ([] : List L) (o.Sound crashes mailbox) (· ≠ mailbox) signal x w
      (perform signal.pull x w) := by
  obtain ⟨hmailbox, hstanding⟩ := hsound
  have hcollected : mailbox < (x.collect mailbox).2.mailboxes.length := by
    rw [Exchange.collect, List.length_modify]
    exact hmailbox
  have helsewhere : ∀ other, other ≠ mailbox → x.ReceivesAt (x.collect mailbox).2 other :=
    fun other hother => Exchange.Receives.collect x hother
  rcases hstanding with ⟨state, s, subscription, hsignal, hstands, hslot, -⟩ |
    ⟨hcrashes, hstuck, hnull⟩
  · have hsettled := settled_pull htame hstands (x.collect mailbox).2 w
    rw [hsignal, perform_pull_eq, hslot]
    revert hsettled
    generalize perform ((definition (World σ)).settle o state.slot 10000 0 pullEvent s)
      (x.collect mailbox).2 w = settled
    obtain ⟨⟨⟨s', result⟩, x'⟩, w'⟩ := settled
    rintro ⟨hreceives, hbook, hresult⟩
    have hbook' : book w' = book w ++ if signal.current.controlState.isTerminal = true
        then ([] : List L) else [] := by
      rw [ite_self, List.append_nil]
      exact hbook
    have hreceives' : ∀ other, other ≠ mailbox → x.ReceivesAt x' other :=
      fun other hother => (helsewhere other hother).trans (hreceives other)
    rcases hresult with ⟨ruled, hagrees, hcontinues⟩ | ⟨crash, hcrash, htemp, hresult⟩
    · obtain rfl : result = .ok (some ruled.2.emission) := hagrees.result
      -- The mailbox was looked into, and the comparison may have had it written into after that.
      have hafter : ruled.1.Describes o mailbox
          (.observed ((definition (World σ)).realize o s')
            (modifyGetThe Exchange fun x => x.collect mailbox) subscription ruled.2.emission)
          (x.collect mailbox).2 := by
        refine ⟨s', subscription, rfl, hagrees.stands, ?_, hcollected⟩
        rw [x.slot_collect, if_pos rfl, hslot, hagrees.slot]
      have hsound : o.Sound crashes mailbox _ (x.collect mailbox).2 :=
        ⟨hcollected, Or.inl ⟨ruled.1, hafter⟩⟩
      constructor
      case sound => exact hsound.receive (hreceives mailbox)
      case receives => exact hreceives'
      case continues => exact hcontinues
      case crash => rintro _ ⟨⟩
      case book => exact fun _ => hbook'
    · obtain rfl : result = .error (.crashed crash) := hresult
      constructor
      case sound =>
        refine ⟨(hreceives mailbox hcollected).1, Or.inr ⟨⟨crash, hcrash⟩, ?_, ?_⟩⟩
        · exact ⟨s', subscription, rfl, htemp⟩
        · exact hstands.output_of_init
      case receives => exact hreceives'
      case continues => exact Emission.Continues.refl _
      case crash =>
        rintro other ⟨⟩
        exact ⟨hcrash, rfl⟩
      case book => exact fun _ => hbook'
  · obtain ⟨later, hpull, hstuck', hcurrent⟩ := hstuck.pull x
    have hperform : perform signal.pull x w = (((later, none), (x.collect mailbox).2), w) := by
      rw [perform, hpull]
      rfl
    rw [hperform]
    constructor
    case sound =>
      refine ⟨hcollected, Or.inr ⟨hcrashes, hstuck', ?_⟩⟩
      rw [hcurrent]
      exact hnull
    case receives => exact helsewhere
    case continues =>
      rw [hcurrent]
      exact Emission.Continues.refl _
    case crash => rintro _ ⟨⟩
    case book => exact fun hnone => absurd hcrashes (Set.not_nonempty_iff_eq_empty.mpr hnone)

end Observer

end Reactive
