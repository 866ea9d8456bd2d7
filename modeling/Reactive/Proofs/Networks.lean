import Reactive.Proofs.Combination
import Reactive.Proofs.GeneratorPulls
import Reactive.Proofs.ObserverPulls

/-!
# Pulling is recomputing

A network of generators, sources, pure functions of one signal and pure functions of several is
built once and then pulled at its root, while sources write when they please. Pulls compute only
where something changed, and otherwise show what they showed before. The main result is that this is
never noticed: whatever the root shows as its value is the value that the network has when all
functions in it are computed anew.

Every signal of the network owns the mailboxes that were opened while it was built, an interval of
numbers. Pulling it is writing, at most, as far as other mailboxes are concerned, and writing is
harmless: this is what keeps the parts of the network apart.

## Main definitions

* `Network`, `Network.build`
* `Network.value` — the value recomputed from what the base signals show
* `Network.Coherent` — what the signals of a network remember is right
* `Network.Pulled` — what a pull does and tells
* `Network.Truthful` — what is shown is the value

## Main results

* `Network.coherent_build`, `coherent_pull` — coherence, at first and after a pull
* `Network.play_build` — pulling is recomputing
-/

namespace Reactive

/-- Code that can reach the exchange and the rest of the world, whose state is in `σ`. -/
abbrev World (σ : Type) : Type → Type := StateT Exchange (StateM σ)

/-- A tree of signals to be built. -/
inductive Network (σ : Type) where
  /-- The values of a generator. It and its comparison may write to sources. -/
  | generated (g : SafeGenerator (World σ)) (hnext : OnlyWrites g.next)
      (hequals : ∀ value last, OnlyWrites (g.isSame value last))
  /-- The values of a source. -/
  | observed (source : Source (World σ)) (hsource : source.OnlyWrites)
      (o : SafeObserver (StateM σ))
  /-- A function of one signal. -/
  | mapped (source : Network σ) (f : Value → Value)
  /-- A function of several signals, one at least. -/
  | combined (first : Network σ) (rest : List (Network σ)) (f : List Value → Value)

variable {σ : Type}

namespace Network

/-! ### Building and recomputing -/

mutual

/-- Builds the signals of a network, inputs first and in order. -/
def build : Network σ → World σ (Signal (World σ))
  | generated g _ _ => Signal.generate g.toGenerator
  | observed source _ o => Signal.observe source o.toObserver
  | mapped source f => do
    let below ← source.build
    pure (Signal.map below fun value => pure (.ok (f value)))
  | combined first rest f => do
    let signal ← first.build
    let signals ← buildAll rest
    pure (Signal.combine (fun values => pure (.ok (f values))) (signal :: signals))

/-- Builds several networks, in order. -/
def buildAll : List (Network σ) → World σ (List (Signal (World σ)))
  | [] => pure []
  | network :: rest => do
    let signal ← network.build
    let signals ← buildAll rest
    pure (signal :: signals)

end

/-- The value of a base signal is its output. Before there is one it has none. -/
def baseValue (current : Emission) : Option Value :=
  if current.controlState = .init then none else some current.output

mutual

/-- The value of a network, recomputed from what the base signals show now. It has none if it is a
function of a base signal that has none, through functions of one signal only. -/
def value : Network σ → Signal (World σ) → Option Value
  | generated _ _ _, signal | observed _ _ _, signal => baseValue signal.current
  | mapped source f, .mapped below _ _ _ => (source.value below).map f
  | combined first rest f, .combined (signal :: signals) _ _ _ =>
    some (joined f (first.value signal :: values rest signals))
  | _, _ => none

/-- The values of several networks, in order. -/
def values : List (Network σ) → List (Signal (World σ)) → List (Option Value)
  | network :: rest, signal :: signals => network.value signal :: values rest signals
  | _, _ => []

end

/-! ### Coherence -/

mutual

/-- The signals of a network, whose mailboxes are those from `low` up to `high`, are as they should
be: base signals are in a phase or a state, and what is remembered of the last computation is the
value for what is shown below, if a value is shown there. -/
def Coherent : Network σ → (low high : MailboxId) → Signal (World σ) → Exchange → Prop
  | generated g _ _, low, high, signal, _ => low ≤ high ∧ ∃ phase, g.Represents phase signal
  | observed _ _ o, low, high, signal, x =>
    ∃ mailbox state, low ≤ mailbox ∧ mailbox < high ∧ o.Represents mailbox state signal x
  | mapped source f, low, high, signal, x => ∃ below last current,
    signal = .mapped below (fun value => pure (.ok (f value))) last current ∧
      source.Coherent low high below x ∧
      ∀ value, below.current.value? = some value → last = f value ∧ current.value? = some last
  | combined first rest f, low, high, signal, x => ∃ below others last current middle,
    signal = .combined (below :: others) (fun values => pure (.ok (f values))) last current ∧
      first.Coherent low middle below x ∧ CoherentAll rest middle high others x ∧
      ∀ values : List Value,
        (below :: others).map (fun signal => signal.current.value?) = values.map some →
          last = joined f (values.map some) ∧ current.value? = some last

/-- The signals of several networks are as they should be. -/
def CoherentAll : List (Network σ) → (low high : MailboxId) → List (Signal (World σ)) → Exchange →
    Prop
  | [], low, high, signals, _ => signals = [] ∧ low ≤ high
  | network :: rest, low, high, signals, x => ∃ below others middle,
    signals = below :: others ∧ network.Coherent low middle below x ∧
      CoherentAll rest middle high others x

end

mutual

theorem low_le_high : ∀ (network : Network σ) {low high : MailboxId} {signal : Signal (World σ)}
    {x : Exchange}, network.Coherent low high signal x → low ≤ high
  | generated _ _ _, _, _, _, _, ⟨hle, _⟩ => hle
  | observed _ _ _, _, _, _, _, ⟨_, _, hlow, hhigh, _⟩ =>
    Nat.le_trans hlow (Nat.le_of_lt hhigh)
  | mapped source _, _, _, _, _, ⟨_, _, _, _, hsource, _⟩ => source.low_le_high hsource
  | combined first rest _, _, _, _, _, ⟨_, _, _, _, _, _, hfirst, hrest, _⟩ =>
    Nat.le_trans (first.low_le_high hfirst) (low_le_high_all rest hrest)

theorem low_le_high_all : ∀ (networks : List (Network σ)) {low high : MailboxId}
    {signals : List (Signal (World σ))} {x : Exchange},
    CoherentAll networks low high signals x → low ≤ high
  | [], _, _, _, _, ⟨_, hle⟩ => hle
  | network :: rest, _, _, _, _, ⟨_, _, _, _, hnetwork, hrest⟩ =>
    Nat.le_trans (network.low_le_high hnetwork) (low_le_high_all rest hrest)

end

mutual

/-- **Writing is harmless.** -/
theorem Coherent.receive : ∀ (network : Network σ) {low high : MailboxId}
    {signal : Signal (World σ)} {x x' : Exchange}, network.Coherent low high signal x →
    (∀ mailbox, low ≤ mailbox → mailbox < high → x.ReceivesAt x' mailbox) →
    network.Coherent low high signal x'
  | generated _ _ _, _, _, _, _, _, h, _ => h
  | observed _ _ o, _, _, _, _, _, h, hreceives => by
    obtain ⟨mailbox, state, hlow, hhigh, hrepresents⟩ := h
    obtain ⟨pushes, hrepresents'⟩ := hrepresents.receive (hreceives mailbox hlow hhigh)
    exact ⟨mailbox, _, hlow, hhigh, hrepresents'⟩
  | mapped source f, _, _, _, _, _, h, hreceives => by
    obtain ⟨below, last, current, hsignal, hsource, hlast⟩ := h
    have hsource' := Coherent.receive source hsource hreceives
    exact ⟨below, last, current, hsignal, hsource', hlast⟩
  | combined first rest _, low, high, _, _, x', h, hreceives => by
    obtain ⟨below, others, last, current, middle, hsignal, hfirst, hrest, hlast⟩ := h
    have hmiddle : low ≤ middle := first.low_le_high hfirst
    have hhigh : middle ≤ high := low_le_high_all rest hrest
    have hfirst' : first.Coherent low middle below x' := by
      refine Coherent.receive first hfirst ?_
      intro mailbox hlow hbelow
      exact hreceives mailbox hlow (Nat.lt_of_lt_of_le hbelow hhigh)
    have hrest' : CoherentAll rest middle high others x' := by
      refine CoherentAll.receive rest hrest ?_
      intro mailbox habove
      exact hreceives mailbox (Nat.le_trans hmiddle habove)
    exact ⟨below, others, last, current, middle, hsignal, hfirst', hrest', hlast⟩

theorem CoherentAll.receive : ∀ (networks : List (Network σ)) {low high : MailboxId}
    {signals : List (Signal (World σ))} {x x' : Exchange}, CoherentAll networks low high signals x →
    (∀ mailbox, low ≤ mailbox → mailbox < high → x.ReceivesAt x' mailbox) →
    CoherentAll networks low high signals x'
  | [], _, _, _, _, _, h, _ => h
  | network :: rest, low, high, _, _, x', h, hreceives => by
    obtain ⟨below, others, middle, hsignals, hnetwork, hrest⟩ := h
    have hmiddle : low ≤ middle := network.low_le_high hnetwork
    have hhigh : middle ≤ high := low_le_high_all rest hrest
    have hnetwork' : network.Coherent low middle below x' := by
      refine Coherent.receive network hnetwork ?_
      intro mailbox hlow hbelow
      exact hreceives mailbox hlow (Nat.lt_of_lt_of_le hbelow hhigh)
    have hrest' : CoherentAll rest middle high others x' := by
      refine CoherentAll.receive rest hrest ?_
      intro mailbox habove
      exact hreceives mailbox (Nat.le_trans hmiddle habove)
    exact ⟨below, others, middle, hsignals, hnetwork', hrest'⟩

end

/-! ### What a pull ensures -/

/-- What is ensured by a pull of a network. -/
structure Pulled (network : Network σ) (low high : MailboxId) (before : Signal (World σ))
    (x : Exchange) (done : (Signal (World σ) × Option Crash) × Exchange) : Prop where
  crash : done.1.2 = none
  coherent : network.Coherent low high done.1.1 done.2
  /-- To other mailboxes nothing happens but writing. -/
  elsewhere : ∀ mailbox, mailbox < low ∨ high ≤ mailbox → x.ReceivesAt done.2 mailbox
  value : done.1.1.current.controlState.isTerminal = false →
    network.value done.1.1 = done.1.1.current.value?
  /-- The same is shown only if it was shown before. -/
  repeats : done.1.1.current.controlState = .same →
    before.current.value? = done.1.1.current.value?

/-- What is ensured by pulls of several networks. -/
structure PulledAll (networks : List (Network σ)) (low high : MailboxId)
    (before : List (Signal (World σ))) (x : Exchange)
    (done : (List (Signal (World σ)) × Option Crash) × Exchange) : Prop where
  crash : done.1.2 = none
  coherent : CoherentAll networks low high done.1.1 done.2
  elsewhere : ∀ mailbox, mailbox < low ∨ high ≤ mailbox → x.ReceivesAt done.2 mailbox
  values : (∀ signal ∈ done.1.1, signal.current.controlState.isTerminal = false) →
    values networks done.1.1 = done.1.1.map fun signal => signal.current.value?
  repeats : (∀ signal ∈ done.1.1, signal.current.controlState = .same) →
    (before.map fun signal => signal.current.value?)
      = done.1.1.map fun signal => signal.current.value?

/-! ### Pulls of base signals -/

theorem baseValue_eq {e : Emission} (h : e.controlState.isTerminal = false) :
    baseValue e = e.value? := by
  obtain ⟨state, output⟩ := e
  cases state with
  | init | new | same => rfl
  | error | done => exact nomatch h

theorem onlyWrites_pull {g : SafeGenerator (World σ)} (hnext : OnlyWrites g.next)
    (hequals : ∀ value last, OnlyWrites (g.isSame value last)) (phase : SafeGenerator.Phase) :
    OnlyWrites (g.pull phase) := by
  have hadvance : ∀ pull last?, OnlyWrites (g.advance pull last?) := by
    intro pull last?
    refine hnext.bind fun result => ?_
    match result with
    | .ok (.ok value) =>
      show OnlyWrites (g.judge last? value)
      unfold SafeGenerator.judge
      split
      · exact OnlyWrites.pure _
      · cases last? with
        | none => exact OnlyWrites.pure _
        | some last =>
          refine (hequals value last).bind fun same => ?_
          split
          · exact OnlyWrites.pure _
          · exact OnlyWrites.pure _
    | .ok (.error cause) => exact OnlyWrites.pure _
    | .error crash => exact OnlyWrites.pure _
  cases phase with
  | fresh => exact hadvance .first none
  | running last => exact hadvance .subsequent (some last)
  | ended ending => exact OnlyWrites.pure _

theorem pulled_generated {g : SafeGenerator (World σ)} (hnext : OnlyWrites g.next)
    (hequals : ∀ value last, OnlyWrites (g.isSame value last)) {low high : MailboxId}
    {signal : Signal (World σ)} {x : Exchange}
    (h : (generated g hnext hequals).Coherent low high signal x) :
    SatisfiesM (Pulled (generated g hnext hequals) low high signal x) (signal.pull.run x) := by
  obtain ⟨hle, phase, hrepresents⟩ := h
  refine (Coupled.satisfiesM ((g.coupled_pull hrepresents).run x)
    (onlyWrites_pull hnext hequals phase x)).imp fun {done} hdone => ?_
  obtain ⟨⟨signal', crash?⟩, x'⟩ := done
  obtain ⟨⟨⟨phase', verdict⟩, x''⟩, ⟨hagrees, hexchange⟩, hreceives⟩ := hdone
  obtain ⟨hcrash, hrepresents', hshown, hsame⟩ := hagrees
  obtain rfl : x' = x'' := hexchange
  constructor
  case crash => exact hcrash
  case coherent => exact ⟨hle, phase', hrepresents'⟩
  case elsewhere => exact fun mailbox _ => hreceives mailbox
  case value => exact baseValue_eq
  case repeats =>
    intro hstate
    rw [show signal'.current = verdict.emission from hshown] at hstate ⊢
    obtain ⟨last, rfl⟩ := Verdict.eq_same hstate
    obtain rfl : phase = .running last := hsame last rfl
    obtain ⟨s, -, -, -, -, -, hlast⟩ := hrepresents
    rcases hlast with hlast | hlast <;> rw [hlast] <;> rfl

theorem pulled_observed {source : Source (World σ)} (hsource : source.OnlyWrites)
    {o : SafeObserver (StateM σ)} {low high : MailboxId} {signal : Signal (World σ)} {x : Exchange}
    (h : (observed source hsource o).Coherent low high signal x) :
    SatisfiesM (Pulled (observed source hsource o) low high signal x) (signal.pull.run x) := by
  obtain ⟨mailbox, state, hlow, hhigh, hrepresents⟩ := h
  refine ((o.coupled_pull hrepresents).satisfiesM .trivial).imp fun {done} hdone => ?_
  obtain ⟨⟨signal', crash?⟩, x'⟩ := done
  obtain ⟨⟨state', verdict⟩, hpulls, -⟩ := hdone
  refine ⟨hpulls.crash, ⟨mailbox, state', hlow, hhigh, hpulls.represents⟩, ?_, baseValue_eq, ?_⟩
  · intro other houtside
    rw [show x' = (x.collect mailbox).2 from hpulls.exchange]
    refine Exchange.Receives.collect x ?_
    rintro rfl
    rcases houtside with hbelow | habove
    · exact Nat.not_lt.mpr hlow hbelow
    · exact Nat.not_lt.mpr habove hhigh
  · intro hstate
    have hshown : signal'.current = verdict.emission := hpulls.shown
    rw [hshown] at hstate ⊢
    obtain ⟨last, rfl⟩ := Verdict.eq_same hstate
    obtain ⟨hlast, value, hwritten⟩ := hpulls.same last rfl
    obtain ⟨s, _, _, hstands, -, -⟩ := hrepresents
    rcases hstands.shows_last hlast hwritten with hlast | hlast <;> rw [hlast] <;> rfl

/-! ### Pulls of functions -/

/-- A pull of a pure function of a signal, after a pull of the signal. -/
theorem run_pull_mapped (f : Value → Value) (below : Signal (World σ)) (last : Value)
    (current : Emission) (x : Exchange) :
    (Signal.mapped below (fun value => pure (.ok (f value))) last current).pull.run x
      = below.pull.run x >>= fun done =>
          match done.1.2 with
          | some crash =>
            pure ((.mapped done.1.1 (fun value => pure (.ok (f value))) last current, some crash),
              done.2)
          | none =>
            let shown : Value × Emission := match done.1.1.current.controlState with
              | .new => (f done.1.1.current.output, .new (f done.1.1.current.output))
              | .same => (last, .same last)
              | .init | .error | .done => (last, done.1.1.current)
            pure ((.mapped done.1.1 (fun value => pure (.ok (f value))) shown.1 shown.2, none),
              done.2) := by
  rw [Signal.pull, StateT.run_bind]
  refine bind_congr fun done => ?_
  obtain ⟨⟨below', crash?⟩, x'⟩ := done
  cases crash? with
  | some crash => rfl
  | none =>
    cases hstate : below'.current.controlState <;> simp [Signal.mapStep, hstate]

theorem pulled_mapped {source : Network σ} {f : Value → Value} {low high : MailboxId}
    {below : Signal (World σ)} {last : Value} {current : Emission} {x : Exchange}
    (hpulled : SatisfiesM (Pulled source low high below x) (below.pull.run x))
    (hlast : ∀ value, below.current.value? = some value →
      last = f value ∧ current.value? = some last) :
    SatisfiesM (Pulled (mapped source f) low high
        (.mapped below (fun value => pure (.ok (f value))) last current) x)
      ((Signal.mapped below (fun value => pure (.ok (f value))) last current).pull.run x) := by
  rw [run_pull_mapped]
  refine hpulled.bind ?_
  rintro ⟨⟨below', crash?⟩, x'⟩ ⟨hcrash, hcoherent, helsewhere, hvalue, hrepeats⟩
  obtain rfl : crash? = none := hcrash
  have hmapped : below'.current.controlState.isTerminal = false →
      (source.value below').map f = below'.current.value?.map f := fun h => by rw [hvalue h]
  cases hstate : below'.current.controlState with
  | new =>
    have hshown : below'.current.value? = some below'.current.output := by
      simp [Emission.value?, hstate]
    rw [hstate, hshown] at hmapped
    refine SatisfiesM.pure ?_
    constructor
    case crash => rfl
    case coherent =>
      refine ⟨below', _, _, rfl, hcoherent, fun value hsome => ?_⟩
      rw [hshown] at hsome
      exact ⟨congrArg f (Option.some.inj hsome), rfl⟩
    case elsewhere => exact helsewhere
    case value => exact hmapped
    case repeats => rintro ⟨⟩
  | same =>
    have hshown : below'.current.value? = some below'.current.output := by
      simp [Emission.value?, hstate]
    obtain ⟨hcomputed, hcurrent⟩ := hlast _ ((hrepeats hstate).trans hshown)
    rw [hstate, hshown] at hmapped
    refine SatisfiesM.pure ?_
    constructor
    case crash => rfl
    case coherent =>
      refine ⟨below', _, _, rfl, hcoherent, fun value hsome => ?_⟩
      rw [hshown] at hsome
      exact ⟨hcomputed.trans (congrArg f (Option.some.inj hsome)), rfl⟩
    case elsewhere => exact helsewhere
    case value =>
      intro hrunning
      exact (hmapped hrunning).trans (congrArg some hcomputed.symm)
    case repeats => exact fun _ => hcurrent
  | init | error | done =>
    have hshown : below'.current.value? = none := by simp [Emission.value?, hstate]
    refine SatisfiesM.pure ⟨rfl, ⟨below', _, _, rfl, hcoherent, ?_⟩, helsewhere, ?_, ?_⟩
    · intro value hsome
      rw [hshown] at hsome
      cases hsome
    · intro hrunning
      exact (hmapped hrunning).trans (by rw [hshown]; exact hshown.symm)
    · intro hsame
      rw [show below'.current.controlState = .same from hsame] at hstate
      cases hstate

/-- Pulls of several signals, the first of them in front. -/
theorem pulledAll_cons {network : Network σ} {rest : List (Network σ)}
    {low middle high : MailboxId} {below : Signal (World σ)} {others : List (Signal (World σ))}
    {x : Exchange} (hfirst : SatisfiesM (Pulled network low middle below x) (below.pull.run x))
    (hrest : ∀ x', CoherentAll rest middle high others x' →
      SatisfiesM (PulledAll rest middle high others x') ((Signal.pullAll others).run x'))
    (hcoherent : CoherentAll rest middle high others x) (hlow : low ≤ middle) :
    SatisfiesM (PulledAll (network :: rest) low high (below :: others) x)
      ((Signal.pullAll (below :: others)).run x) := by
  rw [Signal.pullAll, StateT.run_bind]
  refine hfirst.bind ?_
  rintro ⟨⟨below', crash?⟩, x'⟩ ⟨hcrash, hbelow, hbelsewhere, hbvalue, hbrepeats⟩
  obtain rfl : crash? = none := hcrash
  -- The mailboxes of the others only received something.
  have hcoherent' : CoherentAll rest middle high others x' :=
    CoherentAll.receive rest hcoherent fun mailbox hmiddle _ => hbelsewhere mailbox (.inr hmiddle)
  have hhigh : middle ≤ high := low_le_high_all rest hcoherent
  dsimp only
  rw [StateT.run_bind]
  refine (hrest x' hcoherent').bind ?_
  rintro ⟨⟨others', crash?⟩, x''⟩ ⟨hcrash, hothers, hoelsewhere, hovalues, horepeats⟩
  obtain rfl : crash? = none := hcrash
  have hbelow' : network.Coherent low middle below' x'' :=
    Coherent.receive network hbelow fun mailbox _ hmiddle => hoelsewhere mailbox (.inl hmiddle)
  refine SatisfiesM.pure ⟨rfl, ⟨below', others', middle, rfl, hbelow', hothers⟩, ?_, ?_, ?_⟩
  · intro mailbox houtside
    refine (hbelsewhere mailbox ?_).trans (hoelsewhere mailbox ?_)
    · exact houtside.imp_right (Nat.le_trans hhigh)
    · exact houtside.imp_left fun hmailbox => Nat.lt_of_lt_of_le hmailbox hlow
  · intro hrunning
    obtain ⟨hfirst, hrest⟩ := List.forall_mem_cons.mp hrunning
    exact congrArg₂ List.cons (hbvalue hfirst) (hovalues hrest)
  · intro hsame
    obtain ⟨hfirst, hrest⟩ := List.forall_mem_cons.mp hsame
    exact congrArg₂ List.cons (hbrepeats hfirst) (horepeats hrest)

/-- A pull of a pure function of several signals, after pulls of the signals. -/
theorem run_pull_combined (f : List Value → Value) (inputs : List (Signal (World σ))) (last : Value)
    (current : Emission) (x : Exchange) :
    (Signal.combined inputs (fun values => pure (.ok (f values))) last current).pull.run x
      = (Signal.pullAll inputs).run x >>= fun done =>
          match done.1.2 with
          | some crash =>
            pure ((.combined done.1.1 (fun values => pure (.ok (f values))) last current,
              some crash), done.2)
          | none =>
            let shown : Value × Emission := match Combination.of (done.1.1.map Signal.current) with
              | .failed message => (last, .error message)
              | .finished => (last, .done)
              | .absent => (.null, .new .null)
              | .unchanged => (last, .same last)
              | .changed outputs => (f outputs, .new (f outputs))
            pure ((.combined done.1.1 (fun values => pure (.ok (f values))) shown.1 shown.2, none),
              done.2) := by
  rw [Signal.pull_combined, StateT.run_bind]
  refine bind_congr fun done => ?_
  obtain ⟨⟨inputs', crash?⟩, x'⟩ := done
  cases crash? with
  | some crash => rfl
  | none =>
    dsimp only
    cases Combination.of (inputs'.map Signal.current) <;> rfl

/-- Inputs of which one has come to its end do not all show values. -/
theorem map_value?_ne {signals : List (Signal (World σ))}
    (hend : ∃ e ∈ signals.map Signal.current, e.controlState.isTerminal = true)
    (values : List Value) :
    signals.map (fun signal => signal.current.value?) ≠ values.map some := by
  intro hvalues
  obtain ⟨e, he, hterminal⟩ := hend
  obtain ⟨signal, hsignal, rfl⟩ := List.mem_map.mp he
  have hmem : signal.current.value? ∈ values.map some := by
    rw [← hvalues]
    exact List.mem_map_of_mem (f := fun signal => signal.current.value?) hsignal
  obtain ⟨value, -, hvalue⟩ := List.mem_map.mp hmem
  cases hstate : signal.current.controlState with
  | init | new | same =>
    rw [hstate] at hterminal
    cases hterminal
  | error | done =>
    rw [Emission.value?, hstate] at hvalue
    cases hvalue

section Combined

variable {first : Network σ} {rest : List (Network σ)} {f : List Value → Value}
  {low high : MailboxId} {before : Signal (World σ)} {inputs : List (Signal (World σ))}
  {x x' : Exchange}

/-- A function of several signals has come to an end with one of them. -/
theorem pulled_combined_ended (hcoherent : CoherentAll (first :: rest) low high inputs x')
    (helsewhere : ∀ mailbox, mailbox < low ∨ high ≤ mailbox → x.ReceivesAt x' mailbox)
    (hend : ∃ e ∈ inputs.map Signal.current, e.controlState.isTerminal = true) {last : Value}
    {current : Emission} (hcurrent : current.controlState.isTerminal = true) :
    Pulled (combined first rest f) low high before x
      ((.combined inputs (fun values => pure (.ok (f values))) last current, none), x') := by
  obtain ⟨below, others, middle, rfl, hfirst, hrest⟩ := hcoherent
  constructor
  case crash => rfl
  case coherent =>
    refine ⟨below, others, last, current, middle, rfl, hfirst, hrest, fun values hvalues => ?_⟩
    exact absurd hvalues (map_value?_ne hend values)
  case elsewhere => exact helsewhere
  case value =>
    intro hrunning
    exact absurd hcurrent (ne_true_of_eq_false hrunning)
  case repeats =>
    intro hsame
    rw [show current.controlState = .same from hsame] at hcurrent
    exact nomatch hcurrent

/-- A function of several signals shows what it comes to. -/
theorem pulled_combined_shown (hcoherent : CoherentAll (first :: rest) low high inputs x')
    (helsewhere : ∀ mailbox, mailbox < low ∨ high ≤ mailbox → x.ReceivesAt x' mailbox)
    (hvalues : values (first :: rest) inputs = inputs.map fun signal => signal.current.value?)
    {last : Value} {current : Emission}
    (hlast : last = joined f (inputs.map fun signal => signal.current.value?))
    (hcurrent : current.value? = some last)
    (hrepeats : current.controlState = .same → before.current.value? = some last) :
    Pulled (combined first rest f) low high before x
      ((.combined inputs (fun values => pure (.ok (f values))) last current, none), x') := by
  obtain ⟨below, others, middle, rfl, hfirst, hrest⟩ := hcoherent
  constructor
  case crash => rfl
  case coherent =>
    refine ⟨below, others, last, current, middle, rfl, hfirst, hrest, fun outputs houtputs => ?_⟩
    rw [← houtputs]
    exact ⟨hlast, hcurrent⟩
  case elsewhere => exact helsewhere
  case value =>
    intro _
    show some (joined f (values (first :: rest) (below :: others))) = current.value?
    rw [hvalues, ← hlast, hcurrent]
  case repeats =>
    intro hsame
    exact (hrepeats hsame).trans hcurrent.symm

end Combined

theorem pulled_combined {first : Network σ} {rest : List (Network σ)} {f : List Value → Value}
    {low high : MailboxId} {inputs : List (Signal (World σ))} {last : Value} {current : Emission}
    {x : Exchange}
    (hpulled : SatisfiesM (PulledAll (first :: rest) low high inputs x)
      ((Signal.pullAll inputs).run x))
    (hlast : ∀ values : List Value,
      inputs.map (fun signal => signal.current.value?) = values.map some →
        last = joined f (values.map some) ∧ current.value? = some last) :
    SatisfiesM (Pulled (combined first rest f) low high
        (.combined inputs (fun values => pure (.ok (f values))) last current) x)
      ((Signal.combined inputs (fun values => pure (.ok (f values))) last current).pull.run x) := by
  rw [run_pull_combined]
  refine hpulled.bind ?_
  rintro ⟨⟨inputs', crash?⟩, x'⟩ ⟨hcrash, hcoherent, helsewhere, hvalues, hrepeats⟩
  obtain rfl : crash? = none := hcrash
  have hmap : (inputs'.map Signal.current).map Emission.value?
      = inputs'.map fun signal => signal.current.value? := List.map_map
  have hall : ∀ {p : Emission → Prop}, (∀ e ∈ inputs'.map Signal.current, p e) →
      ∀ signal ∈ inputs', p signal.current := fun h _ hsignal => h _ (List.mem_map_of_mem hsignal)
  dsimp only
  have haccounts := Combination.accounts_of (inputs'.map Signal.current)
  cases hof : Combination.of (inputs'.map Signal.current) with
  | failed message =>
    rw [hof] at haccounts
    obtain ⟨_, e, he, hstate⟩ := haccounts
    have hend : ∃ e ∈ inputs'.map Signal.current, e.controlState.isTerminal = true :=
      ⟨e, he, by rw [hstate]; rfl⟩
    exact SatisfiesM.pure (pulled_combined_ended hcoherent helsewhere hend rfl)
  | finished =>
    rw [hof] at haccounts
    cases haccounts with | finished hfinished =>
    obtain ⟨e, he, hstate⟩ := hfinished
    have hend : ∃ e ∈ inputs'.map Signal.current, e.controlState.isTerminal = true :=
      ⟨e, he, by rw [hstate]; rfl⟩
    exact SatisfiesM.pure (pulled_combined_ended hcoherent helsewhere hend rfl)
  | absent =>
    rw [hof] at haccounts
    cases haccounts with | absent hrunning habsent =>
    refine SatisfiesM.pure
      (pulled_combined_shown hcoherent helsewhere (hvalues (hall hrunning)) ?_ rfl nofun)
    rw [← hmap, joined_eq_null f habsent]
  | unchanged =>
    rw [hof] at haccounts
    cases haccounts with | unchanged hpresent hsame =>
    have hrunning : ∀ e ∈ inputs'.map Signal.current, e.controlState.isTerminal = false := by
      intro e he
      rw [hsame e he]
      rfl
    obtain ⟨hshown, hnull⟩ := Emission.values_eq_of_present hrunning hpresent
    rw [hmap] at hshown
    -- What is shown below was also shown before, so the result from before is the one.
    obtain ⟨hcomputed, hcurrent⟩ := hlast _ ((hrepeats (hall hsame)).trans hshown)
    refine SatisfiesM.pure
      (pulled_combined_shown hcoherent helsewhere (hvalues (hall hrunning)) ?_ rfl fun _ => hcurrent)
    rw [hshown, hcomputed]
  | changed outputs =>
    rw [hof] at haccounts
    cases haccounts with | changed hrunning hpresent =>
    obtain ⟨hshown, hnull⟩ := Emission.values_eq_of_present hrunning hpresent
    rw [hmap] at hshown
    refine SatisfiesM.pure
      (pulled_combined_shown hcoherent helsewhere (hvalues (hall hrunning)) ?_ rfl nofun)
    rw [hshown, joined_map_some f hnull]

mutual

/-- **A pull leaves everything coherent, and it tells the truth.** -/
theorem coherent_pull : ∀ (network : Network σ) {low high : MailboxId} {signal : Signal (World σ)}
    {x : Exchange}, network.Coherent low high signal x →
    SatisfiesM (Pulled network low high signal x) (signal.pull.run x)
  | generated _ hnext hequals, _, _, _, _, h => pulled_generated hnext hequals h
  | observed _ hsource _, _, _, _, _, h => pulled_observed hsource h
  | mapped source _, _, _, _, _, ⟨_, _, _, hsignal, hsource, hlast⟩ => by
    rw [hsignal]
    exact pulled_mapped (coherent_pull source hsource) hlast
  | combined first rest _, _, _, _, _, ⟨_, _, _, _, _, hsignal, hfirst, hrest, hlast⟩ => by
    rw [hsignal]
    exact pulled_combined (pulledAll_cons (coherent_pull first hfirst)
      (fun _ => coherent_pullAll rest) hrest (first.low_le_high hfirst)) hlast

theorem coherent_pullAll : ∀ (networks : List (Network σ)) {low high : MailboxId}
    {signals : List (Signal (World σ))} {x : Exchange}, CoherentAll networks low high signals x →
    SatisfiesM (PulledAll networks low high signals x) ((Signal.pullAll signals).run x)
  | [], _, _, _, _, ⟨hsignals, hle⟩ => by
    rw [hsignals]
    exact SatisfiesM.pure ⟨rfl, ⟨rfl, hle⟩, fun mailbox _ => Exchange.Receives.refl _ mailbox,
      fun _ => rfl, fun _ => rfl⟩
  | network :: rest, _, _, _, _, ⟨_, _, _, hsignals, hnetwork, hrest⟩ => by
    rw [hsignals]
    exact pulledAll_cons (coherent_pull network hnetwork) (fun _ => coherent_pullAll rest) hrest
      (network.low_le_high hnetwork)

end

/-! ### New networks -/

/-- What is ensured of a network that is built. -/
structure Built (network : Network σ) (x : Exchange) (done : Signal (World σ) × Exchange) :
    Prop where
  coherent : network.Coherent x.mailboxes.length done.2.mailboxes.length done.1 done.2
  receives : x.Receives done.2
  value : done.1.current.value? = none

/-- What is ensured of several networks that are built. -/
structure BuiltAll (networks : List (Network σ)) (x : Exchange)
    (done : List (Signal (World σ)) × Exchange) : Prop where
  coherent : CoherentAll networks x.mailboxes.length done.2.mailboxes.length done.1 done.2
  receives : x.Receives done.2

theorem built_observed {source : Source (World σ)} (hsource : source.OnlyWrites)
    (o : SafeObserver (StateM σ)) (x : Exchange) :
    SatisfiesM (Built (observed source hsource o) x) ((observed source hsource o).build.run x) := by
  rw [build, o.run_observe]
  refine (hsource x.mailboxes.length x.openMailbox.2).map fun {subscribed} hsubscribed => ?_
  obtain ⟨_, _, _, _, _, hmailbox⟩ := o.represents_newSignal hsubscribed subscribed.1
  exact ⟨⟨_, _, Nat.le_refl _, hmailbox, o.represents_newSignal hsubscribed subscribed.1⟩,
    (Exchange.Receives.openMailbox x).trans hsubscribed, rfl⟩

mutual

/-- **What is built is coherent.** -/
theorem coherent_build : ∀ (network : Network σ) (x : Exchange),
    SatisfiesM (Built network x) (network.build.run x)
  | generated g _ _, x => by
    obtain ⟨signal, hgenerate, hrepresents, hinit⟩ := g.generate_toGenerator
    rw [build, hgenerate]
    exact SatisfiesM.pure ⟨⟨Nat.le_refl _, .fresh, hrepresents⟩, Exchange.Receives.refl x,
      by rw [hinit]; rfl⟩
  | observed _ hsource o, x => built_observed hsource o x
  | mapped source f, x => by
    rw [build, StateT.run_bind]
    refine (coherent_build source x).bind ?_
    rintro ⟨below, x'⟩ ⟨hcoherent, hreceives, hnone⟩
    refine SatisfiesM.pure ⟨⟨below, .null, .init, rfl, hcoherent, ?_⟩, hreceives, rfl⟩
    intro value hvalue
    rw [show below.current.value? = none from hnone] at hvalue
    exact nomatch hvalue
  | combined first rest f, x => by
    rw [build, StateT.run_bind]
    refine (coherent_build first x).bind ?_
    rintro ⟨below, x'⟩ ⟨hfirst, hreceives, hnone⟩
    dsimp only
    rw [StateT.run_bind]
    refine (coherent_buildAll rest x').bind ?_
    rintro ⟨others, x''⟩ ⟨hrest, hreceives'⟩
    have hfirst' := Coherent.receive first hfirst fun mailbox _ _ => hreceives' mailbox
    refine SatisfiesM.pure ⟨⟨below, others, .null, .init, _, rfl, hfirst', hrest, ?_⟩,
      hreceives.trans hreceives', rfl⟩
    intro values hvalues
    rw [List.map_cons, show below.current.value? = none from hnone] at hvalues
    cases values with
    | nil => exact nomatch hvalues
    | cons value later => exact nomatch (List.cons.inj hvalues).1

theorem coherent_buildAll : ∀ (networks : List (Network σ)) (x : Exchange),
    SatisfiesM (BuiltAll networks x) ((buildAll networks).run x)
  | [], x => SatisfiesM.pure ⟨⟨rfl, Nat.le_refl _⟩, Exchange.Receives.refl x⟩
  | network :: rest, x => by
    rw [buildAll, StateT.run_bind]
    refine (coherent_build network x).bind ?_
    rintro ⟨below, x'⟩ ⟨hfirst, hreceives, -⟩
    dsimp only
    rw [StateT.run_bind]
    refine (coherent_buildAll rest x').bind ?_
    rintro ⟨others, x''⟩ ⟨hrest, hreceives'⟩
    have hfirst' := Coherent.receive network hfirst fun mailbox _ _ => hreceives' mailbox
    exact SatisfiesM.pure ⟨⟨below, others, _, rfl, hfirst', hrest⟩, hreceives.trans hreceives'⟩

end

/-! ### Runs -/

/-- What a network shows as its value is its value, and if it shows none yet it has none. -/
def Truthful (network : Network σ) (signal : Signal (World σ)) : Prop :=
  (signal.current.controlState = .new ∨ signal.current.controlState = .same →
    network.value signal = some signal.current.output) ∧
  (signal.current.controlState = .init → network.value signal = none)

theorem Pulled.truthful {network : Network σ} {low high : MailboxId} {before : Signal (World σ)}
    {x : Exchange} {done : (Signal (World σ) × Option Crash) × Exchange}
    (h : Pulled network low high before x done) : network.Truthful done.1.1 := by
  have hvalue := h.value
  constructor
  · rintro (hstate | hstate)
    · rw [hstate] at hvalue
      rw [hvalue rfl, Emission.value?, hstate]
    · rw [hstate] at hvalue
      rw [hvalue rfl, Emission.value?, hstate]
  · intro hstate
    rw [hstate] at hvalue
    rw [hvalue rfl, Emission.value?, hstate]

/-- Turns of a coherent network. The induction is on the turns. -/
theorem play_coherent (network : Network σ) {turns : List (Turn (World σ))}
    (hturns : ∀ action, Turn.act action ∈ turns → OnlyWrites action) {low high : MailboxId}
    {signal : Signal (World σ)} {x : Exchange} (h : network.Coherent low high signal x) :
    SatisfiesM (fun done => ∀ pulled ∈ done.1, pulled.2 = none ∧ network.Truthful pulled.1)
      ((signal.play turns).run x) := by
  induction turns generalizing signal x with
  | nil => exact SatisfiesM.pure nofun
  | cons turn rest ih =>
    have hrest : ∀ action, Turn.act action ∈ rest → OnlyWrites action :=
      fun action hmem => hturns action (List.mem_cons_of_mem _ hmem)
    cases turn with
    | act action =>
      rw [Signal.play, StateT.run_bind]
      refine (hturns action List.mem_cons_self x).bind fun done hreceives => ?_
      exact ih hrest (Coherent.receive network h fun mailbox _ _ => hreceives mailbox)
    | pull =>
      rw [Signal.play, StateT.run_bind]
      refine (coherent_pull network h).bind fun done hdone => ?_
      rw [StateT.run_bind]
      refine (ih hrest hdone.coherent).bind fun later hlater => SatisfiesM.pure ?_
      exact List.forall_mem_cons.mpr ⟨⟨hdone.crash, hdone.truthful⟩, hlater⟩

/-- **Pulling is recomputing.** A network is built and then pulled at its root, and between pulls
anything happens that does nothing to mailboxes but writing. No pull crashes, and whatever the root
shows as its value, be it new or the same as before, is the value recomputed from what the base
signals show. -/
theorem play_build (network : Network σ) {turns : List (Turn (World σ))}
    (hturns : ∀ action, Turn.act action ∈ turns → OnlyWrites action) (x : Exchange) (w : σ) :
    ∀ done ∈ (((network.build >>= fun signal => signal.play turns).run x).run w).1.1,
      done.2 = none ∧ network.Truthful done.1 := by
  have hplay : SatisfiesM
      (fun done => ∀ pulled ∈ done.1, pulled.2 = none ∧ network.Truthful pulled.1)
      ((network.build >>= fun signal => signal.play turns).run x) := by
    rw [StateT.run_bind]
    refine (coherent_build network x).bind fun _ hbuilt => ?_
    exact network.play_coherent hturns hbuilt.coherent
  exact satisfiesM_iff_run.mp hplay w

/-- Gives zero, one, one, two, two and so on. It counts its calls. -/
def halves : SafeGenerator (World Nat) where
  next := StateT.lift do
    let calls ← get
    set (calls + 1)
    pure (.ok (.ok (.nat ((calls + 1) / 2))))

/-- A generator, and a source whose values are wrapped. -/
def paired : Network Nat :=
  .combined (.generated halves (OnlyWrites.lift _) fun _ _ => OnlyWrites.pure _)
    [.mapped (.observed (.ofSubject 0) (Source.onlyWrites_ofSubject 0) {}) fun value =>
      .array [value]] .array

/-- Pulls with a push to a subject among them. -/
def pushedOnce : List (Turn (World Nat)) :=
  [.pull, .pull, .act (modifyThe Exchange fun x => x.push 0 (.next (.nat 5))), .pull, .pull, .pull]

theorem onlyWrites_pushedOnce : ∀ action, Turn.act action ∈ pushedOnce → OnlyWrites action := by
  intro action haction
  obtain rfl : action = modifyThe Exchange fun x => x.push 0 (.next (.nat 5)) := by
    simpa [pushedOnce] using haction
  exact OnlyWrites.modifyGet fun x => Exchange.Receives.push x 0 _

theorem play_build_paired :
    (∀ action, Turn.act action ∈ pushedOnce → OnlyWrites action) ∧
      (∀ done ∈ (((paired.build >>= fun signal => signal.play pushedOnce).run
          SafeObserver.oneSubject).run 0).1.1, done.2 = none ∧ paired.Truthful done.1) ∧
      ((((paired.build >>= fun signal => signal.play pushedOnce).run
          SafeObserver.oneSubject).run 0).1.1.map fun done => done.1.current)
        = [.new (.array [.nat 0, .array [.nat 1]]), .new (.array [.nat 1, .array [.nat 1]]),
          .new (.array [.nat 1, .array [.nat 5]]), .new (.array [.nat 2, .array [.nat 5]]),
          .same (.array [.nat 2, .array [.nat 5]])] :=
  ⟨onlyWrites_pushedOnce, paired.play_build onlyWrites_pushedOnce SafeObserver.oneSubject 0,
    by decide +kernel⟩

end Network

end Reactive
