import Reactive.Proofs.BasePulls
import Reactive.Proofs.Combination

/-!
# Trees of signals

A plan is a tree of signals with the code that they were given and the mailboxes that they own. The
code may have any effects in the world and may write to sources; which crashes it may have is said
once for the whole plan. A signal that is as its plan says can be in whatever state pulls and writes
have brought it to. Three facts tie what a mapped or combined signal shows and keeps to what is shown
below it. They are not much, but pulls keep them, even pulls that were cut short by a crash.

Writing into the mailboxes of a plan is harmless, and what happens to other mailboxes is no concern
of it.

## Main definitions

* `Plan`, `Plan.boxes` — a tree, and the mailboxes in it
* `Plan.calls` — the entries that its generators make in one pull
* `Signal.kept` — the value that a signal shows, or would show if it were the same as before
* `Linked` — what a signal shows and keeps, and what is shown below it
* `Plan.Sound` — a signal is as its plan says

## Main results

* `Plan.Sound.value`, `Plan.Sound.init` — what is shown is kept
* `Plan.Sound.receive` — writing is harmless
-/

namespace Reactive

open World

variable {σ L : Type} {crashes : Set Crash} {book : σ → List L}

/-- A tree of signals, with the code that they were given. In a pull the code of a generator makes
its entries in the book once, all other code makes none. -/
inductive Plan (crashes : Set Crash) (book : σ → List L) where
  /-- The values of a generator. -/
  | generated (g : Generator (World σ)) (entries : List L) (hnext : Enters book entries g.next)
      (hcompare : ∀ a b, Tame crashes book (g.compare a b))
  /-- The values of a source, collected from a mailbox. -/
  | observed (mailbox : MailboxId) (o : Observer (World σ)) (htame : o.IsTame crashes book)
  /-- A function of one signal. -/
  | mapped (source : Plan crashes book) (f : Value → World σ (Except Crash Value))
      (hf : ∀ value, Tame crashes book (f value))
  /-- A function of several signals. -/
  | combined (inputs : List (Plan crashes book)) (f : List Value → World σ (Except Crash Value))
      (hf : ∀ values, Tame crashes book (f values))

/-- The value that a signal shows, or that it would show if it were the same as before. -/
def Signal.kept {m : Type → Type} : Signal m → Value
  | generated _ current | observed _ _ _ current | foreign _ current => current.output
  | mapped _ _ last _ | combined _ _ last _ => last

/-- How what a mapped or combined signal keeps and shows is tied to what is shown below it. -/
structure Linked (below : List Emission) (last : Value) (current : Emission) : Prop where
  error : current.controlState = .error → ∃ e ∈ below, e.controlState = .error
  ended : current.controlState.isTerminal = true →
    ∃ e ∈ below, e.controlState.isTerminal = true
  value : ∀ v, current.value? = some v → last = v
  init : current.controlState = .init → last = .null

/-- Nothing was shown yet. -/
theorem Linked.fresh (below : List Emission) : Linked below .null .init where
  error := by rintro ⟨⟩
  ended := by rintro ⟨⟩
  value := by rintro _ ⟨⟩
  init _ := rfl

namespace Plan

mutual

/-- The mailboxes of a plan, from left to right. -/
def boxes : Plan crashes book → List MailboxId
  | generated _ _ _ _ => []
  | observed mailbox _ _ => [mailbox]
  | mapped source _ _ => source.boxes
  | combined inputs _ _ => boxesAll inputs

/-- The mailboxes of several plans, from left to right. -/
def boxesAll : List (Plan crashes book) → List MailboxId
  | [] => []
  | plan :: rest => plan.boxes ++ boxesAll rest

end

mutual

/-- The entries that the generators of a plan make when its signal is pulled, from left to right: a
generator is called unless its signal has ended before. -/
def calls : Plan crashes book → Signal (World σ) → List L
  | generated _ entries _ _, signal =>
    if signal.current.controlState.isTerminal = true then [] else entries
  | observed _ _ _, _ => []
  | mapped source _ _, .mapped below _ _ _ => source.calls below
  | combined inputs _ _, .combined belows _ _ _ => callsAll inputs belows
  | _, _ => []

/-- The entries of several plans, from left to right. -/
def callsAll : List (Plan crashes book) → List (Signal (World σ)) → List L
  | plan :: rest, below :: others => plan.calls below ++ callsAll rest others
  | _, _ => []

end

mutual

/-- A signal and the mailboxes below it are as a plan says. -/
def Sound : Plan crashes book → Signal (World σ) → Exchange → Prop
  | generated g _ _ _, signal, _ => g.Sound crashes signal
  | observed mailbox o _, signal, x => o.Sound crashes mailbox signal x
  | mapped source f _, signal, x => ∃ below last current,
    signal = .mapped below f last current ∧ source.Sound below x ∧
      Linked [below.current] last current ∧
      (below.current.controlState = .init → current.controlState = .init)
  | combined inputs f _, signal, x => ∃ belows last current,
    signal = .combined belows f last current ∧ SoundAll inputs belows x ∧
      Linked (belows.map Signal.current) last current

/-- Several signals are as their plans say. -/
def SoundAll : List (Plan crashes book) → List (Signal (World σ)) → Exchange → Prop
  | [], signals, _ => signals = []
  | plan :: rest, signals, x => ∃ below others,
    signals = below :: others ∧ plan.Sound below x ∧ SoundAll rest others x

end

end Plan

/-! ### What is shown is kept -/

/-- What a base signal keeps. Where there is nothing to show this is null. -/
theorem Generator.Sound.kept {g : Generator (World σ)} {signal : Signal (World σ)}
    (h : g.Sound crashes signal) : signal.kept = signal.current.output ∧
      (signal.current.controlState = .init → signal.current.output = .null) := by
  rcases h with ⟨phase, s, hsignal, hstands⟩ | ⟨-, ⟨s, hsignal, -⟩, hnull⟩
  · refine ⟨by rw [hsignal]; rfl, fun hinit => ?_⟩
    obtain rfl := hstands.shows.eq_fresh hinit
    exact congrArg Emission.output hstands.shows
  · exact ⟨by rw [hsignal]; rfl, hnull⟩

theorem Observer.Sound.kept {o : Observer (World σ)} {mailbox : MailboxId}
    {signal : Signal (World σ)} {x : Exchange} (h : o.Sound crashes mailbox signal x) :
    signal.kept = signal.current.output ∧
      (signal.current.controlState = .init → signal.current.output = .null) := by
  rcases h.2 with ⟨state, s, subscription, hsignal, hstands, -⟩ |
    ⟨-, ⟨s, subscription, hsignal, -⟩, hnull⟩
  · exact ⟨by rw [hsignal]; rfl, hstands.output_of_init⟩
  · exact ⟨by rw [hsignal]; rfl, hnull⟩

/-- A value that is shown is the output. -/
theorem Emission.output_of_value? {e : Emission} {v : Value} (h : e.value? = some v) :
    e.output = v := by
  obtain ⟨state, output⟩ := e
  cases state with
  | init | error | done => cases h
  | new | same => exact Option.some.inj h

namespace Plan

/-- **A value that is shown is kept.** -/
theorem Sound.value {plan : Plan crashes book} {signal : Signal (World σ)} {x : Exchange}
    (h : plan.Sound signal x) {v : Value} (hv : signal.current.value? = some v) :
    signal.kept = v := by
  cases plan with
  | generated g _ _ _ => exact (Generator.Sound.kept h).1.trans (Emission.output_of_value? hv)
  | observed mailbox o _ => exact (Observer.Sound.kept h).1.trans (Emission.output_of_value? hv)
  | mapped source f _ =>
    obtain ⟨below, last, current, rfl, -, hlinked, -⟩ := h
    exact hlinked.value v hv
  | combined inputs f _ =>
    obtain ⟨belows, last, current, rfl, -, hlinked⟩ := h
    exact hlinked.value v hv

/-- Where there is nothing to show, null is kept. -/
theorem Sound.init {plan : Plan crashes book} {signal : Signal (World σ)} {x : Exchange}
    (h : plan.Sound signal x) (hinit : signal.current.controlState = .init) :
    signal.kept = .null := by
  cases plan with
  | generated g _ _ _ =>
    obtain ⟨hkept, hnull⟩ := Generator.Sound.kept h
    exact hkept.trans (hnull hinit)
  | observed mailbox o _ =>
    obtain ⟨hkept, hnull⟩ := Observer.Sound.kept h
    exact hkept.trans (hnull hinit)
  | mapped source f _ =>
    obtain ⟨below, last, current, rfl, -, hlinked, -⟩ := h
    exact hlinked.init hinit
  | combined inputs f _ =>
    obtain ⟨belows, last, current, rfl, -, hlinked⟩ := h
    exact hlinked.init hinit

/-! ### Writing is harmless -/

mutual

/-- The mailboxes of a plan are there. -/
theorem Sound.lt_length : ∀ {plan : Plan crashes book} {signal : Signal (World σ)} {x : Exchange},
    plan.Sound signal x → ∀ mailbox ∈ plan.boxes, mailbox < x.mailboxes.length
  | generated _ _ _ _, _, _, _, _, hmem => by
    rw [boxes] at hmem
    cases hmem
  | observed _ _ _, _, _, h, _, hmem => by
    rw [boxes, List.mem_singleton] at hmem
    exact hmem ▸ h.1
  | mapped source _ _, _, _, h, mailbox, hmem => by
    obtain ⟨_, _, _, -, hsource, -⟩ := h
    rw [boxes] at hmem
    exact Sound.lt_length hsource mailbox hmem
  | combined inputs _ _, _, _, h, mailbox, hmem => by
    obtain ⟨_, _, _, -, hinputs, -⟩ := h
    rw [boxes] at hmem
    exact SoundAll.lt_length hinputs mailbox hmem

theorem SoundAll.lt_length : ∀ {plans : List (Plan crashes book)}
    {signals : List (Signal (World σ))} {x : Exchange},
    SoundAll plans signals x → ∀ mailbox ∈ boxesAll plans, mailbox < x.mailboxes.length
  | [], _, _, _, _, hmem => by
    rw [boxesAll] at hmem
    cases hmem
  | plan :: rest, _, _, h, mailbox, hmem => by
    obtain ⟨_, _, -, hplan, hrest⟩ := h
    rw [boxesAll, List.mem_append] at hmem
    rcases hmem with hmem | hmem
    · exact Sound.lt_length hplan mailbox hmem
    · exact SoundAll.lt_length hrest mailbox hmem

end

mutual

/-- **Writing is harmless**, and so is whatever happens to other mailboxes. -/
theorem Sound.receive : ∀ {plan : Plan crashes book} {signal : Signal (World σ)} {x x' : Exchange},
    plan.Sound signal x → (∀ mailbox ∈ plan.boxes, x.ReceivesAt x' mailbox) → plan.Sound signal x'
  | generated _ _ _ _, _, _, _, h, _ => h
  | observed mailbox _ _, _, _, _, h, hreceives => by
    rw [boxes] at hreceives
    exact Observer.Sound.receive h (hreceives mailbox List.mem_cons_self)
  | mapped source _ _, _, _, _, h, hreceives => by
    obtain ⟨below, last, current, hsignal, hsource, hlinked⟩ := h
    rw [boxes] at hreceives
    exact ⟨below, last, current, hsignal, Sound.receive hsource hreceives, hlinked⟩
  | combined inputs _ _, _, _, _, h, hreceives => by
    obtain ⟨belows, last, current, hsignal, hinputs, hlinked⟩ := h
    rw [boxes] at hreceives
    exact ⟨belows, last, current, hsignal, SoundAll.receive hinputs hreceives, hlinked⟩

theorem SoundAll.receive : ∀ {plans : List (Plan crashes book)}
    {signals : List (Signal (World σ))} {x x' : Exchange}, SoundAll plans signals x →
    (∀ mailbox ∈ boxesAll plans, x.ReceivesAt x' mailbox) → SoundAll plans signals x'
  | [], _, _, _, h, _ => h
  | plan :: rest, _, _, _, h, hreceives => by
    obtain ⟨below, others, hsignals, hplan, hrest⟩ := h
    rw [boxesAll] at hreceives
    refine ⟨below, others, hsignals, Sound.receive hplan ?_, SoundAll.receive hrest ?_⟩
    · exact fun mailbox hmem => hreceives mailbox (List.mem_append_left _ hmem)
    · exact fun mailbox hmem => hreceives mailbox (List.mem_append_right _ hmem)

end

end Plan

end Reactive
