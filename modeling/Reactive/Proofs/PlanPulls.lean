import Reactive.Proofs.Plans

/-!
# Pulls of trees of signals

A pull of a signal that is as its plan says leaves it so, also if a crash cuts it short. An error or
an end is never taken back, there is no return to having no value, and the same as before is what was
kept before. If nothing can crash, the generators of the tree that have not ended make their entries,
each once and from left to right.

## Main definitions

* `Signal.Advances` — what a pull never does to what is shown and kept
* `MapAnswer`, `CombineAnswer` — what a function of signals answers to what they show
* `Plan.Pulled`, `Plan.PulledAll` — what a pull comes to

## Main results

* `Combination.of_eq_failed` — of several ends an error counts first
* `Plan.pulled`, `Plan.pulledAll` — every pull
-/

namespace Reactive

open World

variable {σ L : Type} {crashes : Set Crash} {book : σ → List L}

/-! ### Going on -/

/-- How what a signal shows and keeps goes on in a pull. -/
structure Signal.Advances {m : Type → Type} (before after : Signal m) : Prop where
  error : before.current.controlState = .error → after.current.controlState = .error
  ended : before.current.controlState.isTerminal = true →
    after.current.controlState.isTerminal = true
  init : after.current.controlState = .init → before.current.controlState = .init
  same : after.current.controlState = .same → after.kept = before.kept

/-- Nothing happened. -/
theorem Signal.Advances.of_eq {m : Type → Type} {before after : Signal m}
    (hcurrent : after.current = before.current) (hkept : after.kept = before.kept) :
    before.Advances after where
  error h := by rw [hcurrent]; exact h
  ended h := by rw [hcurrent]; exact h
  init h := by rw [← hcurrent]; exact h
  same _ := hkept

/-! ### Answers -/

/-- An error among some emissions is what they amount to. -/
theorem Combination.of_eq_failed {emissions : List Emission}
    (h : ∃ e ∈ emissions, e.controlState = .error) :
    ∃ message, Combination.of emissions = .failed message := by
  obtain ⟨e, he, hstate⟩ := h
  have herrors : emissions.filterMap Emission.errorMessage? ≠ [] := by
    intro hnone
    exact Emission.errorMessage?_eq_none_iff.mp (List.filterMap_eq_nil_iff.mp hnone e he) hstate
  exact ⟨_, if_pos herrors⟩

/-- What a function of a signal keeps and shows when the signal shows `below`. -/
inductive MapAnswer (below : Emission) (last : Value) : Value → Emission → Prop
  | new (value : Value) (hnew : below.controlState = .new) : MapAnswer below last value (.new value)
  | same (hsame : below.controlState = .same) : MapAnswer below last last (.same last)
  | passed (hnew : below.controlState ≠ .new) (hsame : below.controlState ≠ .same) :
    MapAnswer below last last below

/-- What a function of several signals keeps and shows when these show some emissions. -/
inductive CombineAnswer (emissions : List Emission) (last : Value) : Value → Emission → Prop
  | failed (message : String) (hfailed : ∃ e ∈ emissions, e.controlState = .error) :
    CombineAnswer emissions last last (.error message)
  | finished (herror : ∀ e ∈ emissions, e.controlState ≠ .error)
      (hfinished : ∃ e ∈ emissions, e.controlState = .done) :
    CombineAnswer emissions last last .done
  | absent (hrunning : ∀ e ∈ emissions, e.controlState.isTerminal = false) :
    CombineAnswer emissions last .null (.new .null)
  | unchanged (hsame : ∀ e ∈ emissions, e.controlState = .same) :
    CombineAnswer emissions last last (.same last)
  | changed (value : Value) (hrunning : ∀ e ∈ emissions, e.controlState.isTerminal = false) :
    CombineAnswer emissions last value (.new value)

/-- What the step of a mapped or combined signal comes to. -/
structure Stepped (crashes : Set Crash) (book : σ → List L) (Answer : Value → Emission → Prop)
    (x : Exchange) (w : σ) (done : ((Except Crash (Value × Emission)) × Exchange) × σ) : Prop where
  receives : x.Receives done.1.2
  book : book done.2 = book w
  ok : ∀ shown, done.1.1 = .ok shown → Answer shown.1 shown.2
  error : ∀ crash, done.1.1 = .error crash → crash ∈ crashes

namespace Stepped

variable {Answer : Value → Emission → Prop}

/-- The function is not called. -/
theorem pure {shown : Value × Emission} (h : Answer shown.1 shown.2) (x : Exchange) (w : σ) :
    Stepped crashes book Answer x w ((.ok shown, x), w) :=
  ⟨Exchange.Receives.refl x, rfl, by rintro _ ⟨⟩; exact h, by rintro _ ⟨⟩⟩

/-- The function is called, and what it gives is new. -/
theorem called {code : World σ (Except Crash Value)} (hcode : Tame crashes book code)
    (h : ∀ value, Answer value (.new value)) (x : Exchange) (w : σ) :
    Stepped crashes book Answer x w (perform (code >>= fun result =>
      match result with
      | .ok value => Pure.pure (.ok (value, .new value))
      | .error crash => Pure.pure (.error crash)) x w) := by
  rw [perform_bind]
  cases hresult : (perform code x w).1.1 with
  | ok value =>
    refine ⟨hcode.receives x w, hcode.book_eq x w, ?_, by rintro _ ⟨⟩⟩
    rintro _ ⟨⟩
    exact h value
  | error crash =>
    refine ⟨hcode.receives x w, hcode.book_eq x w, by rintro _ ⟨⟩, ?_⟩
    rintro _ ⟨⟩
    exact hcode.crash x w crash hresult

end Stepped

/-- What a function of a signal answers. -/
theorem stepped_map {f : Value → World σ (Except Crash Value)}
    (hf : ∀ value, Tame crashes book (f value)) (last : Value) (below : Emission) (x : Exchange)
    (w : σ) : Stepped crashes book (MapAnswer below last) x w
      (perform (Signal.mapStep f last below) x w) := by
  unfold Signal.mapStep
  cases hstate : below.controlState with
  | new => exact Stepped.called (hf below.output) (fun value => .new value hstate) x w
  | same => exact Stepped.pure (.same hstate) x w
  | init | error | done =>
    refine Stepped.pure (.passed ?_ ?_) x w
    · rw [hstate]
      rintro ⟨⟩
    · rw [hstate]
      rintro ⟨⟩

/-- What a function of several signals answers. -/
theorem stepped_combine {f : List Value → World σ (Except Crash Value)}
    (hf : ∀ values, Tame crashes book (f values)) (last : Value) (emissions : List Emission)
    (x : Exchange) (w : σ) : Stepped crashes book (CombineAnswer emissions last) x w
      (perform (Signal.combineStep f last emissions) x w) := by
  have haccounts := Combination.accounts_of emissions
  unfold Signal.combineStep
  cases hof : Combination.of emissions with
  | failed message =>
    rw [hof] at haccounts
    cases haccounts with | failed _ hfailed => exact Stepped.pure (.failed message hfailed) x w
  | finished =>
    have herror : ∀ e ∈ emissions, e.controlState ≠ .error := by
      intro e he hstate
      obtain ⟨message, hfailed⟩ := Combination.of_eq_failed ⟨e, he, hstate⟩
      rw [hof] at hfailed
      cases hfailed
    rw [hof] at haccounts
    cases haccounts with | finished hfinished => exact Stepped.pure (.finished herror hfinished) x w
  | absent =>
    rw [hof] at haccounts
    cases haccounts with | absent hrunning _ => exact Stepped.pure (.absent hrunning) x w
  | unchanged =>
    rw [hof] at haccounts
    cases haccounts with | unchanged _ hsame => exact Stepped.pure (.unchanged hsame) x w
  | changed outputs =>
    rw [hof] at haccounts
    cases haccounts with | changed hrunning _ =>
    exact Stepped.called (hf _) (fun value => .changed value hrunning) x w

/-- An answer to what a signal shows is tied to it. -/
theorem MapAnswer.linked {below : Emission} {last last' : Value} {current : Emission}
    (h : MapAnswer below last last' current) (hinit : below.controlState = .init → last = .null) :
    Linked [below] last' current := by
  cases h with
  | new value hnew => exact ⟨by rintro ⟨⟩, by rintro ⟨⟩, by rintro _ ⟨⟩; rfl, by rintro ⟨⟩⟩
  | same hsame => exact ⟨by rintro ⟨⟩, by rintro ⟨⟩, by rintro _ ⟨⟩; rfl, by rintro ⟨⟩⟩
  | passed hnew hsame =>
    refine ⟨fun herror => ⟨below, List.mem_singleton_self _, herror⟩,
      fun hended => ⟨below, List.mem_singleton_self _, hended⟩, fun v hv => ?_, hinit⟩
    exfalso
    cases hstate : below.controlState with
    | new => exact hnew hstate
    | same => exact hsame hstate
    | init | error | done =>
      rw [Emission.value?, hstate] at hv
      cases hv

/-- While there is nothing to show below there is nothing to show above. -/
theorem MapAnswer.waiting {below : Emission} {last last' : Value} {current : Emission}
    (h : MapAnswer below last last' current) (hinit : below.controlState = .init) :
    current.controlState = .init := by
  cases h with
  | new _ hnew =>
    rw [hinit] at hnew
    cases hnew
  | same hsame =>
    rw [hinit] at hsame
    cases hsame
  | passed _ _ => exact hinit

/-- An answer to what several signals show is tied to it. -/
theorem CombineAnswer.linked {emissions : List Emission} {last last' : Value} {current : Emission}
    (h : CombineAnswer emissions last last' current) : Linked emissions last' current := by
  cases h with
  | failed message hfailed =>
    obtain ⟨e, he, hstate⟩ := hfailed
    refine ⟨fun _ => ⟨e, he, hstate⟩, fun _ => ⟨e, he, ?_⟩, by rintro _ ⟨⟩, by rintro ⟨⟩⟩
    rw [hstate]
    rfl
  | finished _ hfinished =>
    obtain ⟨e, he, hstate⟩ := hfinished
    refine ⟨by rintro ⟨⟩, fun _ => ⟨e, he, ?_⟩, by rintro _ ⟨⟩, by rintro ⟨⟩⟩
    rw [hstate]
    rfl
  | absent _ => exact ⟨by rintro ⟨⟩, by rintro ⟨⟩, by rintro _ ⟨⟩; rfl, by rintro ⟨⟩⟩
  | unchanged _ => exact ⟨by rintro ⟨⟩, by rintro ⟨⟩, by rintro _ ⟨⟩; rfl, by rintro ⟨⟩⟩
  | changed value _ => exact ⟨by rintro ⟨⟩, by rintro ⟨⟩, by rintro _ ⟨⟩; rfl, by rintro ⟨⟩⟩

/-- What is kept and shown stays tied when what is shown below goes on. -/
theorem Linked.mono {below below' : List Emission} {last : Value} {current : Emission}
    (h : Linked below last current)
    (herror : (∃ e ∈ below, e.controlState = .error) → ∃ e ∈ below', e.controlState = .error)
    (hended : (∃ e ∈ below, e.controlState.isTerminal = true) →
      ∃ e ∈ below', e.controlState.isTerminal = true) : Linked below' last current where
  error hcurrent := herror (h.error hcurrent)
  ended hcurrent := hended (h.ended hcurrent)
  value := h.value
  init := h.init

/-- A property of the only emission. -/
theorem exists_mem_singleton {p : Emission → Prop} {e : Emission} :
    (∃ e' ∈ [e], p e') ↔ p e := by simp

/-- Signals of which some have come to their ends before still have after they advanced. -/
theorem Signal.Advances.exists_terminal {before after : List (Signal (World σ))}
    (h : List.Forall₂ Signal.Advances before after) :
    ((∃ e ∈ before.map Signal.current, e.controlState = .error) →
        ∃ e ∈ after.map Signal.current, e.controlState = .error) ∧
      ((∃ e ∈ before.map Signal.current, e.controlState.isTerminal = true) →
        ∃ e ∈ after.map Signal.current, e.controlState.isTerminal = true) := by
  induction h with
  | nil => exact ⟨id, id⟩
  | cons hfirst _ ih =>
    simp only [List.map_cons, List.exists_mem_cons_iff]
    exact ⟨Or.imp hfirst.error ih.1, Or.imp hfirst.ended ih.2⟩

/-- A mapped signal goes on when its source does. -/
theorem MapAnswer.advances {below below' : Signal (World σ)}
    {f : Value → World σ (Except Crash Value)} {last last' : Value} {current shown : Emission}
    (h : MapAnswer below'.current last last' shown) (hbelow : below.Advances below')
    (hlinked : Linked [below.current] last current)
    (hwaiting : below.current.controlState = .init → current.controlState = .init) :
    (Signal.mapped below f last current).Advances (.mapped below' f last' shown) := by
  have herror : current.controlState = .error → below'.current.controlState = .error :=
    fun hcurrent => hbelow.error (exists_mem_singleton.mp (hlinked.error hcurrent))
  have hended : current.controlState.isTerminal = true →
      below'.current.controlState.isTerminal = true :=
    fun hcurrent => hbelow.ended (exists_mem_singleton.mp (hlinked.ended hcurrent))
  cases h with
  | new value hnew =>
    refine ⟨fun hcurrent => ?_, fun hcurrent => ?_, by rintro ⟨⟩, by rintro ⟨⟩⟩
    · have hstate := herror hcurrent
      rw [hnew] at hstate
      cases hstate
    · have hstate := hended hcurrent
      rw [hnew] at hstate
      cases hstate
  | same hsame =>
    refine ⟨fun hcurrent => ?_, fun hcurrent => ?_, by rintro ⟨⟩, fun _ => rfl⟩
    · have hstate := herror hcurrent
      rw [hsame] at hstate
      cases hstate
    · have hstate := hended hcurrent
      rw [hsame] at hstate
      cases hstate
  | passed _ _ => exact ⟨herror, hended, fun hinit => hwaiting (hbelow.init hinit), fun _ => rfl⟩

/-- A combined signal goes on when its inputs do. -/
theorem CombineAnswer.advances {belows belows' : List (Signal (World σ))}
    {f : List Value → World σ (Except Crash Value)} {last last' : Value} {current shown : Emission}
    (h : CombineAnswer (belows'.map Signal.current) last last' shown)
    (hbelows : List.Forall₂ Signal.Advances belows belows')
    (hlinked : Linked (belows.map Signal.current) last current) :
    (Signal.combined belows f last current).Advances (.combined belows' f last' shown) := by
  have herror : current.controlState = .error →
      ∃ e ∈ belows'.map Signal.current, e.controlState = .error :=
    fun hcurrent => (Signal.Advances.exists_terminal hbelows).1 (hlinked.error hcurrent)
  have hended : current.controlState.isTerminal = true →
      ∃ e ∈ belows'.map Signal.current, e.controlState.isTerminal = true :=
    fun hcurrent => (Signal.Advances.exists_terminal hbelows).2 (hlinked.ended hcurrent)
  -- If all inputs are still running, nothing had come to an end before.
  have hopen : (∀ e ∈ belows'.map Signal.current, e.controlState.isTerminal = false) →
      current.controlState.isTerminal ≠ true := by
    intro hrunning hcurrent
    obtain ⟨e, he, hterminal⟩ := hended hcurrent
    rw [hrunning e he] at hterminal
    cases hterminal
  have hnoterror : current.controlState.isTerminal ≠ true → current.controlState ≠ .error := by
    intro hterminal hstate
    rw [hstate] at hterminal
    exact hterminal rfl
  cases h with
  | failed message _ => exact ⟨fun _ => rfl, fun _ => rfl, by rintro ⟨⟩, by rintro ⟨⟩⟩
  | finished hnone _ =>
    refine ⟨fun hcurrent => ?_, fun _ => rfl, by rintro ⟨⟩, by rintro ⟨⟩⟩
    obtain ⟨e, he, hstate⟩ := herror hcurrent
    exact absurd hstate (hnone e he)
  | absent hrunning | changed _ hrunning =>
    have hcurrent := hopen hrunning
    exact ⟨fun h => absurd h (hnoterror hcurrent), fun h => absurd h hcurrent, by rintro ⟨⟩,
      by rintro ⟨⟩⟩
  | unchanged hsame =>
    have hcurrent : current.controlState.isTerminal ≠ true := by
      refine hopen fun e he => ?_
      rw [hsame e he]
      rfl
    exact ⟨fun h => absurd h (hnoterror hcurrent), fun h => absurd h hcurrent, by rintro ⟨⟩,
      fun _ => rfl⟩

/-! ### Pulls -/

namespace Plan

/-- What a pull of a signal that is as its plan says comes to. -/
structure Pulled (plan : Plan crashes book) (before : Signal (World σ)) (x : Exchange) (w : σ)
    (done : ((Signal (World σ) × Option Crash) × Exchange) × σ) : Prop where
  sound : plan.Sound done.1.1.1 done.1.2
  /-- To other mailboxes nothing happens but writing. -/
  elsewhere : ∀ mailbox, mailbox ∉ plan.boxes → x.ReceivesAt done.1.2 mailbox
  advances : before.Advances done.1.1.1
  /-- After a crash the signal shows and keeps what it did before. -/
  crash : ∀ crash, done.1.1.2 = some crash → crash ∈ crashes ∧
    done.1.1.1.current = before.current ∧ done.1.1.1.kept = before.kept
  book : crashes = ∅ → book done.2 = book w ++ plan.calls before

/-- What pulls of several signals come to. -/
structure PulledAll (plans : List (Plan crashes book)) (before : List (Signal (World σ)))
    (x : Exchange) (w : σ)
    (done : ((List (Signal (World σ)) × Option Crash) × Exchange) × σ) : Prop where
  sound : SoundAll plans done.1.1.1 done.1.2
  elsewhere : ∀ mailbox, mailbox ∉ boxesAll plans → x.ReceivesAt done.1.2 mailbox
  advances : List.Forall₂ Signal.Advances before done.1.1.1
  crash : ∀ crash, done.1.1.2 = some crash → crash ∈ crashes
  book : crashes = ∅ → book done.2 = book w ++ callsAll plans before

/-- A pull of a base signal. -/
theorem pulled_base {plan : Plan crashes book} {entries : List L}
    {sound : Signal (World σ) → Exchange → Prop} {elsewhere : MailboxId → Prop}
    {before : Signal (World σ)} {x : Exchange} {w : σ}
    {done : ((Signal (World σ) × Option Crash) × Exchange) × σ}
    (h : BasePull crashes book entries sound elsewhere before x w done)
    (hsound : ∀ signal x, sound signal x → plan.Sound signal x)
    (helsewhere : ∀ mailbox, mailbox ∉ plan.boxes → elsewhere mailbox)
    (hbefore : before.kept = before.current.output)
    (hafter : done.1.1.1.kept = done.1.1.1.current.output)
    (hcalls : plan.calls before
      = if before.current.controlState.isTerminal = true then [] else entries) :
    Pulled plan before x w done := by
  constructor
  case sound => exact hsound _ _ h.sound
  case elsewhere => exact fun mailbox hmem => h.receives mailbox (helsewhere mailbox hmem)
  case advances =>
    constructor
    case error =>
      intro hstate
      rw [h.continues.ended (by rw [hstate]; rfl)]
      exact hstate
    case ended =>
      intro hterminal
      rw [h.continues.ended hterminal]
      exact hterminal
    case init => exact h.continues.init
    case same =>
      intro hsame
      rw [hafter, hbefore]
      exact h.continues.same hsame
  case crash =>
    intro crash hcrash
    obtain ⟨hmem, hcurrent⟩ := h.crash crash hcrash
    exact ⟨hmem, hcurrent, by rw [hafter, hbefore, hcurrent]⟩
  case book =>
    rw [hcalls]
    exact h.book

/-- A pull of a mapped signal, after a pull of its source. -/
theorem pulled_mapped {source : Plan crashes book} {f : Value → World σ (Except Crash Value)}
    (hf : ∀ value, Tame crashes book (f value)) {below : Signal (World σ)} {last : Value}
    {current : Emission} {x : Exchange} {w : σ}
    (hsource : Pulled source below x w (perform below.pull x w))
    (hlinked : Linked [below.current] last current)
    (hwaiting : below.current.controlState = .init → current.controlState = .init) :
    Pulled (mapped source f hf) (.mapped below f last current) x w
      (perform (Signal.mapped below f last current).pull x w) := by
  rw [Signal.pull, perform_bind]
  revert hsource
  generalize perform below.pull x w = done
  obtain ⟨⟨⟨below', crash?⟩, x'⟩, w'⟩ := done
  intro hsource
  have hadvances : below.Advances below' := hsource.advances
  have hlinked' : Linked [below'.current] last current := by
    refine hlinked.mono (fun h => ?_) fun h => ?_
    · exact exists_mem_singleton.mpr (hadvances.error (exists_mem_singleton.mp h))
    · exact exists_mem_singleton.mpr (hadvances.ended (exists_mem_singleton.mp h))
  have hwaiting' : below'.current.controlState = .init → current.controlState = .init :=
    fun hinit => hwaiting (hadvances.init hinit)
  have hcalls : (mapped source f hf).calls (.mapped below f last current) = source.calls below := by
    rw [calls]
  cases crash? with
  | some crash =>
    obtain ⟨hmem, -⟩ := hsource.crash crash rfl
    constructor
    case sound => exact ⟨below', last, current, rfl, hsource.sound, hlinked', hwaiting'⟩
    case elsewhere =>
      rw [boxes]
      exact hsource.elsewhere
    case advances => exact Signal.Advances.of_eq rfl rfl
    case crash =>
      rintro _ ⟨⟩
      exact ⟨hmem, rfl, rfl⟩
    case book =>
      rw [hcalls]
      exact hsource.book
  | none =>
    have hstep := stepped_map hf last below'.current x' w'
    dsimp only
    rw [perform_bind]
    revert hstep
    generalize perform (Signal.mapStep f last below'.current) x' w' = step
    obtain ⟨⟨result, x''⟩, w''⟩ := step
    intro hstep
    have hsound : source.Sound below' x'' :=
      hsource.sound.receive fun mailbox _ => hstep.receives mailbox
    have helsewhere : ∀ mailbox, mailbox ∉ (mapped source f hf).boxes →
        x.ReceivesAt x'' mailbox := by
      rw [boxes]
      exact fun mailbox hmem => (hsource.elsewhere mailbox hmem).trans (hstep.receives mailbox)
    have hbook : crashes = ∅ →
        book w'' = book w ++ (mapped source f hf).calls (.mapped below f last current) := by
      rw [hcalls, show book w'' = book w' from hstep.book]
      exact hsource.book
    cases result with
    | error crash =>
      constructor
      case sound => exact ⟨below', last, current, rfl, hsound, hlinked', hwaiting'⟩
      case elsewhere => exact helsewhere
      case advances => exact Signal.Advances.of_eq rfl rfl
      case crash =>
        rintro _ ⟨⟩
        exact ⟨hstep.error crash rfl, rfl, rfl⟩
      case book => exact hbook
    | ok shown =>
      have hanswer : MapAnswer below'.current last shown.1 shown.2 := hstep.ok shown rfl
      have hlinked'' : Linked [below'.current] shown.1 shown.2 :=
        hanswer.linked fun hinit => hlinked.init (hwaiting' hinit)
      constructor
      case sound => exact ⟨below', shown.1, shown.2, rfl, hsound, hlinked'', hanswer.waiting⟩
      case elsewhere => exact helsewhere
      case advances => exact hanswer.advances hadvances hlinked hwaiting
      case crash => rintro _ ⟨⟩
      case book => exact hbook

/-- Pulls of several signals, the first of them in front. -/
theorem pulledAll_cons {plan : Plan crashes book} {rest : List (Plan crashes book)}
    {below : Signal (World σ)} {others : List (Signal (World σ))} {x : Exchange} {w : σ}
    (hfirst : Pulled plan below x w (perform below.pull x w))
    (hrest : ∀ x' w', SoundAll rest others x' →
      PulledAll rest others x' w' (perform (Signal.pullAll others) x' w'))
    (hothers : SoundAll rest others x) (hboxes : (boxesAll (plan :: rest)).Nodup) :
    PulledAll (plan :: rest) (below :: others) x w
      (perform (Signal.pullAll (below :: others)) x w) := by
  rw [boxesAll, List.nodup_append'] at hboxes
  obtain ⟨-, -, hdisjoint⟩ := hboxes
  rw [Signal.pullAll, perform_bind]
  revert hfirst
  generalize perform below.pull x w = done
  obtain ⟨⟨⟨below', crash?⟩, x'⟩, w'⟩ := done
  intro hfirst
  -- The mailboxes of the others only received something.
  have hothers' : SoundAll rest others x' :=
    hothers.receive fun mailbox hmem => hfirst.elsewhere mailbox fun h => hdisjoint h hmem
  have hfirstElsewhere : ∀ mailbox, mailbox ∉ boxesAll (plan :: rest) →
      x.ReceivesAt x' mailbox := by
    intro mailbox hmem
    rw [boxesAll] at hmem
    exact hfirst.elsewhere mailbox fun h => hmem (List.mem_append_left _ h)
  cases crash? with
  | some crash =>
    obtain ⟨hmem, -⟩ := hfirst.crash crash rfl
    constructor
    case sound => exact ⟨below', others, rfl, hfirst.sound, hothers'⟩
    case elsewhere => exact hfirstElsewhere
    case advances =>
      exact .cons hfirst.advances (List.forall₂_same.mpr fun _ _ => Signal.Advances.of_eq rfl rfl)
    case crash =>
      rintro _ ⟨⟩
      exact hmem
    case book =>
      intro hnone
      rw [hnone] at hmem
      cases hmem
  | none =>
    have hlater := hrest x' w' hothers'
    dsimp only
    rw [perform_bind]
    revert hlater
    generalize perform (Signal.pullAll others) x' w' = later
    obtain ⟨⟨⟨others', crash?⟩, x''⟩, w''⟩ := later
    intro hlater
    have hbelow' : plan.Sound below' x'' :=
      hfirst.sound.receive fun mailbox hmem => hlater.elsewhere mailbox fun h => hdisjoint hmem h
    constructor
    case sound => exact ⟨below', others', rfl, hbelow', hlater.sound⟩
    case elsewhere =>
      intro mailbox hmem
      refine (hfirstElsewhere mailbox hmem).trans (hlater.elsewhere mailbox fun h => hmem ?_)
      rw [boxesAll]
      exact List.mem_append_right _ h
    case advances => exact .cons hfirst.advances hlater.advances
    case crash => exact hlater.crash
    case book =>
      intro hnone
      have hbook : book w'' = book w' ++ callsAll rest others := hlater.book hnone
      show book w'' = _
      rw [hbook, show book w' = book w ++ plan.calls below from hfirst.book hnone, callsAll,
        List.append_assoc]

/-- A pull of a combined signal, after pulls of its inputs. -/
theorem pulled_combined {inputs : List (Plan crashes book)}
    {f : List Value → World σ (Except Crash Value)}
    (hf : ∀ values, Tame crashes book (f values)) {belows : List (Signal (World σ))} {last : Value}
    {current : Emission} {x : Exchange} {w : σ}
    (hinputs : PulledAll inputs belows x w (perform (Signal.pullAll belows) x w))
    (hlinked : Linked (belows.map Signal.current) last current) :
    Pulled (combined inputs f hf) (.combined belows f last current) x w
      (perform (Signal.combined belows f last current).pull x w) := by
  rw [Signal.pull, perform_bind]
  revert hinputs
  generalize perform (Signal.pullAll belows) x w = done
  obtain ⟨⟨⟨belows', crash?⟩, x'⟩, w'⟩ := done
  intro hinputs
  have hadvances : List.Forall₂ Signal.Advances belows belows' := hinputs.advances
  obtain ⟨herror, hended⟩ := Signal.Advances.exists_terminal hadvances
  have hlinked' : Linked (belows'.map Signal.current) last current := hlinked.mono herror hended
  have hcalls : (combined inputs f hf).calls (.combined belows f last current)
      = callsAll inputs belows := by
    rw [calls]
  cases crash? with
  | some crash =>
    constructor
    case sound => exact ⟨belows', last, current, rfl, hinputs.sound, hlinked'⟩
    case elsewhere =>
      rw [boxes]
      exact hinputs.elsewhere
    case advances => exact Signal.Advances.of_eq rfl rfl
    case crash =>
      rintro _ ⟨⟩
      exact ⟨hinputs.crash crash rfl, rfl, rfl⟩
    case book =>
      rw [hcalls]
      exact hinputs.book
  | none =>
    have hstep := stepped_combine hf last (belows'.map Signal.current) x' w'
    dsimp only
    rw [perform_bind]
    revert hstep
    generalize perform (Signal.combineStep f last (belows'.map Signal.current)) x' w' = step
    obtain ⟨⟨result, x''⟩, w''⟩ := step
    intro hstep
    have hsound : SoundAll inputs belows' x'' :=
      hinputs.sound.receive fun mailbox _ => hstep.receives mailbox
    have helsewhere : ∀ mailbox, mailbox ∉ (combined inputs f hf).boxes →
        x.ReceivesAt x'' mailbox := by
      rw [boxes]
      exact fun mailbox hmem => (hinputs.elsewhere mailbox hmem).trans (hstep.receives mailbox)
    have hbook : crashes = ∅ →
        book w'' = book w ++ (combined inputs f hf).calls (.combined belows f last current) := by
      rw [hcalls, show book w'' = book w' from hstep.book]
      exact hinputs.book
    cases result with
    | error crash =>
      constructor
      case sound => exact ⟨belows', last, current, rfl, hsound, hlinked'⟩
      case elsewhere => exact helsewhere
      case advances => exact Signal.Advances.of_eq rfl rfl
      case crash =>
        rintro _ ⟨⟩
        exact ⟨hstep.error crash rfl, rfl, rfl⟩
      case book => exact hbook
    | ok shown =>
      have hanswer : CombineAnswer (belows'.map Signal.current) last shown.1 shown.2 :=
        hstep.ok shown rfl
      constructor
      case sound => exact ⟨belows', shown.1, shown.2, rfl, hsound, hanswer.linked⟩
      case elsewhere => exact helsewhere
      case advances => exact hanswer.advances hadvances hlinked
      case crash => rintro _ ⟨⟩
      case book => exact hbook

mutual

/-- **Every pull.** The recursion is that of the plan, whose parts have no mailboxes in common. -/
theorem pulled : ∀ {plan : Plan crashes book} {signal : Signal (World σ)} {x : Exchange},
    plan.Sound signal x → plan.boxes.Nodup → ∀ w, Pulled plan signal x w (perform signal.pull x w)
  | generated _ _ hnext hcompare, _, x, h, _, w => by
    have hpull := Generator.perform_pull hnext hcompare h x w
    refine pulled_base hpull (fun _ _ hsound => hsound) (fun _ _ => trivial) h.kept.1
      (Generator.Sound.kept hpull.sound).1 ?_
    rw [calls]
  | observed _ _ htame, _, _, h, _, w => by
    have hpull := Observer.perform_pull htame h w
    refine pulled_base hpull (fun _ _ hsound => hsound) ?_ h.kept.1
      (Observer.Sound.kept hpull.sound).1 ?_
    · intro mailbox hmem heq
      rw [boxes] at hmem
      exact hmem (List.mem_singleton.mpr heq)
    · rw [calls, ite_self]
  | mapped _ _ hf, _, _, h, hboxes, w => by
    obtain ⟨_, _, _, rfl, hsource, hlinked, hwaiting⟩ := h
    rw [boxes] at hboxes
    exact pulled_mapped hf (pulled hsource hboxes w) hlinked hwaiting
  | combined _ _ hf, _, _, h, hboxes, w => by
    obtain ⟨_, _, _, rfl, hinputs, hlinked⟩ := h
    rw [boxes] at hboxes
    exact pulled_combined hf (pulledAll hinputs hboxes w) hlinked

theorem pulledAll : ∀ {plans : List (Plan crashes book)} {signals : List (Signal (World σ))}
    {x : Exchange}, SoundAll plans signals x → (boxesAll plans).Nodup →
    ∀ w, PulledAll plans signals x w (perform (Signal.pullAll signals) x w)
  | [], _, x, h, _, w => by
    obtain rfl : _ = [] := h
    rw [Signal.pullAll]
    exact ⟨rfl, fun mailbox _ => Exchange.Receives.refl x mailbox, .nil, by rintro _ ⟨⟩,
      fun _ => (List.append_nil (book w)).symm⟩
  | _ :: _, _, _, h, hboxes, w => by
    obtain ⟨_, _, rfl, hplan, hrest⟩ := h
    have hparts := hboxes
    rw [boxesAll, List.nodup_append'] at hparts
    exact pulledAll_cons (pulled hplan hparts.1 w)
      (fun x' w' hrest' => pulledAll hrest' hparts.2.1 w') hrest hboxes

end

end Plan

end Reactive
