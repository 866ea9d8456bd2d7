import Reactive.Proofs.Replays
import Reactive.Proofs.Shelves

/-!
# Functions of running signals

A mapped or combined signal may be made of signals that were pulled many times before. It has not
seen their values, and it trusts them when they say that these are the same as before. So until it
has shown something new it has nothing but null to repeat. After that a mapped signal always shows
the function of what its source shows. A combined signal does so too, as long as it has heard of
every new value of its inputs: if a crash cuts a pull short, the inputs before the crash have gone
on, and while all inputs are the same as then, it repeats what it had shown.

What carries the proofs is what signals keep. A source that shows the same as before keeps what it
kept, so what was computed from that is still right.

## Main definitions

* `Signal.sources` — what a signal is a function of
* `latestNew?` — the latest new output of some pulls
* `Undisturbed` — since that was shown, every new value was heard of
* `MapsLate`, `CombinesLate` — what functions of running signals show

## Main results

* `late_of_assembled`
* `repeats_unseen` — a value that was not seen, and a value that was not heard of
-/

namespace Reactive

open World

variable {σ L : Type} {crashes : Set Crash} {book : σ → List L}

/-- What a mapped or combined signal is a function of. -/
def Signal.sources {m : Type → Type} : Signal m → List (Signal m)
  | mapped source _ _ _ => [source]
  | combined inputs _ _ _ => inputs
  | generated _ _ | observed _ _ _ _ | foreign _ _ => []

/-! ### What was shown -/

/-- The new output that a pull has shown, if it was not cut short and there was one. -/
def Pass.new? (pass : Pass σ) : Option Value :=
  if pass.crash? = none ∧ pass.shown.controlState = .new then some pass.shown.output else none

/-- The latest new output that some pulls have shown, the latest pull being the first. -/
def latestNew? : List (Pass σ) → Option Value
  | [] => none
  | pass :: earlier => pass.new?.or (latestNew? earlier)

/-- An input has gone on to a new value, and the combined signal has not heard of it: a crash cut the
pull short. -/
def Pass.Unheard (pass : Pass σ) : Prop :=
  pass.crash? ≠ none ∧ ∃ p ∈ pass.before.sources.zip pass.after.sources,
    p.2.current.controlState = .new ∧ p.1.current.value? ≠ p.2.current.value?

/-- Of some pulls, the latest being the first, one has shown something new, and everything that
happened since then was heard of. -/
def Undisturbed : List (Pass σ) → Prop
  | [] => False
  | pass :: earlier => pass.new? ≠ none ∨ (¬ pass.Unheard ∧ Undisturbed earlier)

/-- All sources show values, and none of these is null. -/
def Pass.ShowsValues (pass : Pass σ) : Prop :=
  ∀ source ∈ pass.after.sources, (source.current.controlState = .new ∨
    source.current.controlState = .same) ∧ source.current.output ≠ .null

/-- What a mapped signal shows in a pull, after some earlier pulls of it. -/
structure MapsLate (f : Value → Value) (earlier : List (Pass σ)) (pass : Pass σ) : Prop where
  source : ∃ source, pass.after.sources = [source]
  new : pass.shown.controlState = .new →
    ∀ source ∈ pass.after.sources, pass.shown.output = f source.current.output
  /-- It has shown something new since it was made. -/
  same : pass.shown.controlState = .same → latestNew? earlier ≠ none →
    ∀ source ∈ pass.after.sources, pass.shown.output = f source.current.output
  /-- It has shown nothing new yet. -/
  unseen : pass.shown.controlState = .same → latestNew? earlier = none →
    pass.shown.output = .null

/-- What a combined signal of `n` inputs shows in a pull, after some earlier pulls of it. -/
structure CombinesLate (f : List Value → Value) (n : Nat) (earlier : List (Pass σ))
    (pass : Pass σ) : Prop where
  inputs : pass.after.sources.length = n
  new : pass.shown.controlState = .new → pass.ShowsValues →
    pass.shown.output = f (pass.after.sources.map fun input => input.current.output)
  /-- It has shown something new since it was made, and has heard of everything since then. -/
  same : pass.shown.controlState = .same → Undisturbed earlier →
    pass.shown.output = f (pass.after.sources.map fun input => input.current.output)
  /-- It repeats what it has last shown as new, and null if there is no such thing. -/
  repeats : pass.shown.controlState = .same →
    pass.shown.output = (latestNew? earlier).getD .null

/-! ### Mapped signals -/

/-- What a pure function of a signal keeps and shows when the signal shows `below`, and `last` is its
last result. -/
def Emission.answer (f : Value → Value) (last : Value) (below : Emission) : Value × Emission :=
  match below.controlState with
  | .new => (f below.output, .new (f below.output))
  | .same => (last, .same last)
  | .init | .error | .done => (last, below)

/-- A pull of a pure function of a signal. -/
theorem perform_pull_mapped (f : Value → Value) (below : Signal (World σ)) (last : Value)
    (current : Emission) (x : Exchange) (w : σ) :
    perform (Signal.mapped below (fun v => pure (.ok (f v))) last current).pull x w
      = let done := perform below.pull x w
        match done.1.1.2 with
        | some crash =>
          (((.mapped done.1.1.1 (fun v => pure (.ok (f v))) last current, some crash), done.1.2),
            done.2)
        | none =>
          let shown := done.1.1.1.current.answer f last
          (((.mapped done.1.1.1 (fun v => pure (.ok (f v))) shown.1 shown.2, none), done.1.2),
            done.2) := by
  rw [Signal.pull, perform_bind]
  dsimp only
  generalize perform below.pull x w = done
  obtain ⟨⟨⟨below', crash?⟩, x'⟩, w'⟩ := done
  cases crash? with
  | some crash => rfl
  | none =>
    dsimp only
    unfold Signal.mapStep Emission.answer
    cases below'.current.controlState with
    | new | same | init | error | done => rfl

theorem Pass.new?_of_crash {pass : Pass σ} {crash : Crash} (h : pass.crash? = some crash) :
    pass.new? = none := by
  rw [Pass.new?, h]
  exact if_neg (by rintro ⟨⟨⟩, -⟩)

theorem Pass.new?_of_shown {pass : Pass σ} (h : pass.shown.controlState ≠ .new) :
    pass.new? = none := if_neg fun hnew => h hnew.2

theorem Pass.new?_eq {pass : Pass σ} (hcrash : pass.crash? = none)
    (hnew : pass.shown.controlState = .new) : pass.new? = some pass.shown.output :=
  if_pos ⟨hcrash, hnew⟩

/-- One more pull. -/
theorem forall_suffix_cons {P : Pass σ → List (Pass σ) → Prop} {pass : Pass σ}
    {past : List (Pass σ)} (hpass : P pass past)
    (hpast : ∀ other earlier, other :: earlier <:+ past → P other earlier) :
    ∀ other earlier, other :: earlier <:+ pass :: past → P other earlier := by
  intro other earlier hsuffix
  rcases List.suffix_cons_iff.mp hsuffix with heq | hsuffix
  · obtain ⟨rfl, rfl⟩ := List.cons.inj heq
    exact hpass
  · exact hpast other earlier hsuffix

section Mapped

variable {f : Value → Value} {below below' : Signal (World σ)} {last last' : Value}
  {current shown : Emission} {past : List (Pass σ)} {pass : Pass σ}

/-- A mapped signal keeps what it has last shown as new, and null before. Once it has shown something
new, this is the function of what its source keeps, unless the source has come to its end. -/
structure Keeps (f : Value → Value) (past : List (Pass σ)) (below : Signal (World σ))
    (last : Value) : Prop where
  kept : last = (latestNew? past).getD .null
  heard : latestNew? past ≠ none → below.current.controlState ≠ .init ∧
    (below.current.controlState.isTerminal = true ∨ last = f below.kept)

/-- If a crash cut a pull short, everything is as before. -/
theorem Keeps.crashed (h : Keeps f past below last) {crash : Crash}
    (hcrash : pass.crash? = some crash) (hcurrent : below'.current = below.current)
    (hkept : below'.kept = below.kept) : Keeps f (pass :: past) below' last := by
  have hlatest : latestNew? (pass :: past) = latestNew? past := by
    rw [latestNew?, Pass.new?_of_crash hcrash, Option.none_or]
  refine ⟨by rw [hlatest]; exact h.kept, fun hsome => ?_⟩
  rw [hlatest] at hsome
  rw [hcurrent, hkept]
  exact h.heard hsome

/-- The source has shown something new. -/
theorem Keeps.new (hcrash : pass.crash? = none)
    (hshown : pass.shown = .new (f below'.current.output))
    (hnew : below'.current.controlState = .new) (hkept : below'.kept = below'.current.output) :
    Keeps f (pass :: past) below' (f below'.current.output) := by
  have hlatest : latestNew? (pass :: past) = some (f below'.current.output) := by
    rw [latestNew?, Pass.new?_eq hcrash (by rw [hshown]; rfl), hshown]
    rfl
  refine ⟨by rw [hlatest]; rfl, fun _ => ⟨?_, Or.inr (by rw [hkept])⟩⟩
  rw [hnew]
  rintro ⟨⟩

/-- The source has shown nothing new. -/
theorem Keeps.quiet (h : Keeps f past below last) (hshown : pass.shown.controlState ≠ .new)
    (hadvances : below.Advances below')
    (hsame : below'.current.controlState = .same ∨ below'.current.controlState = .init ∨
      below'.current.controlState.isTerminal = true) : Keeps f (pass :: past) below' last := by
  have hlatest : latestNew? (pass :: past) = latestNew? past := by
    rw [latestNew?, Pass.new?_of_shown hshown, Option.none_or]
  refine ⟨by rw [hlatest]; exact h.kept, fun hsome => ?_⟩
  rw [hlatest] at hsome
  obtain ⟨hnotinit, hcomputed⟩ := h.heard hsome
  refine ⟨fun hinit => hnotinit (hadvances.init hinit), ?_⟩
  rcases hsame with hsame | hinit | hterminal
  · refine hcomputed.imp hadvances.ended fun hlast => ?_
    rw [hlast, hadvances.same hsame]
  · exact absurd (hadvances.init hinit) hnotinit
  · exact Or.inl hterminal

/-- What a mapped signal shows while its source shows the same as before. -/
theorem Keeps.same (h : Keeps f past below last) (hadvances : below.Advances below')
    (hsame : below'.current.controlState = .same)
    (hkept : below'.kept = below'.current.output) (hsome : latestNew? past ≠ none) :
    last = f below'.current.output := by
  obtain ⟨-, hterminal | hlast⟩ := h.heard hsome
  · have hended := hadvances.ended hterminal
    rw [hsame] at hended
    cases hended
  · rw [hlast, ← hkept, hadvances.same hsame]

/-- A mapped signal that shows no value. -/
theorem MapsLate.of_ne (hsource : ∃ source, pass.after.sources = [source])
    (hnew : pass.shown.controlState ≠ .new) (hsame : pass.shown.controlState ≠ .same) :
    MapsLate f past pass :=
  ⟨hsource, fun h => absurd h hnew, fun h => absurd h hsame, fun h => absurd h hsame⟩

/-- What a mapped signal keeps and shows after its source was pulled. What this shows decides it. -/
theorem Keeps.answered (h : Keeps f past below last) (hcrash : pass.crash? = none)
    (hshown : pass.shown = (below'.current.answer f last).2)
    (hsources : pass.after.sources = [below']) (hadvances : below.Advances below')
    (hvalue : ∀ v, below'.current.value? = some v → below'.kept = v) :
    Keeps f (pass :: past) below' (below'.current.answer f last).1 ∧ MapsLate f past pass := by
  have hkept : ∀ c, below'.current.controlState = c → c = .new ∨ c = .same →
      below'.kept = below'.current.output := by
    rintro c hstate hc
    refine hvalue _ ?_
    rw [Emission.value?, hstate]
    rcases hc with rfl | rfl <;> rfl
  unfold Emission.answer at hshown ⊢
  cases hstate : below'.current.controlState with
  | new =>
    rw [hstate] at hshown
    refine ⟨.new hcrash hshown hstate (hkept _ hstate (Or.inl rfl)), ⟨below', hsources⟩,
      fun _ => ?_, ?_, ?_⟩
    · rw [hsources, List.forall_mem_singleton, hshown]
      rfl
    · rw [hshown]
      rintro ⟨⟩
    · rw [hshown]
      rintro ⟨⟩
  | same =>
    rw [hstate] at hshown
    have hnew : pass.shown.controlState ≠ .new := by
      rw [hshown]
      rintro ⟨⟩
    refine ⟨h.quiet hnew hadvances (Or.inl hstate), ⟨below', hsources⟩,
      fun hnew' => absurd hnew' hnew, fun _ hsome => ?_, fun _ hnone => ?_⟩
    · rw [hsources, List.forall_mem_singleton, hshown]
      exact h.same hadvances hstate (hkept _ hstate (Or.inr rfl)) hsome
    · rw [hshown]
      show last = .null
      rw [h.kept, hnone]
      rfl
  | init | error | done =>
    rw [hstate] at hshown
    have hnew : pass.shown.controlState ≠ .new := by
      rw [hshown, hstate]
      rintro ⟨⟩
    refine ⟨h.quiet hnew hadvances (by simp [hstate, ControlState.isTerminal]),
      .of_ne ⟨below', hsources⟩ hnew ?_⟩
    rw [hshown, hstate]
    rintro ⟨⟩

/-- A mapped signal after some pulls, in all of which it has shown what it should. -/
structure Maps (f : Value → Value) (part : Part crashes book) : Prop where
  kept : ∃ below last current,
    part.signal = .mapped below (fun v => pure (.ok (f v))) last current ∧
      Keeps f part.past below last
  shows : ∀ pass earlier, pass :: earlier <:+ part.past → pass.crash? = none →
    MapsLate f earlier pass

/-- One more pull of a mapped signal. -/
theorem Maps.pulled {part : Part crashes book} {x : Exchange} {w : σ} (h : Maps f part)
    {source : Plan crashes book}
    {hf : ∀ v, Tame crashes book (pure (.ok (f v)) : World σ (Except Crash Value))}
    (hplan : part.plan = .mapped source (fun v => pure (.ok (f v))) hf)
    (hsound : part.plan.Sound part.signal x) (hboxes : part.plan.boxes.Nodup) :
    Maps f (part.pulled x w) := by
  obtain ⟨⟨below, last, current, hsignal, hkeeps⟩, hshows⟩ := h
  rw [hplan, hsignal] at hsound
  obtain ⟨_, _, _, hsame, hbelow, -, -⟩ := hsound
  injection hsame with hsource _ hlast hcurrent
  subst hsource
  rw [hplan, Plan.boxes] at hboxes
  have hpull := Plan.pulled hbelow hboxes w
  have hdone := perform_pull_mapped f below last current x w
  rw [← hsignal] at hdone
  change (part.pass x w).done = _ at hdone
  revert hpull hdone
  generalize perform below.pull x w = done
  obtain ⟨⟨⟨below', crash?⟩, x'⟩, w'⟩ := done
  intro hpull hdone
  cases crash? with
  | some crash =>
    obtain ⟨-, hcurrent, hkept⟩ := hpull.crash crash rfl
    have hcrash : (part.pass x w).crash? = some crash := by
      rw [Pass.crash?, hdone]
    have hafter : (part.pass x w).after
        = .mapped below' (fun v => pure (.ok (f v))) last current := by
      rw [Pass.after, hdone]
    refine ⟨⟨below', last, current, hafter, hkeeps.crashed hcrash hcurrent hkept⟩,
      forall_suffix_cons (fun hnone => ?_) hshows⟩
    rw [hcrash] at hnone
    cases hnone
  | none =>
    have hcrash : (part.pass x w).crash? = none := by
      rw [Pass.crash?, hdone]
    have hafter : (part.pass x w).after = .mapped below' (fun v => pure (.ok (f v)))
        (below'.current.answer f last).1 (below'.current.answer f last).2 := by
      rw [Pass.after, hdone]
    have hshown : (part.pass x w).shown = (below'.current.answer f last).2 := by
      rw [Pass.shown, hafter]
      rfl
    have hsources : (part.pass x w).after.sources = [below'] := by
      rw [hafter]
      rfl
    obtain ⟨hkeeps', hlate⟩ := hkeeps.answered hcrash hshown hsources hpull.advances
      fun v hv => hpull.sound.value hv
    exact ⟨⟨below', _, _, hafter, hkeeps'⟩, forall_suffix_cons (fun _ => hlate) hshows⟩

end Mapped

/-! ### Combined signals -/

/-- A pull of a pure function of several signals. -/
theorem perform_pull_combined (f : List Value → Value) (belows : List (Signal (World σ)))
    (last : Value) (current : Emission) (x : Exchange) (w : σ) :
    perform (Signal.combined belows (fun values => pure (.ok (f values))) last current).pull x w
      = let done := perform (Signal.pullAll belows) x w
        match done.1.1.2 with
        | some crash =>
          (((.combined done.1.1.1 (fun values => pure (.ok (f values))) last current, some crash),
            done.1.2), done.2)
        | none =>
          let shown := (Combination.of (done.1.1.1.map Signal.current)).answer f last
          (((.combined done.1.1.1 (fun values => pure (.ok (f values))) shown.1 shown.2, none),
            done.1.2), done.2) := by
  rw [Signal.pull_combined, perform_bind]
  dsimp only
  generalize perform (Signal.pullAll belows) x w = done
  obtain ⟨⟨⟨belows', crash?⟩, x'⟩, w'⟩ := done
  cases crash? with
  | some crash | none => rfl

/-- What a signal shows it keeps, and it keeps null where there is nothing to show yet. -/
structure Signal.Retains {m : Type → Type} (signal : Signal m) : Prop where
  value : ∀ v, signal.current.value? = some v → signal.kept = v
  init : signal.current.controlState = .init → signal.kept = .null

/-- Signals that are as their plans say. -/
theorem Plan.SoundAll.retains {plans : List (Plan crashes book)} {signals : List (Signal (World σ))}
    {x : Exchange} (h : SoundAll plans signals x) :
    signals.length = plans.length ∧ ∀ signal ∈ signals, signal.Retains := by
  induction plans generalizing signals with
  | nil =>
    obtain rfl : signals = [] := h
    exact ⟨rfl, by rintro _ ⟨⟩⟩
  | cons plan rest ih =>
    obtain ⟨below, others, rfl, hplan, hrest⟩ := h
    obtain ⟨hlength, hretains⟩ := ih hrest
    refine ⟨congrArg Nat.succ hlength, List.forall_mem_cons.mpr ⟨⟨?_, hplan.init⟩, hretains⟩⟩
    exact fun v hv => hplan.value hv

/-- A signal that has gone on to no new value keeps what it kept, unless it has come to its end. -/
theorem Signal.Retains.kept_eq {m : Type → Type} {before after : Signal m} (hbefore : before.Retains)
    (hafter : after.Retains) (hadvances : before.Advances after)
    (hnew : after.current.controlState = .new → before.current.value? = after.current.value?) :
    after.current.controlState.isTerminal = true ∨ after.kept = before.kept := by
  cases hstate : after.current.controlState with
  | new =>
    have hvalue : after.current.value? = some after.current.output := by
      rw [Emission.value?, hstate]
    right
    rw [hafter.value _ hvalue, hbefore.value _ ((hnew hstate).trans hvalue)]
  | same => exact Or.inr (hadvances.same hstate)
  | init =>
    right
    rw [hafter.init hstate, hbefore.init (hadvances.init hstate)]
  | error | done => exact Or.inl rfl

section Combined

variable {f : List Value → Value} {belows belows' : List (Signal (World σ))} {last : Value}
  {past : List (Pass σ)} {pass : Pass σ}

/-- Signals of which none has gone on to a new value keep what they kept, unless one has come to its
end. -/
theorem map_kept_eq (hadvances : List.Forall₂ Signal.Advances belows belows')
    (hbelows : ∀ below ∈ belows, below.Retains) (hbelows' : ∀ below ∈ belows', below.Retains)
    (hnew : ∀ p ∈ belows.zip belows', p.2.current.controlState = .new →
      p.1.current.value? = p.2.current.value?) :
    (∃ e ∈ belows'.map Signal.current, e.controlState.isTerminal = true) ∨
      belows'.map Signal.kept = belows.map Signal.kept := by
  induction hadvances with
  | nil => exact Or.inr rfl
  | cons hfirst hrest ih =>
    obtain ⟨hbelow, hothers⟩ := List.forall_mem_cons.mp hbelows
    obtain ⟨hbelow', hothers'⟩ := List.forall_mem_cons.mp hbelows'
    rw [List.zip_cons_cons, List.forall_mem_cons] at hnew
    simp only [List.map_cons, List.exists_mem_cons_iff]
    rcases hbelow.kept_eq hbelow' hfirst hnew.1 with hterminal | hkept
    · exact Or.inl (Or.inl hterminal)
    · refine (ih hothers hothers' hnew.2).imp Or.inr fun hrest => ?_
      rw [hkept, hrest]

/-- A combined signal keeps what it has last shown as new, and null before. While it has heard of
everything this is the function of what its inputs keep, unless one of them has come to its end. -/
structure Gathers (f : List Value → Value) (past : List (Pass σ))
    (belows : List (Signal (World σ))) (last : Value) : Prop where
  kept : last = (latestNew? past).getD .null
  heard : Undisturbed past →
    (∃ e ∈ belows.map Signal.current, e.controlState.isTerminal = true) ∨
      last = joined f ((belows.map Signal.kept).map some)

/-- Something new is shown. -/
theorem Gathers.new (hnew : pass.new? = some last)
    (hlast : last = joined f ((belows'.map Signal.kept).map some)) :
    Gathers f (pass :: past) belows' last := by
  refine ⟨?_, fun _ => Or.inr hlast⟩
  rw [latestNew?, hnew]
  rfl

/-- Nothing new is shown. -/
theorem Gathers.quiet (h : Gathers f past belows last) (hnew : pass.new? = none)
    (hadvances : List.Forall₂ Signal.Advances belows belows')
    (hkept : ¬ pass.Unheard →
      (∃ e ∈ belows'.map Signal.current, e.controlState.isTerminal = true) ∨
        belows'.map Signal.kept = belows.map Signal.kept) :
    Gathers f (pass :: past) belows' last := by
  refine ⟨?_, ?_⟩
  · rw [latestNew?, hnew, Option.none_or]
    exact h.kept
  · rintro (hsome | ⟨hunheard, hundisturbed⟩)
    · exact absurd hnew hsome
    · rcases hkept hunheard with hterminal | hkept
      · exact Or.inl hterminal
      · rw [hkept]
        exact (h.heard hundisturbed).imp_left (Signal.Advances.exists_terminal hadvances).2

/-- If a crash cut a pull short, the inputs before it have gone on, which may be unheard. -/
theorem Gathers.crashed (h : Gathers f past belows last) {crash : Crash}
    (hcrash : pass.crash? = some crash) (hbefore : pass.before.sources = belows)
    (hafter : pass.after.sources = belows')
    (hadvances : List.Forall₂ Signal.Advances belows belows')
    (hretains : ∀ below ∈ belows, below.Retains) (hretains' : ∀ below ∈ belows', below.Retains) :
    Gathers f (pass :: past) belows' last := by
  refine h.quiet (Pass.new?_of_crash hcrash) hadvances fun hunheard => ?_
  refine map_kept_eq hadvances hretains hretains' fun p hp hnew => ?_
  by_contra hother
  refine hunheard ⟨by rw [hcrash]; rintro ⟨⟩, p, ?_, hnew, hother⟩
  rw [hbefore, hafter]
  exact hp

/-- Signals that show values that are not null keep these. -/
theorem map_kept_of_present (hretains : ∀ below ∈ belows, below.Retains)
    (hrunning : ∀ e ∈ belows.map Signal.current, e.controlState.isTerminal = false)
    (hpresent : ∀ e ∈ belows.map Signal.current, e.isAbsent = false) :
    joined f ((belows.map Signal.kept).map some)
      = f (belows.map fun below => below.current.output) := by
  have hkept : belows.map Signal.kept = belows.map fun below => below.current.output := by
    refine List.map_congr_left fun below hbelow => (hretains below hbelow).value _ ?_
    have hcurrent := List.mem_map_of_mem (f := Signal.current) hbelow
    exact (Emission.value?_of_present (hrunning _ hcurrent) (hpresent _ hcurrent)).1
  have hnull := (Emission.values_eq_of_present hrunning hpresent).2
  rw [List.map_map] at hnull
  rw [hkept]
  exact joined_map_some f hnull

/-- If a signal shows no value yet, or null in its place, null is kept. -/
theorem joined_kept_of_absent (hretains : ∀ below ∈ belows, below.Retains)
    (habsent : ∃ e ∈ belows.map Signal.current, e.isAbsent = true) :
    joined f ((belows.map Signal.kept).map some) = .null := by
  obtain ⟨_, he, hnone⟩ := habsent
  obtain ⟨below, hbelow, rfl⟩ := List.mem_map.mp he
  have hkept : below.kept = .null := by
    cases hstate : below.current.controlState with
    | init => exact (hretains below hbelow).init hstate
    | new | same =>
      refine (hretains below hbelow).value _ ?_
      rw [Emission.isAbsent, hstate] at hnone
      rw [Emission.value?, hstate]
      cases houtput : below.current.output with
      | null => rfl
      | _ =>
        rw [houtput] at hnone
        cases hnone
    | error | done =>
      rw [Emission.isAbsent, hstate] at hnone
      cases hnone
  rw [joined, if_pos]
  rw [List.any_map, List.any_eq_true]
  exact ⟨below.kept, List.mem_map_of_mem hbelow, by rw [hkept]; rfl⟩

/-- What a combined signal shows while all its inputs show the same as before. -/
theorem Gathers.same (h : Gathers f past belows last) (hundisturbed : Undisturbed past)
    (hadvances : List.Forall₂ Signal.Advances belows belows')
    (hkept : belows'.map Signal.kept = belows.map Signal.kept)
    (hretains : ∀ below ∈ belows', below.Retains)
    (hrunning : ∀ e ∈ belows'.map Signal.current, e.controlState.isTerminal = false)
    (hpresent : ∀ e ∈ belows'.map Signal.current, e.isAbsent = false) :
    last = f (belows'.map fun below => below.current.output) := by
  rcases h.heard hundisturbed with hterminal | hlast
  · obtain ⟨e, he, hended⟩ := (Signal.Advances.exists_terminal hadvances).2 hterminal
    rw [hrunning e he] at hended
    cases hended
  · rw [hlast, ← hkept]
    exact map_kept_of_present hretains hrunning hpresent

section Answered

/-! What a combined signal keeps and shows after its inputs were pulled, case by case. -/

variable {n : Nat}

/-- An input has come to its end. -/
theorem Gathers.ended (h : Gathers f past belows last)
    (hadvances : List.Forall₂ Signal.Advances belows belows')
    (hinputs : pass.after.sources.length = n)
    (hended : ∃ e ∈ belows'.map Signal.current, e.controlState.isTerminal = true)
    (hshown : pass.shown.controlState.isTerminal = true) :
    Gathers f (pass :: past) belows' last ∧ CombinesLate f n past pass := by
  have hnew : pass.shown.controlState ≠ .new := by
    intro hstate
    rw [hstate] at hshown
    cases hshown
  have hsame : pass.shown.controlState ≠ .same := by
    intro hstate
    rw [hstate] at hshown
    cases hshown
  exact ⟨h.quiet (Pass.new?_of_shown hnew) hadvances fun _ => Or.inl hended,
    ⟨hinputs, fun hstate => absurd hstate hnew, fun hstate => absurd hstate hsame,
      fun hstate => absurd hstate hsame⟩⟩

/-- What shows something new does not repeat anything. -/
theorem CombinesLate.of_new (hinputs : pass.after.sources.length = n)
    (hshown : pass.shown.controlState = .new)
    (hvalues : pass.ShowsValues →
      pass.shown.output = f (pass.after.sources.map fun input => input.current.output)) :
    CombinesLate f n past pass := by
  have hsame : pass.shown.controlState ≠ .same := by
    rw [hshown]
    rintro ⟨⟩
  exact ⟨hinputs, fun _ => hvalues, fun hstate => absurd hstate hsame,
    fun hstate => absurd hstate hsame⟩

/-- An input has no value, and null is shown as something new. -/
theorem Gathers.absent (hcrash : pass.crash? = none) (hshown : pass.shown = .new .null)
    (hinputs : pass.after.sources.length = n) (hsources : pass.after.sources = belows')
    (hretains : ∀ below ∈ belows', below.Retains)
    (habsent : ∃ e ∈ belows'.map Signal.current, e.isAbsent = true) :
    Gathers f (pass :: past) belows' .null ∧ CombinesLate f n past pass := by
  have hstate : pass.shown.controlState = .new := by
    rw [hshown]
    rfl
  have hnew : pass.new? = some .null := by
    rw [Pass.new?_eq hcrash hstate, hshown]
    rfl
  refine ⟨.new hnew (joined_kept_of_absent hretains habsent).symm, .of_new hinputs hstate ?_⟩
  intro hvalues
  obtain ⟨_, he, hnone⟩ := habsent
  obtain ⟨below, hbelow, rfl⟩ := List.mem_map.mp he
  obtain ⟨hrunning, houtput⟩ := hvalues below (hsources ▸ hbelow)
  rw [Emission.isAbsent_eq_false hrunning houtput] at hnone
  cases hnone

/-- All inputs show the same as before. -/
theorem Gathers.unchanged (h : Gathers f past belows last) (hshown : pass.shown = .same last)
    (hinputs : pass.after.sources.length = n) (hsources : pass.after.sources = belows')
    (hadvances : List.Forall₂ Signal.Advances belows belows')
    (hretains : ∀ below ∈ belows, below.Retains) (hretains' : ∀ below ∈ belows', below.Retains)
    (hpresent : ∀ e ∈ belows'.map Signal.current, e.isAbsent = false)
    (hsame : ∀ e ∈ belows'.map Signal.current, e.controlState = .same) :
    Gathers f (pass :: past) belows' last ∧ CombinesLate f n past pass := by
  have hrunning : ∀ e ∈ belows'.map Signal.current, e.controlState.isTerminal = false := by
    intro e he
    rw [hsame e he]
    rfl
  have hnew : pass.shown.controlState ≠ .new := by
    rw [hshown]
    rintro ⟨⟩
  have hnone : ∀ p ∈ belows.zip belows', p.2.current.controlState = .new →
      p.1.current.value? = p.2.current.value? := by
    intro p hp hstate
    have hmem := List.mem_map_of_mem (f := Signal.current) (List.of_mem_zip hp).2
    rw [hsame _ hmem] at hstate
    cases hstate
  have hkept : belows'.map Signal.kept = belows.map Signal.kept := by
    rcases map_kept_eq hadvances hretains hretains' hnone with hterminal | hkept
    · obtain ⟨e, he, hended⟩ := hterminal
      rw [hrunning e he] at hended
      cases hended
    · exact hkept
  refine ⟨h.quiet (Pass.new?_of_shown hnew) hadvances fun _ => Or.inr hkept, hinputs,
    fun hstate => absurd hstate hnew, fun _ hundisturbed => ?_, fun _ => ?_⟩
  · rw [hshown, hsources]
    exact h.same hundisturbed hadvances hkept hretains' hrunning hpresent
  · rw [hshown]
    exact h.kept

/-- All inputs show values, and one of these is new. -/
theorem Gathers.changed (hcrash : pass.crash? = none)
    (hshown : pass.shown = .new (f ((belows'.map Signal.current).map Emission.output)))
    (hinputs : pass.after.sources.length = n) (hsources : pass.after.sources = belows')
    (hretains : ∀ below ∈ belows', below.Retains)
    (hrunning : ∀ e ∈ belows'.map Signal.current, e.controlState.isTerminal = false)
    (hpresent : ∀ e ∈ belows'.map Signal.current, e.isAbsent = false) :
    Gathers f (pass :: past) belows' (f ((belows'.map Signal.current).map Emission.output)) ∧
      CombinesLate f n past pass := by
  have hstate : pass.shown.controlState = .new := by
    rw [hshown]
    rfl
  have hnew : pass.new? = some (f ((belows'.map Signal.current).map Emission.output)) := by
    rw [Pass.new?_eq hcrash hstate, hshown]
    rfl
  have houtputs : (belows'.map Signal.current).map Emission.output
      = belows'.map fun below => below.current.output := List.map_map
  refine ⟨.new hnew ?_, .of_new hinputs hstate fun _ => ?_⟩
  · rw [map_kept_of_present hretains hrunning hpresent, ← houtputs]
  · rw [hshown, hsources, ← houtputs]
    rfl

/-- **What a combined signal keeps and shows** after its inputs were pulled. What these amount to
decides it. -/
theorem Gathers.answered (h : Gathers f past belows last) (hcrash : pass.crash? = none)
    (hshown : pass.shown = ((Combination.of (belows'.map Signal.current)).answer f last).2)
    (hsources : pass.after.sources = belows') (hlength : belows'.length = n)
    (hadvances : List.Forall₂ Signal.Advances belows belows')
    (hretains : ∀ below ∈ belows, below.Retains) (hretains' : ∀ below ∈ belows', below.Retains) :
    Gathers f (pass :: past) belows'
        ((Combination.of (belows'.map Signal.current)).answer f last).1 ∧
      CombinesLate f n past pass := by
  have hinputs : pass.after.sources.length = n := by
    rw [hsources]
    exact hlength
  have haccounts := Combination.accounts_of (belows'.map Signal.current)
  cases hof : Combination.of (belows'.map Signal.current) with
  | failed message =>
    rw [hof] at haccounts hshown
    cases haccounts with | failed _ hfailed =>
    obtain ⟨e, he, hstate⟩ := hfailed
    exact h.ended hadvances hinputs ⟨e, he, by rw [hstate]; rfl⟩ (by rw [hshown]; rfl)
  | finished =>
    rw [hof] at haccounts hshown
    cases haccounts with | finished hfinished =>
    obtain ⟨e, he, hstate⟩ := hfinished
    exact h.ended hadvances hinputs ⟨e, he, by rw [hstate]; rfl⟩ (by rw [hshown]; rfl)
  | absent =>
    rw [hof] at haccounts hshown
    cases haccounts with | absent _ habsent =>
    exact Gathers.absent hcrash hshown hinputs hsources hretains' habsent
  | unchanged =>
    rw [hof] at haccounts hshown
    cases haccounts with | unchanged hpresent hsame =>
    exact h.unchanged hshown hinputs hsources hadvances hretains hretains' hpresent hsame
  | changed outputs =>
    rw [hof] at haccounts hshown
    cases haccounts with | changed hrunning hpresent =>
    exact Gathers.changed hcrash hshown hinputs hsources hretains' hrunning hpresent

end Answered

/-- A combined signal of `n` inputs after some pulls, in all of which it has shown what it should. -/
structure Combines (f : List Value → Value) (n : Nat) (part : Part crashes book) : Prop where
  kept : ∃ belows last current,
    part.signal = .combined belows (fun values => pure (.ok (f values))) last current ∧
      Gathers f part.past belows last
  shows : ∀ pass earlier, pass :: earlier <:+ part.past → pass.crash? = none →
    CombinesLate f n earlier pass

/-- One more pull of a combined signal. -/
theorem Combines.pulled {part : Part crashes book} {x : Exchange} {w : σ}
    {inputs : List (Plan crashes book)} (h : Combines f inputs.length part)
    {hf : ∀ vs, Tame crashes book (pure (.ok (f vs)) : World σ (Except Crash Value))}
    (hplan : part.plan = .combined inputs (fun vs => pure (.ok (f vs))) hf)
    (hsound : part.plan.Sound part.signal x) (hboxes : part.plan.boxes.Nodup) :
    Combines f inputs.length (part.pulled x w) := by
  obtain ⟨⟨belows, last, current, hsignal, hgathers⟩, hshows⟩ := h
  rw [hplan, hsignal] at hsound
  obtain ⟨_, _, _, hsame, hbelows, -⟩ := hsound
  injection hsame with hinputs _ hlast hcurrent
  subst hinputs
  rw [hplan, Plan.boxes] at hboxes
  have hpull := Plan.pulledAll hbelows hboxes w
  have hdone := perform_pull_combined f belows last current x w
  rw [← hsignal] at hdone
  change (part.pass x w).done = _ at hdone
  have hbefore : (part.pass x w).before.sources = belows := by
    rw [Part.pass, hsignal]
    rfl
  revert hpull hdone
  generalize perform (Signal.pullAll belows) x w = done
  obtain ⟨⟨⟨belows', crash?⟩, x'⟩, w'⟩ := done
  intro hpull hdone
  have hadvances : List.Forall₂ Signal.Advances belows belows' := hpull.advances
  have hretains : ∀ below ∈ belows, below.Retains := hbelows.retains.2
  obtain ⟨hlength, hretains'⟩ : belows'.length = inputs.length ∧ ∀ below ∈ belows', below.Retains :=
    hpull.sound.retains
  cases crash? with
  | some crash =>
    have hcrash : (part.pass x w).crash? = some crash := by
      rw [Pass.crash?, hdone]
    have hafter : (part.pass x w).after
        = .combined belows' (fun vs => pure (.ok (f vs))) last current := by
      rw [Pass.after, hdone]
    have hsources : (part.pass x w).after.sources = belows' := by
      rw [hafter]
      rfl
    refine ⟨⟨belows', last, current, hafter, hgathers.crashed hcrash hbefore hsources hadvances
      hretains hretains'⟩, forall_suffix_cons (fun hnone => ?_) hshows⟩
    rw [hcrash] at hnone
    cases hnone
  | none =>
    have hcrash : (part.pass x w).crash? = none := by
      rw [Pass.crash?, hdone]
    have hafter : (part.pass x w).after = .combined belows' (fun vs => pure (.ok (f vs)))
        ((Combination.of (belows'.map Signal.current)).answer f last).1
        ((Combination.of (belows'.map Signal.current)).answer f last).2 := by
      rw [Pass.after, hdone]
    have hshown : (part.pass x w).shown
        = ((Combination.of (belows'.map Signal.current)).answer f last).2 := by
      rw [Pass.shown, hafter]
      rfl
    have hsources : (part.pass x w).after.sources = belows' := by
      rw [hafter]
      rfl
    obtain ⟨hgathers', hlate⟩ := hgathers.answered hcrash hshown hsources hlength hadvances hretains
      hretains'
    exact ⟨⟨belows', _, _, hafter, hgathers'⟩, forall_suffix_cons (fun _ => hlate) hshows⟩

end Combined

/-! ### Functions of running signals -/

/-- **Functions of running signals.** A pure function is made of signals that may have been pulled
before, in whatever way they were assembled and whatever crashed. Whenever a pull of it is not cut
short, it shows the function of what the signals show, or repeats what it has shown last. -/
theorem late_of_assembled {shelf : List (Part crashes book)} {x : Exchange} {w : σ}
    (h : Assembled shelf x w) {part : Part crashes book} (hpart : part ∈ shelf) :
    (∀ source f hf, part.plan = .mapped source (fun value => pure (.ok (f value))) hf →
      ∀ pass earlier, pass :: earlier <:+ part.past → pass.crash? = none →
        MapsLate f earlier pass) ∧
    (∀ inputs f hf, part.plan = .combined inputs (fun values => pure (.ok (f values))) hf →
      ∀ pass earlier, pass :: earlier <:+ part.past → pass.crash? = none →
        CombinesLate f inputs.length earlier pass) := by
  have hlate : ∀ part ∈ shelf,
      (∀ source f hf, part.plan = .mapped source (fun value => pure (.ok (f value))) hf →
        Maps f part) ∧
      (∀ inputs f hf, part.plan = .combined inputs (fun values => pure (.ok (f values))) hf →
        Combines f inputs.length part) := by
    refine h.forall_part ?_ ?_
    · intro plan signal x hsound hinit
      refine ⟨?_, ?_⟩
      · rintro source f hf rfl
        obtain ⟨below, last, current, rfl, -, hlinked, -⟩ := hsound
        have hstate : current.controlState = .init := congrArg Emission.controlState hinit
        refine ⟨⟨below, last, current, rfl, hlinked.init hstate, fun hsome => absurd rfl hsome⟩, ?_⟩
        intro pass earlier hsuffix
        cases List.suffix_nil.mp hsuffix
      · rintro inputs f hf rfl
        obtain ⟨belows, last, current, rfl, -, hlinked⟩ := hsound
        have hstate : current.controlState = .init := congrArg Emission.controlState hinit
        refine ⟨⟨belows, last, current, rfl, hlinked.init hstate, by rintro ⟨⟩⟩, ?_⟩
        intro pass earlier hsuffix
        cases List.suffix_nil.mp hsuffix
    · rintro part x w hsound hboxes ⟨hmaps, hcombines⟩
      refine ⟨fun source f hf hplan => ?_, fun inputs f hf hplan => ?_⟩
      · exact (hmaps source f hf hplan).pulled hplan hsound hboxes
      · exact (hcombines inputs f hf hplan).pulled hplan hsound hboxes
  obtain ⟨hmaps, hcombines⟩ := hlate part hpart
  exact ⟨fun source f hf hplan => (hmaps source f hf hplan).shows,
    fun inputs f hf hplan => (hcombines inputs f hf hplan).shows⟩

/-- Nobody writes anything in it. -/
def emptyBook : Unit → List Unit := fun _ => []

/-- Does not want a seven. -/
def touchy (value : Value) : World Unit (Except Crash Value) :=
  pure (if value = .nat 7 then .error (.saying "seven") else .ok value)

theorem tame_touchy (value : Value) : Tame Set.univ emptyBook (touchy value) :=
  ⟨Enters.pure _, fun _ _ _ _ => trivial⟩

/-- The list of one value. The source was pulled before, so the list is made after the next write
only. And the list of two values, of which one function crashes on the second: the list stays as it
was until something else is written. -/
theorem late_of_assembled_listed :
    (∃ (part : Part Set.univ emptyBook) (x : Exchange), Assembled [part] x () ∧
      part.past.reverse.map (fun pass => (pass.crash?, pass.shown))
        = [(none, .same .null), (none, .new (.array [.nat 2])), (none, .same (.array [.nat 2]))] ∧
      ∀ pass earlier, pass :: earlier <:+ part.past → pass.crash? = none →
        MapsLate (fun value => .array [value]) earlier pass) ∧
    (∃ (part : Part Set.univ emptyBook) (x : Exchange), Assembled [part] x () ∧
      part.past.reverse.map (fun pass => (pass.crash?, pass.shown))
        = [(none, .new (.array [.nat 1, .nat 1])),
          (some (.saying "seven"), .new (.array [.nat 1, .nat 1])),
          (none, .same (.array [.nat 1, .nat 1])), (none, .new (.array [.nat 2, .nat 2]))] ∧
      ∀ pass earlier, pass :: earlier <:+ part.past → pass.crash? = none →
        CombinesLate .array 2 earlier pass) := by
  have hempty : Assembled ([] : List (Part Set.univ emptyBook)) SafeObserver.oneSubject () :=
    .nothing _ _
  have hobserve : ∀ {shelf x}, Assembled (shelf : List (Part Set.univ emptyBook)) x () → _ :=
    fun h => h.observe (.ofSubject 0) (Source.onlyWrites_ofSubject 0) {} (by rintro _ ⟨⟩)
  constructor
  · have hmapped := (hobserve hempty).pull.map (fun value => pure (.ok (.array [value])))
      fun _ => Tame.ok _
    have hpulled := (hmapped.pull.push 0 (.next (.nat 2))).pull.pull
    exact ⟨_, _, hpulled, by decide +kernel,
      (late_of_assembled hpulled List.mem_cons_self).1 _ _ _ rfl⟩
  · have hcombined := Assembled.combine [_, _] (fun values => pure (.ok (.array values)))
      (fun _ => Tame.ok _) (hobserve ((hobserve hempty).map touchy tame_touchy))
    have hcrashed := (hcombined.pull.push 0 (.next (.nat 7))).pull.pull
    have hpulled := (hcrashed.push 0 (.next (.nat 2))).pull
    exact ⟨_, _, hpulled, by decide +kernel,
      (late_of_assembled hpulled List.mem_cons_self).2 _ _ _ rfl⟩

/-! ### Values that were not seen, and values that were not heard of -/

/-- A pull shows the same as before, and this is not the list of the values below. -/
structure Pass.IsStale (pass : Pass σ) : Prop where
  crash : pass.crash? = none
  same : pass.shown.controlState = .same
  values : pass.ShowsValues
  other : pass.shown.output ≠ .array (pass.after.sources.map fun source => source.current.output)

/-- A signal that was pulled is put into a list, alone, and the list was not made when it is first
shown as the same as before. So it is with the list of signals of which all were pulled. And if a
crash comes in between, the list of two signals shows what one of them is not any more. -/
theorem repeats_unseen :
    (∃ (part : Part Set.univ emptyBook) (pass : Pass Unit) (x : Exchange),
      Assembled [part] x () ∧ part.past = [pass] ∧ pass.IsStale ∧ ∃ source hf,
        part.plan = .mapped source (fun value => pure (.ok (.array [value]))) hf) ∧
    (∃ (part : Part Set.univ emptyBook) (pass : Pass Unit) (x : Exchange),
      Assembled [part] x () ∧ part.past = [pass] ∧ pass.IsStale ∧ ∃ source hf,
        part.plan = .combined [source] (fun values => pure (.ok (.array values))) hf) ∧
    (∃ (part : Part Set.univ emptyBook) (pass crashed first : Pass Unit) (x : Exchange),
      Assembled [part] x () ∧ part.past = [pass, crashed, first] ∧ first.shown.controlState = .new ∧
        pass.IsStale ∧ ∃ one other hf,
          part.plan = .combined [one, other] (fun values => pure (.ok (.array values))) hf) := by
  have hempty : Assembled ([] : List (Part Set.univ emptyBook)) SafeObserver.oneSubject () :=
    .nothing _ _
  have hobserve : ∀ {shelf x}, Assembled (shelf : List (Part Set.univ emptyBook)) x () → _ :=
    fun h => h.observe (.ofSubject 0) (Source.onlyWrites_ofSubject 0) {} (by rintro _ ⟨⟩)
  refine ⟨?_, ?_, ?_⟩
  · have hmapped := (hobserve hempty).pull.map (fun value => pure (.ok (.array [value])))
      fun _ => Tame.ok _
    exact ⟨_, _, _, hmapped.pull, rfl,
      ⟨by decide +kernel, by decide +kernel, by unfold Pass.ShowsValues; decide +kernel,
        by decide +kernel⟩, _, _, rfl⟩
  · have hcombined := Assembled.combine [_] (fun values => pure (.ok (.array values)))
      (fun _ => Tame.ok _) (hobserve hempty).pull
    exact ⟨_, _, _, hcombined.pull, rfl,
      ⟨by decide +kernel, by decide +kernel, by unfold Pass.ShowsValues; decide +kernel,
        by decide +kernel⟩, _, _, rfl⟩
  · have htouchy := hobserve ((hobserve hempty).map touchy tame_touchy)
    have hcombined := Assembled.combine [_, _] (fun values => pure (.ok (.array values)))
      (fun _ => Tame.ok _) htouchy
    have hpushed := hcombined.pull.push 0 (.next (.nat 7))
    exact ⟨_, _, _, _, _, hpushed.pull.pull, rfl, by decide +kernel,
      ⟨by decide +kernel, by decide +kernel, by unfold Pass.ShowsValues; decide +kernel,
        by decide +kernel⟩, _, _, _, rfl⟩

end Reactive
