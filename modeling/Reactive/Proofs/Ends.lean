import Reactive.Proofs.Notes
import Reactive.Proofs.Shelves

/-!
# Ends in trees of signals

A mapped or combined signal has no end of its own: it follows what is below. But base signals end for
good, and so, if no supplied code crashes, do trees of signals in the following sense. Once a tree
has shown an error it shows an error after every later pull, and once it was complete it stays
complete or shows an error, because another input may still fail. The function at the root is not
called any more. Below, everything goes on: every pull pulls every base signal once, and calls every
generator once whose own signal has not ended.

The calls of generators are counted by the entries that they make in a book.

## Main definitions

* `Pass.notes` — the notes of a pull
* `Complete` — a pull of everything in a tree
* `Final` — a pull after an end

## Main results

* `Pass.noted` — notes are those of the pull that they were taken of
* `ends_of_assembled`
-/

namespace Reactive

open World

variable {σ L : Type} {book : σ → List L}

/-! ### Notes -/

namespace Pass

/-- What the pull does when it takes notes. -/
def noted (pass : Pass σ) : (((Signal (World σ) × Option Crash) × List Note) × Exchange) × σ :=
  perform ((pass.before.notedPull []).run []) pass.exchange pass.world

/-- What was pulled and called in the pull. -/
def notes (pass : Pass σ) : List Note := pass.noted.1.1.2

/-- It does the same without notes. -/
theorem done_eq_noted (pass : Pass σ) :
    pass.done = ((pass.noted.1.1.1, pass.noted.1.2), pass.noted.2) := by
  rw [done, ← pass.before.erases_notedPull [] [], StateT.run'_eq, perform_map]
  rfl

/-- What the notes of the pull say. -/
theorem noted_notes (pass : Pass σ) : Signal.Noted pass.before [] pass.done.1.1 pass.notes := by
  obtain ⟨new, hnotes, hnoted⟩ :=
    perform_of_satisfiesM (pass.before.noted_pull [] []) pass.exchange pass.world
  rw [List.nil_append] at hnotes
  rw [done_eq_noted, notes, noted, hnotes]
  exact hnoted

end Pass

/-! ### Pulls of everything -/

/-- The pull was not cut short by a crash. It pulled every base signal of the tree once, from left to
right, and the generators of the plan made their entries, unless their signals had ended before. -/
structure Complete (plan : Plan ∅ book) (pass : Pass σ) : Prop where
  crash : pass.crash? = none
  /-- The notes are those of this pull. -/
  noted : pass.done = ((pass.noted.1.1.1, pass.noted.1.2), pass.noted.2)
  pulled : pass.notes.filterMap Note.pulled? = pass.before.bases []
  nodup : (pass.before.bases []).Nodup
  entries : book pass.done.2 = book pass.world ++ plan.calls pass.before

/-- What an earlier pull of the same signal has shown is not taken back: an error stays an error, and
what is complete stays so or fails. After either the function at the root is not called. -/
structure Final (later earlier : Pass σ) : Prop where
  error : earlier.shown.controlState = .error → later.shown.controlState = .error
  done : earlier.shown.controlState = .done →
    later.shown.controlState = .done ∨ later.shown.controlState = .error
  called : earlier.shown.controlState.isTerminal = true → Note.called [] ∉ later.notes

/-- All pulls of a part were complete, and what they have shown was not taken back. -/
structure Lasts (part : Part ∅ book) : Prop where
  complete : ∀ pass ∈ part.past, Complete part.plan pass
  final : part.past.Pairwise Final
  /-- What is shown now does not take back what was shown before. -/
  error : ∀ pass ∈ part.past, pass.shown.controlState = .error →
    part.signal.current.controlState = .error
  ended : ∀ pass ∈ part.past, pass.shown.controlState.isTerminal = true →
    part.signal.current.controlState.isTerminal = true

/-- A signal at an end is complete or has failed. -/
theorem ControlState.eq_of_isTerminal {c : ControlState} (h : c.isTerminal = true) :
    c = .done ∨ c = .error := by
  cases c with
  | done => exact Or.inl rfl
  | error => exact Or.inr rfl
  | init | new | same => cases h

/-- A pull where nothing can crash is complete. -/
theorem complete_pass {part : Part ∅ book} {x : Exchange} {w : σ}
    (h : part.plan.Pulled part.signal x w (part.pass x w).done) :
    Complete part.plan (part.pass x w) := by
  have hcrash : (part.pass x w).crash? = none := by
    cases hsome : (part.pass x w).crash? with
    | none => rfl
    | some crash =>
      obtain ⟨hmem, -⟩ := h.crash crash hsome
      cases hmem
  exact ⟨hcrash, (part.pass x w).done_eq_noted, (part.pass x w).noted_notes.pulled hcrash,
    part.signal.nodup_bases [], h.book rfl⟩

/-- A pull takes nothing back. -/
theorem Lasts.pulled {part : Part ∅ book} {x : Exchange} {w : σ} (h : Lasts part)
    (hpulled : part.plan.Pulled part.signal x w (part.pass x w).done) :
    Lasts (part.pulled x w) := by
  have hcomplete := complete_pass hpulled
  have hadvances : part.signal.Advances (part.pass x w).after := hpulled.advances
  have herror : ∀ pass ∈ part.past, pass.shown.controlState = .error →
      (part.pass x w).shown.controlState = .error :=
    fun pass hpass hstate => hadvances.error (h.error pass hpass hstate)
  have hended : ∀ pass ∈ part.past, pass.shown.controlState.isTerminal = true →
      (part.pass x w).shown.controlState.isTerminal = true :=
    fun pass hpass hstate => hadvances.ended (h.ended pass hpass hstate)
  refine ⟨List.forall_mem_cons.mpr ⟨hcomplete, h.complete⟩, List.pairwise_cons.mpr ⟨?_, h.final⟩,
    List.forall_mem_cons.mpr ⟨id, herror⟩, List.forall_mem_cons.mpr ⟨id, hended⟩⟩
  intro pass hpass
  refine ⟨herror pass hpass, fun hstate => ?_, fun hstate hcalled => ?_⟩
  · have hterminal : pass.shown.controlState.isTerminal = true := by
      rw [hstate]
      rfl
    exact ControlState.eq_of_isTerminal (hended pass hpass hterminal)
  · have hterminal := hended pass hpass hstate
    have hnew : (part.pass x w).shown.controlState = .new :=
      (part.pass x w).noted_notes.called hcomplete.crash hcalled
    rw [hnew] at hterminal
    cases hterminal

/-- **Ends are final in whole trees.** Signals are assembled where no supplied code can crash, except
generators, whose crashes are errors of their signals. Every pull of every signal is complete, and
none takes back an end that an earlier one has shown. -/
theorem ends_of_assembled {shelf : List (Part ∅ book)} {x : Exchange} {w : σ}
    (h : Assembled shelf x w) {part : Part ∅ book} (hpart : part ∈ shelf) :
    (∀ pass ∈ part.past, Complete part.plan pass) ∧ part.past.Pairwise Final := by
  have hlasts : ∀ part ∈ shelf, Lasts part := by
    refine h.forall_part ?_ ?_
    · intro plan signal x _ _
      exact ⟨by rintro _ ⟨⟩, List.Pairwise.nil, by rintro _ ⟨⟩, by rintro _ ⟨⟩⟩
    · intro part x w hsound hnodup hpart
      exact hpart.pulled (Plan.pulled hsound hnodup w)
  exact ⟨(hlasts part hpart).complete, (hlasts part hpart).final⟩

/-! ### A tree that ends -/

/-- Gives two numbers and then fails. It enters its name in the book. -/
def twice : Generator (World (List String)) where
  next := StateT.lift do
    let calls ← get
    set (calls ++ ["twice"])
    pure (.ok (if calls.length < 2 then .ok (.nat calls.length) else .error "dry"))

theorem enters_twice : Enters id ["twice"] twice.next :=
  ⟨OnlyWrites.lift _, fun _ _ => rfl⟩

/-- The list of what a subject holds and of what the generator gives. After the first pull the subject
completes. The generator fails when it is called for the third time, and is not called again. -/
theorem ends_of_assembled_twice :
    ∃ (part : Part ∅ (id : List String → List String)) (x : Exchange) (w : List String),
      Assembled [part] x w ∧ w = ["twice", "twice", "twice"] ∧
      (part.past.reverse.map Pass.shown = [.new (.array [.nat 1, .array [.nat 0]]), .done,
        .error "subsequent pull > error while executing generating function: dry",
        .error "subsequent pull > error while executing generating function: dry"]) ∧
      (part.past.map Pass.notes).head? = some [.pulled [0], .pulled [1, 0]] ∧
      (∀ pass ∈ part.past, Complete part.plan pass) ∧ part.past.Pairwise Final := by
  have hempty : Assembled ([] : List (Part ∅ (id : List String → List String)))
    SafeObserver.oneSubject [] := .nothing _ _
  have hgenerated := hempty.generate twice ["twice"] enters_twice fun _ _ => Tame.ok _
  have hmapped := hgenerated.map (fun value => pure (.ok (.array [value]))) fun _ => Tame.ok _
  have hobserved := hmapped.observe (.ofSubject 0) (Source.onlyWrites_ofSubject 0) {}
    (by rintro _ ⟨⟩)
  have hcombined := Assembled.combine [_, _] (fun values => pure (.ok (.array values)))
    (fun _ => Tame.ok _) hobserved
  have hpulled := (hcombined.pull.push 0 .complete).pull.pull.pull
  exact ⟨_, _, _, hpulled, by decide +kernel, by decide +kernel, by decide +kernel,
    ends_of_assembled hpulled List.mem_cons_self⟩

end Reactive
