import Reactive.Proofs.PlanPulls

/-!
# Signals that are assembled

Signals are made, pulled and put together at any time and in any order. Here they stand on a shelf.
A new signal is put on the shelf, a mapped signal takes its source from there and a combined signal
its inputs, and whatever stands on the shelf can be pulled. What a signal went through before it was
taken does not matter. In between other things happen, as long as they do nothing to mailboxes but
writing. For every signal on the shelf its own pulls are recorded, since it was put there.

Whatever is assembled is sound. So what holds of new signals and is kept by pulls of sound signals
holds of all signals on a shelf.

## Main definitions

* `Pass` — a pull, by what it began with
* `Part` — a signal on a shelf, with its plan and its past
* `Assembled` — what can come to stand on a shelf, in what exchange and what world

## Main results

* `Assembled.onShelf` — everything on a shelf is sound, and no two parts share a mailbox
* `Assembled.forall_part` — the induction over everything that happens
-/

namespace Reactive

open World

variable {σ L : Type} {crashes : Set Crash} {book : σ → List L}

/-! ### Shelves -/

/-- A pull of a signal, by what it began with. -/
structure Pass (σ : Type) where
  before : Signal (World σ)
  exchange : Exchange
  world : σ

namespace Pass

/-- What the pull did. -/
def done (pass : Pass σ) : ((Signal (World σ) × Option Crash) × Exchange) × σ :=
  perform pass.before.pull pass.exchange pass.world

/-- The signal after the pull. -/
def after (pass : Pass σ) : Signal (World σ) := pass.done.1.1.1

/-- The crash that cut the pull short, if one did. -/
def crash? (pass : Pass σ) : Option Crash := pass.done.1.1.2

/-- What the signal showed after the pull. -/
def shown (pass : Pass σ) : Emission := pass.after.current

end Pass

/-- A signal on a shelf. -/
structure Part (crashes : Set Crash) (book : σ → List L) where
  plan : Plan crashes book
  signal : Signal (World σ)
  /-- The pulls of this signal, the latest first. -/
  past : List (Pass σ)

namespace Part

/-- A part that was not pulled yet. -/
def new (plan : Plan crashes book) (signal : Signal (World σ)) : Part crashes book :=
  ⟨plan, signal, []⟩

/-- A pull of a part that begins in an exchange and a world. -/
def pass (part : Part crashes book) (x : Exchange) (w : σ) : Pass σ := ⟨part.signal, x, w⟩

/-- A part after a pull. -/
def pulled (part : Part crashes book) (x : Exchange) (w : σ) : Part crashes book :=
  ⟨part.plan, (part.pass x w).after, part.pass x w :: part.past⟩

end Part

/-- What can come to stand on a shelf, in what exchange and what world. -/
inductive Assembled : List (Part crashes book) → Exchange → σ → Prop
  | nothing (x : Exchange) (w : σ) : Assembled [] x w
  /-- A signal with a generator is made. -/
  | generate {shelf : List (Part crashes book)} {x : Exchange} {w : σ} (g : Generator (World σ))
      (entries : List L) (hnext : Enters book entries g.next)
      (hcompare : ∀ a b, Tame crashes book (g.compare a b)) (h : Assembled shelf x w) :
    Assembled (.new (.generated g entries hnext hcompare) (perform (Signal.generate g) x w).1.1 ::
        shelf) (perform (Signal.generate g) x w).1.2 (perform (Signal.generate g) x w).2
  /-- A signal with a source is made. -/
  | observe {shelf : List (Part crashes book)} {x : Exchange} {w : σ} (source : Source (World σ))
      (hsource : source.OnlyWrites) (o : Observer (World σ)) (htame : o.IsTame crashes book)
      (h : Assembled shelf x w) :
    Assembled (.new (.observed x.mailboxes.length o htame)
        (perform (Signal.observe source o) x w).1.1 :: shelf)
      (perform (Signal.observe source o) x w).1.2 (perform (Signal.observe source o) x w).2
  /-- A signal is mapped. -/
  | map {part : Part crashes book} {shelf : List (Part crashes book)} {x : Exchange} {w : σ}
      (f : Value → World σ (Except Crash Value)) (hf : ∀ value, Tame crashes book (f value))
      (h : Assembled (part :: shelf) x w) :
    Assembled (.new (.mapped part.plan f hf) (.map part.signal f) :: shelf) x w
  /-- Signals are combined. -/
  | combine {shelf : List (Part crashes book)} {x : Exchange} {w : σ}
      (inputs : List (Part crashes book)) (f : List Value → World σ (Except Crash Value))
      (hf : ∀ values, Tame crashes book (f values)) (h : Assembled (inputs ++ shelf) x w) :
    Assembled (.new (.combined (inputs.map Part.plan) f hf)
      (.combine f (inputs.map Part.signal)) :: shelf) x w
  /-- A signal is pulled. -/
  | pull {part : Part crashes book} {shelf : List (Part crashes book)} {x : Exchange} {w : σ}
      (h : Assembled (part :: shelf) x w) :
    Assembled (part.pulled x w :: shelf) (part.pass x w).done.1.2 (part.pass x w).done.2
  /-- Something else happens. -/
  | act {shelf : List (Part crashes book)} {x : Exchange} {w : σ} (action : World σ Unit)
      (haction : OnlyWrites action) (h : Assembled shelf x w) :
    Assembled shelf (perform action x w).1.2 (perform action x w).2
  /-- The order on the shelf does not matter. -/
  | permute {shelf shelf' : List (Part crashes book)} {x : Exchange} {w : σ}
      (hperm : shelf.Perm shelf') (h : Assembled shelf x w) : Assembled shelf' x w
  /-- A signal is thrown away. -/
  | discard {part : Part crashes book} {shelf : List (Part crashes book)} {x : Exchange} {w : σ}
      (h : Assembled (part :: shelf) x w) : Assembled shelf x w

/-- Pushes to subjects are among what else happens. -/
theorem Assembled.push {shelf : List (Part crashes book)} {x : Exchange} {w : σ}
    (h : Assembled shelf x w) (id : SubjectId) (p : Push) : Assembled shelf (x.push id p) w :=
  h.act (modifyThe Exchange fun x => x.push id p)
    (OnlyWrites.modifyGet fun x => Exchange.Receives.push x id p)

/-! ### Several plans -/

namespace Plan

theorem boxesAll_eq_flatMap (plans : List (Plan crashes book)) :
    boxesAll plans = plans.flatMap boxes := by
  induction plans with
  | nil => rw [boxesAll, List.flatMap_nil]
  | cons plan rest ih => rw [boxesAll, List.flatMap_cons, ih]

/-- Several parts are sound if each of them is. -/
theorem soundAll_iff {parts : List (Part crashes book)} {x : Exchange} :
    SoundAll (parts.map Part.plan) (parts.map Part.signal) x
      ↔ ∀ part ∈ parts, part.plan.Sound part.signal x := by
  induction parts with
  | nil =>
    constructor
    · rintro - _ ⟨⟩
    · intro _
      rfl
  | cons part rest ih =>
    rw [List.forall_mem_cons, ← ih]
    constructor
    · rintro ⟨_, _, hsignals, hpart, hrest⟩
      obtain ⟨rfl, rfl⟩ := List.cons.inj hsignals
      exact ⟨hpart, hrest⟩
    · rintro ⟨hpart, hrest⟩
      exact ⟨_, _, rfl, hpart, hrest⟩

end Plan

/-! ### New signals -/

/-- A new signal with a generator. -/
theorem Generator.perform_generate (crashes : Set Crash) (g : Generator (World σ)) (x : Exchange)
    (w : σ) :
    ∃ signal, perform (Signal.generate g) x w = ((signal, x), w) ∧ g.Sound crashes signal ∧
      signal.current = .init := by
  refine ⟨.generated ((Generator.definition (World σ)).realize g
    (BaseSignal.started (Generator.transitions (m := World σ)) Generator.initialModel)) .init, ?_,
    Or.inl ⟨.fresh, _, rfl, rfl, rfl, rfl, rfl⟩, rfl⟩
  rw [Signal.generate, Generator.start_eq, pure_bind]
  rfl

/-- A new signal with a source has a new mailbox. -/
theorem Observer.perform_observe (crashes : Set Crash) {source : Source (World σ)}
    (hsource : source.OnlyWrites) (o : Observer (World σ)) (x : Exchange) (w : σ) :
    x.Receives (perform (Signal.observe source o) x w).1.2 ∧
      o.Sound crashes x.mailboxes.length (perform (Signal.observe source o) x w).1.1
        (perform (Signal.observe source o) x w).1.2 ∧
      (perform (Signal.observe source o) x w).1.1.current = .init := by
  have hreceives : x.openMailbox.2.Receives
      (perform (source.subscribe x.mailboxes.length) x.openMailbox.2 w).1.2 :=
    (hsource x.mailboxes.length).perform x.openMailbox.2 w
  have hobserve : perform (Signal.observe source o) x w
      = ((SafeObserver.opened o x.mailboxes.length
            (perform (source.subscribe x.mailboxes.length) x.openMailbox.2 w).1.1,
          (perform (source.subscribe x.mailboxes.length) x.openMailbox.2 w).1.2),
        (perform (source.subscribe x.mailboxes.length) x.openMailbox.2 w).2) := by
    rw [perform, SafeObserver.run_observe_opened]
    rfl
  rw [hobserve]
  have hdescribes := SafeObserver.describes_opened (n := StateM σ) o hreceives
    (perform (source.subscribe x.mailboxes.length) x.openMailbox.2 w).1.1
  refine ⟨(Exchange.Receives.openMailbox x).trans hreceives, ⟨?_, Or.inl ⟨_, hdescribes⟩⟩, rfl⟩
  obtain ⟨_, _, -, -, -, hlength⟩ := hdescribes
  exact hlength

/-! ### Everything on a shelf -/

/-- Everything on a shelf is sound, and no two parts share a mailbox. -/
structure OnShelf (shelf : List (Part crashes book)) (x : Exchange) : Prop where
  sound : ∀ part ∈ shelf, part.plan.Sound part.signal x
  nodup : (shelf.flatMap fun part => part.plan.boxes).Nodup

namespace OnShelf

variable {part : Part crashes book} {shelf : List (Part crashes book)} {x x' : Exchange}

/-- Writing is harmless. -/
theorem receive (h : OnShelf shelf x) (hreceives : x.Receives x') : OnShelf shelf x' :=
  ⟨fun part hpart => (h.sound part hpart).receive fun mailbox _ => hreceives mailbox, h.nodup⟩

theorem tail (h : OnShelf (part :: shelf) x) : OnShelf shelf x := by
  have hnodup := h.nodup
  rw [List.flatMap_cons, List.nodup_append'] at hnodup
  exact ⟨fun other hother => h.sound other (List.mem_cons_of_mem _ hother), hnodup.2.1⟩

/-- A part is put in front that has other mailboxes. -/
theorem cons (h : OnShelf shelf x) (hpart : part.plan.Sound part.signal x)
    (hnodup : part.plan.boxes.Nodup)
    (hother : ∀ mailbox ∈ part.plan.boxes, ∀ other ∈ shelf, mailbox ∉ other.plan.boxes) :
    OnShelf (part :: shelf) x := by
  refine ⟨List.forall_mem_cons.mpr ⟨hpart, h.sound⟩, ?_⟩
  rw [List.flatMap_cons, List.nodup_append']
  refine ⟨hnodup, h.nodup, fun mailbox hmem hshelf => ?_⟩
  obtain ⟨other, hmother, hbox⟩ := List.mem_flatMap.mp hshelf
  exact hother mailbox hmem other hmother hbox

end OnShelf

/-- **Everything that is assembled is sound.** The induction is on all that happened; what happens to
one part is writing at most to the others. -/
theorem Assembled.onShelf {shelf : List (Part crashes book)} {x : Exchange} {w : σ}
    (h : Assembled shelf x w) : OnShelf shelf x := by
  induction h with
  | nothing x w => exact ⟨by rintro _ ⟨⟩, List.nodup_nil⟩
  | @generate shelf x w g entries hnext hcompare _ ih =>
    obtain ⟨signal, hgenerate, hsound, -⟩ := Generator.perform_generate crashes g x w
    rw [hgenerate]
    refine ih.cons hsound ?_ ?_
    · exact List.nodup_nil
    · rintro _ ⟨⟩
  | @observe shelf x w source hsource o htame _ ih =>
    obtain ⟨hreceives, hsound, -⟩ := Observer.perform_observe crashes hsource o x w
    refine (ih.receive hreceives).cons hsound ?_ ?_
    · exact List.nodup_singleton _
    · intro mailbox hmem other hother hbox
      obtain rfl := List.mem_singleton.mp hmem
      exact Nat.lt_irrefl _ ((ih.sound other hother).lt_length _ hbox)
  | @map part shelf x w f hf _ ih =>
    refine ⟨List.forall_mem_cons.mpr ⟨?_, ih.tail.sound⟩, ih.nodup⟩
    exact ⟨part.signal, .null, .init, rfl, ih.sound part List.mem_cons_self, Linked.fresh _,
      fun _ => rfl⟩
  | @combine shelf x w inputs f hf _ ih =>
    obtain ⟨hsound, hnodup⟩ := ih
    obtain ⟨hinputs, hshelf⟩ := List.forall_mem_append.mp hsound
    refine ⟨List.forall_mem_cons.mpr ⟨?_, hshelf⟩, ?_⟩
    · exact ⟨inputs.map Part.signal, .null, .init, rfl, Plan.soundAll_iff.mpr hinputs,
        Linked.fresh _⟩
    · rw [List.flatMap_append] at hnodup
      rw [List.flatMap_cons]
      show (Plan.boxesAll (inputs.map Part.plan) ++ _).Nodup
      rw [Plan.boxesAll_eq_flatMap, List.flatMap_map]
      exact hnodup
  | @pull part shelf x w _ ih =>
    have hnodup := ih.nodup
    rw [List.flatMap_cons, List.nodup_append'] at hnodup
    obtain ⟨hpart, -, hdisjoint⟩ := hnodup
    have hpulled := Plan.pulled (ih.sound part List.mem_cons_self) hpart w
    refine ⟨List.forall_mem_cons.mpr ⟨hpulled.sound, fun other hother => ?_⟩, ih.nodup⟩
    refine (ih.tail.sound other hother).receive fun mailbox hbox => ?_
    refine hpulled.elsewhere mailbox fun hmem => hdisjoint hmem ?_
    exact List.mem_flatMap.mpr ⟨other, hother, hbox⟩
  | act action haction _ ih => exact ih.receive (haction.perform _ _)
  | permute hperm _ ih =>
    refine ⟨fun part hpart => ih.sound part (hperm.mem_iff.mpr hpart), ?_⟩
    exact (hperm.flatMap_right _).nodup_iff.mp ih.nodup
  | discard _ ih => exact ih.tail

/-- **What holds of new signals and is kept by pulls holds of all signals on a shelf.** -/
theorem Assembled.forall_part {I : Part crashes book → Prop}
    (hnew : ∀ plan signal x, plan.Sound signal x → signal.current = .init → I (.new plan signal))
    (hpull : ∀ part x w, part.plan.Sound part.signal x → part.plan.boxes.Nodup → I part →
      I (part.pulled x w))
    {shelf : List (Part crashes book)} {x : Exchange} {w : σ} (h : Assembled shelf x w) :
    ∀ part ∈ shelf, I part := by
  have hfirst : ∀ {part : Part crashes book} {shelf x w}, Assembled (part :: shelf) x w →
      part.plan.Sound part.signal x ∧ part.plan.boxes.Nodup := by
    intro part shelf x w h
    have honshelf := h.onShelf
    have hnodup := honshelf.nodup
    rw [List.flatMap_cons, List.nodup_append'] at hnodup
    exact ⟨honshelf.sound part List.mem_cons_self, hnodup.1⟩
  induction h with
  | nothing x w => rintro _ ⟨⟩
  | @generate shelf x w g entries hnext hcompare h ih =>
    refine List.forall_mem_cons.mpr
      ⟨hnew _ _ _ (hfirst (h.generate g entries hnext hcompare)).1 ?_, ih⟩
    obtain ⟨signal, hgenerate, -, hinit⟩ := Generator.perform_generate crashes g x w
    rw [hgenerate]
    exact hinit
  | @observe shelf x w source hsource o htame h ih =>
    refine List.forall_mem_cons.mpr
      ⟨hnew _ _ _ (hfirst (h.observe source hsource o htame)).1 ?_, ih⟩
    exact (Observer.perform_observe crashes hsource o x w).2.2
  | map f hf h ih =>
    refine List.forall_mem_cons.mpr ⟨hnew _ _ _ (hfirst (h.map f hf)).1 rfl, ?_⟩
    exact (List.forall_mem_cons.mp ih).2
  | combine inputs f hf h ih =>
    refine List.forall_mem_cons.mpr ⟨hnew _ _ _ (hfirst (h.combine inputs f hf)).1 rfl, ?_⟩
    exact (List.forall_mem_append.mp ih).2
  | @pull part shelf x w h ih =>
    obtain ⟨hpart, hshelf⟩ := List.forall_mem_cons.mp ih
    obtain ⟨hsound, hnodup⟩ := hfirst h
    exact List.forall_mem_cons.mpr ⟨hpull part x w hsound hnodup hpart, hshelf⟩
  | act _ _ _ ih => exact ih
  | permute hperm _ ih => exact fun part hpart => ih part (hperm.mem_iff.mpr hpart)
  | discard _ ih => exact (List.forall_mem_cons.mp ih).2

end Reactive
