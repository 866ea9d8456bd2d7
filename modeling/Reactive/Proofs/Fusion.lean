import Reactive.Proofs.Rules

/-!
# Fusion of mapped signals

Mapping twice is mapping once, by one function after the other. The two keep different things: when
a signal is mapped twice both results are kept. But a result is replayed only after an emission
that is the same as before, and then the inner result is not looked at any more. So both go by the
same rule, even if the signal says that nothing changed before it was ever new, and if it shows
values again after it has failed or was complete.

If in addition a signal repeats its latest new output whenever it says that nothing changed, what
is shown above is always the function of what is shown below.

## Main definitions

* `mapRule` — the rule of mapped signals
* `andThen` — one function after another
* `Emission.replaying` — what is shown above when there is nothing new below
* `Emission.Repeating` — what is the same as before is the latest new output
* `Sight.Maps` — what is shown above is the function of what is shown below

## Main results

* `Rule.kept_mapStep` — what a mapped signal keeps is its latest new output
* `Signal.coupled_pull_mappedTwice` — pulls of a signal that is mapped twice
* `Signal.MapsSoFar.satisfiesM_pull` — pulls while the signal below repeats
* `Signal.play_map_map_eq` — mapping twice is mapping once
-/

namespace Reactive

variable {m : Type → Type}

/-! ### The rule -/

section Functions

variable [Monad m]

/-- The rule of mapped signals. The function is called when there is something new below. -/
def mapRule (f : Value → m (Except Crash Value)) : Rule m Emission := fun newest? below =>
  match below.controlState with
  | .new => Except.map Emission.new <$> f below.output
  | .same => pure (.ok (.same (newest?.getD .null)))
  | .init | .error | .done => pure (.ok below)

/-- One function after another, unless the first crashes. -/
def andThen (f g : Value → m (Except Crash Value)) (v : Value) : m (Except Crash Value) := do
  match ← f v with
  | .ok result => g result
  | .error crash => pure (.error crash)

end Functions

/-! ### Nothing new below -/

namespace Emission

/-- What a mapped signal shows when there is nothing new below, if `last` is its last result. -/
def replaying (last : Value) (e : Emission) : Emission :=
  if e.controlState = .same then .same last else e

@[simp] theorem controlState_replaying (last : Value) (e : Emission) :
    (e.replaying last).controlState = e.controlState := by
  rw [replaying]
  split
  · next hsame => exact hsame.symm
  · rfl

/-- Of two results that are replayed the first does not matter. -/
@[simp] theorem replaying_replaying (first second : Value) (e : Emission) :
    (e.replaying first).replaying second = e.replaying second := by
  rw [replaying, controlState_replaying]
  by_cases hsame : e.controlState = .same
  · rw [if_pos hsame, replaying, if_pos hsame]
  · rw [if_neg hsame, replaying, if_neg hsame, replaying, if_neg hsame]

end Emission

section Steps

variable [Monad m] {f : Value → m (Except Crash Value)} {below : Emission}

theorem Signal.mapStep_of_ne_new (h : below.controlState ≠ .new) (last : Value) :
    mapStep f last below = pure (.ok (last, below.replaying last)) := by
  obtain ⟨state, output⟩ := below
  cases state with
  | new => exact absurd rfl h
  | init | same | error | done => rfl

theorem mapRule_of_ne_new (h : below.controlState ≠ .new) (newest? : Option Value) :
    mapRule f newest? below = pure (.ok (below.replaying (newest?.getD .null))) := by
  obtain ⟨state, output⟩ := below
  cases state with
  | new => exact absurd rfl h
  | init | same | error | done => rfl

theorem mapRule_of_new (h : below.controlState = .new) (newest? : Option Value) :
    mapRule f newest? below = Except.map Emission.new <$> f below.output := by
  rw [mapRule, h]

variable [LawfulMonad m]

theorem Signal.mapStep_of_new (h : below.controlState = .new) (last : Value) :
    mapStep f last below = Except.map (fun v => (v, Emission.new v)) <$> f below.output := by
  rw [mapStep, h, map_eq_pure_bind]
  refine bind_congr fun result => ?_
  cases result with
  | ok v => rfl
  | error crash => rfl

/-- **What a mapped signal keeps is its latest new output.** -/
theorem Rule.kept_mapStep (last : Option Value) (below : Emission) :
    Signal.mapStep f (last.getD .null) below
      = Except.map (fun e => (kept (last.getD .null) e, e)) <$> mapRule f last below := by
  by_cases hnew : below.controlState = .new
  · rw [Signal.mapStep_of_new hnew, mapRule_of_new hnew, Functor.map_map]
    congr 1
    funext result
    cases result with
    | ok v => rfl
    | error crash => rfl
  · rw [Signal.mapStep_of_ne_new hnew, mapRule_of_ne_new hnew, map_pure, Except.map, kept,
      Emission.controlState_replaying, if_neg hnew]

end Steps

/-! ### Emissions that repeat -/

namespace Emission

/-- Whatever is the same as before is the latest new output. The latest comes first. -/
def Repeating : List Emission → Prop
  | [] => True
  | e :: earlier => (e.controlState = .same → newest? earlier = some e.output) ∧ Repeating earlier

instance decidableRepeating : (emissions : List Emission) → Decidable (Repeating emissions)
  | [] => inferInstanceAs (Decidable True)
  | _ :: earlier =>
    have := decidableRepeating earlier
    inferInstanceAs (Decidable (_ ∧ _))

end Emission

namespace Sight

/-- What the signal below emitted in a pull that was not given up. -/
def told? (sight : Sight Emission) : Option Emission :=
  if sight.crash? = none then some sight.below else none

theorem filterMap_told?_of_told {sight : Sight Emission} (h : sight.crash? = none)
    (earlier : List (Sight Emission)) :
    (sight :: earlier).filterMap told? = sight.below :: earlier.filterMap told? :=
  List.filterMap_cons_some (if_pos h)

/-- Pulls of a mapped signal, the latest first. Whenever its source has only repeated its latest new
outputs up to then, and shows a value, what is shown above is the function of this value, and it is
as new as the value is. -/
def Maps (f : Value → Value) : List (Sight Emission) → Prop
  | [] => True
  | sight :: earlier =>
    (sight.crash? = none → Emission.Repeating ((sight :: earlier).filterMap told?) →
      sight.below.controlState = .new ∨ sight.below.controlState = .same →
      sight.shown = ⟨sight.below.controlState, f sight.below.output⟩) ∧ Maps f earlier

end Sight

namespace Signal

@[simp] theorem current_mapped (s : Signal m) (f : Value → m (Except Crash Value)) (last : Value)
    (e : Emission) : (mapped s f last e).current = e := rfl

/-- What a mapped signal is a function of. -/
def source : Signal m → Signal m
  | mapped source _ _ _ => source
  | s => s

variable [Monad m]

/-- A mapped signal that has shown some emissions, and has this source. -/
def mappedAfter (f : Value → m (Except Crash Value)) (past : List Emission) (source : Signal m) :
    Signal m :=
  mapped source f ((Emission.newest? past).getD .null) (past.headD .init)

variable [LawfulMonad m]

/-- **A signal that is mapped twice goes by the rule of one function after the other.** What the
inner signal keeps does not matter. -/
theorem coupled_pull_mappedTwice (f g : Value → m (Except Crash Value)) (past : List Emission)
    (s : Signal m) (last : Value) (inner : Emission) :
    Coupled
      (fun done next =>
        (∃ last' inner', done.1 = mappedAfter g next.1 (mapped next.2.1 f last' inner')) ∧
        Sight.of (fun t => t.source.source.current) done = next.2.2)
      (mappedAfter g past (mapped s f last inner)).pull
      ((mapRule (andThen f g)).pull Signal.pull current past s) := by
  rw [mappedAfter, Signal.pull, Signal.pull, Rule.pull, bind_assoc]
  refine Coupled.bind_left fun done => ?_
  obtain ⟨s', crash?⟩ := done
  cases crash? with
  | some crash =>
    dsimp only
    rw [pure_bind]
    exact Coupled.pure ⟨⟨last, inner, rfl⟩, rfl⟩
  | none =>
    dsimp only
    by_cases hnew : s'.current.controlState = .new
    · -- Both functions are called, unless the first crashes.
      rw [mapStep_of_new hnew, mapRule_of_new hnew, andThen, bind_map_left, bind_assoc,
        map_bind, bind_assoc]
      refine Coupled.bind_left fun result => ?_
      cases result with
      | error crash =>
        simp only [Except.map, pure_bind, map_pure]
        exact Coupled.pure ⟨⟨last, inner, rfl⟩, rfl⟩
      | ok v =>
        simp only [Except.map, pure_bind, current_mapped]
        rw [mapStep_of_new rfl, bind_map_left, bind_map_left]
        refine Coupled.bind_left fun result => ?_
        cases result with
        | error crash => exact Coupled.pure ⟨⟨v, .new v, rfl⟩, rfl⟩
        | ok w => exact Coupled.pure ⟨⟨v, .new v, rfl⟩, rfl⟩
    · -- Whatever is replayed inside, outside the last result is shown.
      have hinner : (s'.current.replaying last).controlState ≠ .new := by
        rwa [Emission.controlState_replaying]
      rw [mapStep_of_ne_new hnew, mapRule_of_ne_new hnew]
      simp only [pure_bind, current_mapped, mapStep_of_ne_new hinner]
      refine Coupled.pure ⟨⟨last, s'.current.replaying last, ?_⟩, ?_⟩
      · rw [mappedAfter, Emission.newest?_cons, Emission.controlState_replaying, if_neg hnew,
          Emission.replaying_replaying]
        rfl
      · rw [Emission.replaying_replaying]
        rfl

/-! ### The function of what is below -/

theorem mapStep_pure (f : Value → Value) (last : Value) (below : Emission) :
    mapStep (m := m) (fun v => pure (.ok (f v))) last below
      = pure (.ok (if below.controlState = .new then (f below.output, .new (f below.output))
          else (last, below.replaying last))) := by
  by_cases hnew : below.controlState = .new
  · rw [mapStep_of_new hnew, map_pure, if_pos hnew]
    rfl
  · rw [mapStep_of_ne_new hnew, if_neg hnew]

/-- A signal that is mapped by a pure function, after some pulls. It keeps the function of the
latest new output of its source. -/
structure MapsSoFar (f : Value → Value) (earlier : List (Sight Emission)) (t : Signal m) :
    Prop where
  kept : ∃ s last e, t = mapped s (fun v => pure (.ok (f v))) last e ∧
    last = ((Emission.newest? (earlier.filterMap Sight.told?)).map f).getD .null
  maps : Sight.Maps f earlier

/-- **What a mapped signal shows is the function of what is shown below**, if this repeats. -/
theorem MapsSoFar.satisfiesM_pull {f : Value → Value} {earlier : List (Sight Emission)}
    {t : Signal m} (h : t.MapsSoFar f earlier) :
    SatisfiesM
      (fun done => done.1.MapsSoFar f (Sight.of (fun t => t.source.current) done :: earlier))
      t.pull := by
  obtain ⟨⟨s, last, e, rfl, hlast⟩, hmaps⟩ := h
  rw [Signal.pull]
  refine SatisfiesM.trivial.bind fun done _ => ?_
  obtain ⟨s', crash?⟩ := done
  cases crash? with
  | some crash =>
    refine SatisfiesM.pure ⟨⟨s', last, e, rfl, hlast⟩, ?_, hmaps⟩
    rintro ⟨⟩
  | none =>
    dsimp only
    rw [mapStep_pure, pure_bind]
    by_cases hnew : s'.current.controlState = .new
    · rw [if_pos hnew]
      refine SatisfiesM.pure ⟨⟨s', _, _, rfl, ?_⟩, fun _ _ _ => ?_, hmaps⟩
      · rw [Sight.filterMap_told?_of_told rfl, Emission.newest?_cons]
        simp [Sight.of, source, hnew]
      · simp [Sight.of, source, hnew, Emission.new]
    · rw [if_neg hnew]
      refine SatisfiesM.pure ⟨⟨s', last, _, rfl, ?_⟩, fun _ hrepeating hshows => ?_, hmaps⟩
      · rw [Sight.filterMap_told?_of_told rfl, Emission.newest?_cons, hlast]
        simp [Sight.of, source, hnew]
      · rw [Sight.filterMap_told?_of_told rfl] at hrepeating
        have hsame : s'.current.controlState = .same := hshows.resolve_left hnew
        have hlatest := hrepeating.1 hsame
        rw [hlatest, Option.map_some, Option.getD_some] at hlast
        show s'.current.replaying last = ⟨s'.current.controlState, f s'.current.output⟩
        rw [Emission.replaying, if_pos hsame, hsame, hlast]
        rfl

/-! ### Runs -/

/-- **Mapping twice is mapping once.** Whatever the signal shows, whatever the functions do, however
often the results are pulled, and whatever happens in between: a signal that is mapped twice goes by
the rule of one function after the other, and so does the signal that is mapped by this function.
Both are called once for every new output of the signal, and else not at all. If the function is
pure, and the signal repeats its latest new output whenever it says that nothing changed, what is
shown above is the function of what is shown below. -/
theorem play_map_map_eq (f g : Value → m (Except Crash Value)) (s : Signal m)
    (turns : List (Turn m)) :
    List.map (Sight.of fun t => t.source.source.current) <$> ((s.map f).map g).play turns
        = (mapRule (andThen f g)).play Signal.pull current turns [] s ∧
      List.map (Sight.of fun t => t.source.current) <$> (s.map (andThen f g)).play turns
        = (mapRule (andThen f g)).play Signal.pull current turns [] s ∧
      ∀ h : Value → Value,
        SatisfiesM
          (fun dones => Sight.Maps h (dones.map (Sight.of fun t => t.source.current)).reverse)
          ((s.map fun v => pure (.ok (h v))).play turns) := by
  refine ⟨?_, ?_, fun h => ?_⟩
  · refine Rule.map_play_eq
      (R := fun past u t => ∃ last inner, t = mappedAfter g past (mapped u f last inner))
      (fun past u t ht => ?_) turns ⟨.null, .init, rfl⟩
    obtain ⟨last, inner, rfl⟩ := ht
    exact coupled_pull_mappedTwice f g past u last inner
  · refine Rule.map_play_eq_of_step (fun u last e => mapped u (andThen f g) last e)
      (fun u last e => ?_) Rule.kept_mapStep (fun _ _ _ _ => rfl) turns s
    rw [Signal.pull]
    refine bind_congr fun done => ?_
    obtain ⟨u', crash?⟩ := done
    cases crash? with
    | some crash => rfl
    | none => rfl
  · have hnew : (s.map fun v => pure (.ok (h v))).MapsSoFar h
        (([] : List (Signal m × Option Crash)).map (Sight.of fun t => t.source.current)) :=
      ⟨⟨s, .null, .init, rfl, rfl⟩, trivial⟩
    have hplay := satisfiesM_play
      (I := fun earlier t => t.MapsSoFar h (earlier.map (Sight.of fun t => t.source.current)))
      (fun _ _ hsofar => hsofar.satisfiesM_pull) turns hnew
    refine hplay.imp fun {dones} ⟨_, hsofar⟩ => ?_
    rw [List.append_nil, List.map_reverse] at hsofar
    exact hsofar.maps

/-- A function that puts a value beside its own name, and notes the call. -/
def labelled (name : String) (v : Value) : StateM Desk (Except Crash Value) :=
  modifyGet fun desk =>
    (.ok (.array [.string name, v]), { desk with calls := desk.calls ++ [[.string name, v]] })

/-- What a signal shows while the tape lasts, and what was called. -/
def shownAlong (s : Signal (StateM Desk)) (tape : List Emission) :
    List Emission × List (List Value) :=
  let dones := (s.play (List.replicate tape.length .pull)).run ⟨tape, []⟩
  (dones.1.map fun done => done.1.current, dones.2.calls)

/-- Nothing changes before there is a value, and later a failure is overcome. -/
def unsteady : List Emission :=
  [.same (.nat 1), .new (.nat 1), .same (.nat 1), .error "stuck", .new (.nat 2), .done,
    .same (.nat 2)]

/-- Only latest new values are repeated. -/
def steady : List Emission := [.new (.nat 1), .error "stuck", .same (.nat 1), .new (.nat 2)]

theorem play_map_map_eq_unsteady :
    List.map (Sight.of fun t => t.source.source.current) <$>
          ((scripted.map (labelled "f")).map (labelled "g")).play (List.replicate 7 .pull)
        = List.map (Sight.of fun t => t.source.current) <$>
          (scripted.map (andThen (labelled "f") (labelled "g"))).play (List.replicate 7 .pull) ∧
      shownAlong ((scripted.map (labelled "f")).map (labelled "g")) unsteady
        = ([.same .null, .new (.array [.string "g", .array [.string "f", .nat 1]]),
            .same (.array [.string "g", .array [.string "f", .nat 1]]), .error "stuck",
            .new (.array [.string "g", .array [.string "f", .nat 2]]), .done,
            .same (.array [.string "g", .array [.string "f", .nat 2]])],
          [[.string "f", .nat 1], [.string "g", .array [.string "f", .nat 1]],
            [.string "f", .nat 2], [.string "g", .array [.string "f", .nat 2]]]) ∧
      Sight.Maps (fun v => .array [v])
        ((((scripted.map fun v => pure (.ok (.array [v]))).play (List.replicate 4 .pull)).run
          ⟨steady, []⟩).1.map (Sight.of fun t => t.source.current)).reverse ∧
      Emission.Repeating steady.reverse ∧
      (shownAlong (scripted.map fun v => pure (.ok (.array [v]))) steady).1
        = [.new (.array [.nat 1]), .error "stuck", .same (.array [.nat 1]),
          .new (.array [.nat 2])] := by
  obtain ⟨htwice, honce, -⟩ :=
    play_map_map_eq (labelled "f") (labelled "g") scripted (List.replicate 7 .pull)
  have hsteady := (play_map_map_eq (labelled "f") (labelled "g") scripted
    (List.replicate 4 .pull)).2.2 fun v => .array [v]
  exact ⟨htwice.trans honce.symm, by decide +kernel, satisfiesM_iff_run.mp hsteady ⟨steady, []⟩,
    by decide +kernel, by decide +kernel⟩

end Signal

end Reactive
