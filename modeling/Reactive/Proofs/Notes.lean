import Reactive.Proofs.Coupling
import Reactive.Signal

/-!
# What a pull pulls and calls

A pull of a signal pulls the base signals below it and calls functions on the way. Here a pull also
takes notes of this. The signals of a tree are told apart by their addresses: the empty address is
that of the root, and the address of an input has one more number at its end, its position.

Taking notes changes nothing. If no crash ends the pull, every base signal is pulled exactly once,
from left to right, whatever it shows. The function at the root is called only to show something
new.

## Main definitions

* `Note`, `Signal.bases` — notes, and the addresses of the base signals of a tree
* `Signal.notedPull` — a pull that takes notes

## Main results

* `Signal.erases_notedPull` — taking notes changes nothing
* `Signal.nodup_bases` — base signals have different addresses
* `Signal.noted_pull` — what the notes of a pull say
-/

namespace Reactive

variable {m : Type → Type} {α β : Type}

/-! ### Notes -/

/-- What is noted of a pull. -/
inductive Note where
  /-- The base signal at this address was pulled. -/
  | pulled (address : List Nat)
  /-- The function of the signal at this address was called. -/
  | called (address : List Nat)
  deriving DecidableEq

namespace Note

/-- Where something was done. -/
def address : Note → List Nat
  | pulled address | called address => address

/-- Which base signal was pulled, if one was. -/
def pulled? : Note → Option (List Nat)
  | pulled address => some address
  | called _ => none

end Note

section

variable [Monad m]

/-- Code that is noted down before it runs. -/
def noting (note : Note) (code : m α) : StateT (List Note) m α := do
  modify fun notes => notes ++ [note]
  StateT.lift code

/-- Code that takes notes does what the other code does. -/
def Erases (noted : StateT (List Note) m α) (code : m α) : Prop :=
  ∀ notes, noted.run' notes = code

variable [LawfulMonad m]

namespace Erases

theorem pure (a : α) : Erases (Pure.pure a : StateT (List Note) m α) (Pure.pure a) :=
  fun _ => map_pure ..

theorem bind {noted : StateT (List Note) m α} {code : m α} {next : α → StateT (List Note) m β}
    {next' : α → m β} (hcode : Erases noted code) (hnext : ∀ a, Erases (next a) (next' a)) :
    Erases (noted >>= next) (code >>= next') := by
  intro notes
  rw [← hcode notes, StateT.run'_eq, StateT.run_bind, map_bind, StateT.run'_eq, bind_map_left]
  exact bind_congr fun done => hnext done.1 done.2

theorem noting (note : Note) (code : m α) : Erases (noting note code) code := by
  intro notes
  have hrun : (Reactive.noting note code).run notes
      = (fun a => (a, notes ++ [note])) <$> code := by
    rw [Reactive.noting, StateT.run_bind, map_eq_pure_bind]
    exact pure_bind ..
  rw [StateT.run'_eq, hrun, Functor.map_map, id_map']

end Erases

end

/-! ### Addresses -/

namespace Signal

mutual

/-- The addresses of the base signals of a signal that has an address itself. Base signals are those
at the leaves of the tree. -/
def bases : Signal m → (address : List Nat) → List (List Nat)
  | generated _ _, address | observed _ _ _ _, address | foreign _ _, address => [address]
  | mapped source _ _ _, address => source.bases (address ++ [0])
  | combined inputs _ _ _, address => basesAll inputs address 0

/-- The addresses of the base signals of inputs from a position on. -/
def basesAll : List (Signal m) → (address : List Nat) → (position : Nat) → List (List Nat)
  | [], _, _ => []
  | s :: rest, address, position =>
    s.bases (address ++ [position]) ++ basesAll rest address (position + 1)

end

mutual

/-- Base signals have longer addresses. -/
theorem isPrefix_of_mem_bases : ∀ (s : Signal m) {address base : List Nat},
    base ∈ s.bases address → address <+: base
  | generated _ _, _, _, h | observed _ _ _ _, _, _, h | foreign _ _, _, _, h => by
    rw [bases, List.mem_singleton] at h
    exact h ▸ List.prefix_rfl
  | mapped source _ _ _, address, _, h => by
    rw [bases] at h
    exact (List.prefix_append address [0]).trans (source.isPrefix_of_mem_bases h)
  | combined inputs _ _ _, address, _, h => by
    rw [bases] at h
    obtain ⟨position, -, hposition⟩ := isPrefix_of_mem_basesAll inputs h
    exact (List.prefix_append address [position]).trans hposition

theorem isPrefix_of_mem_basesAll : ∀ (signals : List (Signal m)) {address base : List Nat}
    {position : Nat}, base ∈ basesAll signals address position →
    ∃ i, position ≤ i ∧ address ++ [i] <+: base
  | [], _, _, _, h => by
    rw [basesAll] at h
    cases h
  | s :: rest, address, _, position, h => by
    rw [basesAll, List.mem_append] at h
    rcases h with h | h
    · exact ⟨position, Nat.le_refl _, s.isPrefix_of_mem_bases h⟩
    · obtain ⟨i, hi, hprefix⟩ := isPrefix_of_mem_basesAll rest h
      exact ⟨i, Nat.le_of_succ_le hi, hprefix⟩

end

/-- Inputs at different positions have no base signals in common. -/
theorem position_eq {address base : List Nat} {i j : Nat} (hi : address ++ [i] <+: base)
    (hj : address ++ [j] <+: base) : i = j := by
  have hprefix : address ++ [i] <+: address ++ [j] :=
    List.prefix_of_prefix_length_le hi hj (by simp)
  have heq : address ++ [i] = address ++ [j] := hprefix.eq_of_length (by simp)
  simpa using heq

mutual

/-- **No two base signals have the same address.** -/
theorem nodup_bases : ∀ (s : Signal m) (address : List Nat), (s.bases address).Nodup
  | generated _ _, _ | observed _ _ _ _, _ | foreign _ _, _ => by
    rw [bases]
    exact List.nodup_singleton _
  | mapped source _ _ _, address => by
    rw [bases]
    exact source.nodup_bases (address ++ [0])
  | combined inputs _ _ _, address => by
    rw [bases]
    exact nodup_basesAll inputs address 0

theorem nodup_basesAll : ∀ (signals : List (Signal m)) (address : List Nat) (position : Nat),
    (basesAll signals address position).Nodup
  | [], _, _ => by
    rw [basesAll]
    exact List.nodup_nil
  | s :: rest, address, position => by
    rw [basesAll]
    refine (s.nodup_bases _).append (nodup_basesAll rest address (position + 1)) ?_
    intro base hfirst hrest
    obtain ⟨i, hi, hprefix⟩ := isPrefix_of_mem_basesAll rest hrest
    have heq : position = i := position_eq (s.isPrefix_of_mem_bases hfirst) hprefix
    omega

end

/-! ### Pulls that take notes -/

variable [Monad m]

mutual

/-- A pull of a signal that has an address. It is noted which base signals are pulled and which
functions are called. -/
def notedPull : Signal m → (address : List Nat) → StateT (List Note) m (Signal m × Option Crash)
  | generated automaton current, address =>
    noting (.pulled address) (generated automaton current).pull
  | observed automaton collect subscription current, address =>
    noting (.pulled address) (observed automaton collect subscription current).pull
  | mapped source f last current, address => do
    match ← source.notedPull (address ++ [0]) with
    | (source', some crash) => pure (mapped source' f last current, some crash)
    | (source', none) =>
      match ← mapStep (fun v => noting (.called address) (f v)) last source'.current with
      | .ok (last', emission) => pure (mapped source' f last' emission, none)
      | .error crash => pure (mapped source' f last current, some crash)
  | combined inputs f last current, address => do
    match ← notedPullAll inputs address 0 with
    | (inputs', some crash) => pure (combined inputs' f last current, some crash)
    | (inputs', none) =>
      match ← combineStep (fun values => noting (.called address) (f values)) last
          (inputs'.map Signal.current) with
      | .ok (last', emission) => pure (combined inputs' f last' emission, none)
      | .error crash => pure (combined inputs' f last current, some crash)
  | foreign signal current, address => noting (.pulled address) (foreign signal current).pull

/-- Pulls of inputs from a position on. -/
def notedPullAll : List (Signal m) → (address : List Nat) → (position : Nat) →
    StateT (List Note) m (List (Signal m) × Option Crash)
  | [], _, _ => pure ([], none)
  | s :: rest, address, position => do
    match ← s.notedPull (address ++ [position]) with
    | (s', some crash) => pure (s' :: rest, some crash)
    | (s', none) =>
      let (rest', crash?) ← notedPullAll rest address (position + 1)
      pure (s' :: rest', crash?)

end

variable [LawfulMonad m]

theorem erases_mapStep {noted : Value → StateT (List Note) m (Except Crash Value)}
    {f : Value → m (Except Crash Value)} (h : ∀ v, Erases (noted v) (f v)) (last : Value)
    (below : Emission) : Erases (mapStep noted last below) (mapStep f last below) := by
  unfold mapStep
  cases below.controlState with
  | new =>
    refine (h below.output).bind fun result => ?_
    cases result with
    | ok value => exact Erases.pure _
    | error crash => exact Erases.pure _
  | same => exact Erases.pure _
  | init | error | done => exact Erases.pure _

theorem erases_combineStep {noted : List Value → StateT (List Note) m (Except Crash Value)}
    {f : List Value → m (Except Crash Value)} (h : ∀ values, Erases (noted values) (f values))
    (last : Value) (emissions : List Emission) :
    Erases (combineStep noted last emissions) (combineStep f last emissions) := by
  unfold combineStep
  cases Combination.of emissions with
  | changed outputs =>
    refine (h outputs).bind fun result => ?_
    cases result with
    | ok value => exact Erases.pure _
    | error crash => exact Erases.pure _
  | failed _ | finished | absent | unchanged => exact Erases.pure _

mutual

/-- **Taking notes changes nothing.** -/
theorem erases_notedPull : ∀ (s : Signal m) (address : List Nat),
    Erases (s.notedPull address) s.pull
  | generated _ _, _ | observed _ _ _ _, _ | foreign _ _, _ => by
    rw [notedPull]
    exact Erases.noting _ _
  | mapped source f last current, address => by
    rw [notedPull, pull]
    refine (source.erases_notedPull (address ++ [0])).bind fun done => ?_
    obtain ⟨source', crash?⟩ := done
    cases crash? with
    | some crash => exact Erases.pure _
    | none =>
      refine (erases_mapStep (fun v => Erases.noting _ (f v)) last source'.current).bind ?_
      intro result
      cases result with
      | ok shown => exact Erases.pure _
      | error crash => exact Erases.pure _
  | combined inputs f last current, address => by
    rw [notedPull, pull]
    refine (erases_notedPullAll inputs address 0).bind fun done => ?_
    obtain ⟨inputs', crash?⟩ := done
    cases crash? with
    | some crash => exact Erases.pure _
    | none =>
      refine (erases_combineStep (fun values => Erases.noting _ (f values)) last
        (inputs'.map Signal.current)).bind ?_
      intro result
      cases result with
      | ok shown => exact Erases.pure _
      | error crash => exact Erases.pure _

theorem erases_notedPullAll : ∀ (signals : List (Signal m)) (address : List Nat) (position : Nat),
    Erases (notedPullAll signals address position) (pullAll signals)
  | [], _, _ => by
    rw [notedPullAll, pullAll]
    exact Erases.pure _
  | s :: rest, address, position => by
    rw [notedPullAll, pullAll]
    refine (s.erases_notedPull (address ++ [position])).bind fun done => ?_
    obtain ⟨s', crash?⟩ := done
    cases crash? with
    | some crash => exact Erases.pure _
    | none =>
      refine (erases_notedPullAll rest address (position + 1)).bind fun later => ?_
      exact Erases.pure _

end

/-! ### What the notes say -/

/-- What is true of the notes that a pull adds to those from before. -/
structure Noted (s : Signal m) (address : List Nat) (done : Signal m × Option Crash)
    (new : List Note) : Prop where
  under : ∀ note ∈ new, address <+: note.address
  /-- Without a crash every base signal is pulled once. -/
  pulled : done.2 = none → new.filterMap Note.pulled? = s.bases address
  /-- Without a crash the function at the root is called only to show something new. -/
  called : done.2 = none → Note.called address ∈ new → done.1.current.controlState = .new

/-- What is true of the notes that pulls of inputs add. -/
structure NotedAll (signals : List (Signal m)) (address : List Nat) (position : Nat)
    (done : List (Signal m) × Option Crash) (new : List Note) : Prop where
  under : ∀ note ∈ new, ∃ i, position ≤ i ∧ address ++ [i] <+: note.address
  pulled : done.2 = none → new.filterMap Note.pulled? = basesAll signals address position

/-- Code adds such notes to those from before. -/
def Adds (P : α → List Note → Prop) (code : StateT (List Note) m α) : Prop :=
  ∀ notes, SatisfiesM (fun done => ∃ new, done.2 = notes ++ new ∧ P done.1 new) (code.run notes)

namespace Adds

variable {P : α → List Note → Prop} {Q : β → List Note → Prop}

theorem pure {a : α} (h : P a []) : Adds P (Pure.pure a : StateT (List Note) m α) := by
  intro notes
  rw [StateT.run_pure]
  exact SatisfiesM.pure ⟨[], (List.append_nil notes).symm, h⟩

theorem bind {code : StateT (List Note) m α} {next : α → StateT (List Note) m β}
    (hcode : Adds P code)
    (hnext : ∀ a new, P a new → Adds (fun b later => Q b (new ++ later)) (next a)) :
    Adds Q (code >>= next) := by
  intro notes
  rw [StateT.run_bind]
  refine (hcode notes).bind ?_
  rintro ⟨a, notes'⟩ ⟨new, hnotes, hnew⟩
  obtain rfl : notes' = notes ++ new := hnotes
  refine (hnext a new hnew (notes ++ new)).imp fun ⟨later, hnotes, hlater⟩ => ?_
  exact ⟨new ++ later, by rw [hnotes, List.append_assoc], hlater⟩

theorem noting (note : Note) (code : m α) : Adds (fun _ new => new = [note]) (noting note code) := by
  intro notes
  rw [Reactive.noting, StateT.run_bind]
  refine (SatisfiesM.pure (p := fun done => done = (⟨⟩, notes ++ [note])) rfl).bind ?_
  rintro _ rfl
  rw [StateT.run_lift]
  exact SatisfiesM.trivial.bind fun a _ => SatisfiesM.pure ⟨[note], rfl, rfl⟩

end Adds

/-- At most the function of this signal is called, and then to show something new. -/
def CalledOnly (address : List Nat) (result : Except Crash (Value × Emission))
    (new : List Note) : Prop :=
  new = [] ∨
    new = [.called address] ∧ ∀ shown, result = .ok shown → shown.2.controlState = .new

theorem adds_mapStep (f : Value → m (Except Crash Value)) (address : List Nat) (last : Value)
    (below : Emission) : Adds (CalledOnly address)
      (mapStep (fun v => noting (.called address) (f v)) last below) := by
  unfold mapStep
  cases below.controlState with
  | new =>
    refine (Adds.noting (.called address) (f below.output)).bind ?_
    rintro result _ rfl
    cases result with
    | ok value => exact Adds.pure (Or.inr ⟨rfl, by rintro _ ⟨⟩; rfl⟩)
    | error crash => exact Adds.pure (Or.inr ⟨rfl, by rintro _ ⟨⟩⟩)
  | same => exact Adds.pure (Or.inl rfl)
  | init | error | done => exact Adds.pure (Or.inl rfl)

theorem adds_combineStep (f : List Value → m (Except Crash Value)) (address : List Nat)
    (last : Value) (emissions : List Emission) : Adds (CalledOnly address)
      (combineStep (fun values => noting (.called address) (f values)) last emissions) := by
  unfold combineStep
  cases Combination.of emissions with
  | changed outputs =>
    refine (Adds.noting (.called address) (f outputs)).bind ?_
    rintro result _ rfl
    cases result with
    | ok value => exact Adds.pure (Or.inr ⟨rfl, by rintro _ ⟨⟩; rfl⟩)
    | error crash => exact Adds.pure (Or.inr ⟨rfl, by rintro _ ⟨⟩⟩)
  | failed _ | finished | absent | unchanged => exact Adds.pure (Or.inl rfl)

omit [Monad m] [LawfulMonad m] in
/-- A base signal is pulled, and that is all. -/
theorem noted_base {s : Signal m} {address : List Nat} (hbases : s.bases address = [address])
    (done : Signal m × Option Crash) : Noted s address done [.pulled address] := by
  refine ⟨?_, fun _ => hbases.symm, ?_⟩
  · intro note hnote
    obtain rfl := List.mem_singleton.mp hnote
    exact List.prefix_rfl
  · intro _ hcalled
    cases List.mem_singleton.mp hcalled

omit [Monad m] [LawfulMonad m] in
/-- The notes of a pull of inputs, and then perhaps the note of a call. -/
theorem noted_append {s s' : Signal m} {address : List Nat} {below new : List Note}
    {crash? : Option Crash} (result : Except Crash (Value × Emission))
    (hunder : ∀ note ∈ below, ∃ i, address ++ [i] <+: note.address)
    (hpulled : crash? = none → below.filterMap Note.pulled? = s.bases address)
    (hcalled : CalledOnly address result new)
    (hshown : crash? = none → new = [] ∨ ∃ shown, result = .ok shown ∧ s'.current = shown.2) :
    Noted s address (s', crash?) (below ++ new) := by
  have hnotbelow : Note.called address ∉ below := by
    intro hmem
    obtain ⟨i, hprefix⟩ := hunder _ hmem
    have hlength := hprefix.length_le
    simp [Note.address] at hlength
  have hnone : new.filterMap Note.pulled? = [] := by
    rcases hcalled with rfl | ⟨rfl, -⟩
    · rfl
    · rfl
  constructor
  case under =>
    intro note hnote
    rcases List.mem_append.mp hnote with hbelow | hnew
    · obtain ⟨i, hprefix⟩ := hunder note hbelow
      exact (List.prefix_append address [i]).trans hprefix
    · rcases hcalled with rfl | ⟨rfl, -⟩
      · cases hnew
      · obtain rfl := List.mem_singleton.mp hnew
        exact List.prefix_rfl
  case pulled =>
    intro hcrash
    rw [List.filterMap_append, hpulled hcrash, hnone, List.append_nil]
  case called =>
    intro hcrash hmem
    have hnew : Note.called address ∈ new := (List.mem_append.mp hmem).resolve_left hnotbelow
    rcases hcalled with rfl | ⟨-, hresult⟩
    · cases hnew
    · rcases hshown hcrash with rfl | ⟨shown, hok, hcurrent⟩
      · cases hnew
      · rw [show (s', crash?).1.current = shown.2 from hcurrent]
        exact hresult shown hok

mutual

/-- **What the notes of a pull say.** -/
theorem noted_pull : ∀ (s : Signal m) (address : List Nat),
    Adds (Noted s address) (s.notedPull address)
  | generated _ _, address | observed _ _ _ _, address | foreign _ _, address => by
    rw [notedPull]
    intro notes
    refine (Adds.noting _ _ notes).imp fun {done} ⟨new, hnotes, hnew⟩ => ?_
    subst hnew
    exact ⟨_, hnotes, noted_base (by rw [bases]) done.1⟩
  | mapped source f last current, address => by
    rw [notedPull]
    refine (source.noted_pull (address ++ [0])).bind ?_
    rintro ⟨source', crash?⟩ below hbelow
    have hunder : ∀ note ∈ below, ∃ i, address ++ [i] <+: note.address :=
      fun note hnote => ⟨0, hbelow.under note hnote⟩
    cases crash? with
    | some crash =>
      refine Adds.pure (noted_append (.error crash) hunder ?_ (Or.inl rfl) ?_)
      · rintro ⟨⟩
      · rintro ⟨⟩
    | none =>
      have hpulled :
          below.filterMap Note.pulled? = (mapped source f last current).bases address := by
        rw [bases]
        exact hbelow.pulled rfl
      refine (adds_mapStep f address last source'.current).bind ?_
      intro result new hnew
      cases result with
      | ok shown =>
        refine Adds.pure ?_
        rw [List.append_nil]
        exact noted_append _ hunder (fun _ => hpulled) hnew fun _ => Or.inr ⟨shown, rfl, rfl⟩
      | error crash =>
        refine Adds.pure ?_
        rw [List.append_nil]
        exact noted_append _ hunder (by rintro ⟨⟩) hnew (by rintro ⟨⟩)
  | combined inputs f last current, address => by
    rw [notedPull]
    refine (noted_pullAll inputs address 0).bind ?_
    rintro ⟨inputs', crash?⟩ below hbelow
    have hunder : ∀ note ∈ below, ∃ i, address ++ [i] <+: note.address := by
      intro note hnote
      obtain ⟨i, -, hprefix⟩ := hbelow.under note hnote
      exact ⟨i, hprefix⟩
    cases crash? with
    | some crash =>
      refine Adds.pure (noted_append (.error crash) hunder ?_ (Or.inl rfl) ?_)
      · rintro ⟨⟩
      · rintro ⟨⟩
    | none =>
      have hpulled : below.filterMap Note.pulled?
          = (combined inputs f last current).bases address := by
        rw [bases]
        exact hbelow.pulled rfl
      refine (adds_combineStep f address last (inputs'.map Signal.current)).bind ?_
      intro result new hnew
      cases result with
      | ok shown =>
        refine Adds.pure ?_
        rw [List.append_nil]
        exact noted_append _ hunder (fun _ => hpulled) hnew fun _ => Or.inr ⟨shown, rfl, rfl⟩
      | error crash =>
        refine Adds.pure ?_
        rw [List.append_nil]
        exact noted_append _ hunder (by rintro ⟨⟩) hnew (by rintro ⟨⟩)

theorem noted_pullAll : ∀ (signals : List (Signal m)) (address : List Nat) (position : Nat),
    Adds (NotedAll signals address position) (notedPullAll signals address position)
  | [], _, _ => by
    rw [notedPullAll]
    exact Adds.pure ⟨by rintro _ ⟨⟩, fun _ => by rw [basesAll]; rfl⟩
  | s :: rest, address, position => by
    rw [notedPullAll]
    refine (s.noted_pull (address ++ [position])).bind ?_
    rintro ⟨s', crash?⟩ first hfirst
    have hunder : ∀ note ∈ first, ∃ i, position ≤ i ∧ address ++ [i] <+: note.address :=
      fun note hnote => ⟨position, Nat.le_refl _, hfirst.under note hnote⟩
    cases crash? with
    | some crash =>
      refine Adds.pure ?_
      rw [List.append_nil]
      exact ⟨hunder, by rintro ⟨⟩⟩
    | none =>
      refine (noted_pullAll rest address (position + 1)).bind ?_
      rintro ⟨rest', crash?⟩ later hlater
      refine Adds.pure ⟨?_, ?_⟩
      · intro note hnote
        rw [List.append_nil] at hnote
        rcases List.mem_append.mp hnote with hmem | hmem
        · exact hunder note hmem
        · obtain ⟨i, hi, hprefix⟩ := hlater.under note hmem
          exact ⟨i, Nat.le_of_succ_le hi, hprefix⟩
      · intro hcrash
        rw [List.append_nil, List.filterMap_append, hfirst.pulled rfl, hlater.pulled hcrash,
          basesAll]

end

end Signal

end Reactive
