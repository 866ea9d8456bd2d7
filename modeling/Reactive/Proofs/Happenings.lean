import Reactive.Proofs.Followers

/-!
# What happens around a subject

A subject is pushed to, and signals are created on it, pulled and dropped, in any order. What a
signal has to do with it is a function of what happens: a signal that is created late is told of the
end of the subject or of its value, then it hears of what is pushed up to the end of the subject, it
is pulled, and after it was dropped there is no more. The other signals have no part in it.

Signals are numbered in the order of their creation.

## Main definitions

* `Happening`, `Happening.run`, `runAll` — what happens
* `Audience.member?`, `Audience.live` — the signals that are there
* `Happening.turnsOf`, `timeline` — what a signal hears, and its own pulls

## Main results

* `Happening.writes_turnsOf` — what a signal hears are the pushes up to the end of the subject
* `Happening.timeline_concat` — one more happening
-/

namespace Reactive

variable {σ : Type}

open World

/-! ### What happens around a subject -/

/-- Something that happens around a subject. -/
inductive Happening (σ : Type) where
  | push (p : Push)
  /-- A signal is created on the subject. Its comparison may crash, and may have effects. -/
  | create (r : SafeObserver (ExceptT Crash (StateM σ)))
  | pull (number : Nat)
  | drop (number : Nat)

/-- The signals that were created on a subject, in order, with nothing for those that were
dropped. -/
abbrev Audience (σ : Type) := List (Option (Signal (World σ)))

namespace Audience

/-- The signal with a number, unless it was dropped. -/
def member? (audience : Audience σ) (number : Nat) : Option (Signal (World σ)) :=
  audience[number]?.join

/-- The numbers of the signals that were not dropped, in order. -/
def live (audience : Audience σ) : List Nat :=
  (List.range audience.length).filter fun number => (audience.member? number).isSome

end Audience

/-- What a pull of a signal in the audience shows. -/
structure Showing where
  number : Nat
  emission : Emission
  crash? : Option Crash

namespace Happening

/-- What happens, to the audience of a subject and elsewhere, and what is shown. -/
def run (id : SubjectId) (audience : Audience σ) :
    Happening σ → World σ (Audience σ × List Showing)
  | push p => do
    modifyThe Exchange fun x => x.push id p
    pure (audience, [])
  | create r => do
    let signal ← Signal.observe (.ofSubject id) r.toCrashing
    pure (audience ++ [some signal], [])
  | pull number =>
    match audience.member? number with
    | some signal => do
      let done ← signal.pull
      pure (audience.set number (some done.1), [⟨number, done.1.current, done.2⟩])
    | none => pure (audience, [])
  | drop number =>
    match audience.member? number with
    | some signal => do
      signal.release
      pure (audience.set number none, [])
    | none => pure (audience, [])

/-- Several things happen, one after the other. -/
def runAll (id : SubjectId) : List (Happening σ) → Audience σ → World σ (Audience σ × List Showing)
  | [], audience => pure (audience, [])
  | h :: rest, audience => do
    let first ← h.run id audience
    let later ← runAll id rest first.1
    pure (later.1, first.2 ++ later.2)

/-! ### What a signal hears -/

/-- What is pushed, if something is. -/
def push? : Happening σ → Option Push
  | push p => some p
  | create _ | pull _ | drop _ => none

/-- Is a signal created? -/
def isCreate : Happening σ → Bool
  | create _ => true
  | push _ | pull _ | drop _ => false

/-- All that is pushed to the subject. -/
def pushes (hs : List (Happening σ)) : List Push := hs.filterMap push?

/-- How many signals are created. -/
def creations (hs : List (Happening σ)) : Nat := hs.countP isCreate

/-- What a new signal is told at once, after some pushes to the subject: its end if it has ended, or
else its value if there is one. -/
def greeting? (initial : Option Value) (pushes : List Push) : Option Push :=
  match endOf pushes with
  | some terminal => some terminal.push
  | none => (valueOf initial pushes).map .next

/-- The turns of a signal that is there, while things happen around the subject, which is open at
first or not. It hears of what is pushed as long as the subject is open, it is pulled, and after it
was dropped there are no more turns. -/
def turnsOf (number : Nat) : (isOpen : Bool) → List (Happening σ) → List Exchanged
  | _, [] => []
  | isOpen, push p :: rest =>
    if isOpen then .write p :: turnsOf number p.terminal?.isNone rest
    else turnsOf number false rest
  | isOpen, create _ :: rest => turnsOf number isOpen rest
  | isOpen, pull other :: rest =>
    if other = number then .pull :: turnsOf number isOpen rest else turnsOf number isOpen rest
  | isOpen, drop other :: rest => if other = number then [] else turnsOf number isOpen rest

/-- All turns of the signal that was created between some happenings and some others, the greeting
included. Its number is the number of creations before it. -/
def timeline (initial : Option Value) (before after : List (Happening σ)) : List Exchanged :=
  (greeting? initial (pushes before)).toList.map .write
    ++ turnsOf (creations before) (endOf (pushes before)).isNone after

@[simp] theorem pushes_append (first later : List (Happening σ)) :
    pushes (first ++ later) = pushes first ++ pushes later :=
  List.filterMap_append ..

@[simp] theorem creations_append (first later : List (Happening σ)) :
    creations (first ++ later) = creations first + creations later :=
  List.countP_append ..

/-- A signal that is there goes on. -/
theorem turnsOf_append {number : Nat} {first : List (Happening σ)} (h : .drop number ∉ first)
    (isOpen : Bool) (later : List (Happening σ)) : turnsOf number isOpen (first ++ later)
      = turnsOf number isOpen first
        ++ turnsOf number (isOpen && (endOf (pushes first)).isNone) later := by
  induction first generalizing isOpen with
  | nil => simp [turnsOf, pushes, endOf]
  | cons event rest ih =>
    rw [List.mem_cons, not_or] at h
    obtain ⟨hevent, hrest⟩ := h
    cases event with
    | push p =>
      have hend : endOf (pushes (push p :: rest)) = (endOf [p]).or (endOf (pushes rest)) :=
        endOf_append [p] (pushes rest)
      have hone : endOf [p] = p.terminal? := List.findSome?_singleton
      rw [List.cons_append, turnsOf, turnsOf, hend, hone, ih hrest, ih hrest]
      cases isOpen <;> cases p.terminal? <;> simp
    | create r => exact ih hrest isOpen
    | pull other =>
      rw [List.cons_append, turnsOf, turnsOf, ih hrest]
      split
      · rfl
      · rfl
    | drop other =>
      have hother : other ≠ number := by
        rintro rfl
        exact hevent rfl
      rw [List.cons_append, turnsOf, turnsOf, if_neg hother, if_neg hother]
      exact ih hrest isOpen

/-- A signal that was dropped has no more turns. -/
theorem turnsOf_append_of_mem {number : Nat} {first : List (Happening σ)}
    (h : .drop number ∈ first) (isOpen : Bool) (later : List (Happening σ)) :
    turnsOf number isOpen (first ++ later) = turnsOf number isOpen first := by
  induction first generalizing isOpen with
  | nil => cases h
  | cons event rest ih =>
    cases event with
    | push p =>
      have hrest : .drop number ∈ rest := by simpa using h
      rw [List.cons_append, turnsOf, turnsOf, ih hrest, ih hrest]
    | create r =>
      have hrest : .drop number ∈ rest := by simpa using h
      exact ih hrest isOpen
    | pull other =>
      have hrest : .drop number ∈ rest := by simpa using h
      rw [List.cons_append, turnsOf, turnsOf, ih hrest]
    | drop other =>
      rw [List.cons_append, turnsOf, turnsOf]
      by_cases hother : other = number
      · rw [if_pos hother, if_pos hother]
      · have hrest : .drop number ∈ rest := by simpa [Ne.symm hother] using h
        rw [if_neg hother, if_neg hother]
        exact ih hrest isOpen

/-- **What is written into the mailbox of a signal that was not dropped** are the pushes to the
subject up to its end, each once and in order. -/
theorem writes_turnsOf {number : Nat} {hs : List (Happening σ)} (h : .drop number ∉ hs)
    (isOpen : Bool) : (turnsOf number isOpen hs).filterMap Exchanged.write?
      = if isOpen then accepted (pushes hs) else [] := by
  induction hs generalizing isOpen with
  | nil => cases isOpen <;> rfl
  | cons event rest ih =>
    rw [List.mem_cons, not_or] at h
    obtain ⟨hevent, hrest⟩ := h
    cases event with
    | push p =>
      have hpushes : pushes (push p :: rest) = p :: pushes rest := rfl
      rw [turnsOf, hpushes, accepted]
      cases isOpen with
      | false =>
        rw [if_neg Bool.false_ne_true, ih hrest]
        rfl
      | true =>
        show p :: (turnsOf number p.terminal?.isNone rest).filterMap Exchanged.write? = _
        rw [ih hrest]
        cases p.terminal? with
        | none => rfl
        | some terminal => rfl
    | create r => exact ih hrest isOpen
    | pull other =>
      rw [turnsOf]
      split
      · exact ih hrest isOpen
      · exact ih hrest isOpen
    | drop other =>
      have hother : other ≠ number := by
        rintro rfl
        exact hevent rfl
      rw [turnsOf, if_neg hother]
      exact ih hrest isOpen

variable {past before after : List (Happening σ)} {r : SafeObserver (ExceptT Crash (StateM σ))}

/-- After one more happening, the signals that were created are those from before, and the one that
is created now. -/
theorem concat_eq_iff {h : Happening σ} : past ++ [h] = before ++ create r :: after ↔
    (∃ earlier, after = earlier ++ [h] ∧ past = before ++ create r :: earlier) ∨
      (after = [] ∧ h = create r ∧ before = past) := by
  constructor
  · intro heq
    rcases List.eq_nil_or_concat after with rfl | ⟨earlier, last, rfl⟩
    · obtain ⟨hpast, hlast⟩ := List.append_inj' heq rfl
      exact Or.inr ⟨rfl, List.singleton_inj.mp hlast, hpast.symm⟩
    · rw [List.concat_eq_append, ← List.cons_append, ← List.append_assoc] at heq
      obtain ⟨hpast, hlast⟩ := List.append_inj' heq rfl
      rw [List.concat_eq_append, List.singleton_inj.mp hlast]
      exact Or.inl ⟨earlier, rfl, hpast⟩
  · rintro (⟨earlier, rfl, rfl⟩ | ⟨rfl, rfl, rfl⟩)
    · simp
    · rfl

/-- **One more happening.** A signal that was not dropped goes on. -/
theorem timeline_concat (initial : Option Value) (h : .drop (creations before) ∉ after)
    (event : Happening σ) : timeline initial before (after ++ [event])
      = timeline initial before after ++ turnsOf (creations before)
          (endOf (pushes (before ++ create r :: after))).isNone [event] := by
  have hpushes : pushes (before ++ create r :: after) = pushes before ++ pushes after :=
    pushes_append before (create r :: after)
  rw [timeline, timeline, turnsOf_append h, List.append_assoc, hpushes, endOf_append]
  congr 3
  cases endOf (pushes before) <;> rfl

theorem timeline_concat_of_mem (initial : Option Value) (h : .drop (creations before) ∈ after)
    (event : Happening σ) :
    timeline initial before (after ++ [event]) = timeline initial before after := by
  rw [timeline, timeline, turnsOf_append_of_mem h]

/-- Every number that was given out was given to some signal. -/
theorem exists_create {number : Nat} (h : number < creations past) :
    ∃ before r after, past = before ++ create r :: after ∧ creations before = number := by
  induction past using List.reverseRecOn with
  | nil => cases h
  | append_singleton earlier event ih =>
    rcases Nat.lt_or_ge number (creations earlier) with hlt | hge
    · obtain ⟨before, r, after, rfl, hnumber⟩ := ih hlt
      exact ⟨before, r, after ++ [event], by simp, hnumber⟩
    · rw [creations_append] at h
      cases event with
      | create r =>
        have hone : creations [create r] = 1 := rfl
        exact ⟨earlier, r, [], rfl, by omega⟩
      | push _ | pull _ | drop _ => exact absurd h (Nat.not_lt.mpr hge)

end Happening

end Reactive
