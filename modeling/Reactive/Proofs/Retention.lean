import Reactive.Encoding
import Reactive.Proofs.Traces

/-!
# What traces retain

A trace that is opened holds the latest of what it is told, as much as its capacity allows. Room for
an entry is made when a trace is exactly full, and this is enough as long as it never holds more.

But a trace can also be read from a value, and such a trace may hold more than its capacity from the
beginning. It is never exactly full, so nothing is let go of and it grows with every entry; if its
capacity is zero it stays as it is. Only clearing it brings it back to within its capacity.

## Main definitions

* `Trace.Edit`, `Trace.edit` — changes of a trace
* `Trace.told` — what a trace was told since it was last cleared
* `Trace.Retained` — what is left of it

## Main results

* `Trace.Keeps.edit` — a trace within its capacity keeps the latest of what it was told
* `Trace.entries_edit_of_overlong` — one over its capacity lets go of nothing
* `Trace.retained_edit`
* `Trace.overlong_grows` — a trace that grows beyond its capacity
-/

namespace Reactive

namespace Trace

variable {α : Type}

/-! ### Changes of a trace -/

/-- A change of a trace. -/
inductive Edit (α : Type) where
  | record (entry : α)
  | clear

/-- Makes changes, one after the other. -/
def edit : List (Edit α) → Trace α → Trace α
  | [], trace => trace
  | .record entry :: rest, trace => edit rest (trace.record entry)
  | .clear :: rest, trace => edit rest trace.clear

/-- What a trace was told since it was last cleared, the oldest first. In the beginning it holds
`held`. -/
def told (held : List α) : List (Edit α) → List α
  | [] => held
  | .record entry :: rest => told (held ++ [entry]) rest
  | .clear :: rest => told [] rest

theorem edit_append (first second : List (Edit α)) (trace : Trace α) :
    trace.edit (first ++ second) = (trace.edit first).edit second := by
  induction first generalizing trace with
  | nil => rfl
  | cons e rest ih =>
    cases e with
    | record entry => exact ih (trace.record entry)
    | clear => exact ih trace.clear

theorem told_append (first second : List (Edit α)) (held : List α) :
    told held (first ++ second) = told (told held first) second := by
  induction first generalizing held with
  | nil => rfl
  | cons e rest ih =>
    cases e with
    | record entry => exact ih (held ++ [entry])
    | clear => exact ih []

@[simp] theorem capacity_edit (edits : List (Edit α)) (trace : Trace α) :
    (trace.edit edits).capacity = trace.capacity := by
  induction edits generalizing trace with
  | nil => rfl
  | cons e rest ih =>
    cases e with
    | record entry => exact (ih (trace.record entry)).trans (capacity_record trace entry)
    | clear => exact ih trace.clear

/-! ### Within the capacity -/

/-- What a trace holds is the latest of itself if it is within its capacity. -/
theorem keeps_entries {trace : Trace α} (h : trace.length ≤ trace.capacity.toNat) :
    trace.Keeps trace.entries.reverse := by
  rw [Keeps, List.take_of_length_le, List.reverse_reverse]
  rwa [List.length_reverse]

theorem keeps_clear (trace : Trace α) : trace.clear.Keeps [] := by
  rw [Keeps, List.take_nil]
  rfl

/-- **Within its capacity a trace keeps the latest of what it was told.** -/
theorem Keeps.edit {trace : Trace α} {held : List α} (h : trace.Keeps held.reverse)
    (edits : List (Edit α)) : (trace.edit edits).Keeps (told held edits).reverse := by
  induction edits generalizing trace held with
  | nil => exact h
  | cons e rest ih =>
    cases e with
    | record entry =>
      refine ih ?_
      rw [List.reverse_concat]
      exact h.record entry
    | clear => exact ih (keeps_clear trace)

/-- After it was cleared a trace is within its capacity, whatever it held. -/
theorem keeps_edit_of_clear {edits : List (Edit α)} (h : .clear ∈ edits) (trace : Trace α) :
    (trace.edit edits).Keeps (told trace.entries edits).reverse := by
  obtain ⟨before, later, rfl⟩ := List.append_of_mem h
  have hcleared : (trace.edit before).clear.Keeps ([] : List α).reverse := keeps_clear _
  rw [edit_append, told_append]
  exact hcleared.edit later

/-! ### Over the capacity -/

/-- A trace over its capacity is never exactly full, so it lets go of nothing. -/
theorem record_of_overlong {trace : Trace α} (h : trace.capacity.toNat < trace.length)
    (entry : α) : trace.record entry
      = if trace.capacity = 0 then trace
        else { trace with entries := trace.entries ++ [entry] } := by
  rw [record, if_neg (Nat.ne_of_gt h : ¬ trace.entries.length = trace.capacity.toNat)]

/-- **A trace over its capacity lets go of nothing** until it is cleared. -/
theorem entries_edit_of_overlong {trace : Trace α} (h : trace.capacity.toNat < trace.length)
    {edits : List (Edit α)} (hclear : .clear ∉ edits) : (trace.edit edits).entries
      = if trace.capacity = 0 then trace.entries else told trace.entries edits := by
  induction edits generalizing trace with
  | nil => exact (ite_self _).symm
  | cons e rest ih =>
    cases e with
    | clear => exact absurd List.mem_cons_self hclear
    | record entry =>
      have hrest : .clear ∉ rest := fun hmem => hclear (List.mem_cons_of_mem _ hmem)
      rw [edit, told, record_of_overlong h]
      by_cases hzero : trace.capacity = 0
      · rw [if_pos hzero, if_pos hzero, ih h hrest, if_pos hzero]
      · rw [if_neg hzero, if_neg hzero, ih ?_ hrest, if_neg hzero]
        simpa [length] using Nat.lt_succ_of_lt h

/-- What was told without clearing in between is no less than what was held. -/
theorem length_le_length_told {edits : List (Edit α)} (hclear : .clear ∉ edits) (held : List α) :
    held.length ≤ (told held edits).length := by
  induction edits generalizing held with
  | nil => exact Nat.le_refl _
  | cons e rest ih =>
    cases e with
    | clear => exact absurd List.mem_cons_self hclear
    | record entry =>
      have hrest : .clear ∉ rest := fun hmem => hclear (List.mem_cons_of_mem _ hmem)
      refine Nat.le_trans ?_ (ih hrest (held ++ [entry]))
      simp

/-! ### All traces -/

/-- What is left of a trace after some changes. -/
structure Retained (trace : Trace α) (edits : List (Edit α)) (after : Trace α) : Prop where
  capacity_eq : after.capacity = trace.capacity
  /-- The trace is within its capacity just if it was so in the beginning, or was cleared. -/
  length_le_iff : after.length ≤ after.capacity.toNat
    ↔ trace.length ≤ trace.capacity.toNat ∨ .clear ∈ edits
  /-- Then it holds the latest of what it was told, the oldest first. -/
  latest : trace.length ≤ trace.capacity.toNat ∨ .clear ∈ edits →
    after.entries = (told trace.entries edits).drop
      ((told trace.entries edits).length - trace.capacity.toNat)
  /-- Otherwise it holds all that it was told, or only what it held in the beginning. -/
  all : trace.capacity.toNat < trace.length → .clear ∉ edits →
    after.entries = if trace.capacity = 0 then trace.entries else told trace.entries edits

/-- **What a trace retains**, however it was obtained: opened with any capacity, or read with any
capacity and any entries. If it was within its capacity in the beginning, or was cleared, it is
within its capacity and holds the latest of what it was told since it was last cleared. If not, it
has let go of nothing. -/
theorem retained_edit (trace : Trace α) (edits : List (Edit α)) :
    Retained trace edits (trace.edit edits) := by
  have hkeeps : trace.length ≤ trace.capacity.toNat ∨ .clear ∈ edits →
      (trace.edit edits).Keeps (told trace.entries edits).reverse := by
    rintro (hwithin | hclear)
    · exact (keeps_entries hwithin).edit edits
    · exact keeps_edit_of_clear hclear trace
  constructor
  case capacity_eq => exact capacity_edit edits trace
  case length_le_iff =>
    constructor
    · intro hlength
      by_contra hnot
      obtain ⟨hover, hclear⟩ := not_or.mp hnot
      have hentries := entries_edit_of_overlong (Nat.lt_of_not_le hover) hclear
      have htold := length_le_length_told hclear trace.entries
      rw [length, hentries, capacity_edit] at hlength
      rw [length] at hover
      split at hlength
      · omega
      · omega
    · intro h
      rw [(hkeeps h).length_eq]
      exact Nat.min_le_left _ _
  case latest =>
    intro h
    rw [(hkeeps h).entries_eq_drop, List.reverse_reverse, List.length_reverse, capacity_edit]
  case all => exact fun hover hclear => entries_edit_of_overlong hover hclear

/-- A way from one place to the next, in the given second. -/
def leg (source target : String) (second : Int) : TimedFiring :=
  { source, event := "go", target, depth := 0, time := .ofUnixMillis (1000 * second) }

/-- The written form of a trace that holds two legs and has room for one. -/
def overlong : Value :=
  .ofFields [("capacity", .nat 1),
    ("records", .array [(leg "A" "B" 0).toValue, (leg "B" "C" 1).toValue])]

/-- **A trace may outgrow its capacity.** It was read with two entries and a capacity of one. When a
third is recorded it holds all of them, and not the latest alone. -/
theorem overlong_grows :
    (Trace.ofValue? overlong).map (fun trace => trace.edit [.record (leg "C" "D" 2)])
        = some ⟨1, [leg "A" "B" 0, leg "B" "C" 1, leg "C" "D" 2]⟩ ∧
      (told [leg "A" "B" 0, leg "B" "C" 1] [.record (leg "C" "D" 2)]).drop 2
        = [leg "C" "D" 2] := by
  decide +kernel

end Trace

end Reactive
