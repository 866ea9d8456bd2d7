import Reactive.Timestamp

/-!
# Traces

A trace keeps the latest entries of a run, oldest first, up to a capacity. When it is full the
oldest entry makes room for a new one, and with capacity zero nothing is kept. Room for all that a
trace may keep is set aside when it is opened, so its capacity must be one that memory can hold.

An automaton traces its firings: which state was left, for which event, which state was entered
and how many automatic transitions had fired before in the same call. A trace that is stored or
exchanged also says when each firing happened.

## Main definitions

* `Firing`, `TimedFiring`
* `Trace`, `Trace.isReservable`, `Trace.record`, `Trace.clear`
* `Trace.path` — the states a trace runs through
* `Trace.duration?` — the time from its oldest entry to its newest
-/

namespace Reactive

/-- One fired transition. -/
structure Firing where
  /-- The state that was left. -/
  source : String
  /-- The event that was handled. -/
  event : String
  /-- The state that was entered, a history target being resolved. -/
  target : String
  /-- Zero for the event that was sent, and one more for each automatic transition after it. -/
  depth : UInt64
  deriving DecidableEq

/-- A fired transition and the time at which it was complete. -/
structure TimedFiring extends Firing where
  time : Timestamp
  deriving DecidableEq

/-- The latest entries of a run. -/
structure Trace (α : Type) where
  capacity : UInt64
  /-- What is kept, oldest first. -/
  entries : List α
  deriving DecidableEq

namespace Trace

variable {α β : Type}

/-- Can room for so many entries be set aside? An entry takes 96 bytes, and at once no more than
`2 ^ 63 - 1` bytes can be asked for. -/
def isReservable (capacity : UInt64) : Bool := capacity.toNat * 96 < UInt64.size / 2

/-- A trace with nothing in it yet. -/
def ofCapacity (capacity : UInt64) : Trace α := ⟨capacity, []⟩

/-- Appends an entry; a trace that is full drops its oldest first. -/
def record (trace : Trace α) (entry : α) : Trace α :=
  if trace.capacity = 0 then trace
  else if trace.entries.length = trace.capacity.toNat then
    { trace with entries := trace.entries.drop 1 ++ [entry] }
  else { trace with entries := trace.entries ++ [entry] }

/-- Forgets every entry. -/
def clear (trace : Trace α) : Trace α := { trace with entries := [] }

/-- The number of entries kept. -/
def length (trace : Trace α) : Nat := trace.entries.length

/-- Nothing is kept. -/
def isEmpty (trace : Trace α) : Bool := trace.entries.isEmpty

/-- Changes every entry. -/
def map (f : α → β) (trace : Trace α) : Trace β := ⟨trace.capacity, trace.entries.map f⟩

/-- The states a list of firings runs through: where the first one started, and where each one
led. -/
def pathOf : List Firing → List String
  | [] => []
  | first :: rest => first.source :: first.target :: rest.map Firing.target

/-- The states a trace runs through. -/
def path (trace : Trace Firing) : List String := pathOf trace.entries

/-- The time from the oldest entry to the newest in nanoseconds. There is none if the trace is
empty or if the newest is dated before the oldest. -/
def duration? (trace : Trace TimedFiring) : Option Nat :=
  match trace.entries.head?, trace.entries.getLast? with
  | some first, some last =>
    let elapsed := last.time.nanosecondsSince first.time
    if elapsed < 0 then none else some elapsed.toNat
  | _, _ => none

@[simp] theorem capacity_record (trace : Trace α) (entry : α) :
    (trace.record entry).capacity = trace.capacity := by
  unfold record
  repeat' split
  all_goals rfl

end Trace

end Reactive
