import Reactive.Value

/-!
# The exchange: pushing values

Sources push values when they please, and signals look at them when they are pulled. In between
stand mailboxes. A mailbox holds one outcome, the latest, and remembers whether its value has been
collected. Once a failure or a completion is in it, it accepts nothing more.

A subject is a source in the exchange itself. It has a current value, it forwards what is pushed
to the mailboxes of its subscribers in the order of subscription, and it ends with a failure or a
completion, after which it has no subscribers. Who subscribes late receives the end at once, or
else the current value if there is one.

Mailboxes and subjects are numbered in the order in which they are opened. A number that was
never given out names nothing, and operations on it change nothing.

## Main definitions

* `Push`, `Slot`, `Subject`, `Exchange`
* `Exchange.openMailbox`, `write`, `collect` — mailboxes
* `Exchange.addSubject`, `push`, `subscribe`, `unsubscribe` — subjects
-/

namespace Reactive

/-- What a source may push. -/
inductive Push where
  | next (value : Value)
  | error (cause : String)
  | complete
  deriving DecidableEq

/-- The content of a mailbox. -/
inductive Slot where
  | empty
  /-- A value, fresh until it is collected. -/
  | value (value : Value) (fresh : Bool)
  | error (cause : String)
  | completed
  deriving DecidableEq

namespace Slot

/-- Does the mailbox accept nothing more? -/
def isClosed : Slot → Bool
  | error _ | completed => true
  | empty | value _ _ => false

/-- What a push leaves in a mailbox that is open. -/
def ofPush : Push → Slot
  | .next v => .value v true
  | .error cause => .error cause
  | .complete => .completed

/-- Writes into a mailbox, unless it is closed. -/
def write (slot : Slot) (push : Push) : Slot := if slot.isClosed then slot else ofPush push

/-- What is left in a mailbox after its content was looked at. -/
def collected : Slot → Slot
  | .value v _ => .value v false
  | slot => slot

end Slot

/-- How a subject ended. -/
inductive Terminal where
  | error (cause : String)
  | completed
  deriving DecidableEq

/-- What an end pushes into a mailbox. -/
def Terminal.push : Terminal → Push
  | error cause => .error cause
  | completed => .complete

/-- The number of a mailbox. -/
abbrev MailboxId := Nat

/-- The number of a subject. -/
abbrev SubjectId := Nat

/-- A source that holds its latest value for later subscribers. -/
structure Subject where
  current : Option Value
  terminal : Option Terminal
  /-- The subscriptions in order, each with its number. -/
  subscribers : List (Nat × MailboxId)
  /-- The number of the next subscription. -/
  nextNumber : Nat
  deriving DecidableEq

namespace Subject

/-- A subject without subscribers, with or without a value. -/
def ofValue? (value : Option Value) : Subject := ⟨value, none, [], 0⟩

/-- The subject after a push. An ended subject ignores it, and an end releases all subscribers. -/
def push (subject : Subject) (p : Push) : Subject :=
  match subject.terminal, p with
  | some _, _ => subject
  | none, .next v => { subject with current := some v }
  | none, .error cause => { subject with terminal := some (.error cause), subscribers := [] }
  | none, .complete => { subject with terminal := some .completed, subscribers := [] }

/-- The mailboxes that a push reaches, in order. -/
def receivers (subject : Subject) : List MailboxId :=
  if subject.terminal.isSome then [] else subject.subscribers.map Prod.snd

/-- What a new subscriber receives at once. -/
def greeting? (subject : Subject) : Option Push :=
  match subject.terminal with
  | some terminal => some terminal.push
  | none => subject.current.map .next

/-- Adds a mailbox to the subscribers of a subject that has not ended, and gives the number of the
subscription. -/
def subscribe (subject : Subject) (mailbox : MailboxId) : Option Nat × Subject :=
  if subject.terminal.isSome then (none, subject)
  else
    (some subject.nextNumber,
      { subject with
        subscribers := subject.subscribers ++ [(subject.nextNumber, mailbox)]
        nextNumber := subject.nextNumber + 1 })

/-- Ends one subscription. -/
def unsubscribe (subject : Subject) (number : Nat) : Subject :=
  { subject with subscribers := subject.subscribers.filter fun s => s.1 ≠ number }

end Subject

/-- All mailboxes and subjects. -/
structure Exchange where
  mailboxes : List Slot
  subjects : List Subject
  deriving DecidableEq

namespace Exchange

/-- An exchange with nothing in it. -/
def empty : Exchange := ⟨[], []⟩

/-! ### Mailboxes -/

/-- Opens a mailbox. -/
def openMailbox (x : Exchange) : MailboxId × Exchange :=
  (x.mailboxes.length, { x with mailboxes := x.mailboxes ++ [.empty] })

/-- Writes into a mailbox. -/
def write (x : Exchange) (mailbox : MailboxId) (p : Push) : Exchange :=
  { x with mailboxes := x.mailboxes.modify mailbox fun slot => slot.write p }

/-- Writes the same into several mailboxes, in order. -/
def writeAll (x : Exchange) (mailboxes : List MailboxId) (p : Push) : Exchange :=
  mailboxes.foldl (fun x mailbox => x.write mailbox p) x

/-- The content of a mailbox. -/
def slot (x : Exchange) (mailbox : MailboxId) : Slot := (x.mailboxes[mailbox]?).getD .empty

/-- Looks at the content of a mailbox, whose value is then no longer fresh. -/
def collect (x : Exchange) (mailbox : MailboxId) : Slot × Exchange :=
  (x.slot mailbox, { x with mailboxes := x.mailboxes.modify mailbox Slot.collected })

@[simp] theorem length_mailboxes_write (x : Exchange) (mailbox : MailboxId) (p : Push) :
    (x.write mailbox p).mailboxes.length = x.mailboxes.length := by
  simp [write]

/-- A write is seen in its own mailbox and in no other. -/
theorem slot_write (x : Exchange) {mailbox : MailboxId} (h : mailbox < x.mailboxes.length)
    (p : Push) (other : MailboxId) :
    (x.write mailbox p).slot other =
      if other = mailbox then (x.slot mailbox).write p else x.slot other := by
  unfold slot write
  rw [List.getElem?_modify]
  by_cases he : other = mailbox
  · subst he
    simp [h]
  · simp [he, Ne.symm he]

/-- Collecting makes the value of one mailbox stale and leaves the others. -/
theorem slot_collect (x : Exchange) (mailbox other : MailboxId) :
    (x.collect mailbox).2.slot other =
      if other = mailbox then (x.slot mailbox).collected else x.slot other := by
  unfold slot collect
  rw [List.getElem?_modify]
  by_cases he : other = mailbox
  · subst he
    cases x.mailboxes[other]? <;> simp [Slot.collected]
  · simp [he, Ne.symm he]

/-! ### Subjects -/

/-- Adds a subject, with or without a value. -/
def addSubject (x : Exchange) (value : Option Value) : SubjectId × Exchange :=
  (x.subjects.length, { x with subjects := x.subjects ++ [.ofValue? value] })

/-- The subject of a number, one that has nothing if there is none. -/
def subject (x : Exchange) (id : SubjectId) : Subject :=
  (x.subjects[id]?).getD (.ofValue? none)

/-- Pushes to a subject, which forwards to its subscribers. -/
def push (x : Exchange) (id : SubjectId) (p : Push) : Exchange :=
  let forwarded := x.writeAll (x.subject id).receivers p
  { forwarded with subjects := forwarded.subjects.modify id fun s => s.push p }

/-- Subscribes a mailbox to a subject. The mailbox is greeted at once. A subject that has ended
gives no subscription. -/
def subscribe (x : Exchange) (id : SubjectId) (mailbox : MailboxId) : Option Nat × Exchange :=
  let subject := x.subject id
  let greeted :=
    match subject.greeting? with
    | some p => x.write mailbox p
    | none => x
  let (number?, _) := subject.subscribe mailbox
  (number?,
    { greeted with subjects := greeted.subjects.modify id fun s => (s.subscribe mailbox).2 })

/-- Ends a subscription to a subject. -/
def unsubscribe (x : Exchange) (id : SubjectId) (number : Nat) : Exchange :=
  { x with subjects := x.subjects.modify id fun s => s.unsubscribe number }

end Exchange

/-! ### Sources -/

/-- A subscription, with what releases it unless there is nothing to release. -/
structure Subscription (m : Type → Type) where
  release? : Option (m Unit)

/-- Something that can be observed: it delivers changes to a mailbox until the subscription is
released. -/
structure Source (m : Type → Type) where
  subscribe : MailboxId → m (Subscription m)

variable {m : Type → Type} [Monad m]

namespace Subscription

/-- A subscription with nothing to release. -/
def empty : Subscription m := ⟨none⟩

/-- Is there something to release? -/
def isActive (s : Subscription m) : Bool := s.release?.isSome

/-- Releases a subscription. -/
def release (s : Subscription m) : m Unit := s.release?.getD (pure ())

end Subscription

namespace Source

/-- A subject of the exchange as a source. -/
def ofSubject [MonadStateOf Exchange m] (id : SubjectId) : Source m where
  subscribe mailbox := do
    match ← modifyGetThe Exchange fun x => x.subscribe id mailbox with
    | some number => pure ⟨some (modifyThe Exchange fun x => x.unsubscribe id number)⟩
    | none => pure .empty

/-- Several sources as one: a mailbox is subscribed to each, in order, and released from all. -/
def merge (sources : List (Source m)) : Source m where
  subscribe mailbox := do
    let subscriptions ← sources.mapM fun source => source.subscribe mailbox
    pure ⟨some (subscriptions.forM Subscription.release)⟩

end Source

end Reactive
