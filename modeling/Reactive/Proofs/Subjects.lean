import Mathlib
import Reactive.Exchange

/-!
# What becomes of a subject

A subject is told of values until it is told of an error or of its completion. It holds the latest
value and remembers how it ended, and each push that it accepts is written once into the mailbox of
each of its subscribers. Here this is said of lists of pushes, and of the exchange after one push,
one subscription and one release.

## Main definitions

* `Push.terminal?`, `endOf` — how pushes end a subject
* `accepted` — the pushes that count, up to and including the first that ends the subject
* `valueOf` — the latest value among them
* `Exchange.enroll` — a mailbox is opened and subscribed

## Main results

* `valueOf_append`, `endOf_append` — more pushes
* `Subject.push_of_told`, `subscribe_eq` — a subject after one push, and with one more subscriber
* `Exchange.slot_push`, `subject_push` — one push
* `Exchange.slot_subscribe`, `subject_subscribe`, `subject_unsubscribe` — subscribers
* `Exchange.slot_enroll`, `slot_enroll_new`, `subject_enroll` — a new mailbox that is subscribed
-/

namespace Reactive

/-! ### Pushes -/

/-- The end that a push brings about, if any. -/
def Push.terminal? : Push → Option Terminal
  | next _ => none
  | error cause => some (.error cause)
  | complete => some .completed

/-- How a subject ends: by the first push that brings about an end. -/
def endOf (pushes : List Push) : Option Terminal := pushes.findSome? Push.terminal?

/-- The pushes that count, up to and including the first that brings about an end. -/
def accepted : List Push → List Push
  | [] => []
  | p :: rest => if p.terminal?.isSome then [p] else p :: accepted rest

/-- The latest value, among the pushes before the first that brings about an end. -/
def valueOf (initial : Option Value) : List Push → Option Value
  | [] => initial
  | .next v :: rest => valueOf (some v) rest
  | .error _ :: _ | .complete :: _ => initial

theorem endOf_append (first later : List Push) :
    endOf (first ++ later) = (endOf first).or (endOf later) :=
  List.findSome?_append ..

/-- After an end the value stays. -/
theorem valueOf_append (initial : Option Value) (first later : List Push) :
    valueOf initial (first ++ later)
      = if (endOf first).isSome then valueOf initial first
        else valueOf (valueOf initial first) later := by
  induction first generalizing initial with
  | nil => rfl
  | cons p rest ih =>
    cases p with
    | next v => exact ih (some v)
    | error cause => rfl
    | complete => rfl

/-- What a subject is that was told of some pushes, after one more. -/
theorem Subject.push_of_told {subject : Subject} {initial : Option Value} {pushes : List Push}
    (hcurrent : subject.current = valueOf initial pushes)
    (hterminal : subject.terminal = endOf pushes)
    (hsubscribers : (endOf pushes).isSome = true → subject.subscribers = []) (p : Push) :
    subject.push p = { subject with
      current := valueOf initial (pushes ++ [p])
      terminal := endOf (pushes ++ [p])
      subscribers := if (endOf (pushes ++ [p])).isSome then [] else subject.subscribers } := by
  obtain ⟨current, ending, subscribers, nextNumber⟩ := subject
  obtain rfl : current = valueOf initial pushes := hcurrent
  obtain rfl : ending = endOf pushes := hterminal
  rw [valueOf_append, endOf_append, Subject.push.eq_def]
  cases hend : endOf pushes with
  | some terminal =>
    obtain rfl : subscribers = [] := hsubscribers (by rw [hend]; rfl)
    rfl
  | none =>
    cases p with
    | next v => rfl
    | error cause => rfl
    | complete => rfl

/-- A subject takes a subscription, behind the others, unless it has ended. -/
theorem Subject.subscribe_eq (subject : Subject) (mailbox : MailboxId) : subject.subscribe mailbox
    = (if subject.terminal.isSome then none else some subject.nextNumber,
      { subject with
        subscribers := if subject.terminal.isSome then subject.subscribers
          else subject.subscribers ++ [(subject.nextNumber, mailbox)]
        nextNumber := if subject.terminal.isSome then subject.nextNumber
          else subject.nextNumber + 1 }) := by
  rw [Subject.subscribe]
  cases subject.terminal.isSome with
  | true => rfl
  | false => rfl

/-! ### The exchange -/

namespace Exchange

theorem length_mailboxes_writeAll (x : Exchange) (mailboxes : List MailboxId) (p : Push) :
    (x.writeAll mailboxes p).mailboxes.length = x.mailboxes.length := by
  induction mailboxes generalizing x with
  | nil => rfl
  | cons mailbox rest ih => exact (ih _).trans (x.length_mailboxes_write mailbox p)

/-- Writing into several mailboxes is seen in each of them, once, and in no other. -/
theorem slot_writeAll {x : Exchange} {mailboxes : List MailboxId} (hnodup : mailboxes.Nodup)
    (hlt : ∀ mailbox ∈ mailboxes, mailbox < x.mailboxes.length) (p : Push) (other : MailboxId) :
    (x.writeAll mailboxes p).slot other
      = if other ∈ mailboxes then (x.slot other).write p else x.slot other := by
  induction mailboxes generalizing x with
  | nil => rfl
  | cons mailbox rest ih =>
    obtain ⟨hfirst, hrest⟩ := List.nodup_cons.mp hnodup
    have hmailbox : mailbox < x.mailboxes.length := hlt mailbox List.mem_cons_self
    have hlater : ∀ m ∈ rest, m < (x.write mailbox p).mailboxes.length := by
      intro m hm
      rw [x.length_mailboxes_write]
      exact hlt m (List.mem_cons_of_mem mailbox hm)
    have hwrite := x.slot_write hmailbox p other
    show ((x.write mailbox p).writeAll rest p).slot other = _
    rw [ih hrest hlater, hwrite]
    by_cases hother : other = mailbox
    · subst hother
      simp [hfirst]
    · simp [hother]

theorem subject_writeAll (x : Exchange) (mailboxes : List MailboxId) (p : Push) (id : SubjectId) :
    (x.writeAll mailboxes p).subject id = x.subject id := by
  induction mailboxes generalizing x with
  | nil => rfl
  | cons mailbox rest ih => exact ih (x.write mailbox p)

/-- A change of a subject that there is. -/
theorem subject_modify {x : Exchange} {id : SubjectId} (h : id < x.subjects.length)
    (change : Subject → Subject) :
    Exchange.subject { x with subjects := x.subjects.modify id change } id
      = change (x.subject id) := by
  rw [subject, subject, List.getElem?_modify, List.getElem?_eq_getElem h]
  show (if id = id then change x.subjects[id] else x.subjects[id]) = _
  rw [if_pos rfl]
  rfl

/-! One push. -/

theorem length_mailboxes_push (x : Exchange) (id : SubjectId) (p : Push) :
    (x.push id p).mailboxes.length = x.mailboxes.length :=
  length_mailboxes_writeAll x _ p

theorem slot_push {x : Exchange} {id : SubjectId} (hnodup : (x.subject id).receivers.Nodup)
    (hlt : ∀ mailbox ∈ (x.subject id).receivers, mailbox < x.mailboxes.length) (p : Push)
    (other : MailboxId) : (x.push id p).slot other
      = if other ∈ (x.subject id).receivers then (x.slot other).write p else x.slot other :=
  slot_writeAll hnodup hlt p other

theorem length_subjects_push (x : Exchange) (id : SubjectId) (p : Push) :
    (x.push id p).subjects.length = x.subjects.length := by
  have hforwarded : ∀ mailboxes : List MailboxId,
      (x.writeAll mailboxes p).subjects = x.subjects := by
    intro mailboxes
    induction mailboxes generalizing x with
    | nil => rfl
    | cons mailbox rest ih => exact ih (x.write mailbox p)
  rw [push, List.length_modify, hforwarded]

theorem subject_push {x : Exchange} {id : SubjectId} (h : id < x.subjects.length) (p : Push) :
    (x.push id p).subject id = (x.subject id).push p := by
  have hlength : id < (x.writeAll (x.subject id).receivers p).subjects.length := by
    rw [← length_subjects_push x id p, push, List.length_modify] at h
    exact h
  exact (subject_modify hlength _).trans
    (congrArg (Subject.push · p) (subject_writeAll x _ p id))

/-! A new mailbox. -/

theorem length_mailboxes_openMailbox (x : Exchange) :
    x.openMailbox.2.mailboxes.length = x.mailboxes.length + 1 :=
  List.length_append ..

theorem lt_length_mailboxes_openMailbox (x : Exchange) :
    x.mailboxes.length < x.openMailbox.2.mailboxes.length := by
  rw [length_mailboxes_openMailbox]
  exact Nat.lt_succ_self _

/-- A new mailbox is empty, as one that is not there. -/
theorem slot_openMailbox (x : Exchange) (mailbox : MailboxId) :
    x.openMailbox.2.slot mailbox = x.slot mailbox := by
  rw [slot, slot, openMailbox]
  rcases Nat.lt_trichotomy mailbox x.mailboxes.length with hlt | rfl | hgt
  · rw [List.getElem?_append_left hlt]
  · simp
  · rw [List.getElem?_eq_none (Nat.le_of_lt hgt), List.getElem?_eq_none]
    simpa using hgt

/-! One subscription, and one release. -/

theorem subject_subscribe {x : Exchange} {id : SubjectId} (h : id < x.subjects.length)
    (mailbox : MailboxId) : (x.subscribe id mailbox).1 = ((x.subject id).subscribe mailbox).1 ∧
      (x.subscribe id mailbox).2.subject id = ((x.subject id).subscribe mailbox).2 := by
  refine ⟨rfl, ?_⟩
  rw [subscribe]
  cases (x.subject id).greeting? with
  | none => exact subject_modify h _
  | some p => exact subject_modify (x := x.write mailbox p) h _

theorem length_subjects_subscribe (x : Exchange) (id : SubjectId) (mailbox : MailboxId) :
    (x.subscribe id mailbox).2.subjects.length = x.subjects.length := by
  rw [subscribe]
  cases (x.subject id).greeting? with
  | none => exact List.length_modify ..
  | some p => exact List.length_modify ..

theorem length_mailboxes_subscribe (x : Exchange) (id : SubjectId) (mailbox : MailboxId) :
    (x.subscribe id mailbox).2.mailboxes.length = x.mailboxes.length := by
  rw [subscribe]
  cases (x.subject id).greeting? with
  | none => rfl
  | some p => exact x.length_mailboxes_write mailbox p

/-- The greeting is written into the mailbox, and nothing into any other. -/
theorem slot_subscribe {x : Exchange} {mailbox : MailboxId} (h : mailbox < x.mailboxes.length)
    (id : SubjectId) (other : MailboxId) : (x.subscribe id mailbox).2.slot other
      = if other = mailbox then (x.subject id).greeting?.toList.foldl Slot.write (x.slot mailbox)
        else x.slot other := by
  rw [subscribe]
  cases (x.subject id).greeting? with
  | none =>
    show x.slot other = _
    split
    · next he => exact congrArg x.slot he
    · rfl
  | some p => exact x.slot_write h p other

theorem subject_unsubscribe {x : Exchange} {id : SubjectId} (h : id < x.subjects.length)
    (number : Nat) :
    (x.unsubscribe id number).subject id = (x.subject id).unsubscribe number :=
  subject_modify h _

theorem length_subjects_unsubscribe (x : Exchange) (id : SubjectId) (number : Nat) :
    (x.unsubscribe id number).subjects.length = x.subjects.length :=
  List.length_modify ..

/-- Where there are no subscribers there is nothing to release. -/
theorem unsubscribe_of_subscribers_eq_nil {x : Exchange} {id : SubjectId}
    (h : (x.subject id).subscribers = []) (number : Nat) : x.unsubscribe id number = x := by
  have hsubjects : x.subjects.modify id (fun s => s.unsubscribe number) = x.subjects := by
    refine List.ext_getElem? fun other => ?_
    rw [List.getElem?_modify]
    cases hother : x.subjects[other]? with
    | none => rfl
    | some subject =>
      by_cases he : id = other
      · subst he
        rw [Exchange.subject, hother, Option.getD_some] at h
        have hsame : subject.unsubscribe number = subject := by
          rw [Subject.unsubscribe, h, List.filter_nil, ← h]
        simp [hsame]
      · simp [he]
  rw [unsubscribe, hsubjects]

/-! A new mailbox that is subscribed. -/

/-- A mailbox is opened, and it is subscribed to a subject. -/
def enroll (x : Exchange) (id : SubjectId) : Option Nat × Exchange :=
  x.openMailbox.2.subscribe id x.mailboxes.length

theorem subject_enroll {x : Exchange} {id : SubjectId} (h : id < x.subjects.length) :
    (x.enroll id).1 = ((x.subject id).subscribe x.mailboxes.length).1 ∧
      (x.enroll id).2.subject id = ((x.subject id).subscribe x.mailboxes.length).2 :=
  subject_subscribe (x := x.openMailbox.2) h x.mailboxes.length

theorem length_subjects_enroll (x : Exchange) (id : SubjectId) :
    (x.enroll id).2.subjects.length = x.subjects.length :=
  x.openMailbox.2.length_subjects_subscribe id x.mailboxes.length

theorem length_mailboxes_enroll (x : Exchange) (id : SubjectId) :
    (x.enroll id).2.mailboxes.length = x.mailboxes.length + 1 := by
  rw [enroll, length_mailboxes_subscribe, length_mailboxes_openMailbox]

/-- The mailboxes that were there are left as they are. -/
theorem slot_enroll {x : Exchange} {mailbox : MailboxId} (h : mailbox < x.mailboxes.length)
    (id : SubjectId) : (x.enroll id).2.slot mailbox = x.slot mailbox := by
  rw [enroll, slot_subscribe x.lt_length_mailboxes_openMailbox, if_neg (Nat.ne_of_lt h),
    slot_openMailbox]

/-- The new mailbox holds the greeting. -/
theorem slot_enroll_new (x : Exchange) (id : SubjectId) : (x.enroll id).2.slot x.mailboxes.length
    = (x.subject id).greeting?.toList.foldl Slot.write .empty := by
  have hempty : x.slot x.mailboxes.length = .empty := by
    rw [slot, List.getElem?_eq_none (Nat.le_refl _)]
    rfl
  rw [enroll, slot_subscribe x.lt_length_mailboxes_openMailbox, if_pos rfl, slot_openMailbox,
    hempty]
  rfl

end Exchange

end Reactive
