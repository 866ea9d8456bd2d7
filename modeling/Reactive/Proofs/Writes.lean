import Reactive.Proofs.Coupling
import Reactive.Signal

/-!
# Code that only writes

A source is handed the number of a mailbox to write into. It may do so at once, when it is
subscribed to, and at any time later, and it may write into whatever else it was handed before. But
it cannot look into a mailbox, make a value stale or reopen what is closed. In other words, all that
it does to a mailbox is a series of writes.

This is what is assumed of sources. It holds of subjects, and of sources that are merged.

## Main definitions

* `Exchange.ReceivesAt`, `Receives` — what becomes of mailboxes that are only written into
* `OnlyWrites`, `Source.OnlyWrites`
* `Turn`, `Signal.play` — pulls of a signal, and what happens between them

## Main results

* `Exchange.Receives.write`, `push`, `subscribe`
* `OnlyWrites.bind`
* `Source.onlyWrites_ofSubject`, `onlyWrites_merge`
* `Signal.satisfiesM_play` — what pulls keep holds after turns
-/

namespace Reactive

namespace Exchange

/-- Between two exchanges nothing happened to a mailbox but writing. -/
def ReceivesAt (x x' : Exchange) (mailbox : MailboxId) : Prop :=
  mailbox < x.mailboxes.length → mailbox < x'.mailboxes.length ∧
    ∃ pushes : List Push, x'.slot mailbox = pushes.foldl Slot.write (x.slot mailbox)

/-- Between two exchanges nothing happened to any mailbox but writing. Others were opened. -/
def Receives (x x' : Exchange) : Prop := ∀ mailbox, x.ReceivesAt x' mailbox

theorem ReceivesAt.trans {x y z : Exchange} {mailbox : MailboxId} (hxy : x.ReceivesAt y mailbox)
    (hyz : y.ReceivesAt z mailbox) : x.ReceivesAt z mailbox := by
  intro hmailbox
  obtain ⟨hy, first, hfirst⟩ := hxy hmailbox
  obtain ⟨hz, second, hsecond⟩ := hyz hy
  exact ⟨hz, first ++ second, by rw [hsecond, hfirst, List.foldl_append]⟩

namespace Receives

theorem of_mailboxes_eq {x x' : Exchange} (h : x'.mailboxes = x.mailboxes) : x.Receives x' := by
  intro mailbox hmailbox
  refine ⟨?_, [], ?_⟩
  · rw [h]
    exact hmailbox
  · rw [Exchange.slot, h]
    rfl

theorem refl (x : Exchange) : x.Receives x := of_mailboxes_eq rfl

theorem trans {x y z : Exchange} (hxy : x.Receives y) (hyz : y.Receives z) : x.Receives z :=
  fun mailbox => (hxy mailbox).trans (hyz mailbox)

theorem write (x : Exchange) (mailbox : MailboxId) (p : Push) : x.Receives (x.write mailbox p) := by
  by_cases hmailbox : mailbox < x.mailboxes.length
  · intro other hother
    rw [x.length_mailboxes_write, x.slot_write hmailbox]
    refine ⟨hother, ?_⟩
    split
    · next he => exact ⟨[p], by rw [he]; rfl⟩
    · exact ⟨[], rfl⟩
  · exact of_mailboxes_eq (List.modify_eq_self (Nat.le_of_not_lt hmailbox))

theorem writeAll (x : Exchange) (mailboxes : List MailboxId) (p : Push) :
    x.Receives (x.writeAll mailboxes p) := by
  induction mailboxes generalizing x with
  | nil => exact refl x
  | cons mailbox rest ih => exact (write x mailbox p).trans (ih (x.write mailbox p))

/-- A push to a subject reaches mailboxes by writes. -/
theorem push (x : Exchange) (id : SubjectId) (p : Push) : x.Receives (x.push id p) :=
  (writeAll x _ p).trans (of_mailboxes_eq rfl)

/-- A subscription to a subject writes a greeting, if anything. -/
theorem subscribe (x : Exchange) (id : SubjectId) (mailbox : MailboxId) :
    x.Receives (x.subscribe id mailbox).2 := by
  rw [Exchange.subscribe]
  cases (x.subject id).greeting? with
  | none => exact of_mailboxes_eq rfl
  | some p => exact (write x mailbox p).trans (of_mailboxes_eq rfl)

/-- To other mailboxes than the one that is looked into, nothing happens. -/
theorem collect (x : Exchange) {mailbox other : MailboxId} (h : other ≠ mailbox) :
    x.ReceivesAt (x.collect mailbox).2 other := by
  intro hother
  refine ⟨?_, [], ?_⟩
  · rw [Exchange.collect, List.length_modify]
    exact hother
  · rw [x.slot_collect, if_neg h]
    rfl

theorem openMailbox (x : Exchange) : x.Receives x.openMailbox.2 := by
  intro mailbox hmailbox
  refine ⟨?_, [], ?_⟩
  · rw [Exchange.openMailbox, List.length_append]
    exact Nat.lt_add_right _ hmailbox
  · simp [Exchange.slot, Exchange.openMailbox, List.getElem?_append_left hmailbox]

end Receives

end Exchange

variable {n : Type → Type} [Monad n] {α β : Type}

/-- Whatever the state of the exchange, all that an action does to mailboxes is writing. -/
def OnlyWrites (action : StateT Exchange n α) : Prop :=
  ∀ x : Exchange, SatisfiesM (fun done => x.Receives done.2) (action.run x)

/-- All that a source does to mailboxes when it is subscribed to is writing. -/
def Source.OnlyWrites (source : Source (StateT Exchange n)) : Prop :=
  ∀ mailbox, Reactive.OnlyWrites (source.subscribe mailbox)

variable [LawfulMonad n]

namespace OnlyWrites

theorem pure (a : α) : OnlyWrites (Pure.pure a : StateT Exchange n α) :=
  fun x => SatisfiesM.pure (Exchange.Receives.refl x)

theorem bind {action : StateT Exchange n α} {next : α → StateT Exchange n β}
    (haction : OnlyWrites action) (hnext : ∀ a, OnlyWrites (next a)) :
    OnlyWrites (action >>= next) := by
  intro x
  rw [StateT.run_bind]
  refine (haction x).bind fun done hdone => ?_
  exact (hnext done.1 done.2).imp fun hlater => hdone.trans hlater

/-- What does not touch the exchange. -/
theorem lift (action : n α) : OnlyWrites (StateT.lift action : StateT Exchange n α) := by
  intro x
  rw [StateT.run_lift]
  exact SatisfiesM.trivial.bind fun _ _ => SatisfiesM.pure (Exchange.Receives.refl x)

theorem modifyGet {change : Exchange → α × Exchange} (h : ∀ x : Exchange, x.Receives (change x).2) :
    OnlyWrites (modifyGetThe Exchange change : StateT Exchange n α) :=
  fun x => SatisfiesM.pure (h x)

theorem mapM {actions : List α} {f : α → StateT Exchange n β}
    (h : ∀ a ∈ actions, OnlyWrites (f a)) : OnlyWrites (actions.mapM f) := by
  induction actions with
  | nil => exact pure []
  | cons a rest ih =>
    rw [List.mapM_cons]
    refine (h a List.mem_cons_self).bind fun b => ?_
    refine (ih fun other hother => h other (List.mem_cons_of_mem _ hother)).bind fun bs => ?_
    exact pure (b :: bs)

end OnlyWrites

namespace Source

/-- Subjects only write. -/
theorem onlyWrites_ofSubject (id : SubjectId) :
    (ofSubject id : Source (StateT Exchange n)).OnlyWrites := by
  intro mailbox
  refine OnlyWrites.bind (OnlyWrites.modifyGet fun x => Exchange.Receives.subscribe x id mailbox) ?_
  intro number?
  cases number? with
  | none => exact OnlyWrites.pure _
  | some number => exact OnlyWrites.pure _

/-- Merged sources only write if each of them does. -/
theorem onlyWrites_merge {sources : List (Source (StateT Exchange n))}
    (h : ∀ source ∈ sources, source.OnlyWrites) : (merge sources).OnlyWrites := by
  intro mailbox
  refine OnlyWrites.bind (OnlyWrites.mapM fun source hsource => h source hsource mailbox) ?_
  intro subscriptions
  exact OnlyWrites.pure _

end Source

/-! ### Turns -/

/-- One thing that happens in a run: a signal is pulled, or something else is done. -/
inductive Turn (m : Type → Type) where
  | act (action : m Unit)
  | pull

/-- Takes turns. Given are the signal after each pull, and whether the pull crashed. -/
def Signal.play {m : Type → Type} [Monad m] :
    List (Turn m) → Signal m → m (List (Signal m × Option Crash))
  | [], _ => pure []
  | .act action :: rest, s => do
    action
    play rest s
  | .pull :: rest, s => do
    let done ← s.pull
    let later ← play rest done.1
    pure (done :: later)

/-- **What pulls keep holds after turns.** It may depend on all that was given so far, the latest
first. The induction is on the turns. -/
theorem Signal.satisfiesM_play {m : Type → Type} [Monad m] [LawfulMonad m]
    {I : List (Signal m × Option Crash) → Signal m → Prop}
    (hpull : ∀ earlier s, I earlier s → SatisfiesM (fun done => I (done :: earlier) done.1) s.pull)
    (turns : List (Turn m)) {earlier : List (Signal m × Option Crash)} {s : Signal m}
    (h : I earlier s) :
    SatisfiesM (fun dones => ∃ s', I (dones.reverse ++ earlier) s') (s.play turns) := by
  induction turns generalizing earlier s with
  | nil => exact SatisfiesM.pure ⟨s, h⟩
  | cons turn rest ih =>
    cases turn with
    | act action => exact SatisfiesM.trivial.bind fun _ _ => ih h
    | pull =>
      refine (hpull earlier s h).bind fun done hdone => ?_
      refine (ih hdone).bind fun later hlater => SatisfiesM.pure ?_
      simpa using hlater

end Reactive
