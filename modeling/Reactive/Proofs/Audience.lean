import Reactive.Proofs.Happenings

/-!
# The audience of a subject

A push to a subject reaches the signals that are there, each once. While the subject is open, all
that it knows of its audience is the list of the mailboxes of those signals that were not dropped,
each with the number of its signal. This is the invariant, and it is kept by everything that
happens. So nothing is lost, delivered twice or delivered to another signal, whatever the order of
creations, drops and the end of the subject.

## Main definitions

* `Knows` — what a subject knows of its audience
* `Housed` — mailboxes of their own
* `Seated` — how things stand with one signal of the audience
* `Attended` — the invariant, made of these
* `Served`, `Delivered` — what comes of it

## Main results

* `Knows.push`, `subscribe`, `unsubscribe` — the subject
* `Seated.concat_of_unaffected` — nothing that happens to the others matters
* `Attended.push`, `create`, `pull`, `drop` — what each happening does
* `Attended.run`, `runAll` — the invariant is kept
* `delivered_of_addSubject`
-/

namespace Reactive

variable {σ : Type}

open World

/-! ### Members of the audience -/

namespace Audience

variable {audience : Audience σ} {number : Nat} {signal : Signal (World σ)}

theorem lt_length_of_member? (h : audience.member? number = some signal) :
    number < audience.length := by
  by_contra hge
  rw [member?, List.getElem?_eq_none (Nat.le_of_not_lt hge)] at h
  cases h

theorem member?_set (h : number < audience.length) (member : Option (Signal (World σ)))
    (other : Nat) : Audience.member? (audience.set number member) other
      = if other = number then member else audience.member? other := by
  rw [member?, member?, List.getElem?_set]
  by_cases he : number = other
  · subst he
    simp [h]
  · simp [he, Ne.symm he]

theorem member?_concat (member : Option (Signal (World σ))) (other : Nat) :
    Audience.member? (audience ++ [member]) other
      = if other = audience.length then member else audience.member? other := by
  rw [member?, member?]
  rcases Nat.lt_trichotomy other audience.length with hlt | rfl | hgt
  · rw [List.getElem?_append_left hlt, if_neg (Nat.ne_of_lt hlt)]
  · simp
  · rw [List.getElem?_eq_none (Nat.le_of_lt hgt), if_neg (Nat.ne_of_gt hgt),
      List.getElem?_eq_none (by simpa using hgt)]

theorem mem_live : number ∈ audience.live ↔ (audience.member? number).isSome = true := by
  rw [live, List.mem_filter, List.mem_range, and_iff_right_iff_imp]
  intro h
  obtain ⟨signal, hsignal⟩ := Option.isSome_iff_exists.mp h
  exact lt_length_of_member? hsignal

theorem nodup_live (audience : Audience σ) : audience.live.Nodup := List.nodup_range.filter _

/-- A signal that changes stays in the audience. -/
theorem live_set_some (h : audience.member? number = some signal) (later : Signal (World σ)) :
    Audience.live (audience.set number (some later)) = audience.live := by
  have hlt := lt_length_of_member? h
  rw [live, live, List.length_set]
  refine List.filter_congr fun other _ => ?_
  rw [member?_set hlt]
  split
  · next he => rw [he, h]; rfl
  · rfl

/-- A signal that is dropped leaves it. -/
theorem live_set_none (h : audience.member? number = some signal) :
    Audience.live (audience.set number none)
      = audience.live.filter fun other => other ≠ number := by
  have hlt := lt_length_of_member? h
  rw [live, live, List.length_set, List.filter_filter]
  refine List.filter_congr fun other _ => ?_
  rw [member?_set hlt]
  by_cases he : other = number
  · simp [he]
  · simp [he]

/-- A new signal comes last. -/
theorem live_concat (audience : Audience σ) (signal : Signal (World σ)) :
    Audience.live (audience ++ [some signal]) = audience.live ++ [audience.length] := by
  have hlast : (Audience.member? (audience ++ [some signal]) audience.length).isSome = true := by
    rw [member?_concat, if_pos rfl]
    rfl
  have hearlier : (List.range audience.length).filter
        (fun other => (Audience.member? (audience ++ [some signal]) other).isSome)
      = (List.range audience.length).filter fun other => (audience.member? other).isSome := by
    refine List.filter_congr fun other hother => ?_
    rw [member?_concat, if_neg (Nat.ne_of_lt (List.mem_range.mp hother))]
  rw [live, live, List.length_append, List.length_singleton, List.range_succ, List.filter_append,
    hearlier, List.filter_singleton, hlast, cond_true]

end Audience

/-- What the pulls of the signal with a number have shown. -/
def Showing.of (number : Nat) (shown : List Showing) : List (Emission × Option Crash) :=
  (shown.filter fun s => s.number = number).map fun s => (s.emission, s.crash?)

theorem Showing.of_concat (number : Nat) (shown : List Showing) (s : Showing) :
    Showing.of number (shown ++ [s])
      = Showing.of number shown ++ if s.number = number then [(s.emission, s.crash?)] else [] := by
  rw [Showing.of, Showing.of, List.filter_append, List.map_append, List.filter_singleton]
  by_cases h : s.number = number
  · simp [h]
  · simp [h]

/-! ### The audience after some happenings -/

open Happening Audience

/-- A subject knows its audience. It was told of some pushes, and while it is open its subscribers
are the mailboxes of the signals that were not dropped, each with the number of its signal. -/
structure Knows (initial : Option Value) (told : List Push) (mailbox : Nat → MailboxId)
    (audience : Audience σ) (subject : Subject) : Prop where
  current : subject.current = valueOf initial told
  terminal : subject.terminal = endOf told
  nextNumber : endOf told = none → subject.nextNumber = audience.length
  subscribers : subject.subscribers = if (endOf told).isSome then []
    else audience.live.map fun number => (number, mailbox number)

namespace Knows

variable {initial : Option Value} {told : List Push} {mailbox : Nat → MailboxId}
  {audience : Audience σ} {subject : Subject}

theorem receivers (h : Knows initial told mailbox audience subject) :
    subject.receivers = if (endOf told).isSome then [] else audience.live.map mailbox := by
  rw [Subject.receivers, h.terminal, h.subscribers]
  cases endOf told with
  | some terminal => rfl
  | none => exact List.map_map

theorem mem_receivers (h : Knows initial told mailbox audience subject) (hopen : endOf told = none)
    {number : Nat} {signal : Signal (World σ)} (hmember : audience.member? number = some signal) :
    mailbox number ∈ subject.receivers := by
  rw [h.receivers, hopen]
  refine List.mem_map_of_mem (mem_live.mpr ?_)
  rw [hmember]
  rfl

/-- Who comes late is told what the subject was told of. -/
theorem greeting? (h : Knows initial told mailbox audience subject) :
    subject.greeting? = Happening.greeting? initial told := by
  rw [Subject.greeting?, h.terminal, h.current]
  rfl

theorem push (h : Knows initial told mailbox audience subject) (p : Push) :
    Knows initial (told ++ [p]) mailbox audience (subject.push p) := by
  have hended : (endOf told).isSome = true → subject.subscribers = [] := by
    intro hended
    rw [h.subscribers, if_pos hended]
  rw [Subject.push_of_told h.current h.terminal hended p]
  constructor
  case current => rfl
  case terminal => rfl
  case nextNumber =>
    intro hopen
    rw [endOf_append, Option.or_eq_none_iff] at hopen
    exact h.nextNumber hopen.1
  case subscribers =>
    cases hnow : (endOf (told ++ [p])).isSome with
    | true => rfl
    | false =>
      rw [endOf_append, Option.isSome_or, Bool.or_eq_false_iff] at hnow
      rw [h.subscribers, hnow.1]
      rfl

/-- The mailboxes of the others are not exchanged for the new one. -/
theorem map_live_update (mailbox : Nat → MailboxId) (audience : Audience σ) (new : MailboxId) :
    (audience.live.map fun number =>
        (number, Function.update mailbox audience.length new number))
      = audience.live.map fun number => (number, mailbox number) := by
  refine List.map_congr_left fun number hnumber => ?_
  obtain ⟨_, hmember⟩ := Option.isSome_iff_exists.mp (mem_live.mp hnumber)
  rw [Function.update_of_ne (Nat.ne_of_lt (lt_length_of_member? hmember))]

/-- A new signal is subscribed behind the others. -/
theorem subscribe (h : Knows initial told mailbox audience subject) (new : MailboxId)
    (signal : Signal (World σ)) :
    Knows initial told (Function.update mailbox audience.length new) (audience ++ [some signal])
      (subject.subscribe new).2 := by
  rw [Subject.subscribe_eq, h.terminal]
  constructor
  case current => exact h.current
  case terminal => rfl
  case nextNumber =>
    intro hopen
    rw [hopen, List.length_append]
    exact congrArg (· + 1) (h.nextNumber hopen)
  case subscribers =>
    have hsubscribers := h.subscribers
    rw [live_concat, List.map_append, map_live_update, List.map_singleton, Function.update_self]
    cases hopen : endOf told with
    | some terminal =>
      rw [hopen] at hsubscribers
      exact hsubscribers
    | none =>
      rw [hopen] at hsubscribers
      rw [← h.nextNumber hopen]
      exact congrArg (· ++ _) hsubscribers

/-- A signal that was pulled is subscribed as before. -/
theorem set_some (h : Knows initial told mailbox audience subject) {number : Nat}
    {signal : Signal (World σ)} (hmember : audience.member? number = some signal)
    (later : Signal (World σ)) :
    Knows initial told mailbox (audience.set number (some later)) subject where
  current := h.current
  terminal := h.terminal
  nextNumber := by
    rw [List.length_set]
    exact h.nextNumber
  subscribers := by
    rw [live_set_some hmember]
    exact h.subscribers

/-- A signal that is dropped is subscribed no more. -/
theorem unsubscribe (h : Knows initial told mailbox audience subject) {number : Nat}
    {signal : Signal (World σ)} (hmember : audience.member? number = some signal) :
    Knows initial told mailbox (audience.set number none) (subject.unsubscribe number) where
  current := h.current
  terminal := h.terminal
  nextNumber := by
    rw [List.length_set]
    exact h.nextNumber
  subscribers := by
    rw [live_set_none hmember, Subject.unsubscribe, h.subscribers]
    cases endOf told with
    | some terminal => rfl
    | none =>
      show (audience.live.map _).filter _ = _
      rw [List.filter_map]
      rfl

end Knows

/-- The signals with numbers below `count` have mailboxes of their own. -/
structure Housed (mailbox : Nat → MailboxId) (count : Nat) (x : Exchange) : Prop where
  injective : ∀ number < count, ∀ other < count, mailbox number = mailbox other → number = other
  lt : ∀ number < count, mailbox number < x.mailboxes.length

namespace Housed

variable {mailbox : Nat → MailboxId} {count : Nat} {x x' : Exchange}

theorem of_length_eq (h : Housed mailbox count x)
    (hlength : x'.mailboxes.length = x.mailboxes.length) : Housed mailbox count x' := by
  refine ⟨h.injective, fun number hnumber => ?_⟩
  rw [hlength]
  exact h.lt number hnumber

/-- The mailbox of a new signal is none of the others. -/
theorem enroll (h : Housed mailbox count x) (id : SubjectId) :
    Housed (Function.update mailbox count x.mailboxes.length) (count + 1) (x.enroll id).2 := by
  have hold : ∀ number < count,
      Function.update mailbox count x.mailboxes.length number = mailbox number :=
    fun number hnumber => Function.update_of_ne (Nat.ne_of_lt hnumber) ..
  have hnew : Function.update mailbox count x.mailboxes.length count = x.mailboxes.length :=
    Function.update_self ..
  constructor
  case injective =>
    intro number hnumber other hother heq
    rcases Nat.lt_succ_iff_lt_or_eq.mp hnumber with hnumber | rfl
    · rcases Nat.lt_succ_iff_lt_or_eq.mp hother with hother | rfl
      · rw [hold number hnumber, hold other hother] at heq
        exact h.injective number hnumber other hother heq
      · rw [hold number hnumber, hnew] at heq
        exact absurd heq (Nat.ne_of_lt (h.lt number hnumber))
    · rcases Nat.lt_succ_iff_lt_or_eq.mp hother with hother | rfl
      · rw [hold other hother, hnew] at heq
        exact absurd heq.symm (Nat.ne_of_lt (h.lt other hother))
      · rfl
  case lt =>
    intro number hnumber
    rw [Exchange.length_mailboxes_enroll]
    rcases Nat.lt_succ_iff_lt_or_eq.mp hnumber with hnumber | rfl
    · rw [hold number hnumber]
      exact Nat.lt_succ_of_lt (h.lt number hnumber)
    · rw [hnew]
      exact Nat.lt_succ_self _

variable {initial : Option Value} {told : List Push} {audience : Audience σ} {subject : Subject}

theorem nodup_receivers (h : Housed mailbox audience.length x)
    (hknows : Knows initial told mailbox audience subject) : subject.receivers.Nodup := by
  rw [hknows.receivers]
  split
  · exact List.nodup_nil
  · refine audience.nodup_live.map_on fun number hnumber other hother heq => ?_
    obtain ⟨_, hnumber⟩ := Option.isSome_iff_exists.mp (mem_live.mp hnumber)
    obtain ⟨_, hother⟩ := Option.isSome_iff_exists.mp (mem_live.mp hother)
    exact h.injective number (lt_length_of_member? hnumber) other (lt_length_of_member? hother) heq

theorem receivers_lt (h : Housed mailbox audience.length x)
    (hknows : Knows initial told mailbox audience subject) :
    ∀ receiver ∈ subject.receivers, receiver < x.mailboxes.length := by
  intro receiver hreceiver
  rw [hknows.receivers] at hreceiver
  split at hreceiver
  · cases hreceiver
  · obtain ⟨number, hnumber, rfl⟩ := List.mem_map.mp hreceiver
    obtain ⟨_, hnumber⟩ := Option.isSome_iff_exists.mp (mem_live.mp hnumber)
    exact h.lt number (lt_length_of_member? hnumber)

end Housed

/-- How things stand with the signal that was created by `create r` between `before` and `after`:
if it was not dropped, it has had the turns of its timeline. -/
structure Seated (initial : Option Value) (before : List (Happening σ))
    (r : SafeObserver (ExceptT Crash (StateM σ))) (after : List (Happening σ))
    (mailbox : MailboxId) (audience : Audience σ) (shown : List Showing) (x : Exchange) :
    Prop where
  dropped : .drop (creations before) ∈ after → audience.member? (creations before) = none ∧
    ∀ p : SafeObserver (ExceptT Crash Id), r = p.anywhere →
      p.shown (timeline initial before after) = Showing.of (creations before) shown
  live : .drop (creations before) ∉ after → ∃ signal,
    audience.member? (creations before) = some signal ∧
      Follows r mailbox (timeline initial before after) (Showing.of (creations before) shown)
        signal x

namespace Seated

variable {initial : Option Value} {before after : List (Happening σ)}
  {r : SafeObserver (ExceptT Crash (StateM σ))} {mailbox : MailboxId}
  {audience audience' : Audience σ} {shown shown' : List Showing} {x x' : Exchange}
  {event : Happening σ} {signal : Signal (World σ)}

/-- A signal that is there follows the subject. -/
theorem follows (h : Seated initial before r after mailbox audience shown x)
    (hmember : audience.member? (creations before) = some signal) :
    .drop (creations before) ∉ after ∧
      Follows r mailbox (timeline initial before after) (Showing.of (creations before) shown)
        signal x := by
  have hmem : .drop (creations before) ∉ after := by
    intro hmem
    rw [(h.dropped hmem).1] at hmember
    cases hmember
  obtain ⟨signal', hmember', hfollows⟩ := h.live hmem
  obtain rfl : signal' = signal := Option.some.inj (hmember'.symm.trans hmember)
  exact ⟨hmem, hfollows⟩

/-- What was dropped stays so. -/
theorem concat_of_mem (h : Seated initial before r after mailbox audience shown x)
    (hmem : .drop (creations before) ∈ after)
    (hmember : audience'.member? (creations before) = none)
    (hshown : Showing.of (creations before) shown' = Showing.of (creations before) shown) :
    Seated initial before r (after ++ [event]) mailbox audience' shown' x' where
  dropped _ := by
    refine ⟨hmember, fun p hp => ?_⟩
    rw [timeline_concat_of_mem initial hmem, hshown]
    exact (h.dropped hmem).2 p hp
  live hnotMem := absurd (List.mem_append_left [event] hmem) hnotMem

/-- A signal that was not dropped has the turns that the event means for it. -/
theorem concat_of_follows (hmem : .drop (creations before) ∉ after)
    (hevent : event ≠ .drop (creations before))
    (hmember : audience'.member? (creations before) = some signal)
    (hfollows : Follows r mailbox (timeline initial before after ++ turnsOf (creations before)
      (endOf (pushes (before ++ create r :: after))).isNone [event])
      (Showing.of (creations before) shown') signal x') :
    Seated initial before r (after ++ [event]) mailbox audience' shown' x' where
  dropped hmem' := by
    rcases List.mem_append.mp hmem' with hmem' | hmem'
    · exact absurd hmem' hmem
    · exact absurd (List.mem_singleton.mp hmem').symm hevent
  live _ := by
    refine ⟨signal, hmember, ?_⟩
    rw [timeline_concat initial hmem event (r := r)]
    exact hfollows

/-- **Nothing that happens to the others matters to a signal.** -/
theorem concat_of_unaffected (h : Seated initial before r after mailbox audience shown x)
    (hevent : event ≠ .drop (creations before))
    (hturns : turnsOf (creations before) (endOf (pushes (before ++ create r :: after))).isNone
      [event] = [])
    (hmember : audience'.member? (creations before) = audience.member? (creations before))
    (hshown : Showing.of (creations before) shown' = Showing.of (creations before) shown)
    (hlt : mailbox < x'.mailboxes.length) (hslot : x'.slot mailbox = x.slot mailbox) :
    Seated initial before r (after ++ [event]) mailbox audience' shown' x' := by
  by_cases hmem : .drop (creations before) ∈ after
  · exact h.concat_of_mem hmem (hmember.trans (h.dropped hmem).1) hshown
  · obtain ⟨signal, hsignal, hfollows⟩ := h.live hmem
    refine concat_of_follows hmem hevent (hmember.trans hsignal) ?_
    rw [hturns, List.append_nil, hshown]
    exact hfollows.of_slot_eq hlt hslot

/-- While the subject is open, a push is written into the mailbox of a signal that is there. -/
theorem push (h : Seated initial before r after mailbox audience shown x) {p : Push}
    (hlt : mailbox < x'.mailboxes.length)
    (hended : (endOf (pushes (before ++ create r :: after))).isSome = true →
      x'.slot mailbox = x.slot mailbox)
    (hopen : ∀ signal, audience.member? (creations before) = some signal →
      endOf (pushes (before ++ create r :: after)) = none →
        x'.slot mailbox = (x.slot mailbox).write p) :
    Seated initial before r (after ++ [.push p]) mailbox audience shown x' := by
  cases hnow : endOf (pushes (before ++ create r :: after)) with
  | some terminal =>
    refine h.concat_of_unaffected (by rintro ⟨⟩) ?_ rfl rfl hlt (hended (by rw [hnow]; rfl))
    rw [hnow]
    rfl
  | none =>
    by_cases hmem : .drop (creations before) ∈ after
    · exact h.concat_of_mem hmem (h.dropped hmem).1 rfl
    · obtain ⟨signal, hmember, hfollows⟩ := h.live hmem
      refine concat_of_follows hmem (by rintro ⟨⟩) hmember ?_
      rw [hnow]
      exact hfollows.write hlt (hopen signal hmember hnow)

/-- A pull of the signal is a turn. -/
theorem pull (h : Seated initial before r after mailbox audience shown x)
    (hmember : audience.member? (creations before) = some signal) (w : σ) :
    Seated initial before r (after ++ [.pull (creations before)]) mailbox
      (audience.set (creations before) (some (perform signal.pull x w).1.1.1))
      (shown ++ [⟨creations before, (perform signal.pull x w).1.1.1.current,
        (perform signal.pull x w).1.1.2⟩])
      (perform signal.pull x w).1.2 := by
  obtain ⟨hmem, hfollows⟩ := h.follows hmember
  refine concat_of_follows hmem (by rintro ⟨⟩)
    ((member?_set (lt_length_of_member? hmember) _ _).trans (if_pos rfl)) ?_
  rw [Showing.of_concat, if_pos rfl, turnsOf, if_pos rfl]
  exact (hfollows.pull w).1

/-- After the drop of the signal there are no more turns. -/
theorem drop (h : Seated initial before r after mailbox audience shown x)
    (hmember : audience.member? (creations before) = some signal) :
    Seated initial before r (after ++ [.drop (creations before)]) mailbox
      (audience.set (creations before) none) shown x' := by
  obtain ⟨hmem, hfollows⟩ := h.follows hmember
  constructor
  case dropped =>
    intro _
    refine ⟨(member?_set (lt_length_of_member? hmember) _ _).trans (if_pos rfl), fun p hp => ?_⟩
    rw [timeline_concat initial hmem _ (r := r), turnsOf, if_pos rfl, List.append_nil]
    exact hfollows.shown_eq hp
  case live => exact fun hnotMem => absurd (List.mem_append_right after List.mem_cons_self) hnotMem

end Seated

/-- What the release of the signal with a number does: it ends its subscription, and if it does
nothing the subject has ended. -/
def Releases (id : SubjectId) (number : Nat) (signal : Signal (World σ)) (ended : Bool) : Prop :=
  signal.release = modifyThe Exchange (fun x => x.unsubscribe id number) ∨
    (signal.release = pure () ∧ ended = true)

/-- What has ended stays so. -/
theorem Releases.imp {id : SubjectId} {number : Nat} {signal : Signal (World σ)}
    {ended ended' : Bool} (h : Releases id number signal ended)
    (hended : ended = true → ended' = true) : Releases id number signal ended' :=
  Or.imp_right (fun hnothing => ⟨hnothing.1, hended hnothing.2⟩) h

/-- **The invariant.** A subject and its audience, after some happenings. -/
structure Attended (initial : Option Value) (id : SubjectId) (past : List (Happening σ))
    (mailbox : Nat → MailboxId) (audience : Audience σ) (shown : List Showing) (x : Exchange) :
    Prop where
  exists_subject : id < x.subjects.length
  knows : Knows initial (pushes past) mailbox audience (x.subject id)
  length : audience.length = creations past
  housed : Housed mailbox audience.length x
  shown_lt : ∀ s ∈ shown, s.number < audience.length
  releases : ∀ number signal, audience.member? number = some signal →
    Releases id number signal (endOf (pushes past)).isSome
  seated : ∀ before r after, past = before ++ create r :: after →
    Seated initial before r after (mailbox (creations before)) audience shown x

namespace Attended

variable {initial : Option Value} {id : SubjectId} {past : List (Happening σ)}
  {mailbox : Nat → MailboxId} {audience : Audience σ} {shown : List Showing} {x : Exchange}

/-- A subject without an audience. -/
theorem addSubject (initial : Option Value) (x : Exchange) (mailbox : Nat → MailboxId) :
    Attended (σ := σ) initial (x.addSubject initial).1 [] mailbox [] []
      (x.addSubject initial).2 where
  exists_subject := by simp [Exchange.addSubject]
  knows := by
    have hsubject : (x.addSubject initial).2.subject (x.addSubject initial).1
        = .ofValue? initial := by
      simp [Exchange.addSubject, Exchange.subject]
    rw [hsubject]
    exact ⟨rfl, rfl, fun _ => rfl, rfl⟩
  length := rfl
  housed := ⟨by rintro _ ⟨⟩, by rintro _ ⟨⟩⟩
  shown_lt := by rintro _ ⟨⟩
  releases := by rintro _ _ ⟨⟩
  seated before r after hpast := by simp at hpast

theorem creations_lt (h : Attended initial id past mailbox audience shown x)
    {before after : List (Happening σ)} {r : SafeObserver (ExceptT Crash (StateM σ))}
    (hpast : past = before ++ create r :: after) : creations before < audience.length := by
  have hcount : creations (create r :: after) = creations after + 1 := List.countP_cons_of_pos rfl
  rw [h.length, hpast, creations_append, hcount]
  omega

/-- A signal that is there was created, and was not dropped. -/
theorem exists_follows (h : Attended initial id past mailbox audience shown x) {number : Nat}
    {signal : Signal (World σ)} (hmember : audience.member? number = some signal) :
    ∃ r turns, Follows r (mailbox number) turns (Showing.of number shown) signal x := by
  have hlt := lt_length_of_member? hmember
  rw [h.length] at hlt
  obtain ⟨before, r, after, hpast, rfl⟩ := exists_create hlt
  exact ⟨r, _, ((h.seated before r after hpast).follows hmember).2⟩

/-- What a signal has shown that is created only now. -/
theorem showing_of_length (h : Attended initial id past mailbox audience shown x) :
    Showing.of audience.length shown = [] := by
  have hnone : (shown.filter fun s => s.number = audience.length) = [] := by
    refine List.filter_eq_nil_iff.mpr fun s hs => ?_
    have hlt := h.shown_lt s hs
    simpa using Nat.ne_of_lt hlt
  rw [Showing.of, hnone]
  rfl

/-- **A pull does nothing but to look into the mailbox**, and it leaves the subscription. -/
theorem perform_pull (h : Attended initial id past mailbox audience shown x) {number : Nat}
    {signal : Signal (World σ)} (hmember : audience.member? number = some signal) (w : σ) :
    (perform signal.pull x w).1.2 = (x.collect (mailbox number)).2 ∧
      (perform signal.pull x w).1.1.1.release = signal.release := by
  obtain ⟨_, _, hfollows⟩ := h.exists_follows hmember
  refine ⟨(hfollows.pull w).2, ?_⟩
  obtain ⟨automaton, subscription, hsignal⟩ := hfollows.observed
  rw [hsignal]
  exact perform_of_satisfiesM
    (Signal.satisfiesM_release_pull automaton _ subscription signal.current) x w

/-- **A drop does nothing but to end a subscription.** Where the subject has ended there is none, so
it makes no difference that nothing is done. -/
theorem perform_release (h : Attended initial id past mailbox audience shown x) {number : Nat}
    {signal : Signal (World σ)} (hmember : audience.member? number = some signal) (w : σ) :
    (perform signal.release x w).1.2 = x.unsubscribe id number := by
  rcases h.releases number signal hmember with hrelease | ⟨hrelease, hended⟩
  · rw [hrelease]
    rfl
  · have hnone : (x.subject id).subscribers = [] := by
      rw [h.knows.subscribers, if_pos hended]
    rw [hrelease, Exchange.unsubscribe_of_subscribers_eq_nil hnone]
    rfl

/-! Each happening in turn. -/

/-- After a happening that creates nothing, the signals are those from before. -/
theorem seated_concat (h : Attended initial id past mailbox audience shown x) {event : Happening σ}
    (hevent : event.isCreate = false) {audience' : Audience σ} {shown' : List Showing}
    {x' : Exchange}
    (hseated : ∀ {before r after}, past = before ++ create r :: after →
      creations before < audience.length →
      Seated initial before r after (mailbox (creations before)) audience shown x →
      Seated initial before r (after ++ [event]) (mailbox (creations before)) audience' shown' x') :
    ∀ before r after, past ++ [event] = before ++ create r :: after →
      Seated initial before r after (mailbox (creations before)) audience' shown' x' := by
  intro before r after heq
  rcases concat_eq_iff.mp heq with ⟨earlier, rfl, hpast⟩ | ⟨-, rfl, -⟩
  · exact hseated hpast (h.creations_lt hpast) (h.seated before r earlier hpast)
  · cases hevent

theorem push (h : Attended initial id past mailbox audience shown x) (p : Push) :
    Attended initial id (past ++ [.push p]) mailbox audience shown (x.push id p) := by
  have hpushes : pushes (past ++ [Happening.push p]) = pushes past ++ [p] := pushes_append past _
  have hhoused : Housed mailbox audience.length (x.push id p) :=
    h.housed.of_length_eq (Exchange.length_mailboxes_push x id p)
  have hslot := Exchange.slot_push (h.housed.nodup_receivers h.knows)
    (h.housed.receivers_lt h.knows) p
  constructor
  case exists_subject =>
    rw [Exchange.length_subjects_push]
    exact h.exists_subject
  case knows =>
    rw [hpushes, Exchange.subject_push h.exists_subject]
    exact h.knows.push p
  case length =>
    rw [creations_append]
    exact h.length
  case housed => exact hhoused
  case shown_lt => exact h.shown_lt
  case releases =>
    intro number signal hmember
    refine (h.releases number signal hmember).imp fun hended => ?_
    rw [hpushes, endOf_append, Option.isSome_or, hended, Bool.true_or]
  case seated =>
    refine h.seated_concat rfl fun {before r after} hpast hnumber hseated => ?_
    refine hseated.push (hhoused.lt _ hnumber) ?_ ?_
    · intro hended
      rw [← hpast] at hended
      rw [hslot, h.knows.receivers, if_pos hended]
      rfl
    · intro signal hmember hopen
      rw [← hpast] at hopen
      rw [hslot, if_pos (h.knows.mem_receivers hopen hmember)]

/-- A new signal is seated behind the others, and has only been greeted. -/
theorem seated_create (h : Attended initial id past mailbox audience shown x)
    (r : SafeObserver (ExceptT Crash (StateM σ))) (subscription : Subscription (World σ)) :
    Seated initial past r [] x.mailboxes.length
      (audience ++ [some (SafeObserver.opened r.toCrashing x.mailboxes.length subscription)]) shown
      (x.enroll id).2 where
  dropped := by rintro ⟨⟩
  live _ := by
    refine ⟨_, (member?_concat _ _).trans (if_pos h.length.symm), ?_⟩
    rw [← h.length, h.showing_of_length, timeline, turnsOf, List.append_nil, ← h.knows.greeting?]
    exact follows_opened r id x subscription

/-- A new signal can be released, unless the subject has ended. -/
theorem releases_create (h : Attended initial id past mailbox audience shown x)
    (o : Observer (World σ)) (mailbox' : MailboxId) : Releases id audience.length
      (SafeObserver.opened o mailbox' (subscriptionOf id (x.enroll id).1))
      (endOf (pushes past)).isSome := by
  rw [(Exchange.subject_enroll h.exists_subject).1, Subject.subscribe_eq, h.knows.terminal]
  cases hopen : endOf (pushes past) with
  | some terminal => exact Or.inr ⟨rfl, rfl⟩
  | none =>
    rw [← h.knows.nextNumber hopen]
    exact Or.inl rfl

/-- **A creation.** -/
theorem create (h : Attended initial id past mailbox audience shown x)
    (r : SafeObserver (ExceptT Crash (StateM σ))) :
    Attended initial id (past ++ [.create r])
      (Function.update mailbox audience.length x.mailboxes.length)
      (audience ++ [some (SafeObserver.opened r.toCrashing x.mailboxes.length
        (subscriptionOf id (x.enroll id).1))]) shown (x.enroll id).2 := by
  have hpushes : pushes (past ++ [Happening.create r]) = pushes past :=
    (pushes_append past _).trans (List.append_nil _)
  constructor
  case exists_subject =>
    rw [Exchange.length_subjects_enroll]
    exact h.exists_subject
  case knows =>
    rw [hpushes, (Exchange.subject_enroll h.exists_subject).2]
    exact h.knows.subscribe x.mailboxes.length _
  case length =>
    rw [List.length_append, creations_append, h.length]
    rfl
  case housed =>
    rw [List.length_append]
    exact h.housed.enroll id
  case shown_lt =>
    intro s hs
    rw [List.length_append]
    exact Nat.lt_add_right _ (h.shown_lt s hs)
  case releases =>
    intro number signal hmember
    rw [hpushes]
    rw [member?_concat] at hmember
    split at hmember
    · next hlast =>
      obtain rfl := Option.some.inj hmember
      rw [hlast]
      exact h.releases_create r.toCrashing x.mailboxes.length
    · exact h.releases number signal hmember
  case seated =>
    intro before r' after heq
    rcases concat_eq_iff.mp heq with ⟨earlier, rfl, hpast⟩ | ⟨rfl, hcreate, rfl⟩
    · have hnumber := h.creations_lt hpast
      rw [Function.update_of_ne (Nat.ne_of_lt hnumber)]
      refine (h.seated before r' earlier hpast).concat_of_unaffected (by rintro ⟨⟩) rfl ?_ rfl ?_
        (Exchange.slot_enroll (h.housed.lt _ hnumber) id)
      · rw [member?_concat, if_neg (Nat.ne_of_lt hnumber)]
      · rw [Exchange.length_mailboxes_enroll]
        exact Nat.lt_succ_of_lt (h.housed.lt _ hnumber)
    · obtain rfl : r = r' := Happening.create.inj hcreate
      rw [← h.length, Function.update_self]
      exact h.seated_create r _

/-- What is left as it is by a happening that is no push and no creation. -/
theorem pushes_concat_of_pull_or_drop (past : List (Happening σ)) {event : Happening σ}
    {number : Nat} (hevent : event = .pull number ∨ event = .drop number) :
    pushes (past ++ [event]) = pushes past ∧ creations (past ++ [event]) = creations past := by
  rcases hevent with rfl | rfl
  · exact ⟨(pushes_append past _).trans (List.append_nil _), creations_append past _⟩
  · exact ⟨(pushes_append past _).trans (List.append_nil _), creations_append past _⟩

/-- **A pull** of a signal that is there. -/
theorem pull (h : Attended initial id past mailbox audience shown x) {number : Nat}
    {signal : Signal (World σ)} (hmember : audience.member? number = some signal) (w : σ) :
    Attended initial id (past ++ [.pull number]) mailbox
      (audience.set number (some (perform signal.pull x w).1.1.1))
      (shown ++ [⟨number, (perform signal.pull x w).1.1.1.current,
        (perform signal.pull x w).1.1.2⟩])
      (perform signal.pull x w).1.2 := by
  obtain ⟨hpushes, hcount⟩ :=
    pushes_concat_of_pull_or_drop past (Or.inl (rfl : Happening.pull number = _))
  have hnumber := lt_length_of_member? hmember
  obtain ⟨hexchange, hrelease⟩ := h.perform_pull hmember w
  have hlength : (perform signal.pull x w).1.2.mailboxes.length = x.mailboxes.length := by
    rw [hexchange, Exchange.collect, List.length_modify]
  constructor
  case exists_subject =>
    rw [hexchange]
    exact h.exists_subject
  case knows =>
    rw [hexchange, hpushes]
    exact h.knows.set_some hmember _
  case length =>
    rw [List.length_set, hcount]
    exact h.length
  case housed =>
    rw [List.length_set]
    exact h.housed.of_length_eq hlength
  case shown_lt =>
    intro s hs
    rw [List.length_set]
    rcases List.mem_append.mp hs with hs | hs
    · exact h.shown_lt s hs
    · rw [List.mem_singleton.mp hs]
      exact hnumber
  case releases =>
    intro other later hlater
    rw [hpushes]
    rw [member?_set hnumber] at hlater
    split at hlater
    · next he =>
      obtain rfl := Option.some.inj hlater
      rw [Releases, hrelease, he]
      exact h.releases number signal hmember
    · exact h.releases other later hlater
  case seated =>
    refine h.seated_concat rfl fun {before r after} hpast hother hseated => ?_
    by_cases he : number = creations before
    · subst he
      exact hseated.pull hmember w
    · have hapart : mailbox (creations before) ≠ mailbox number :=
        fun heq => he (h.housed.injective _ hother number hnumber heq).symm
      refine hseated.concat_of_unaffected (by rintro ⟨⟩) (if_neg he) ?_ ?_ ?_ ?_
      · rw [member?_set hnumber, if_neg (Ne.symm he)]
      · rw [Showing.of_concat, if_neg he, List.append_nil]
      · rw [hlength]
        exact h.housed.lt _ hother
      · rw [hexchange, x.slot_collect, if_neg hapart]

/-- **A drop** of a signal that is there. It does nothing to mailboxes. -/
theorem drop (h : Attended initial id past mailbox audience shown x) {number : Nat}
    {signal : Signal (World σ)} (hmember : audience.member? number = some signal) (w : σ) :
    Attended initial id (past ++ [.drop number]) mailbox (audience.set number none) shown
      (perform signal.release x w).1.2 := by
  obtain ⟨hpushes, hcount⟩ :=
    pushes_concat_of_pull_or_drop past (Or.inr (rfl : Happening.drop number = _))
  have hnumber := lt_length_of_member? hmember
  rw [h.perform_release hmember w]
  constructor
  case exists_subject =>
    rw [Exchange.length_subjects_unsubscribe]
    exact h.exists_subject
  case knows =>
    rw [hpushes, Exchange.subject_unsubscribe h.exists_subject]
    exact h.knows.unsubscribe hmember
  case length =>
    rw [List.length_set, hcount]
    exact h.length
  case housed =>
    rw [List.length_set]
    exact h.housed.of_length_eq rfl
  case shown_lt =>
    rw [List.length_set]
    exact h.shown_lt
  case releases =>
    intro other later hlater
    rw [hpushes]
    rw [member?_set hnumber] at hlater
    split at hlater
    · cases hlater
    · exact h.releases other later hlater
  case seated =>
    refine h.seated_concat rfl fun {before r after} hpast hother hseated => ?_
    by_cases he : number = creations before
    · subst he
      exact hseated.drop hmember
    · refine hseated.concat_of_unaffected (fun heq => he (Happening.drop.inj heq)) (if_neg he) ?_
        rfl (h.housed.lt _ hother) rfl
      rw [member?_set hnumber, if_neg (Ne.symm he)]

/-- A signal that is not there, because it was dropped or not created yet, can be neither pulled nor
dropped. -/
theorem absent (h : Attended initial id past mailbox audience shown x) {event : Happening σ}
    {number : Nat} (hevent : event = .pull number ∨ event = .drop number)
    (hmember : audience.member? number = none) :
    Attended initial id (past ++ [event]) mailbox audience shown x := by
  obtain ⟨hpushes, hcount⟩ := pushes_concat_of_pull_or_drop past hevent
  have hcreate : event.isCreate = false := by
    rcases hevent with rfl | rfl
    · rfl
    · rfl
  constructor
  case exists_subject => exact h.exists_subject
  case knows =>
    rw [hpushes]
    exact h.knows
  case length =>
    rw [hcount]
    exact h.length
  case housed => exact h.housed
  case shown_lt => exact h.shown_lt
  case releases =>
    rw [hpushes]
    exact h.releases
  case seated =>
    refine h.seated_concat hcreate fun {before r after} hpast hother hseated => ?_
    by_cases hmem : .drop (creations before) ∈ after
    · exact hseated.concat_of_mem hmem (hseated.dropped hmem).1 rfl
    · obtain ⟨signal, hsignal, -⟩ := hseated.live hmem
      have he : number ≠ creations before := by
        rintro rfl
        rw [hmember] at hsignal
        cases hsignal
      have hlt := h.housed.lt _ hother
      rcases hevent with rfl | rfl
      · exact hseated.concat_of_unaffected (by rintro ⟨⟩) (if_neg he) rfl rfl hlt rfl
      · exact hseated.concat_of_unaffected (fun heq => he (Happening.drop.inj heq)) (if_neg he)
          rfl rfl hlt rfl

/-- **Whatever happens**, the invariant is kept. -/
theorem run (h : Attended initial id past mailbox audience shown x) (event : Happening σ) (w : σ) :
    ∃ mailbox', Attended initial id (past ++ [event]) mailbox'
      (perform (event.run id audience) x w).1.1.1
      (shown ++ (perform (event.run id audience) x w).1.1.2)
      (perform (event.run id audience) x w).1.2 := by
  cases event with
  | push p =>
    refine ⟨mailbox, ?_⟩
    rw [Happening.run, perform_bind, perform_modify, perform_pure, List.append_nil]
    exact h.push p
  | create r =>
    refine ⟨Function.update mailbox audience.length x.mailboxes.length, ?_⟩
    rw [Happening.run, perform_bind, perform_observe, perform_pure, List.append_nil]
    exact h.create r
  | pull number =>
    refine ⟨mailbox, ?_⟩
    rw [Happening.run]
    cases hmember : audience.member? number with
    | some signal => exact h.pull hmember w
    | none =>
      rw [perform_pure, List.append_nil]
      exact h.absent (Or.inl rfl) hmember
  | drop number =>
    refine ⟨mailbox, ?_⟩
    rw [Happening.run]
    cases hmember : audience.member? number with
    | some signal =>
      have hdrop := h.drop hmember w
      rw [perform_bind, perform_pure, List.append_nil]
      exact hdrop
    | none =>
      rw [perform_pure, List.append_nil]
      exact h.absent (Or.inr rfl) hmember

/-- Several happenings. The induction is on the list. -/
theorem runAll (h : Attended initial id past mailbox audience shown x) (hs : List (Happening σ))
    (w : σ) :
    ∃ mailbox', Attended initial id (past ++ hs) mailbox'
      (perform (Happening.runAll id hs audience) x w).1.1.1
      (shown ++ (perform (Happening.runAll id hs audience) x w).1.1.2)
      (perform (Happening.runAll id hs audience) x w).1.2 := by
  induction hs generalizing past mailbox audience shown x w with
  | nil =>
    refine ⟨mailbox, ?_⟩
    rw [Happening.runAll, perform_pure, List.append_nil, List.append_nil]
    exact h
  | cons event rest ih =>
    obtain ⟨mailbox', hfirst⟩ := h.run event w
    obtain ⟨mailbox'', hlater⟩ := ih hfirst (perform (event.run id audience) x w).2
    refine ⟨mailbox'', ?_⟩
    rw [Happening.runAll, perform_bind, perform_bind, perform_pure]
    simpa only [List.append_assoc, List.singleton_append] using hlater

end Attended

/-! ### What comes of it -/

/-- What is known of the signal that was created by `create r` between `before` and `after`, and
has the number of creations before it. -/
structure Served (initial : Option Value) (before : List (Happening σ))
    (r : SafeObserver (ExceptT Crash (StateM σ))) (after : List (Happening σ))
    (mailbox : MailboxId) (audience : Audience σ) (shown : List Showing) (x : Exchange) :
    Prop where
  dropped : .drop (creations before) ∈ after → audience.member? (creations before) = none
  /-- If it was not dropped, it is there and has its mailbox. -/
  live : .drop (creations before) ∉ after → ∃ automaton subscription current,
    audience.member? (creations before) = some (.observed automaton
      (modifyGetThe Exchange fun x => x.collect mailbox) subscription current)
  /-- Its mailbox was written into when it was created, if the subject had ended or had a value,
  and then the pushes to the subject were, up to its end, each once and in order. -/
  written : .drop (creations before) ∉ after →
    (timeline initial before after).filterMap Exchanged.write?
      = (Happening.greeting? initial (pushes before)).toList
        ++ if (endOf (pushes before)).isSome then [] else accepted (pushes after)
  /-- Nothing else was done to the mailbox, but that the signal has looked into it at its pulls. -/
  slot : .drop (creations before) ∉ after →
    x.slot mailbox = (timeline initial before after).foldl Exchanged.leaves .empty
  /-- What the signal has shown follows from this, if its comparison is a function. -/
  shown : ∀ p : SafeObserver (ExceptT Crash Id), r = p.anywhere →
    Showing.of (creations before) shown = p.shown (timeline initial before after)

/-- What is known of a subject and its audience, after some happenings. -/
structure Delivered (initial : Option Value) (id : SubjectId) (hs : List (Happening σ))
    (audience : Audience σ) (shown : List Showing) (x : Exchange) : Prop where
  value : (x.subject id).current = valueOf initial (pushes hs)
  terminal : (x.subject id).terminal = endOf (pushes hs)
  length : audience.length = creations hs
  /-- While the subject is open its subscribers are the signals that were not dropped. -/
  subscribers : (x.subject id).subscribers.length
    = if (endOf (pushes hs)).isSome then 0 else audience.live.length
  /-- Every signal has a mailbox of its own, and a push reaches the mailboxes of the signals that
  were not dropped, each once. -/
  mailboxes : ∃ mailbox : Nat → MailboxId,
    (∀ number < audience.length, ∀ other < audience.length,
      mailbox number = mailbox other → number = other) ∧
    (x.subject id).receivers
      = (if (endOf (pushes hs)).isSome then [] else audience.live.map mailbox) ∧
    ∀ before r after, hs = before ++ create r :: after →
      Served initial before r after (mailbox (creations before)) audience shown x

theorem Seated.served {initial : Option Value} {before after : List (Happening σ)}
    {r : SafeObserver (ExceptT Crash (StateM σ))} {mailbox : MailboxId} {audience : Audience σ}
    {shown : List Showing} {x : Exchange}
    (h : Seated initial before r after mailbox audience shown x) :
    Served initial before r after mailbox audience shown x where
  dropped hmem := (h.dropped hmem).1
  live hmem := by
    obtain ⟨signal, hmember, hfollows⟩ := h.live hmem
    obtain ⟨automaton, subscription, hsignal⟩ := hfollows.observed
    exact ⟨automaton, subscription, signal.current, hmember.trans (congrArg some hsignal)⟩
  written hmem := by
    have hgreeting : ((Happening.greeting? initial (pushes before)).toList.map
          Exchanged.write).filterMap Exchanged.write?
        = (Happening.greeting? initial (pushes before)).toList := by
      rw [List.filterMap_map]
      exact List.filterMap_some
    rw [timeline, List.filterMap_append, hgreeting, writes_turnsOf hmem]
    cases endOf (pushes before) <;> rfl
  slot hmem := by
    obtain ⟨signal, -, hfollows⟩ := h.live hmem
    exact hfollows.slot
  shown p hp := by
    by_cases hmem : .drop (creations before) ∈ after
    · exact ((h.dropped hmem).2 p hp).symm
    · obtain ⟨signal, -, hfollows⟩ := h.live hmem
      exact (hfollows.shown_eq hp).symm

/-- **What a subject delivers.** A subject is added, with or without a value. Then it is pushed to,
and signals are created on it, pulled and dropped, in any order. Its value is the last one pushed
before its end, and it has as many subscribers as there are signals that were not dropped, or none
if it has ended. Each signal has a mailbox of its own, and what was done to this mailbox is a
function of the pushes to the subject and of the creation, the pulls and the drop of this signal. So
is all that it has shown, if its comparison is a function. -/
theorem delivered_of_addSubject (initial : Option Value) (hs : List (Happening σ)) (x : Exchange)
    (w : σ) :
    Delivered initial (x.addSubject initial).1 hs
      (perform (Happening.runAll (x.addSubject initial).1 hs []) (x.addSubject initial).2 w).1.1.1
      (perform (Happening.runAll (x.addSubject initial).1 hs []) (x.addSubject initial).2 w).1.1.2
      (perform (Happening.runAll (x.addSubject initial).1 hs []) (x.addSubject initial).2 w).1.2 := by
  obtain ⟨mailbox, h⟩ := (Attended.addSubject initial x fun _ => 0).runAll hs w
  rw [List.nil_append, List.nil_append] at h
  constructor
  case value => exact h.knows.current
  case terminal => exact h.knows.terminal
  case length => exact h.length
  case subscribers =>
    rw [h.knows.subscribers]
    split
    · rfl
    · exact List.length_map _
  case mailboxes =>
    refine ⟨mailbox, h.housed.injective, h.knows.receivers, ?_⟩
    exact fun before r after hhs => (h.seated before r after hhs).served

/-- Three signals that compare by equality. The second is created after the first was dropped, and
the third after the end of the subject. -/
example :
    let r := (SafeObserver.careful.lift Crash).anywhere
    let hs := [create r, .pull 0, .push (.next (.nat 2)), .push (.next (.nat 1)), .pull 0, .drop 0,
      create r, .push .complete, .push (.next (.nat 3)), .pull 1, .pull 0, create r, .pull 2]
    let opened := Exchange.empty.addSubject (some (.nat 1))
    ((perform (Happening.runAll opened.1 hs []) opened.2 ()).1.1.2.map fun s =>
        (s.number, s.emission))
      = [(0, .new (.nat 1)), (0, .same (.nat 1)), (1, .done), (2, .done)] := by
  decide +kernel

end Reactive
