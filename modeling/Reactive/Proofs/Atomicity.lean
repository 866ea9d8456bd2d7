import Mathlib
import Reactive.Patch

/-!
# All or nothing

A list of operations is applied in two passes, the first over the paths and the second over a copy
of the model. What comes of it can be said without passes and copies. If all paths can be read, the
operations run one after the other, each as if it were alone. Otherwise the first path that cannot
be read is the error, and it is reported before anything that the operations could do. With any
error the model that is held is the one that was held before.

## Main definitions

* `Patch.Operation.Readable` — the path of an operation can be read
* `Patch.basket` — a small model

## Main results

* `Patch.run_amend` — what is held afterwards
* `Patch.apply_append` — of readable operations the first are applied, and the others to the result
* `Patch.apply_eq_error_iff` — the error is that of the first operation that fails
* `Patch.apply_malformed` — the first path that cannot be read
* `Patch.amend_all_or_nothing`
-/

namespace Reactive

namespace Patch

/-- The path of an operation can be read. -/
def Operation.Readable (op : Operation) : Prop := ∃ tokens, Pointer.parse op.path = .ok tokens

theorem Operation.pointer_eq_ok_iff {op : Operation} {tokens : Pointer} :
    op.pointer = .ok tokens ↔ Pointer.parse op.path = .ok tokens := by
  rw [pointer]
  cases Pointer.parse op.path <;> simp

/-! ### Reading the paths -/

theorem locate_cons (op : Operation) (rest : List Operation) :
    locate (op :: rest) = do
      let tokens ← op.pointer
      let located ← locate rest
      return (op, tokens) :: located := by
  rw [locate, List.mapM_cons, bind_assoc]
  rfl

theorem locate_append (first second : List Operation) :
    locate (first ++ second) = do return (← locate first) ++ (← locate second) :=
  List.mapM_append

/-- Operations that can be read are located. -/
theorem exists_locate {ops : List Operation} (h : ∀ op ∈ ops, op.Readable) :
    ∃ located, locate ops = .ok located := by
  induction ops with
  | nil => exact ⟨[], rfl⟩
  | cons op rest ih =>
    obtain ⟨tokens, hparse⟩ := h op List.mem_cons_self
    have hpointer := Operation.pointer_eq_ok_iff.mpr hparse
    obtain ⟨located, hrest⟩ := ih fun other hother => h other (List.mem_cons_of_mem _ hother)
    exact ⟨(op, tokens) :: located, by rw [locate_cons, hpointer, hrest]; rfl⟩

/-! ### Applying -/

theorem apply_singleton (op : Operation) (model : Value) :
    apply [op] model = op.pointer >>= fun tokens => op.run tokens model := by
  rw [apply, locate_cons]
  cases op.pointer with
  | error cause => rfl
  | ok tokens => exact bind_pure (op.run tokens model)

theorem apply_singleton_eq_ok_iff {op : Operation} {model changed : Value} :
    apply [op] model = .ok changed ↔
      ∃ tokens, Pointer.parse op.path = .ok tokens ∧ op.run tokens model = .ok changed := by
  simp only [apply_singleton, ← Operation.pointer_eq_ok_iff]
  cases op.pointer with
  | error cause => simp [bind, Except.bind]
  | ok tokens => simp [bind, Except.bind]

theorem apply_cons_eq_ok_iff {op : Operation} {rest : List Operation} {model changed : Value} :
    apply (op :: rest) model = .ok changed ↔ ∃ tokens reached,
      Pointer.parse op.path = .ok tokens ∧ op.run tokens model = .ok reached ∧
        apply rest reached = .ok changed := by
  simp only [apply, locate_cons, ← Operation.pointer_eq_ok_iff]
  cases op.pointer with
  | error cause => simp [bind, Except.bind]
  | ok tokens =>
    cases locate rest with
    | error cause => simp [bind, Except.bind]
    | ok located =>
      show op.run tokens model >>= runAll located = .ok changed ↔ _
      cases hrun : op.run tokens model with
      | error cause => simp [bind, Except.bind, hrun]
      | ok reached => simp [bind, Except.bind, hrun]

/-- Operations that succeed can be read. -/
theorem readable_of_apply {ops : List Operation} {model changed : Value}
    (h : apply ops model = .ok changed) : ∀ op ∈ ops, op.Readable := by
  induction ops generalizing model with
  | nil => exact List.forall_mem_nil _
  | cons op rest ih =>
    obtain ⟨tokens, reached, hparse, -, hrest⟩ := apply_cons_eq_ok_iff.mp h
    exact List.forall_mem_cons.mpr ⟨⟨tokens, hparse⟩, ih hrest⟩

/-- Of operations that can be read the first are applied, and then the others to the result. -/
theorem apply_append {first second : List Operation} (h : ∀ op ∈ first ++ second, op.Readable)
    (model : Value) : apply (first ++ second) model = apply first model >>= apply second := by
  obtain ⟨located, hfirst⟩ := exists_locate fun op hop => h op (List.mem_append_left _ hop)
  obtain ⟨others, hsecond⟩ := exists_locate fun op hop => h op (List.mem_append_right _ hop)
  have hrest : apply second = runAll others := by
    funext reached
    rw [apply, hsecond]
    rfl
  rw [hrest, apply, apply, locate_append, hfirst, hsecond]
  exact List.foldlM_append

theorem apply_cons {op : Operation} {rest : List Operation}
    (h : ∀ other ∈ op :: rest, other.Readable) (model : Value) :
    apply (op :: rest) model = apply [op] model >>= apply rest :=
  @apply_append [op] rest h model

/-- **One after the other.** A list of operations that can be read does what they do alone, each on
the result of the one before. -/
theorem apply_eq_foldlM {ops : List Operation} (h : ∀ op ∈ ops, op.Readable) (model : Value) :
    apply ops model = ops.foldlM (fun reached op => apply [op] reached) model := by
  induction ops generalizing model with
  | nil => rfl
  | cons op rest ih =>
    rw [apply_cons h, List.foldlM_cons]
    exact congrArg _ (funext (ih fun other hother => h other (List.mem_cons_of_mem _ hother)))

/-- **The error is that of the first operation that fails**, on what the operations before it have
made of the model. -/
theorem apply_eq_error_iff {ops : List Operation} (h : ∀ op ∈ ops, op.Readable) {model : Value}
    {cause : Error} : apply ops model = .error cause ↔ ∃ before op after reached,
      ops = before ++ op :: after ∧ apply before model = .ok reached ∧
        apply [op] reached = .error cause := by
  constructor
  · intro hfails
    induction ops generalizing model with
    | nil => cases hfails
    | cons op rest ih =>
      have hrest : ∀ other ∈ rest, other.Readable := fun other hother =>
        h other (List.mem_cons_of_mem _ hother)
      rw [apply_cons h] at hfails
      cases hop : apply [op] model with
      | error found =>
        rw [hop] at hfails
        exact ⟨[], op, rest, model, rfl, rfl, hop.trans hfails⟩
      | ok changed =>
        rw [hop] at hfails
        obtain ⟨before, other, after, reached, rfl, hbefore, hother⟩ := ih hrest hfails
        refine ⟨op :: before, other, after, reached, rfl, ?_, hother⟩
        rw [apply_cons fun o ho => h o (List.mem_append_left (other :: after) ho), hop]
        exact hbefore
  · rintro ⟨before, op, after, reached, rfl, hbefore, hop⟩
    rw [apply_append h, hbefore]
    show apply (op :: after) reached = _
    rw [apply_cons fun o ho => h o (List.mem_append_right before ho), hop]
    rfl

/-- **The first path that cannot be read is the error**, whatever the operations would do. -/
theorem apply_malformed {before : List Operation} (h : ∀ op ∈ before, op.Readable) {op : Operation}
    {fault : Pointer.Fault} (hop : Pointer.parse op.path = .error fault) (after : List Operation)
    (model : Value) :
    apply (before ++ op :: after) model = .error (.malformedPath op.path fault) := by
  obtain ⟨located, hbefore⟩ := exists_locate h
  rw [apply, locate_append, hbefore, locate_cons, Operation.pointer, hop]
  rfl

/-! ### The model that is held -/

/-- What is held after a list of operations: the result if there is one, and else what was held
before. -/
theorem run_amend (ops : List Operation) (model : Value) :
    (amend ops).run.run model = match apply ops model with
      | .ok changed => (.ok (), changed)
      | .error cause => (.error cause, model) := by
  rw [amend, apply]
  cases locate ops with
  | error cause => rfl
  | ok located =>
    show (MonadExcept.ofExcept (runAll located model) >>= set :
        ExceptT Error (StateM Value) Unit).run.run model = match runAll located model with
      | .ok changed => (.ok (), changed)
      | .error cause => (.error cause, model)
    cases runAll located model with
    | error cause => rfl
    | ok changed => rfl

theorem run_amend_eq_ok_iff {ops : List Operation} {model held : Value} :
    (amend ops).run.run model = (.ok (), held) ↔ apply ops model = .ok held := by
  rw [run_amend]
  cases apply ops model with
  | error cause => exact ⟨by rintro ⟨⟩, by rintro ⟨⟩⟩
  | ok changed => exact ⟨by rintro ⟨⟩; rfl, by rintro ⟨⟩; rfl⟩

theorem run_amend_eq_error_iff {ops : List Operation} {model held : Value} {cause : Error} :
    (amend ops).run.run model = (.error cause, held) ↔
      held = model ∧ apply ops model = .error cause := by
  rw [run_amend]
  cases apply ops model with
  | error found => exact ⟨by rintro ⟨⟩; exact ⟨rfl, rfl⟩, by rintro ⟨rfl, ⟨⟩⟩; rfl⟩
  | ok changed => exact ⟨by rintro ⟨⟩, by rintro ⟨-, ⟨⟩⟩⟩

/-- **All or nothing.** Of operations that can be read, the ones behind work on what those in front
have made of the model. If all succeed one after the other, their result is held, and if one fails,
its error is the error and what is held is the model as it was. If one cannot be read, the first
such path is the error and the model stays, whatever the others would do, those in front included. -/
theorem amend_all_or_nothing (model : Value) :
    (∀ ops others : List Operation, (∀ op ∈ ops ++ others, op.Readable) →
      apply (ops ++ others) model = apply ops model >>= apply others) ∧
    (∀ ops : List Operation, (∀ op ∈ ops, op.Readable) →
      (∀ held, (amend ops).run.run model = (.ok (), held) ↔
        ops.foldlM (fun reached op => apply [op] reached) model = .ok held) ∧
      ∀ cause held, (amend ops).run.run model = (.error cause, held) ↔
        held = model ∧ ∃ before op after reached, ops = before ++ op :: after ∧
          apply before model = .ok reached ∧ apply [op] reached = .error cause) ∧
    ∀ before op after fault, (∀ other ∈ before, other.Readable) →
      Pointer.parse op.path = .error fault →
      (amend (before ++ op :: after)).run.run model
        = (.error (.malformedPath op.path fault), model) := by
  refine ⟨fun ops others h => apply_append h model, fun ops h => ⟨fun held => ?_,
    fun cause held => ?_⟩, fun before op after fault hbefore hop => ?_⟩
  · rw [run_amend_eq_ok_iff, apply_eq_foldlM h]
  · rw [run_amend_eq_error_iff, apply_eq_error_iff h]
  · exact run_amend_eq_error_iff.mpr ⟨rfl, apply_malformed hbefore hop after model⟩

/-- A basket with two items in it. -/
def basket : Value :=
  .object [("items", .array [.string "bread", .string "tea"]), ("open", .bool true)]

theorem amend_all_or_nothing_basket :
    (∀ op ∈ [Operation.replace "/open" (.bool false), .remove "/owner"], op.Readable) ∧
      (amend [.replace "/open" (.bool false), .remove "/owner"]).run.run basket
        = (.error (.nothingToRemove "/owner"), basket) ∧
      (amend [.remove "/owner", .add "items" .null]).run.run basket
        = (.error (.malformedPath "items" .unrooted), basket) := by
  have howner : (Operation.remove "/owner").Readable := ⟨["owner"], rfl⟩
  have hread : ∀ op ∈ [Operation.replace "/open" (.bool false), .remove "/owner"], op.Readable :=
    List.forall_mem_cons.mpr ⟨⟨["open"], rfl⟩, List.forall_mem_singleton.mpr howner⟩
  exact ⟨hread, (((amend_all_or_nothing basket).2.1 _ hread).2 _ _).mpr
      ⟨rfl, [.replace "/open" (.bool false)], .remove "/owner", [], _, rfl, rfl, rfl⟩,
    (amend_all_or_nothing basket).2.2 [.remove "/owner"] (.add "items" .null) [] .unrooted
      (List.forall_mem_singleton.mpr howner) rfl⟩

end Patch

end Reactive
