import Mathlib

/-!
# Results of computations in any monad

Supplied code runs in a monad that is not known here, so what a computation returns cannot be
looked at. What can be said is that it *could* be written with a result of a smaller type: one that
carries a proof. This is what `SatisfiesM` says: a computation ensures a property if it is one whose
results have the property by their type. Two computations are coupled by a relation if both are
readings of one computation whose results are related pairs. Coupled computations have the same
effects in the same order.

In a state monad this says what one expects: from every state, the results are as stated.

## Main definitions

* `Coupled` — two computations with the same effects and related results

## Main results

* `Coupled.bind` — one after the other
* `bind_congr_of_satisfiesM` — continuations that agree where they are used
* `Coupled.eq`, `map_eq` — results that are equal, or a function of others
* `Coupled.run`, `satisfiesM_iff_run`, `Coupled.satisfiesM` — in a state monad
-/

namespace Reactive

variable {m : Type → Type} [Monad m] {α β γ δ : Type}

/-- Two computations have the same effects, and their results are related. -/
def Coupled (R : α → β → Prop) (x : m α) (y : m β) : Prop :=
  ∃ z : m { p : α × β // R p.1 p.2 }, (fun p => p.1.1) <$> z = x ∧ (fun p => p.1.2) <$> z = y

variable [LawfulMonad m]

/-- **Continuations matter only where they are used.** -/
theorem bind_congr_of_satisfiesM {P : α → Prop} {x : m α} {f g : α → m β} (hx : SatisfiesM P x)
    (h : ∀ a, P a → f a = g a) : x >>= f = x >>= g := by
  obtain ⟨z, rfl⟩ := hx
  rw [bind_map_left, bind_map_left]
  exact bind_congr fun a => h a.1 a.2

/-! ### Pairs of computations -/

namespace Coupled

variable {R : α → β → Prop} {T : γ → δ → Prop}

theorem pure {a : α} {b : β} (h : R a b) : Coupled R (Pure.pure a : m α) (Pure.pure b : m β) :=
  ⟨Pure.pure ⟨(a, b), h⟩, map_pure .., map_pure ..⟩

/-- A computation goes with itself. -/
theorem refl (x : m α) : Coupled Eq x x := by
  refine ⟨(fun a => ⟨(a, a), rfl⟩) <$> x, ?_, ?_⟩
  · rw [Functor.map_map, id_map']
  · rw [Functor.map_map, id_map']

theorem bind {x : m α} {y : m β} {f : α → m γ} {g : β → m δ} (hxy : Coupled R x y)
    (hfg : ∀ a b, R a b → Coupled T (f a) (g b)) : Coupled T (x >>= f) (y >>= g) := by
  obtain ⟨z, rfl, rfl⟩ := hxy
  choose k hf hg using hfg
  refine ⟨z >>= fun p => k p.1.1 p.1.2 p.2, ?_, ?_⟩
  · rw [map_bind, bind_map_left]
    exact bind_congr fun p => hf p.1.1 p.1.2 p.2
  · rw [map_bind, bind_map_left]
    exact bind_congr fun p => hg p.1.1 p.1.2 p.2

/-- The same computation first, and then two that go together. -/
theorem bind_left {x : m α} {f : α → m γ} {g : α → m δ} (h : ∀ a, Coupled T (f a) (g a)) :
    Coupled T (x >>= f) (x >>= g) :=
  (refl x).bind fun a _ he => he ▸ h a

theorem mono {R' : α → β → Prop} {x : m α} {y : m β} (hxy : Coupled R x y)
    (h : ∀ a b, R a b → R' a b) : Coupled R' x y := by
  obtain ⟨z, rfl, rfl⟩ := hxy
  refine ⟨(fun p => ⟨p.1, h p.1.1 p.1.2 p.2⟩) <$> z, ?_, ?_⟩
  · rw [Functor.map_map]
  · rw [Functor.map_map]

/-- The results on the right may be changed. -/
theorem map_right {x : m α} {y : m β} {T : α → γ → Prop} (hxy : Coupled R x y) (f : β → γ)
    (h : ∀ a b, R a b → T a (f b)) : Coupled T x (f <$> y) := by
  obtain ⟨z, rfl, rfl⟩ := hxy
  refine ⟨(fun p => ⟨(p.1.1, f p.1.2), h p.1.1 p.1.2 p.2⟩) <$> z, ?_, ?_⟩
  · rw [Functor.map_map]
  · rw [Functor.map_map, Functor.map_map]

/-- If there are no exceptions, results on the right are no exceptions. -/
theorem of_ok {x : m α} {y : m β} {T : α → Except Empty β → Prop}
    (hxy : Coupled T x (Except.ok <$> y)) (h : ∀ a b, T a (.ok b) → R a b) : Coupled R x y := by
  let value : Except Empty β → β
    | .ok b => b
    | .error exception => exception.elim
  have hy : value <$> ((Except.ok : β → Except Empty β) <$> y) = y := by
    rw [Functor.map_map]
    exact id_map' y
  rw [← hy]
  refine hxy.map_right value fun a b hab => ?_
  cases b with
  | ok b => exact h a b hab
  | error exception => exact exception.elim

/-- If the results on the right are a function of those on the left, so is the computation. -/
theorem map_eq {x : m α} {y : m β} {f : α → β} (hxy : Coupled (fun a b => f a = b) x y) :
    f <$> x = y := by
  obtain ⟨z, rfl, rfl⟩ := hxy
  rw [Functor.map_map]
  congr 1
  funext p
  exact p.2

omit [LawfulMonad m] in
/-- Computations with equal results are the same computation. -/
theorem eq {x y : m α} (hxy : Coupled Eq x y) : x = y := by
  obtain ⟨z, rfl, rfl⟩ := hxy
  congr 1
  funext p
  exact p.2

/-- In a state monad coupled computations also end in the same state. -/
theorem run {σ : Type} {x : StateT σ m α} {y : StateT σ m β} (hxy : Coupled R x y) (s : σ) :
    Coupled (fun p q => R p.1 q.1 ∧ p.2 = q.2) (x.run s) (y.run s) := by
  obtain ⟨z, rfl, rfl⟩ := hxy
  refine ⟨(fun r => ⟨((r.1.1.1, r.2), (r.1.1.2, r.2)), r.1.2, rfl⟩) <$> z.run s, ?_, ?_⟩
  · rw [StateT.run_map, Functor.map_map]
  · rw [StateT.run_map, Functor.map_map]

end Coupled

/-! ### State monads -/

variable {σ : Type}

/-- In a state monad a property is ensured if every result has it. -/
theorem satisfiesM_iff_run {P : α → Prop} {x : StateM σ α} :
    SatisfiesM P x ↔ ∀ s : σ, P (x.run s).1 := by
  rw [SatisfiesM_StateT_eq]
  exact forall_congr' fun s => SatisfiesM_Id_eq

/-- In a state monad, what is ensured of a computation carries over to what is coupled to it. -/
theorem Coupled.satisfiesM {R : α → β → Prop} {P : β → Prop} {x : StateM σ α} {y : StateM σ β}
    (hxy : Coupled R x y) (hy : SatisfiesM P y) : SatisfiesM (fun a => ∃ b, R a b ∧ P b) x := by
  obtain ⟨z, rfl, rfl⟩ := hxy
  rw [satisfiesM_iff_run] at hy ⊢
  exact fun s => ⟨(z.run s).1.1.2, (z.run s).1.2, hy s⟩

end Reactive
