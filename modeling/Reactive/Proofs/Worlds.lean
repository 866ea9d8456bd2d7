import Reactive.Proofs.Networks

/-!
# Code in a world

Code that can reach the exchange and the rest of the world is performed in some exchange and some
world, and then there are a result, an exchange and a world. This says what it comes to, one step
after the other, and carries over what was said of computations in any monad.

## Main definitions

* `World.perform` — what code does

## Main results

* `World.perform_bind`, `perform_modify` — one step after the other
* `perform_of_satisfiesM`, `Coupled.perform`, `OnlyWrites.perform`
-/

namespace Reactive

variable {σ α β : Type}

namespace World

/-- What code does in an exchange and a world: its result, and the exchange and the world after
it. -/
def perform (code : World σ α) (x : Exchange) (w : σ) : (α × Exchange) × σ := (code.run x).run w

@[simp] theorem perform_pure (a : α) (x : Exchange) (w : σ) :
    perform (pure a : World σ α) x w = ((a, x), w) := rfl

theorem perform_bind (code : World σ α) (next : α → World σ β) (x : Exchange) (w : σ) :
    perform (code >>= next) x w
      = perform (next (perform code x w).1.1) (perform code x w).1.2 (perform code x w).2 := rfl

theorem perform_map (f : α → β) (code : World σ α) (x : Exchange) (w : σ) :
    perform (f <$> code) x w
      = ((f (perform code x w).1.1, (perform code x w).1.2), (perform code x w).2) := rfl

@[simp] theorem perform_modify (change : Exchange → Exchange) (x : Exchange) (w : σ) :
    perform (modifyThe Exchange change : World σ PUnit) x w = ((⟨⟩, change x), w) := rfl

end World

open World

/-- What is ensured of code holds of its result. -/
theorem perform_of_satisfiesM {P : α → Prop} {code : World σ α} (h : SatisfiesM P code)
    (x : Exchange) (w : σ) : P (World.perform code x w).1.1 := by
  obtain ⟨z, rfl⟩ := h
  exact (World.perform z x w).1.1.2

/-- What is ensured of code in an exchange holds of its result and of the exchange after it. -/
theorem perform_run_of_satisfiesM {P : α × Exchange → Prop} {code : World σ α} {x : Exchange}
    (h : SatisfiesM P (code.run x)) (w : σ) : P (World.perform code x w).1 :=
  satisfiesM_iff_run.mp h w

/-- Code that is coupled to code without an exchange does the same in the world. -/
theorem Coupled.perform {R : α × Exchange → β → Prop} {code : World σ α} {ruled : StateM σ β}
    {x : Exchange} (h : Coupled R (code.run x) ruled) (w : σ) :
    R (World.perform code x w).1 (ruled.run w).1
      ∧ (World.perform code x w).2 = (ruled.run w).2 := by
  obtain ⟨z, hcode, hruled⟩ := h
  rw [World.perform, ← hcode, ← hruled]
  exact ⟨(z.run w).1.2, rfl⟩

/-- Two pieces of code that are coupled in the world have related results and do the same. -/
theorem Coupled.perform_both {R : α → β → Prop} {code : World σ α} {ruled : World σ β}
    (h : Coupled R code ruled) (x : Exchange) (w : σ) :
    R (World.perform code x w).1.1 (World.perform ruled x w).1.1
      ∧ (World.perform code x w).1.2 = (World.perform ruled x w).1.2
      ∧ (World.perform code x w).2 = (World.perform ruled x w).2 := by
  obtain ⟨z, rfl, rfl⟩ := h
  exact ⟨(World.perform z x w).1.1.2, rfl, rfl⟩

/-- Code that only writes leaves an exchange in which nothing happened but writing. -/
theorem OnlyWrites.perform {code : World σ α} (h : OnlyWrites code) (x : Exchange) (w : σ) :
    x.Receives (World.perform code x w).1.2 :=
  perform_run_of_satisfiesM (h x) w

end Reactive
