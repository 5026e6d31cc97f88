import Mathlib.Logic.Function.Basic

/-!
# Steps that absorb

A step acts on one component of a state by an operation that absorbs: doing it
twice is doing it once.  If every step of a sequence does, the whole sequence
does, whatever the steps do to each other.
-/

namespace SecureMessenger
namespace Lib

universe u v w

variable {α : Type u} {β : Type v} {σ : Type w}

/-- Two operands can be put together, and the same operand twice is once. -/
structure Absorbing (op : β → σ → β) (join : σ → σ → σ) : Prop where
  op_join : ∀ x s t, op (op x s) t = op x (join s t)
  op_op : ∀ x s, op (op x s) s = op x s

/-- The step leaves the component or works on it with one operand, which does
not depend on the state. -/
def Acts (op : β → σ → β) (f : α → β) (step : α → α) : Prop :=
  (∀ a, f (step a) = f a) ∨ ∃ s, ∀ a, f (step a) = op (f a) s

variable {op : β → σ → β} {join : σ → σ → σ} {f : α → β} {g h : α → α}

theorem Acts.comp (hop : Absorbing op join) (hg : Acts op f g) (hh : Acts op f h) :
    Acts op f fun a => h (g a) := by
  rcases hh with hh | ⟨t, ht⟩
  · rcases hg with hg | ⟨s, hs⟩
    · left
      intro a
      rw [hh, hg]
    · right
      refine ⟨s, fun a => ?_⟩
      rw [hh, hs]
  · rcases hg with hg | ⟨s, hs⟩
    · right
      refine ⟨t, fun a => ?_⟩
      rw [ht, hg]
    · right
      refine ⟨join s t, fun a => ?_⟩
      rw [ht, hs, hop.op_join]

/-- A sequence of acting steps acts. -/
theorem Acts.foldl {ι : Type*} {step : α → ι → α} (hop : Absorbing op join) :
    ∀ is : List ι, (∀ i ∈ is, Acts op f fun a => step a i) →
      Acts op f fun a => is.foldl step a := by
  intro is
  induction is with
  | nil => exact fun _ => Or.inl fun _ => rfl
  | cons i rest ih =>
      intro hall
      have hfirst : Acts op f fun a => step a i := hall i List.mem_cons_self
      have hrest : Acts op f fun a => rest.foldl step a :=
        ih fun j hj => hall j (List.mem_cons_of_mem _ hj)
      exact hfirst.comp hop hrest

theorem Acts.twice (hop : Absorbing op join) (hg : Acts op f g) (a : α) :
    f (g (g a)) = f (g a) := by
  rcases hg with hg | ⟨s, hs⟩
  · rw [hg]
  · rw [hs, hs, hop.op_op]

/-- The last operand stands. -/
theorem absorbing_overwrite : Absorbing (fun _ b : β => b) (fun _ t : β => t) where
  op_join _ _ _ := rfl
  op_op _ _ := rfl

end Lib
end SecureMessenger
