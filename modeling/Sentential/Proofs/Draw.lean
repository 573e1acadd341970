import Sentential.Random.Generator

namespace Sentential.Random

namespace Draw

variable {σ α β : Type} {x : Draw σ α} {P Q : α → Prop}

-- Every result of the draw has the property.
def Ensures (x : Draw σ α) (P : α → Prop) : Prop :=
  ∀ s a s', x.run s = some (a, s') → P a

namespace Ensures

theorem pure {a : α} (h : P a) : Ensures (Pure.pure a : Draw σ α) P := by
  intro s a' s' hr
  cases hr
  exact h

theorem bind {f : α → Draw σ β} {R : β → Prop} (hx : Ensures x P) (hf : ∀ a, P a → Ensures (f a) R) :
    Ensures (x >>= f) R := by
  intro s b s'' hr
  rw [StateT.run_bind, Option.bind_eq_bind, Option.bind_eq_some_iff] at hr
  have ⟨⟨a, s'⟩, ha, hb⟩ := hr
  exact hf a (hx s a s' ha) s' b s'' hb

theorem trivial (x : Draw σ α) : Ensures x fun _ => True :=
  fun _ _ _ _ => True.intro

end Ensures
end Draw

namespace Generator

open Draw

variable {σ α : Type}

theorem ensures_choose? (g : Generator σ) (xs : List α) :
    Ensures (g.choose? xs) fun o => (o = none ∧ xs = []) ∨ ∃ x ∈ xs, o = some x := by
  cases xs
  case nil => exact .pure (.inl ⟨rfl, rfl⟩)
  case cons x xs =>
    refine .bind (.trivial _) fun i _ => .pure (.inr ⟨_, ?_, rfl⟩)
    exact List.get_mem _ i

end Generator
end Sentential.Random
