import Mathlib.Data.Fintype.Option
import Sentential.Kleene

namespace Sentential.Kleene

variable {a a' b b' : Option Bool} {xs ys : List (Option Bool)}

theorem ext (ht : a = some true ↔ b = some true) (hf : a = some false ↔ b = some false) : a = b := by
  revert a b
  decide

-- On known operands the connectives are the two-valued ones.

@[simp]
theorem not_some (x : Bool) : not (some x) = some (!x) :=
  rfl

@[simp]
theorem and_some (x y : Bool) : and (some x) (some y) = some (x && y) := by
  cases x <;> cases y <;> rfl

@[simp]
theorem or_some (x y : Bool) : or (some x) (some y) = some (x || y) := by
  cases x <;> cases y <;> rfl

@[simp]
theorem implies_some (x y : Bool) : implies (some x) (some y) = some (!x || y) :=
  or_some (!x) y

@[simp]
theorem not_eq_some {x : Bool} : not a = some x ↔ a = some !x := by
  revert a x
  decide

@[simp]
theorem and_eq_true : and a b = some true ↔ a = some true ∧ b = some true := by
  revert a b
  decide

@[simp]
theorem and_eq_false : and a b = some false ↔ a = some false ∨ b = some false := by
  revert a b
  decide

@[simp]
theorem or_eq_true : or a b = some true ↔ a = some true ∨ b = some true := by
  revert a b
  decide

@[simp]
theorem or_eq_false : or a b = some false ↔ a = some false ∧ b = some false := by
  revert a b
  decide

theorem iff_eq_some {x : Bool} : iff a b = some x ↔ ∃ p q, a = some p ∧ b = some q ∧ (p == q) = x := by
  revert a b x
  decide

theorem not_and (a b : Option Bool) : not (and a b) = or (not a) (not b) := by
  apply ext <;> simp

theorem not_or (a b : Option Bool) : not (or a b) = and (not a) (not b) := by
  apply ext <;> simp

theorem not_not (a : Option Bool) : not (not a) = a := by
  apply ext <;> simp

theorem not_implies (a b : Option Bool) : not (implies a b) = and a (not b) := by
  rw [implies, not_or, not_not]

theorem or_comm (a b : Option Bool) : or a b = or b a := by
  apply ext
  · rw [or_eq_true, or_eq_true, Or.comm]
  · rw [or_eq_false, or_eq_false, And.comm]

theorem or_false (a : Option Bool) : or a (some false) = a := by
  apply ext <;> simp

theorem false_or (a : Option Bool) : or (some false) a = a := by
  apply ext <;> simp

theorem or_none_or (h : a ≠ some true) : or a (or none b) = or none b := by
  apply ext <;> simp [h]

theorem or_and (a b c : Option Bool) : or (and a b) c = and (or a c) (or b c) := by
  apply ext
  · simp only [or_eq_true, and_eq_true, and_or_right]
  · simp only [or_eq_false, and_eq_false, or_and_right]

-- Excluded middle is no law here, so it is not for free that this and the next one hold.
theorem iff_eq_and (a b : Option Bool) : iff a b = and (implies a b) (implies b a) := by
  revert a b
  decide

theorem not_iff (a b : Option Bool) : not (iff a b) = and (or a b) (or (not a) (not b)) := by
  revert a b
  decide

@[simp]
theorem all_nil : all [] = some true :=
  rfl

@[simp]
theorem all_cons (x : Option Bool) : all (x :: xs) = and x (all xs) :=
  rfl

@[simp]
theorem any_nil : any [] = some false :=
  rfl

@[simp]
theorem any_cons (x : Option Bool) : any (x :: xs) = or x (any xs) :=
  rfl

theorem all_eq_true : all xs = some true ↔ ∀ x ∈ xs, x = some true := by
  induction xs
  case nil => simp
  case cons x xs hi => simp [hi]

theorem all_eq_false : all xs = some false ↔ some false ∈ xs := by
  induction xs
  case nil => simp
  case cons x xs hi => rw [all_cons, and_eq_false, hi, List.mem_cons, eq_comm]

-- One false operand settles a conjunction. Without one, an unknown operand leaves it unknown.
theorem all_eq_ite : all xs =
    if some false ∈ xs then some false else if ∀ x ∈ xs, x = some true then some true else none := by
  split
  case isTrue hf => exact all_eq_false.mpr hf
  case isFalse hf =>
    split
    case isTrue ht => exact all_eq_true.mpr ht
    case isFalse ht =>
      cases h : all xs
      case none => rfl
      case some x =>
        cases x
        case false => exact absurd (all_eq_false.mp h) hf
        case true => exact absurd (all_eq_true.mp h) ht

theorem any_eq_true : any xs = some true ↔ some true ∈ xs := by
  induction xs
  case nil => simp
  case cons x xs hi => rw [any_cons, or_eq_true, hi, List.mem_cons, eq_comm]

theorem any_eq_false : any xs = some false ↔ ∀ x ∈ xs, x = some false := by
  induction xs
  case nil => simp
  case cons x xs hi => simp [hi]

theorem all_singleton (a : Option Bool) : all [a] = a := by
  apply ext <;> simp

theorem any_singleton (a : Option Bool) : any [a] = a := by
  apply ext <;> simp

theorem all_append : all (xs ++ ys) = and (all xs) (all ys) := by
  apply ext
  · simp only [all_eq_true, and_eq_true, List.forall_mem_append]
  · simp only [all_eq_false, and_eq_false, List.mem_append]

theorem any_append : any (xs ++ ys) = or (any xs) (any ys) := by
  apply ext
  · simp only [any_eq_true, or_eq_true, List.mem_append]
  · simp only [any_eq_false, or_eq_false, List.forall_mem_append]

-- Everything that is known of `a` is also known of `b`.
def Refines (a b : Option Bool) : Prop :=
  ∀ x, a = some x → b = some x

namespace Refines

theorem refl (a : Option Bool) : Refines a a :=
  fun _ h => h

theorem antisymm (h : Refines a b) (h' : Refines b a) : a = b :=
  ext ⟨h true, h' true⟩ ⟨h false, h' false⟩

theorem not (h : Refines a a') : Refines (not a) (not a') := by
  intro x hx
  exact not_eq_some.mpr <| h _ <| not_eq_some.mp hx

theorem and (ha : Refines a a') (hb : Refines b b') : Refines (and a b) (and a' b') := by
  intro x hx
  cases x
  case true => exact and_eq_true.mpr <| (and_eq_true.mp hx).imp (ha _) (hb _)
  case false => exact and_eq_false.mpr <| (and_eq_false.mp hx).imp (ha _) (hb _)

theorem or (ha : Refines a a') (hb : Refines b b') : Refines (or a b) (or a' b') := by
  intro x hx
  cases x
  case true => exact or_eq_true.mpr <| (or_eq_true.mp hx).imp (ha _) (hb _)
  case false => exact or_eq_false.mpr <| (or_eq_false.mp hx).imp (ha _) (hb _)

theorem implies (ha : Refines a a') (hb : Refines b b') : Refines (implies a b) (implies a' b') :=
  ha.not.or hb

theorem iff (ha : Refines a a') (hb : Refines b b') : Refines (iff a b) (iff a' b') := by
  intro x hx
  have ⟨p, q, hp, hq, h⟩ := iff_eq_some.mp hx
  exact iff_eq_some.mpr ⟨p, q, ha p hp, hb q hq, h⟩

end Refines
end Sentential.Kleene
