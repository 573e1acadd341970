import Sentential.Var

namespace Sentential.Keyed

variable {α : Type} {key : α → Var} {a : α} {xs : List α} {v : Var}

-- Puts an entry at its place in a list in the order of keys. It replaces the entry with the same key,
-- if there is one.
def place (key : α → Var) (a : α) : List α → List α
  | [] => [a]
  | x :: xs =>
    if key a < key x then a :: x :: xs
    else if key a = key x then a :: xs
    else x :: place key a xs

theorem mem_keys_place : v ∈ (place key a xs).map key ↔ v = key a ∨ v ∈ xs.map key := by
  induction xs
  case nil => simp [place]
  case cons x xs hi =>
    rw [place]
    split
    case isTrue => simp
    case isFalse =>
      split
      case isTrue he => simp [he]
      case isFalse => rw [List.map_cons, List.mem_cons, hi, List.map_cons, List.mem_cons, or_left_comm]

theorem place_sorted (h : xs.Pairwise (key · < key ·)) : (place key a xs).Pairwise (key · < key ·) := by
  induction xs
  case nil => simp [place]
  case cons x xs hi =>
    have ⟨hx, hs⟩ := List.pairwise_cons.mp h
    rw [place]
    split
    case isTrue hlt =>
      refine List.pairwise_cons.mpr ⟨fun y hy => ?_, h⟩
      obtain rfl | hy := List.mem_cons.mp hy
      · exact hlt
      · exact Var.lt_trans hlt (hx y hy)
    case isFalse hlt =>
      split
      case isTrue he => exact List.pairwise_cons.mpr ⟨fun y hy => he ▸ hx y hy, hs⟩
      case isFalse hne =>
        refine List.pairwise_cons.mpr ⟨fun y hy => ?_, hi hs⟩
        obtain he | hy := mem_keys_place.mp (List.mem_map_of_mem hy)
        · exact he ▸ (Var.lt_or_gt_of_ne hne).resolve_left hlt
        · obtain ⟨z, hz, he⟩ := List.mem_map.mp hy
          exact he ▸ hx z hz

theorem find?_place : (place key a xs).find? (key · = v) =
    if v = key a then some a else xs.find? (key · = v) := by
  induction xs
  case nil => simp [place, List.find?_singleton, eq_comm]
  case cons x xs hi =>
    rw [place]
    split
    case isTrue => grind
    case isFalse => split <;> grind

theorem find?_of_mem (h : xs.Pairwise (key · < key ·)) (ha : a ∈ xs) :
    xs.find? (key · = key a) = some a := by
  induction xs
  case nil => cases ha
  case cons x xs hi =>
    have ⟨hx, hs⟩ := List.pairwise_cons.mp h
    obtain rfl | ha := List.mem_cons.mp ha
    case inl => simp
    case inr =>
      rw [List.find?_cons_of_neg (by simpa using Var.ne_of_lt (hx a ha))]
      exact hi hs ha

end Sentential.Keyed
