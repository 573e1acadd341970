import Sentential.Text.Lines

namespace Sentential.Text

variable {separator c : Char} {xs ys : List Char} {xss : List (List Char)}

theorem split_cons : split separator (c :: xs) = consPiece separator c (split separator xs) :=
  rfl

theorem split_ne_nil (separator : Char) (xs : List Char) : split separator xs ≠ [] := by
  cases xs
  case nil => nofun
  case cons c xs =>
    rw [split_cons]
    unfold consPiece
    split
    case h_1 => nofun
    case h_2 => split <;> nofun

theorem exists_split_eq_cons (separator : Char) (xs : List Char) :
    ∃ l ls, split separator xs = l :: ls :=
  List.exists_cons_of_ne_nil (split_ne_nil separator xs)

theorem split_of_not_mem (h : separator ∉ xs) : split separator xs = [xs] := by
  induction xs
  case nil => rfl
  case cons x xs hi =>
    have ⟨hx, hxs⟩ := not_or.mp (mt List.mem_cons.mpr h)
    rw [split_cons, hi hxs, consPiece, if_neg (Ne.symm hx)]

theorem split_append_cons (h : separator ∉ xs) (ys : List Char) :
    split separator (xs ++ separator :: ys) = xs :: split separator ys := by
  have ⟨l, ls, hs⟩ := exists_split_eq_cons separator ys
  induction xs
  case nil => rw [List.nil_append, split_cons, hs, consPiece, if_pos rfl]
  case cons x xs hi =>
    have ⟨hx, hxs⟩ := not_or.mp (mt List.mem_cons.mpr h)
    rw [List.cons_append, split_cons, hi hxs, consPiece, if_neg (Ne.symm hx)]

-- Each piece has a separator after it, and then comes the last one.
theorem split_flatMap (h : ∀ l ∈ xss, separator ∉ l) (ys : List Char) :
    split separator (xss.flatMap (· ++ [separator]) ++ ys) = xss ++ split separator ys := by
  induction xss
  case nil => rfl
  case cons l ls hi =>
    have ⟨hl, hls⟩ := List.forall_mem_cons.mp h
    rw [List.flatMap_cons, List.append_assoc, List.append_assoc, List.singleton_append,
      split_append_cons hl, hi hls, List.cons_append]

theorem split_intercalate (h : ∀ l ∈ xss, separator ∉ l) (hn : xss ≠ []) :
    split separator ([separator].intercalate xss) = xss := by
  induction xss
  case nil => exact absurd rfl hn
  case cons l ls hi =>
    have ⟨hl, hls⟩ := List.forall_mem_cons.mp h
    cases ls
    case nil => simpa using split_of_not_mem hl
    case cons l' ls =>
      rw [List.intercalate_cons_cons, List.append_assoc, List.singleton_append, split_append_cons hl,
        hi hls nofun]

theorem intercalate_split (separator : Char) (xs : List Char) :
    [separator].intercalate (split separator xs) = xs := by
  induction xs
  case nil => rfl
  case cons x xs hi =>
    have ⟨l, ls, hs⟩ := exists_split_eq_cons separator xs
    rw [hs] at hi
    rw [split_cons, hs, consPiece]
    split
    case isTrue hx => rw [List.intercalate_cons_cons, hi, hx, List.nil_append, List.singleton_append]
    case isFalse =>
      cases ls
      case nil => simpa using hi
      case cons l' ls =>
        rw [List.intercalate_cons_cons] at hi ⊢
        rw [List.cons_append, List.cons_append, hi]

end Sentential.Text
