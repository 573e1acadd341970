namespace Sentential.Text

-- The code points from the first to the second, both included.
abbrev CodeRange := Nat × Nat

-- Whether one of the ranges, which stand in increasing order, covers the code point.
def covers : List CodeRange → Nat → Bool
  | [], _ => false
  | (lo, hi) :: rest, n => if n < lo then false else n ≤ hi || covers rest n

theorem exists_of_covers {rs : List CodeRange} {n : Nat} (h : covers rs n) :
    ∃ r ∈ rs, r.1 ≤ n ∧ n ≤ r.2 := by
  induction rs
  case nil => exact nomatch h
  case cons r rs ih =>
    rw [covers] at h
    split at h
    case isTrue => exact nomatch h
    case isFalse hlo =>
      obtain h | h := Bool.or_eq_true_iff.mp h
      case inl => exact ⟨r, by simp, Nat.not_lt.mp hlo, of_decide_eq_true h⟩
      case inr =>
        have ⟨q, hq, hn⟩ := ih h
        exact ⟨q, List.mem_cons_of_mem _ hq, hn⟩

-- Whether no code point is in a range of both lists.
def apart (rs qs : List CodeRange) : Bool :=
  rs.all fun r => qs.all fun q => r.2 < q.1 || q.2 < r.1

theorem not_covers_of_apart {rs qs : List CodeRange} {n : Nat} (ha : apart rs qs)
    (h : covers rs n) : ¬covers qs n := by
  intro h'
  have ⟨r, hr, hr₁, hr₂⟩ := exists_of_covers h
  have ⟨q, hq, hq₁, hq₂⟩ := exists_of_covers h'
  have := List.all_eq_true.mp (List.all_eq_true.mp ha r hr) q hq
  simp only [Bool.or_eq_true, decide_eq_true_eq] at this
  omega

end Sentential.Text
