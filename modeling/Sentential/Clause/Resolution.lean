import Sentential.Clause.Basic

namespace Sentential

-- What resolving two clauses gives.
inductive Resolvent where
  -- The clauses do not clash.
  | none
  -- Every resolvent is a tautology.
  | tautology
  -- The only resolvent that is not a tautology.
  | clause (c : Clause)
deriving DecidableEq, Repr

namespace Clause

-- The variables on which the clauses clash.
def clashes (c d : Clause) : VarSet :=
  (c.positive.inter d.negative).union (c.negative.inter d.positive)

def union (c d : Clause) : Clause :=
  ⟨c.positive.union d.positive, c.negative.union d.negative⟩

def erase (c : Clause) (l : Literal) : Clause :=
  if l.positive then { c with positive := c.positive.erase l.var }
  else { c with negative := c.negative.erase l.var }

-- What remains of both clauses without `l` in the first and without its negation in the second.
def resolveOn (c d : Clause) (l : Literal) : Clause :=
  (c.erase l).union (d.erase l.negate)

-- The resolvent of two clauses. Only the two clashing literals go, so that nothing is lost where a
-- clause holds the clashing variable twice.
def resolve (c d : Clause) : Resolvent :=
  match (c.clashes d).toList with
  | [] => .none
  | [v] =>
    let l := v.literal (v ∈ c.positive ∧ v ∈ d.negative)
    let r := c.resolveOn d l
    if r.isTautology then .tautology else .clause r
  | _ => .tautology

theorem mem_union {c d : Clause} {l : Literal} : l ∈ c.union d ↔ l ∈ c ∨ l ∈ d := by
  obtain ⟨v, b⟩ := l
  cases b <;> simp [union, mem_def]

theorem mem_erase {c : Clause} {k l : Literal} : k ∈ c.erase l ↔ k ∈ c ∧ k ≠ l := by
  obtain ⟨v, b⟩ := k
  obtain ⟨w, b'⟩ := l
  cases b <;> cases b' <;> simp [erase, mem_def]

theorem mem_resolveOn {c d : Clause} {k l : Literal} :
    k ∈ c.resolveOn d l ↔ (k ∈ c ∧ k ≠ l) ∨ (k ∈ d ∧ k ≠ l.negate) := by
  simp [resolveOn, mem_union, mem_erase]

-- A resolvent speaks of no new variable.
theorem vars_of_resolve {c d r : Clause} (h : c.resolve d = .clause r) {v : Var} (hv : v ∈ r.vars) :
    v ∈ c.vars ∨ v ∈ d.vars := by
  rw [resolve] at h
  split at h
  case h_1 => exact nomatch h
  case h_3 => exact nomatch h
  case h_2 w _ =>
    dsimp only at h
    split at h
    case isTrue => exact nomatch h
    case isFalse =>
      injection h with h
      subst h
      obtain hv | hv := mem_vars.mp hv
      case inl =>
        rw [← positive_mem, mem_resolveOn] at hv
        exact hv.imp (var_mem_vars ·.1) (var_mem_vars ·.1)
      case inr =>
        rw [← negative_mem, mem_resolveOn] at hv
        exact hv.imp (var_mem_vars ·.1) (var_mem_vars ·.1)

end Clause
end Sentential
