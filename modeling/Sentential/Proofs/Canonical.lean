import Sentential.Proofs.Resolution

namespace Sentential

theorem VarSet.eq_toList_iff {s : VarSet} {vs : List Var} :
    vs = s.toList ↔ vs.Pairwise (· < ·) ∧ ∀ v, v ∈ vs ↔ v ∈ s := by
  constructor
  case mp => exact fun h => h ▸ ⟨s.sorted, fun _ => Iff.rfl⟩
  case mpr =>
    intro ⟨hs, hm⟩
    have he : (⟨vs, hs⟩ : VarSet) = s := ext hm
    exact congrArg toList he

namespace Clause

variable {c d r : Clause} {k l : Literal} {ls : List Literal}

theorem ofLiterals_eq_iff {xs ys : List Literal} :
    ofLiterals xs = ofLiterals ys ↔ ∀ l, l ∈ xs ↔ l ∈ ys := by
  constructor
  case mp =>
    intro h l
    rw [← mem_ofLiterals, h, mem_ofLiterals]
  case mpr =>
    intro h
    apply ext_literal
    intro l
    rw [mem_ofLiterals, mem_ofLiterals, h]

theorem ListsBefore.asymm (h : ListsBefore l k) : ¬ListsBefore k l := by
  intro h'
  cases h
  case inl h => exact h'.elim (fun h' => h'.right h.left) fun h' => h.right (h'.left ▸ h.left)
  case inr h =>
    cases h'
    case inl h' => exact h'.right (h.left ▸ h'.left)
    case inr h' => exact Var.lt_asymm h.right h'.right

theorem ListsBefore.ne (h : ListsBefore l k) : l ≠ k :=
  fun he => h.asymm (he ▸ h)

theorem nodup_literals (c : Clause) : c.literals.Nodup :=
  c.literals_sorted.imp ListsBefore.ne

theorem length_literals (c : Clause) : c.literals.length = c.size := by
  simp [literals, size, VarSet.size]

-- Two lists in this order that have the same members are permutations of each other, and no two
-- literals can change places.
theorem eq_literals (hs : ls.Pairwise ListsBefore) (hc : ofLiterals ls = c) : ls = c.literals := by
  have hm : ∀ l, l ∈ ls ↔ l ∈ c.literals := fun l => by rw [← hc, mem_literals, mem_ofLiterals]
  have hp : ls.Perm c.literals :=
    (List.perm_ext_iff_of_nodup (hs.imp ListsBefore.ne) c.nodup_literals).mpr hm
  exact hp.eq_of_pairwise (fun _ _ _ _ h h' => absurd h' h.asymm) hs c.literals_sorted

theorem mem_vars_iff_literals {v : Var} : v ∈ c.vars ↔ ∃ l ∈ c.literals, l.var = v := by
  constructor
  case mp =>
    intro h
    have ⟨l, hl, hv⟩ := exists_literal_of_mem_vars h
    exact ⟨l, mem_literals.mpr hl, hv⟩
  case mpr =>
    intro ⟨l, hl, hv⟩
    exact hv ▸ var_mem_vars (mem_literals.mp hl)

-- How a clause shows its literals and variables.
structure IsCanonical (c : Clause) : Prop where
  mem : ∀ v, (v.positive ∈ c.literals ↔ v ∈ c.positive) ∧ (v.negative ∈ c.literals ↔ v ∈ c.negative)
  nodup : c.literals.Nodup
  sorted : c.literals.Pairwise ListsBefore
  length : c.literals.length = c.size
  ofLiterals : ofLiterals c.literals = c
  -- No other list in this order makes the clause.
  unique : ∀ ls : List Literal, ls.Pairwise ListsBefore → Clause.ofLiterals ls = c → ls = c.literals
  vars : ∀ vs : List Var, vs = c.vars.toList ↔
    vs.Pairwise (· < ·) ∧ ∀ v, v ∈ vs ↔ ∃ l ∈ c.literals, l.var = v

theorem isCanonical (c : Clause) : c.IsCanonical where
  mem _ := ⟨mem_literals, mem_literals⟩
  nodup := c.nodup_literals
  sorted := c.literals_sorted
  length := c.length_literals
  ofLiterals := c.ofLiterals_literals
  unique _ := eq_literals
  vars vs := by simp only [VarSet.eq_toList_iff, mem_vars_iff_literals]

-- What `resolve` puts together from sets is what comes of the literals that are left.
theorem resolveOn_eq_ofLiterals (c d : Clause) (l : Literal) :
    c.resolveOn d l = ofLiterals (c.literals.erase l ++ d.literals.erase l.negate) := by
  apply ext_literal
  intro k
  rw [mem_resolveOn, mem_ofLiterals, List.mem_append, c.nodup_literals.mem_erase_iff,
    d.nodup_literals.mem_erase_iff, mem_literals, mem_literals, and_comm, and_comm (a := k ∈ d)]

-- The same literals are the same clause, a clause shows each of its literals once and in order, and a
-- resolvent is the clause of what is left of its parents.
theorem canonical :
    (∀ xs ys : List Literal, ofLiterals xs = ofLiterals ys ↔ ∀ l, l ∈ xs ↔ l ∈ ys) ∧
    (∀ c : Clause, c.IsCanonical) ∧
    ∀ c d r : Clause, c.resolve d = .clause r → r.IsCanonical ∧ ∃ l ∈ c.literals,
      l.negate ∈ d.literals ∧ r = ofLiterals (c.literals.erase l ++ d.literals.erase l.negate) := by
  refine ⟨fun _ _ => ofLiterals_eq_iff, isCanonical, fun c d r h => ⟨r.isCanonical, ?_⟩⟩
  obtain ⟨⟨l, hc, hd, rfl⟩, _⟩ := resolve_eq_clause.mp h
  exact ⟨l, mem_literals.mpr hc, mem_literals.mpr hd, resolveOn_eq_ofLiterals c d l⟩

-- Parents that share a literal and were put together in different orders.
theorem canonical_shared :
    let a : Var := ⟨"A"⟩
    let b : Var := ⟨"B"⟩
    let c : Var := ⟨"C"⟩
    let x := ofLiterals [b.positive, a.positive, b.positive]
    let y := ofLiterals [c.negative, a.positive, b.negative]
    let r := ofLiterals [a.positive, c.negative]
    x = ofLiterals [a.positive, b.positive] ∧ r.vars.toList = [a, c] ∧ x.resolve y = .clause r ∧
      ∃ l ∈ x.literals, l.negate ∈ y.literals ∧
        r = ofLiterals (x.literals.erase l ++ y.literals.erase l.negate) := by
  intro a b c x y r
  have ⟨hi, hc, hr⟩ := canonical
  have hl : r.literals = [a.positive, c.negative] := by decide
  have h : x.resolve y = .clause r := by decide
  refine ⟨(hi _ _).mpr fun l => ?_, ?_, h, (hr x y r h).right⟩
  · simp only [List.mem_cons, List.not_mem_nil, or_false]
    grind
  · refine (((hc r).vars [a, c]).mpr ⟨by decide, fun v => ?_⟩).symm
    simp [hl, Var.positive, Var.negative, Var.literal, eq_comm]

end Clause
end Sentential
