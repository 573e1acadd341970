import Sentential.Proofs.Canonical
import Sentential.Proofs.Dpll

namespace Sentential.Dpll

variable {cs opened : List Clause} {m : Model} {c : Clause} {l : Literal}

-- The variable has no value yet, and of its two literals only this one occurs in the clauses.
structure IsPure (opened : List Clause) (m : Model) (l : Literal) : Prop where
  free : m.value l.var = none
  occurs : ∃ c ∈ opened, l ∈ c
  only : ∀ c ∈ opened, l.negate ∉ c

-- No other literal of the clause is without a value.
structure IsLast (m : Model) (c : Clause) (l : Literal) : Prop where
  mem : l ∈ c
  free : m.value l.var = none
  eq : ∀ k ∈ c, m.value k.var = none → k = l

theorem pureLiteral?_isPure (h : pureLiteral? opened m = some l) : IsPure opened m l := by
  have ⟨_, hf⟩ := mem_freeVars.mp (pureLiteral?_free h)
  obtain ⟨v, _, hl⟩ := List.exists_of_findSome?_eq_some h
  have ⟨_, ho, hn⟩ := onlyPolarity?_eq_some.mp hl
  exact ⟨hf, ho, hn⟩

theorem pureLiteral?_eq_none_iff : pureLiteral? opened m = none ↔ ¬∃ l, IsPure opened m l := by
  constructor
  case mp =>
    intro h ⟨l, hl⟩
    have ⟨c, hc, hm⟩ := hl.occurs
    have hv : l.var ∈ freeVars opened m :=
      mem_freeVars.mpr ⟨mem_clauseVars.mpr ⟨c, hc, Clause.var_mem_vars hm⟩, hl.free⟩
    have hs : onlyPolarity? opened l.var = some l := onlyPolarity?_eq_some.mpr ⟨rfl, hl.occurs, hl.only⟩
    cases hs.symm.trans (List.findSome?_eq_none_iff.mp h l.var hv)
  case mpr =>
    intro h
    cases hl : pureLiteral? opened m
    case none => rfl
    case some l => exact absurd ⟨l, pureLiteral?_isPure hl⟩ h

theorem lastLiteral?_eq_some : lastLiteral? m c = some l ↔ IsLast m c l := by
  constructor
  case mp =>
    intro h
    have ⟨hm, hf⟩ := lastLiteral?_mem h
    exact ⟨hm, hf, fun k hk hv => eq_of_lastLiteral? h hk hv⟩
  case mpr =>
    intro h
    -- A clause lists no literal twice, so that the literal is counted once.
    have hp : (c.literals.filter (m.literalValue · = none)).Perm [l] := by
      rw [List.perm_ext_iff_of_nodup (c.nodup_literals.filter _) (List.nodup_singleton l)]
      intro k
      simp only [List.mem_filter, Clause.mem_literals, decide_eq_true_eq, Model.literalValue_eq_none,
        List.mem_singleton]
      exact ⟨fun hk => h.eq k hk.left hk.right, fun hk => hk ▸ ⟨h.mem, h.free⟩⟩
    simp [lastLiteral?, List.perm_singleton.mp hp]

theorem unitLiteral?_isLast (h : unitLiteral? opened m = some l) : ∃ c ∈ opened, IsLast m c l := by
  obtain ⟨c, hc, hl⟩ := List.exists_of_findSome?_eq_some h
  exact ⟨c, hc, lastLiteral?_eq_some.mp hl⟩

theorem unitLiteral?_eq_none_iff :
    unitLiteral? opened m = none ↔ ¬∃ l, ∃ c ∈ opened, IsLast m c l := by
  constructor
  case mp =>
    intro h ⟨l, c, hc, hl⟩
    cases (lastLiteral?_eq_some.mpr hl).symm.trans (List.findSome?_eq_none_iff.mp h c hc)
  case mpr =>
    intro h
    cases hl : unitLiteral? opened m
    case none => rfl
    case some l => exact absurd ⟨l, unitLiteral?_isLast hl⟩ h

theorem openClauses?_of_not_false (h : ∀ c ∈ cs, m.clauseValue c ≠ some false) :
    openClauses? cs m = some (cs.filter (m.clauseValue · = none)) := by
  rw [openClauses?, if_neg]
  simpa using h

-- Under a model that makes no clause false: a pure literal and a unit are found if there are any, the
-- pure literal can be made true without losing the last solution, and the unit is true in every solution.
theorem forced_literals_safe (cs : List Clause) (m : Model)
    (h : ∀ c ∈ cs, m.clauseValue c ≠ some false) :
    let opened := cs.filter (m.clauseValue · = none)
    ((pureLiteral? opened m = none ↔ ¬∃ l, IsPure opened m l) ∧
      ∀ l, pureLiteral? opened m = some l → IsPure opened m l ∧ m.value l.var = none ∧
        ((∃ ν : Valuation, ν.Extends m ∧ ∀ c ∈ cs, ν.Satisfies c) ↔
          ∃ ν : Valuation, ν.Extends m ∧ ν l.var = l.positive ∧ ∀ c ∈ cs, ν.Satisfies c)) ∧
    (unitLiteral? opened m = none ↔ ¬∃ l, ∃ c ∈ opened, IsLast m c l) ∧
      ∀ l, unitLiteral? opened m = some l → (∃ c ∈ opened, IsLast m c l) ∧ m.value l.var = none ∧
        ∀ ν : Valuation, ν.Extends m → (∀ c ∈ cs, ν.Satisfies c) → ν l.var = l.positive := by
  intro opened
  have ho : openClauses? cs m = some opened := openClauses?_of_not_false h
  refine ⟨⟨pureLiteral?_eq_none_iff, fun l hl => ?pure⟩, unitLiteral?_eq_none_iff, fun l hl => ?unit⟩
  case pure =>
    have hp := pureLiteral?_isPure hl
    refine ⟨hp, hp.free, fun hs => Solvable.exists_pure hs ho hl, ?_⟩
    exact fun ⟨ν, he, _, hs⟩ => ⟨ν, he, hs⟩
  case unit =>
    obtain ⟨c, hc, hu⟩ := unitLiteral?_isLast hl
    exact ⟨⟨c, hc, hu⟩, hu.free, fun ν he hs => holds_of_unitLiteral? ho hl he hs⟩

-- The first clause is a tautology, whose variable is neither pure nor a unit, and the model gives a value
-- to a variable that is in no clause.
theorem forced_literals_safe_tautology :
    let a : Var := ⟨"A"⟩
    let b : Var := ⟨"B"⟩
    let c : Var := ⟨"C"⟩
    let cs : List Clause := [.ofLiterals [a.positive, a.negative], .ofLiterals [b.negative, c.negative],
      .ofLiterals [c.positive]]
    let m : Model := (∅ : Model).extend ⟨"D"⟩ true
    (∀ c ∈ cs, m.clauseValue c ≠ some false) ∧ cs.filter (m.clauseValue · = none) = cs ∧
      pureLiteral? cs m = some b.negative ∧ unitLiteral? cs m = some c.positive ∧
      (∃ ν : Valuation, ν.Extends m ∧ ν b = false ∧ ∀ c ∈ cs, ν.Satisfies c) ∧
      ∀ ν : Valuation, ν.Extends m → (∀ c ∈ cs, ν.Satisfies c) → ν c = true := by
  intro a b c cs m
  have h : ∀ c ∈ cs, m.clauseValue c ≠ some false := by decide
  have ho : cs.filter (m.clauseValue · = none) = cs := by decide
  have hp : pureLiteral? cs m = some b.negative := by decide
  have hu : unitLiteral? cs m = some c.positive := by decide
  have ⟨⟨_, hpure⟩, _, hunit⟩ := forced_literals_safe cs m h
  rw [ho] at hpure hunit
  have hs : ∃ ν : Valuation, ν.Extends m ∧ ∀ c ∈ cs, ν.Satisfies c := by
    let n := ((m.extend a true).extend b false).extend c true
    have hn : ∀ c ∈ cs, n.clauseValue c = some true := by decide
    refine ⟨.complete n, fun v x hv => ?_, fun c hc => (Valuation.complete_extends n).satisfies (hn c hc)⟩
    obtain ⟨rfl, rfl⟩ : v = ⟨"D"⟩ ∧ x = true := by simpa [m, eq_comm] using hv
    decide
  exact ⟨h, ho, hp, hu, (hpure _ hp).right.right.mp hs, (hunit _ hu).right.right⟩

end Sentential.Dpll
