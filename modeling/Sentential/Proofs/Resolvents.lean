import Sentential.Proofs.Resolution

namespace Sentential

namespace Clause

variable {c d r : Clause} {l : Literal}

-- `r` holds what remains when `l` is taken from the first clause and its negation from the second.
def RemainsOf (r c d : Clause) (l : Literal) : Prop :=
  l ∈ c ∧ l.negate ∈ d ∧ ∀ k, k ∈ r ↔ (k ∈ c ∧ k ≠ l) ∨ (k ∈ d ∧ k ≠ l.negate)

-- `r` holds what remains when some literal is taken from one of the clauses, whichever it is, and its
-- negation from the other.
def IsBinaryResolvent (c d r : Clause) : Prop :=
  ∃ l, r.RemainsOf c d l ∨ r.RemainsOf d c l

-- True under every valuation.
def Valid (c : Clause) : Prop :=
  ∀ ν : Valuation, ν.Satisfies c

-- A clause that holds no variable in both ways is false where each variable has the value that the
-- clause does not ask of it.
theorem isTautology_iff_valid : c.isTautology ↔ c.Valid := by
  rw [isTautology_iff]
  constructor
  case mp =>
    intro ⟨l, hl, hl'⟩ ν
    by_cases hν : ν l.var = l.positive
    case pos => exact ⟨l, hl, hν⟩
    case neg => exact ⟨l.negate, hl', Bool.eq_not_of_ne hν⟩
  case mpr =>
    intro h
    obtain ⟨l, hl, hν⟩ := h fun v => v ∉ c.positive
    refine ⟨l, hl, ?_⟩
    obtain ⟨v, b⟩ := l
    cases b
    case false => exact of_not_not (of_decide_eq_false hν)
    case true => exact absurd hl (of_decide_eq_true hν)

theorem remainsOf_iff : r.RemainsOf c d l ↔ l ∈ c ∧ l.negate ∈ d ∧ c.resolveOn d l = r := by
  refine and_congr_right fun _ => and_congr_right fun _ => ?_
  simp only [← mem_resolveOn]
  exact ⟨fun h => ext_literal fun k => (h k).symm, fun h k => h ▸ Iff.rfl⟩

theorem isResolvent_comm : c.IsResolvent d r ↔ d.IsResolvent c r :=
  ⟨.symm, .symm⟩

-- Taking the literal from the second clause is taking its negation from the first one.
theorem isBinaryResolvent_iff : c.IsBinaryResolvent d r ↔ c.IsResolvent d r := by
  simp only [IsBinaryResolvent, remainsOf_iff, exists_or]
  exact (or_congr_right isResolvent_comm).trans or_self_iff

theorem exists_isResolvent_iff : (∃ r, c.IsResolvent d r) ↔ ∃ l ∈ c, l.negate ∈ d := by
  constructor
  case mp =>
    intro ⟨_, l, hc, hd, _⟩
    exact ⟨l, hc, hd⟩
  case mpr =>
    intro ⟨l, hc, hd⟩
    exact ⟨c.resolveOn d l, l, hc, hd, rfl⟩

theorem resolve_eq_none : c.resolve d = .none ↔ ¬∃ r, c.IsResolvent d r := by
  have hv : (∃ r, c.IsResolvent d r) ↔ ∃ v, v ∈ (c.clashes d).toList := by
    simp only [exists_isResolvent_iff, VarSet.mem_toList, mem_clashes]
    grind
  rw [hv]
  unfold resolve
  split
  case h_1 h => simp [h]
  case h_2 v h =>
    refine iff_of_false ?_ (not_not_intro ⟨v, by simp [h]⟩)
    dsimp only
    split <;> exact Resolvent.noConfusion
  case h_3 h _ =>
    exact iff_of_false Resolvent.noConfusion (not_not_intro (List.exists_mem_of_ne_nil _ h))

-- This is what is left when there are resolvents and none of them is the one of `resolve_eq_clause`.
theorem resolve_eq_tautology : c.resolve d = .tautology ↔
    (∃ r, c.IsResolvent d r) ∧ ∀ r, c.IsResolvent d r → r.isTautology := by
  constructor
  case mp =>
    intro h
    constructor
    case left =>
      by_contra hn
      cases h.symm.trans (resolve_eq_none.mpr hn)
    case right =>
      intro r hr
      by_contra ht
      cases h.symm.trans (resolve_eq_clause.mpr ⟨hr, ht⟩)
  case mpr =>
    intro ⟨he, ht⟩
    cases h : c.resolve d
    case none => exact absurd he (resolve_eq_none.mp h)
    case tautology => rfl
    case clause r =>
      have ⟨hr, hn⟩ := resolve_eq_clause.mp h
      exact absurd (ht r hr) hn

-- All three answers hang on the resolvents alone, which are the same either way.
theorem resolve_symm (c d : Clause) : c.resolve d = d.resolve c := by
  cases h : d.resolve c
  case none =>
    rw [resolve_eq_none] at h ⊢
    simpa only [isResolvent_comm] using h
  case tautology =>
    rw [resolve_eq_tautology] at h ⊢
    simpa only [isResolvent_comm] using h
  case clause r => exact resolve_comm.mpr h

theorem clauseValue_resolvent {m : Model} (h : c.IsResolvent d r) (hc : m.clauseValue c = some true)
    (hd : m.clauseValue d = some true) : m.clauseValue r = some true := by
  rw [Model.clauseValue_eq_true] at hc hd ⊢
  exact h.exists_mem (p := fun l => m.value l.var = some l.positive) (fun l hl => by simp [hl]) hc hd

theorem resolve_classifies (c d : Clause) :
    (c.resolve d = .none ↔ ¬∃ l ∈ c, l.negate ∈ d) ∧
    (c.resolve d = .none ↔ ¬∃ r, c.IsBinaryResolvent d r) ∧
    (∀ r, c.resolve d = .clause r ↔ c.IsBinaryResolvent d r ∧ ¬r.Valid) ∧
    (∀ r, c.resolve d = .clause r → ∀ r', c.IsBinaryResolvent d r' → ¬r'.Valid → r' = r) ∧
    (c.resolve d = .tautology ↔
      (∃ r, c.IsBinaryResolvent d r) ∧ ∀ r, c.IsBinaryResolvent d r → r.Valid) ∧
    c.resolve d = d.resolve c ∧
    ∀ r, c.resolve d = .clause r →
      (∀ ν : Valuation, ν.Satisfies c → ν.Satisfies d → ν.Satisfies r) ∧
      ∀ m : Model, m.clauseValue c = some true → m.clauseValue d = some true →
        m.clauseValue r = some true := by
  simp only [isBinaryResolvent_iff, ← isTautology_iff_valid]
  refine ⟨resolve_eq_none.trans (not_congr exists_isResolvent_iff), resolve_eq_none,
    fun r => resolve_eq_clause, fun r h r' hr ht => ?_, resolve_eq_tautology, resolve_symm c d,
    fun r h => ?_⟩
  · exact Resolvent.clause.inj <| (resolve_eq_clause.mpr ⟨hr, ht⟩).symm.trans h
  · have ⟨hr, _⟩ := resolve_eq_clause.mp h
    exact ⟨fun ν => Valuation.satisfies_resolvent hr, fun m => clauseValue_resolvent hr⟩

-- The second clause holds `A` in both ways, so that taking `A` from it leaves the negation behind.
theorem resolve_classifies_tautological :
    let a : Var := ⟨"A"⟩
    let b : Var := ⟨"B"⟩
    let c := ofLiterals [b.positive, a.negative]
    let d := ofLiterals [a.positive, a.negative]
    c.resolve d = .clause c ∧ d.resolve c = .clause c ∧ c.IsBinaryResolvent d c ∧ ¬c.Valid ∧
      (∀ r, c.IsBinaryResolvent d r → ¬r.Valid → r = c) ∧
      ∀ ν : Valuation, ν.Satisfies c → ν.Satisfies d → ν.Satisfies c := by
  intro a b c d
  have h : c.resolve d = .clause c := by decide
  obtain ⟨_, _, hc, hu, _, hs, hν⟩ := resolve_classifies c d
  have ⟨hr, ht⟩ := (hc c).mp h
  exact ⟨h, hs ▸ h, hr, ht, hu c h, (hν c h).left⟩

end Clause
end Sentential
