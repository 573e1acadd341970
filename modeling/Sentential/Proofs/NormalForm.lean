import Sentential.NormalForm.Shape
import Sentential.Proofs.Evaluation
import Sentential.Proofs.Gathering

namespace Sentential

namespace Sentence

variable {s l r d : Sentence} {k : Literal} {c : Clause} {v : Var}

theorem isDisjunction_of_isNormal (h : s.isNormal) (hs : ∀ l r, s ≠ and l r) : s.isDisjunction := by
  cases s
  case and l r => exact absurd rfl (hs l r)
  all_goals exact h

theorem isNormal_distribute (hl : l.isNormal) (hr : r.isNormal) : (distribute l r).isNormal := by
  fun_induction distribute l r
  case case1 l x y hx hy =>
    have ⟨hx', hy'⟩ := Bool.and_eq_true_iff.mp hr
    exact Bool.and_eq_true_iff.mpr ⟨hx hx' hl, hy hy' hl⟩
  case case2 r x y _ hx hy =>
    have ⟨hx', hy'⟩ := Bool.and_eq_true_iff.mp hl
    exact Bool.and_eq_true_iff.mpr ⟨hx hx' hr, hy hy' hr⟩
  case case3 l r hnr hnl =>
    have hl' := isDisjunction_of_isNormal hl fun x y e => hnl x y e
    have hr' := isDisjunction_of_isNormal hr fun x y e => hnr x y e
    exact Bool.and_eq_true_iff.mpr ⟨hl', hr'⟩

-- The two passes call each other, so one induction goes through for both.
theorem isNormal_passes (s : Sentence) : s.cnf.isNormal ∧ s.negatedCnf.isNormal := by
  induction s
  case truth | falsity | var => exact ⟨rfl, rfl⟩
  case not s hi => exact hi.symm
  all_goals
    rename_i l r hl hr
    simp [cnf, negatedCnf, isNormal, isNormal_distribute, hl, hr]

theorem isNormal_cnf (s : Sentence) : s.cnf.isNormal :=
  (isNormal_passes s).left

theorem distribute_of_isDisjunction (hl : l.isDisjunction) (hr : r.isDisjunction) :
    distribute l r = or l r := by
  fun_cases distribute l r
  case case1 => cases hr
  case case2 => cases hl
  case case3 => rfl

theorem cnf_of_isDisjunction (h : s.isDisjunction) : s.cnf = s := by
  induction s
  case truth | falsity | var => rfl
  case not s _ =>
    cases s
    case var => rfl
    all_goals cases h
  case or l r hl hr =>
    have ⟨hdl, hdr⟩ := Bool.and_eq_true_iff.mp h
    rw [cnf, hl hdl, hr hdr, distribute_of_isDisjunction hdl hdr]
  all_goals cases h

theorem cnf_of_isNormal (h : s.isNormal) : s.cnf = s := by
  induction s
  case and l r hl hr =>
    have ⟨hnl, hnr⟩ := Bool.and_eq_true_iff.mp h
    rw [cnf, hl hnl, hr hnr]
  all_goals exact cnf_of_isDisjunction h

theorem isDisjunction_of_mem_conjuncts (h : s.isNormal) (hd : d ∈ s.conjuncts) : d.isDisjunction := by
  induction s
  case and l r hl hr =>
    have ⟨hnl, hnr⟩ := Bool.and_eq_true_iff.mp h
    exact (List.mem_append.mp hd).elim (hl hnl) (hr hnr)
  all_goals exact List.mem_singleton.mp hd ▸ h

theorem isPlain_of_mem_disjuncts (h : s.isDisjunction) (hd : d ∈ s.disjuncts) : d.isPlain := by
  induction s
  case or l r hl hr =>
    have ⟨hnl, hnr⟩ := Bool.and_eq_true_iff.mp h
    exact (List.mem_append.mp hd).elim (hl hnl) (hr hnr)
  all_goals exact List.mem_singleton.mp hd ▸ h

theorem isDisjunction_of_disjuncts (h : ∀ d ∈ s.disjuncts, d.isPlain) : s.isDisjunction := by
  induction s
  case or l r hl hr =>
    have ⟨hdl, hdr⟩ := List.forall_mem_append.mp h
    exact Bool.and_eq_true_iff.mpr ⟨hl hdl, hr hdr⟩
  all_goals exact h _ (List.mem_singleton_self _)

theorem isPlain_cases (h : s.isPlain) : s = truth ∨ s = falsity ∨ ∃ k, s.literal? = some k := by
  cases s
  case truth => exact .inl rfl
  case falsity => exact .inr <| .inl rfl
  case var v => exact .inr <| .inr ⟨v.positive, rfl⟩
  case not s =>
    cases s
    case var v => exact .inr <| .inr ⟨v.negative, rfl⟩
    all_goals exact nomatch h
  all_goals exact nomatch h

theorem mem_clauses :
    c ∈ s.clauses ↔ ∃ d ∈ s.cnf.conjuncts, truth ∉ d.disjuncts ∧ d.clause = c := by
  simp [clauses_eq, distinctConjuncts_eq, List.mem_eraseDups, and_assoc]

-- The normal form has just the variables of the sentence. Its clauses may have fewer, but bring in no
-- other ones.

theorem mem_vars_distribute : v ∈ (distribute l r).vars ↔ v ∈ l.vars ∨ v ∈ r.vars := by
  fun_induction distribute l r
  all_goals simp_all [vars, or_assoc, or_left_comm, or_comm]

theorem mem_vars_passes : (v ∈ s.cnf.vars ↔ v ∈ s.vars) ∧ (v ∈ s.negatedCnf.vars ↔ v ∈ s.vars) := by
  induction s
  case truth | falsity | var => exact ⟨.rfl, .rfl⟩
  case not s hi => exact hi.symm
  all_goals
    rename_i l r hl hr
    simp only [cnf, negatedCnf, vars, mem_vars_distribute, VarSet.mem_union]
    grind

theorem mem_vars_of_mem_conjuncts (hd : d ∈ s.conjuncts) (hv : v ∈ d.vars) : v ∈ s.vars := by
  induction s
  case and l r hl hr =>
    exact VarSet.mem_union.mpr <| (List.mem_append.mp hd).imp hl hr
  all_goals exact List.mem_singleton.mp hd ▸ hv

theorem mem_vars_of_mem_disjuncts (hd : d ∈ s.disjuncts) (hv : v ∈ d.vars) : v ∈ s.vars := by
  induction s
  case or l r hl hr =>
    exact VarSet.mem_union.mpr <| (List.mem_append.mp hd).imp hl hr
  all_goals exact List.mem_singleton.mp hd ▸ hv

theorem var_mem_vars_of_literal? (h : s.literal? = some k) : k.var ∈ s.vars := by
  unfold literal? at h
  split at h
  case h_1 | h_2 =>
    cases Option.some.inj h
    simp [vars, Var.positive, Var.negative, Var.literal]
  case h_3 => cases h

theorem mem_vars_of_mem_clauses (hc : c ∈ s.clauses) (hv : v ∈ c.vars) : v ∈ s.vars := by
  obtain ⟨d, hd, _, rfl⟩ := mem_clauses.mp hc
  obtain ⟨k, hk, rfl⟩ := Clause.exists_literal_of_mem_vars hv
  obtain ⟨e, he, hk⟩ := mem_clause.mp hk
  have hv := mem_vars_of_mem_disjuncts he (var_mem_vars_of_literal? hk)
  exact mem_vars_passes.left.mp (mem_vars_of_mem_conjuncts hd hv)

theorem cnf_normalizes (s : Sentence) :
    s.cnf.isNormal ∧ s.cnf.vars = s.vars ∧ (s.isNormal → s.cnf = s) ∧
      ((∃ t : Sentence, t.cnf = s) ↔ s.isNormal) ∧ s.cnf.cnf = s.cnf := by
  refine ⟨isNormal_cnf s, VarSet.ext fun v => mem_vars_passes.left, cnf_of_isNormal, ?_,
    cnf_of_isNormal (isNormal_cnf s)⟩
  constructor
  case mp => exact fun ⟨t, ht⟩ => ht ▸ isNormal_cnf t
  case mpr => exact fun h => ⟨s, cnf_of_isNormal h⟩

-- Constants stay where they are, but no normal form negates one.
theorem cnf_normalizes_constants :
    let s := and (or (var ⟨"A"⟩) (or falsity (not (var ⟨"B"⟩)))) (and truth falsity)
    s.isNormal ∧ s.cnf = s ∧ ¬∃ t : Sentence, t.cnf = not truth := by
  intro s
  have h : s.isNormal := rfl
  have ⟨_, _, hs, _⟩ := cnf_normalizes s
  have ⟨_, _, _, ht, _⟩ := cnf_normalizes (not truth)
  exact ⟨h, hs h, fun hn => Bool.false_ne_true (ht.mp hn)⟩

end Sentence

namespace Model

open Sentence

variable {s l r d : Sentence} {k : Literal}

theorem eval_distribute (m : Model) (l r : Sentence) :
    m.eval (distribute l r) = Kleene.or (m.eval l) (m.eval r) := by
  fun_induction distribute l r
  case case1 l x y hx hy => rw [eval, hx, hy, ← Kleene.or_and, Kleene.or_comm, eval]
  case case2 r x y _ hx hy => rw [eval, hx, hy, ← Kleene.or_and, eval]
  case case3 l r _ _ => rfl

theorem eval_passes (m : Model) (s : Sentence) :
    m.eval s.cnf = m.eval s ∧ m.eval s.negatedCnf = Kleene.not (m.eval s) := by
  induction s
  case truth | falsity | var => exact ⟨rfl, rfl⟩
  case not s hi =>
    have ⟨hc, hn⟩ := hi
    exact ⟨hn, by rw [negatedCnf, hc, eval, Kleene.not_not]⟩
  case and l r hl hr =>
    constructor
    case left => rw [cnf, eval, hl.left, hr.left, eval]
    case right => rw [negatedCnf, eval_distribute, hl.right, hr.right, eval, Kleene.not_and]
  case or l r hl hr =>
    constructor
    case left => rw [cnf, eval_distribute, hl.left, hr.left, eval]
    case right => rw [negatedCnf, eval, hl.right, hr.right, eval, Kleene.not_or]
  case implies l r hl hr =>
    constructor
    case left => rw [cnf, eval_distribute, hl.right, hr.left, eval, Kleene.implies]
    case right => rw [negatedCnf, eval, hl.left, hr.right, eval, Kleene.not_implies]
  case iff l r hl hr =>
    constructor
    case left =>
      rw [cnf, eval, eval_distribute, eval_distribute, hl.left, hl.right, hr.left, hr.right, eval,
        Kleene.iff_eq_and, Kleene.implies, Kleene.implies]
    case right =>
      rw [negatedCnf, eval, eval_distribute, eval_distribute, hl.left, hl.right, hr.left, hr.right,
        eval, Kleene.not_iff]

theorem eval_cnf (m : Model) (s : Sentence) : m.eval s.cnf = m.eval s :=
  (m.eval_passes s).left

theorem eval_eq_all_conjuncts (m : Model) (s : Sentence) :
    m.eval s = Kleene.all (s.conjuncts.map m.eval) := by
  induction s
  case and l r hl hr => rw [eval, hl, hr, conjuncts, List.map_append, Kleene.all_append]
  all_goals exact (Kleene.all_singleton _).symm

theorem eval_eq_any_disjuncts (m : Model) (s : Sentence) :
    m.eval s = Kleene.any (s.disjuncts.map m.eval) := by
  induction s
  case or l r hl hr => rw [eval, hl, hr, disjuncts, List.map_append, Kleene.any_append]
  all_goals exact (Kleene.any_singleton _).symm

theorem eval_of_literal? (m : Model) (h : s.literal? = some k) : m.eval s = m.literalValue k := by
  unfold literal? at h
  split at h
  case h_1 v =>
    cases Option.some.inj h
    cases hv : m.value v <;> simp [eval, literalValue, hv, Var.positive, Var.literal]
  case h_2 v =>
    cases Option.some.inj h
    cases hv : m.value v <;> simp [eval, literalValue, hv, Var.negative, Var.literal, Kleene.not]
  case h_3 => cases h

-- Reading the clause off a disjunction passes over constants, of which only false ones are left.
theorem clauseValue_clause (m : Model) (h : s.isDisjunction) (ht : truth ∉ s.disjuncts) :
    m.clauseValue s.clause = m.eval s := by
  have hd : ∀ d ∈ s.disjuncts, d = falsity ∨ ∃ k, d.literal? = some k := by
    intro d hd
    have hp := isPlain_cases <| isPlain_of_mem_disjuncts h hd
    exact hp.resolve_left fun e => ht (e ▸ hd)
  rw [clauseValue_eq_any, eval_eq_any_disjuncts]
  apply Kleene.ext
  case ht =>
    simp only [Kleene.any_eq_true, List.mem_map, Clause.mem_literals, mem_clause]
    constructor
    case mp =>
      rintro ⟨k, ⟨d, hm, hk⟩, hv⟩
      exact ⟨d, hm, (m.eval_of_literal? hk).trans hv⟩
    case mpr =>
      rintro ⟨d, hm, hv⟩
      cases hd d hm
      case inl hf => simp [hf, eval] at hv
      case inr hk =>
        obtain ⟨k, hk⟩ := hk
        exact ⟨k, ⟨d, hm, hk⟩, (m.eval_of_literal? hk).symm.trans hv⟩
  case hf =>
    simp only [Kleene.any_eq_false, List.forall_mem_map, Clause.mem_literals, mem_clause]
    constructor
    case mp =>
      intro hf d hm
      cases hd d hm
      case inl hc => rw [hc, eval]
      case inr hk =>
        obtain ⟨k, hk⟩ := hk
        exact (m.eval_of_literal? hk).trans <| hf k ⟨d, hm, hk⟩
    case mpr =>
      rintro hf k ⟨d, hm, hk⟩
      exact (m.eval_of_literal? hk).symm.trans <| hf d hm

theorem eval_eq_all_clauses (m : Model) (s : Sentence) :
    m.eval s = Kleene.all (s.clauses.map m.clauseValue) := by
  have hd : ∀ d ∈ s.cnf.conjuncts, truth ∉ d.disjuncts → m.clauseValue d.clause = m.eval d := by
    intro d hd ht
    exact m.clauseValue_clause (isDisjunction_of_mem_conjuncts s.isNormal_cnf hd) ht
  have htrue : ∀ d : Sentence, truth ∈ d.disjuncts → m.eval d = some true := by
    intro d ht
    rw [eval_eq_any_disjuncts, Kleene.any_eq_true]
    exact List.mem_map.mpr ⟨truth, ht, rfl⟩
  rw [← eval_cnf, eval_eq_all_conjuncts]
  apply Kleene.ext
  case ht =>
    simp only [Kleene.all_eq_true, List.forall_mem_map, mem_clauses]
    constructor
    case mp =>
      intro h c ⟨d, hm, ht, hc⟩
      exact hc ▸ (hd d hm ht).trans (h d hm)
    case mpr =>
      intro h d hm
      by_cases ht : truth ∈ d.disjuncts
      case pos => exact htrue d ht
      case neg => exact (hd d hm ht).symm.trans <| h d.clause ⟨d, hm, ht, rfl⟩
  case hf =>
    simp only [Kleene.all_eq_false, List.mem_map, mem_clauses]
    constructor
    case mp =>
      intro ⟨d, hm, hv⟩
      have ht : truth ∉ d.disjuncts := fun ht => by simp [htrue d ht] at hv
      exact ⟨d.clause, ⟨d, hm, ht, rfl⟩, (hd d hm ht).trans hv⟩
    case mpr =>
      intro ⟨c, ⟨d, hm, ht, hc⟩, hv⟩
      exact ⟨d, hm, (hd d hm ht).symm.trans (hc ▸ hv)⟩

theorem eval_eq_true_iff_clauses {m : Model} {s : Sentence} :
    m.eval s = some true ↔ ∀ c ∈ s.clauses, m.clauseValue c = some true := by
  rw [eval_eq_all_clauses, Kleene.all_eq_true, List.forall_mem_map]

theorem eval_normalForm (m : Model) (s : Sentence) :
    m.eval s.cnf = m.eval s ∧
      m.eval s =
        if ∃ c ∈ s.clauses, m.clauseValue c = some false then some false
        else if ∀ c ∈ s.clauses, m.clauseValue c = some true then some true
        else none := by
  refine ⟨m.eval_cnf s, ?_⟩
  rw [eval_eq_all_clauses, Kleene.all_eq_ite]
  simp

end Model

namespace Valuation

-- Cut down to a model of all variables involved, the valuation is under the law for models.
theorem holds_iff_clauses {ν : Valuation} {s : Sentence} :
    ν.holds s ↔ ∀ c ∈ s.clauses, ν.Satisfies c := by
  let m := ν.restrict (s.vars.union (clauseVars s.clauses))
  have hs : m.eval s = some (ν.holds s) := by
    apply eval_eq_holds
    intro v hv
    simp [m, hv]
  have hc : ∀ c ∈ s.clauses, m.clauseValue c = some true ↔ ν.Satisfies c := by
    intro c hc
    apply clauseValue_eq_true_iff
    intro v hv
    have : v ∈ clauseVars s.clauses := mem_clauseVars.mpr ⟨c, hc, hv⟩
    simp only [m, value_restrict, VarSet.mem_union, this, or_true, if_true]
  rw [← Option.some_inj, ← hs, Model.eval_eq_true_iff_clauses]
  exact forall₂_congr hc

end Valuation
end Sentential
