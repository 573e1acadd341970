import Mathlib.Logic.Function.Basic
import Sentential.Clause.Resolution
import Sentential.Proofs.Evaluation

namespace Sentential

namespace Literal

theorem negate_ne (l : Literal) : l.negate ≠ l := by
  intro h
  have := congrArg Literal.positive h
  simp at this

theorem negate_inj {k l : Literal} (h : k.negate = l.negate) : k = l := by
  rw [← negate_negate k, h, negate_negate]

end Literal

namespace Clause

variable {c d r : Clause} {k l : Literal} {v : Var}

theorem isTautology_iff : c.isTautology ↔ ∃ l ∈ c, l.negate ∈ c := by
  rw [isTautology, Bool.not_eq_true', ← Bool.not_eq_true, VarSet.disjoint_iff]
  push Not
  constructor
  case mp =>
    intro ⟨v, hp, hn⟩
    exact ⟨v.positive, hp, hn⟩
  case mpr =>
    intro ⟨⟨v, b⟩, hl, hl'⟩
    cases b
    case false => exact ⟨v, hl', hl⟩
    case true => exact ⟨v, hl, hl'⟩

-- What remains of two clauses after taking a literal from the one and its negation from the other.
def IsResolvent (c d r : Clause) : Prop :=
  ∃ l ∈ c, l.negate ∈ d ∧ c.resolveOn d l = r

theorem resolveOn_comm (c d : Clause) (l : Literal) : c.resolveOn d l = d.resolveOn c l.negate := by
  apply ext_literal
  intro k
  rw [mem_resolveOn, mem_resolveOn, Literal.negate_negate, Or.comm]

theorem IsResolvent.symm (h : c.IsResolvent d r) : d.IsResolvent c r := by
  have ⟨l, hc, hd, hr⟩ := h
  exact ⟨l.negate, hd, l.negate_negate.symm ▸ hc, resolveOn_comm c d l ▸ hr⟩

-- Of a literal and its negation at most one has `p`, so the literals that have it in the parents cannot
-- both be the ones taken away.
theorem IsResolvent.exists_mem {p : Literal → Prop} (h : c.IsResolvent d r)
    (hp : ∀ l, p l → ¬p l.negate) (hc : ∃ k ∈ c, p k) (hd : ∃ k ∈ d, p k) : ∃ k ∈ r, p k := by
  obtain ⟨l, _, _, rfl⟩ := h
  have ⟨k, hk, hpk⟩ := hc
  have ⟨k', hk', hpk'⟩ := hd
  by_cases he : k = l
  case neg => exact ⟨k, mem_resolveOn.mpr <| .inl ⟨hk, he⟩, hpk⟩
  case pos =>
    refine ⟨k', mem_resolveOn.mpr <| .inr ⟨hk', ?_⟩, hpk'⟩
    intro he'
    exact hp l (he ▸ hpk) (he' ▸ hpk')

-- Any other clash would survive in the resolvent.
theorem clash_unique (ht : ¬(c.resolveOn d l).isTautology) (hk : k ∈ c) (hk' : k.negate ∈ d) :
    k = l := by
  by_contra hne
  apply ht
  rw [isTautology_iff]
  refine ⟨k, mem_resolveOn.mpr <| .inl ⟨hk, hne⟩, mem_resolveOn.mpr <| .inr ⟨hk', ?_⟩⟩
  exact fun e => hne (Literal.negate_inj e)

theorem mem_clashes : v ∈ c.clashes d ↔ ∃ l ∈ c, l.negate ∈ d ∧ l.var = v := by
  simp only [clashes, VarSet.mem_union, VarSet.mem_inter]
  constructor
  case mp =>
    intro h
    cases h
    case inl h => exact ⟨v.positive, h.left, h.right, rfl⟩
    case inr h => exact ⟨v.negative, h.left, h.right, rfl⟩
  case mpr =>
    rintro ⟨⟨w, b⟩, hc, hd, hv⟩
    cases hv
    cases b
    case false => exact .inr ⟨hc, hd⟩
    case true => exact .inl ⟨hc, hd⟩

-- The literal that `resolve` picks for a clashing variable is one on which the clauses clash.
theorem clash_of_mem_clashes (h : v ∈ c.clashes d) :
    v.literal (v ∈ c.positive ∧ v ∈ d.negative) ∈ c ∧
      (v.literal (v ∈ c.positive ∧ v ∈ d.negative)).negate ∈ d := by
  by_cases hp : v ∈ c.positive ∧ v ∈ d.negative
  case pos =>
    rw [decide_eq_true hp]
    exact hp
  case neg =>
    have hn : v ∈ c.negative ∧ v ∈ d.positive := by
      simp only [clashes, VarSet.mem_union, VarSet.mem_inter] at h
      exact h.resolve_left hp
    rw [decide_eq_false hp]
    exact hn

theorem clashes_eq_singleton (hc : l ∈ c) (hd : l.negate ∈ d)
    (ht : ¬(c.resolveOn d l).isTautology) : (c.clashes d).toList = [l.var] := by
  have : c.clashes d = VarSet.insert ∅ l.var := by
    apply VarSet.ext
    intro v
    rw [mem_clashes, VarSet.mem_insert]
    constructor
    case mp =>
      intro ⟨k, hk, hk', hv⟩
      exact .inl <| clash_unique ht hk hk' ▸ hv.symm
    case mpr =>
      intro hv
      have hv := hv.resolve_right (VarSet.not_mem_empty v)
      exact ⟨l, hc, hd, hv.symm⟩
  rw [this]
  rfl

theorem resolve_eq_clause : c.resolve d = .clause r ↔ c.IsResolvent d r ∧ ¬r.isTautology := by
  constructor
  case mp =>
    intro h
    unfold resolve at h
    split at h
    case h_2 v hv =>
      have hm : v ∈ c.clashes d := by simp [VarSet.mem_def, hv]
      have ⟨hc, hd⟩ := clash_of_mem_clashes hm
      dsimp only at h
      split at h
      case isTrue => exact nomatch h
      case isFalse ht =>
        cases h
        exact ⟨⟨_, hc, hd, rfl⟩, ht⟩
    all_goals exact nomatch h
  case mpr =>
    intro ⟨⟨l, hc, hd, hr⟩, ht⟩
    have hs := clashes_eq_singleton hc hd (hr ▸ ht)
    have hm : l.var ∈ c.clashes d := mem_clashes.mpr ⟨l, hc, hd, rfl⟩
    have ⟨hc', hd'⟩ := clash_of_mem_clashes hm
    simp only [resolve, hs, clash_unique (hr ▸ ht) hc' hd', hr, ht, Bool.false_eq_true, if_false]

theorem resolve_comm : c.resolve d = .clause r ↔ d.resolve c = .clause r := by
  simp only [resolve_eq_clause]
  exact and_congr_left fun _ => ⟨.symm, .symm⟩

-- A clause clashes with itself only if it is a tautology, and so is then what remains of it.
theorem resolve_self (c r : Clause) : c.resolve c ≠ .clause r := by
  intro h
  have ⟨⟨l, hl, hl', hr⟩, ht⟩ := resolve_eq_clause.mp h
  have := clash_unique (hr ▸ ht) hl' (l.negate_negate.symm ▸ hl)
  exact l.negate_ne this

end Clause

namespace Valuation

variable {ν : Valuation} {c d r : Clause} {v : Var} {b : Bool}

theorem satisfies_resolvent (h : c.IsResolvent d r) (hc : ν.Satisfies c) (hd : ν.Satisfies d) :
    ν.Satisfies r :=
  h.exists_mem (p := fun l => ν l.var = l.positive) (fun l hl => by simp [hl]) hc hd

theorem not_satisfies_empty (ν : Valuation) : ¬ν.Satisfies ∅ :=
  fun ⟨l, hl, _⟩ => Clause.not_mem_empty l hl

-- A literal that is not true after `v` is set to `b` either was not true before or is about `v`.
theorem not_satisfies_update (h : ¬Satisfies (Function.update ν v b) c) {l : Literal} (hl : l ∈ c) :
    l = v.literal !b ∨ (l.var ≠ v ∧ ν l.var ≠ l.positive) := by
  have hn : Function.update ν v b l.var ≠ l.positive := fun e => h ⟨l, hl, e⟩
  by_cases hv : l.var = v
  case pos =>
    left
    have hp : l.positive = !b := by
      rw [hv, Function.update_self] at hn
      exact Bool.eq_not_of_ne hn.symm
    cases l
    cases hv
    cases hp
    rfl
  case neg =>
    rw [Function.update_of_ne hv] at hn
    exact .inr ⟨hv, hn⟩

end Valuation

-- Every resolvent of two of the clauses is one of the clauses.
def Saturated (cs : List Clause) : Prop :=
  ∀ c ∈ cs, ∀ d ∈ cs, ∀ r, c.resolve d = .clause r → r ∈ cs

namespace Saturated

variable {cs : List Clause} {c d : Clause} {ν : Valuation} {v : Var} {vs : List Var}

-- All of the clauses over the given variables are satisfied.
def SatisfiesWithin (cs : List Clause) (ν : Valuation) (vs : List Var) : Prop :=
  ∀ c ∈ cs, (∀ v ∈ c.vars, v ∈ vs) → ν.Satisfies c

-- Setting one more variable to `b` can only fail a clause that asks for the opposite value.
theorem literal_mem_of_not_satisfies {b : Bool} (h : SatisfiesWithin cs ν vs) (hc : c ∈ cs)
    (hw : ∀ w ∈ c.vars, w ∈ v :: vs) (hn : ¬Valuation.Satisfies (Function.update ν v b) c) :
    v.literal (!b) ∈ c := by
  by_contra hl
  have hf : ∀ l ∈ c, l.var ≠ v ∧ ν l.var ≠ l.positive := by
    intro l hm
    have := Valuation.not_satisfies_update hn hm
    exact this.resolve_left fun e => hl (e ▸ hm)
  have hw' : ∀ w ∈ c.vars, w ∈ vs := by
    intro w hm
    have ⟨l, hl, hv⟩ := Clause.exists_literal_of_mem_vars hm
    exact (List.mem_cons.mp (hw w hm)).resolve_left (hv ▸ (hf l hl).left)
  have ⟨l, hl, hv⟩ := h c hc hw'
  exact (hf l hl).right hv

-- If both values of `v` fail a clause, then what remains of the two clauses without `v` is a
-- resolvent that the valuation fails already.
theorem exists_update (hs : Saturated cs) (h : SatisfiesWithin cs ν vs) :
    ∃ b, SatisfiesWithin cs (Function.update ν v b) (v :: vs) := by
  by_contra hn
  simp only [SatisfiesWithin, not_exists, not_forall] at hn
  have ⟨c, hc, hcw, hcn⟩ := hn true
  have ⟨d, hd, hdw, hdn⟩ := hn false
  have hvc := literal_mem_of_not_satisfies h hc hcw hcn
  have hvd := literal_mem_of_not_satisfies h hd hdw hdn
  let r := c.resolveOn d v.negative
  have hf : ∀ l ∈ r, (l.var ≠ v ∧ ν l.var ≠ l.positive) ∧ (l ∈ c ∨ l ∈ d) := by
    intro l hl
    cases Clause.mem_resolveOn.mp hl
    case inl hl =>
      have := Valuation.not_satisfies_update hcn hl.left
      exact ⟨this.resolve_left hl.right, .inl hl.left⟩
    case inr hl =>
      have := Valuation.not_satisfies_update hdn hl.left
      exact ⟨this.resolve_left hl.right, .inr hl.left⟩
  have ht : ¬r.isTautology := by
    rw [Clause.isTautology_iff]
    intro ⟨l, hl, hl'⟩
    have hv := (hf l hl).left.right
    have hv' := (hf l.negate hl').left.right
    exact hv' (Bool.eq_not_of_ne hv)
  have hr : r ∈ cs := by
    apply hs c hc d hd r
    exact Clause.resolve_eq_clause.mpr ⟨⟨v.negative, hvc, hvd, rfl⟩, ht⟩
  have hrw : ∀ w ∈ r.vars, w ∈ vs := by
    intro w hw
    have ⟨l, hl, hv⟩ := Clause.exists_literal_of_mem_vars hw
    have ⟨hne, hm⟩ := hf l hl
    have hm : w ∈ v :: vs := hm.elim
      (fun hm => hcw w (hv ▸ Clause.var_mem_vars hm)) (fun hm => hdw w (hv ▸ Clause.var_mem_vars hm))
    exact (List.mem_cons.mp hm).resolve_left (hv ▸ hne.left)
  have ⟨l, hl, hv⟩ := h r hr hrw
  exact (hf l hl).left.right hv

theorem exists_satisfiesWithin (hs : Saturated cs) (he : ∅ ∉ cs) (vs : List Var) :
    ∃ ν, SatisfiesWithin cs ν vs := by
  induction vs
  case nil =>
    refine ⟨fun _ => true, fun c hc hw => ?_⟩
    have : c = ∅ := by
      apply Clause.ext_literal
      intro l
      exact iff_of_false (fun hl => nomatch hw l.var (Clause.var_mem_vars hl)) (Clause.not_mem_empty l)
    exact absurd (this ▸ hc) he
  case cons v vs hi =>
    have ⟨ν, h⟩ := hi
    have ⟨b, h⟩ := hs.exists_update (v := v) h
    exact ⟨_, h⟩

theorem satisfiable (hs : Saturated cs) (he : ∅ ∉ cs) : ∃ ν : Valuation, ∀ c ∈ cs, ν.Satisfies c := by
  have ⟨ν, h⟩ := hs.exists_satisfiesWithin he (clauseVars cs).toList
  exact ⟨ν, fun c hc => h c hc fun v hv => mem_clauseVars.mpr ⟨c, hc, hv⟩⟩

end Saturated
end Sentential
