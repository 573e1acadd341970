import Sentential.Proofs.Evaluation
import Sentential.TruthTable

namespace Sentential.TruthTable

variable {premise query : Sentence} {v : Var} {vs : List Var} {m : Model}

-- A stage of the enumeration: the variables still to come are all those without a value.
structure Stage (premise query : Sentence) (vs : List Var) (m : Model) : Prop where
  nodup : vs.Nodup
  free : ∀ v ∈ vs, m.value v = none
  covered : ∀ v ∈ premise.vars.union query.vars, v ∈ vs ∨ m.value v ≠ none

namespace Stage

theorem start (premise query : Sentence) :
    Stage premise query (premise.vars.union query.vars).toList ∅ where
  nodup := (premise.vars.union query.vars).sorted.imp Var.ne_of_lt
  free _ _ := rfl
  covered _ hv := .inl hv

theorem extend (h : Stage premise query (v :: vs) m) (b : Bool) :
    Stage premise query vs (m.extend v b) where
  nodup := h.nodup.of_cons
  free w hw := by
    have hne : w ≠ v := fun e => (List.nodup_cons.mp h.nodup).left (e ▸ hw)
    simpa [hne] using h.free w (List.mem_cons_of_mem v hw)
  covered w hw := by
    by_cases he : w = v
    case pos => simp [he]
    case neg => simpa [he] using h.covered w hw

-- At a leaf the model says of both sentences what any valuation that extends it says.
theorem eval_eq_holds (h : Stage premise query [] m) {ν : Valuation} (he : ν.Extends m) :
    m.eval premise = some (ν.holds premise) ∧ m.eval query = some (ν.holds query) := by
  have hv : ∀ v ∈ premise.vars.union query.vars, m.value v = some (ν v) := by
    intro v hv
    have hn := (h.covered v hv).resolve_left List.not_mem_nil
    have ⟨b, hb⟩ := Option.ne_none_iff_exists'.mp hn
    rw [hb, he v b hb]
  constructor
  case left => exact Valuation.eval_eq_holds fun v hm => hv v (VarSet.mem_union.mpr (.inl hm))
  case right => exact Valuation.eval_eq_holds fun v hm => hv v (VarSet.mem_union.mpr (.inr hm))

end Stage

theorem holdsThroughout_iff (h : Stage premise query vs m) : holdsThroughout premise query vs m ↔
    ∀ ν : Valuation, ν.Extends m → ν.holds premise → ν.holds query := by
  induction vs generalizing m
  case nil =>
    have hleaf : ∀ ν : Valuation, ν.Extends m →
        (holdsThroughout premise query [] m ↔ (ν.holds premise → ν.holds query)) := by
      intro ν he
      have ⟨hp, hq⟩ := h.eval_eq_holds he
      cases hv : ν.holds premise <;> simp [holdsThroughout, hp, hq, hv]
    constructor
    case mp => exact fun ht ν he => (hleaf ν he).mp ht
    case mpr =>
      -- Some valuation extends the model, so the leaf is not left out.
      intro ha
      have he := Valuation.complete_extends m
      exact (hleaf _ he).mpr (ha _ he)
  case cons v vs hi =>
    have hf := h.free v List.mem_cons_self
    rw [holdsThroughout, Bool.and_eq_true, hi (h.extend true), hi (h.extend false)]
    simp only [Valuation.extends_extend hf]
    constructor
    case mp =>
      intro ⟨ht, hf⟩ ν he
      cases hv : ν v
      case true => exact ht ν ⟨hv, he⟩
      case false => exact hf ν ⟨hv, he⟩
    case mpr => exact fun ha => ⟨fun ν he => ha ν he.right, fun ν he => ha ν he.right⟩

theorem entails_iff : (entails premise query).value ↔
    ∀ ν : Valuation, ν.holds premise → ν.holds query := by
  have h := holdsThroughout_iff (Stage.start premise query)
  exact h.trans <| forall_congr' fun ν => imp_iff_right ν.extends_empty

end Sentential.TruthTable
