import Sentential.Proofs.Kleene
import Sentential.Valuation

namespace Sentential

namespace Model

variable {m n : Model} {l : Literal} {s : Sentence} {c : Clause} {v : Var} {b : Bool}

theorem literalValue_eq_none : m.literalValue l = none ↔ m.value l.var = none := by
  simp [literalValue]

theorem literalValue_eq_true : m.literalValue l = some true ↔ m.value l.var = some l.positive := by
  simp [literalValue]

theorem literalValue_eq_false : m.literalValue l = some false ↔ m.value l.var = some !l.positive := by
  rw [literalValue]
  cases m.value l.var
  case none => simp
  case some b => cases b <;> cases l.positive <;> simp

-- Leaving the loop early changes nothing, as one true literal settles the disjunction.
theorem seekTrue_eq_or {a : Option Bool} (ls : List Literal) (ha : a ≠ some true) :
    m.seekTrue a ls = Kleene.or a (Kleene.any (ls.map m.literalValue)) := by
  induction ls generalizing a
  case nil => simp [seekTrue, Kleene.or_false]
  case cons l ls hi =>
    rw [seekTrue, List.map_cons, Kleene.any_cons]
    split
    case h_1 h => exact (Kleene.or_eq_true.mpr <| .inr <| Kleene.or_eq_true.mpr <| .inl h).symm
    case h_2 h => rw [h, hi ha, Kleene.false_or]
    case h_3 h => rw [h, hi (Option.some_ne_none true).symm, Kleene.or_none_or ha]

theorem clauseValue_eq_any (m : Model) (c : Clause) :
    m.clauseValue c = Kleene.any (c.literals.map m.literalValue) := by
  rw [clauseValue, seekTrue_eq_or c.literals (by simp), Kleene.false_or]

theorem clauseValue_eq_true :
    m.clauseValue c = some true ↔ ∃ l ∈ c, m.value l.var = some l.positive := by
  simp [clauseValue_eq_any, Kleene.any_eq_true, literalValue_eq_true]

theorem clauseValue_eq_false :
    m.clauseValue c = some false ↔ ∀ l ∈ c, m.value l.var = some !l.positive := by
  simp [clauseValue_eq_any, Kleene.any_eq_false, literalValue_eq_false]

-- An open clause has no true literal, but one whose variable has no value.
theorem clauseValue_eq_none : m.clauseValue c = none ↔
    (∀ l ∈ c, m.value l.var ≠ some l.positive) ∧ (∃ l ∈ c, m.value l.var = none) := by
  constructor
  case mp =>
    intro h
    have ht : ∀ l ∈ c, m.value l.var ≠ some l.positive := by
      intro l hl hv
      have := clauseValue_eq_true.mpr ⟨l, hl, hv⟩
      simp [h] at this
    refine ⟨ht, ?_⟩
    -- If all variables had values, all literals would be false, and the clause with them.
    by_contra hc
    have hf : m.clauseValue c = some false := by
      rw [clauseValue_eq_false]
      intro l hl
      cases hv : m.value l.var
      case none => exact absurd ⟨l, hl, hv⟩ hc
      case some b =>
        have := ht l hl
        cases b <;> cases hp : l.positive <;> simp_all
    simp [h] at hf
  case mpr =>
    intro ⟨ht, l, hl, hn⟩
    cases hv : m.clauseValue c
    case none => rfl
    case some b =>
      cases b
      case true =>
        have ⟨k, hk, hkv⟩ := clauseValue_eq_true.mp hv
        exact absurd hkv (ht k hk)
      case false =>
        have := clauseValue_eq_false.mp hv l hl
        simp [hn] at this

-- The model has all the values of the other one.
def Extends (n m : Model) : Prop :=
  ∀ v b, m.value v = some b → n.value v = some b

-- Each connective is monotone in what is known of its operands.
theorem eval_refines (h : ∀ v ∈ s.vars, Kleene.Refines (m.value v) (n.value v)) :
    Kleene.Refines (m.eval s) (n.eval s) := by
  induction s
  case truth | falsity => exact .refl _
  case var v => exact h v (by simp [Sentence.vars])
  case not s hi => exact (hi h).not
  case and l r hl hr =>
    have h := VarSet.forall_mem_union.mp h
    exact (hl h.left).and (hr h.right)
  case or l r hl hr =>
    have h := VarSet.forall_mem_union.mp h
    exact (hl h.left).or (hr h.right)
  case implies l r hl hr =>
    have h := VarSet.forall_mem_union.mp h
    exact (hl h.left).implies (hr h.right)
  case iff l r hl hr =>
    have h := VarSet.forall_mem_union.mp h
    exact (hl h.left).iff (hr h.right)

theorem clauseValue_refines (h : ∀ v ∈ c.vars, Kleene.Refines (m.value v) (n.value v)) :
    Kleene.Refines (m.clauseValue c) (n.clauseValue c) := by
  intro b hb
  cases b
  case false =>
    rw [clauseValue_eq_false] at hb ⊢
    exact fun l hl => h l.var (Clause.var_mem_vars hl) _ (hb l hl)
  case true =>
    rw [clauseValue_eq_true] at hb ⊢
    obtain ⟨l, hl, hv⟩ := hb
    exact ⟨l, hl, h l.var (Clause.var_mem_vars hl) _ hv⟩

theorem value_foldl_extend {vs : List Var} {ν : Valuation} :
    ((vs.map fun w => (w, ν w)).foldl (fun m e => m.extend e.1 e.2) m).value v =
      if v ∈ vs then some (ν v) else m.value v := by
  induction vs generalizing m
  case nil => simp
  case cons w ws hi =>
    rw [List.map_cons, List.foldl_cons, hi, value_extend]
    by_cases hw : v ∈ ws
    case pos => simp [hw]
    case neg =>
      by_cases he : v = w
      case pos => simp [he]
      case neg => simp [hw, he]

end Model

namespace Valuation

variable {ν : Valuation} {m : Model} {s : Sentence} {c : Clause} {v : Var} {b : Bool}

theorem extends_empty (ν : Valuation) : ν.Extends ∅ :=
  fun _ _ h => nomatch h

-- Whatever the model leaves open is made false.
def complete (m : Model) : Valuation :=
  fun v => (m.value v).getD false

theorem complete_extends (m : Model) : (complete m).Extends m := by
  intro v b h
  simp [complete, h]

theorem extends_extend (h : m.value v = none) : ν.Extends (m.extend v b) ↔ ν v = b ∧ ν.Extends m := by
  constructor
  case mp =>
    intro he
    refine ⟨he v b (by simp), fun w x hw => he w x ?_⟩
    have hne : w ≠ v := fun e => by simp [e, h] at hw
    simpa [hne] using hw
  case mpr =>
    intro ⟨hv, he⟩ w x hw
    rw [Model.value_extend] at hw
    split at hw
    case isTrue e => exact e ▸ hv.trans (Option.some.inj hw)
    case isFalse => exact he w x hw

theorem eval_eq_holds (h : ∀ v ∈ s.vars, m.value v = some (ν v)) : m.eval s = some (ν.holds s) := by
  induction s
  case truth | falsity => rfl
  case var v => exact h v (by simp [Sentence.vars])
  case not s hi => rw [Model.eval, hi h, Kleene.not_some, holds]
  all_goals
    rename_i l r hl hr
    have h := VarSet.forall_mem_union.mp h
    simp [Model.eval, holds, hl h.left, hr h.right, Kleene.iff]

theorem clauseValue_eq_true_iff (h : ∀ v ∈ c.vars, m.value v = some (ν v)) :
    m.clauseValue c = some true ↔ ν.Satisfies c := by
  rw [Model.clauseValue_eq_true, Satisfies]
  apply exists_congr
  intro l
  apply and_congr_right
  intro hl
  rw [h l.var (Clause.var_mem_vars hl), Option.some.injEq]

theorem exists_clauseValue_eq (h : ∀ v ∈ c.vars, m.value v = some (ν v)) :
    ∃ b, m.clauseValue c = some b ∧ (ν.Satisfies c ↔ b = true) := by
  cases hv : m.clauseValue c
  case none =>
    have ⟨_, l, hl, hn⟩ := Model.clauseValue_eq_none.mp hv
    cases hn.symm.trans (h l.var (Clause.var_mem_vars hl))
  case some b => exact ⟨b, rfl, by rw [← clauseValue_eq_true_iff h, hv, Option.some.injEq]⟩

-- The valuation, cut down to a model of the given variables.
def restrict (ν : Valuation) (vs : VarSet) : Model :=
  .ofList (vs.toList.map fun v => (v, ν v))

@[simp]
theorem value_restrict {vs : VarSet} :
    (ν.restrict vs).value v = if v ∈ vs then some (ν v) else none :=
  Model.value_foldl_extend

end Valuation

-- How far a value under models tells the truth under valuations, both being about the given variables.
structure Approximates (value : Model → Option Bool) (truth : Valuation → Prop) (vars : VarSet) :
    Prop where
  -- More values keep what is known.
  mono : ∀ m n : Model, n.Extends m → ∀ b, value m = some b → value n = some b
  -- Where all variables have values, the truth is known.
  total : ∀ m : Model, (∀ v ∈ vars, m.value v ≠ none) →
    ∃ b, value m = some b ∧ ∀ ν : Valuation, ν.Extends m → (truth ν ↔ b = true)
  -- No other variable counts.
  congr : ∀ m n : Model, (∀ v ∈ vars, m.value v = n.value v) → value m = value n
  -- What is known is the truth, whatever values the model is completed with.
  sound : ∀ m b, value m = some b → ∀ ν : Valuation, ν.Extends m → (truth ν ↔ b = true)

namespace Approximates

open Kleene (Refines)

variable {value : Model → Option Bool} {truth : Valuation → Prop} {vars : VarSet}

-- More values keep what is known, and where all is known it is the truth. The rest follows from that.
theorem of_refines
    (hr : ∀ m n : Model, (∀ v ∈ vars, Refines (m.value v) (n.value v)) → Refines (value m) (value n))
    (ht : ∀ (m : Model) (ν : Valuation), (∀ v ∈ vars, m.value v = some (ν v)) →
      ∃ b, value m = some b ∧ (truth ν ↔ b = true)) :
    Approximates value truth vars := by
  -- The part of the valuation that matters is a model that knows all that `m` knows.
  have hs : ∀ m b, value m = some b → ∀ ν : Valuation, ν.Extends m → (truth ν ↔ b = true) := by
    intro m b hb ν he
    have hm : ∀ v ∈ vars, (ν.restrict vars).value v = some (ν v) := fun v hv => by simp [hv]
    obtain ⟨x, hx, hν⟩ := ht _ ν hm
    have hb := hr m (ν.restrict vars) (fun v hv y hy => by rw [hm v hv, he v y hy]) b hb
    rw [hν, Option.some.inj (hx.symm.trans hb)]
  constructor
  case mono => exact fun m n he => hr m n fun v _ => he v
  case total =>
    intro m hm
    have hc : ∀ v ∈ vars, m.value v = some (Valuation.complete m v) := by
      intro v hv
      obtain ⟨b, hb⟩ := Option.ne_none_iff_exists'.mp (hm v hv)
      rw [hb, Valuation.complete_extends m v b hb]
    obtain ⟨b, hb, _⟩ := ht m _ hc
    exact ⟨b, hb, hs m b hb⟩
  case congr =>
    intro m n h
    apply Refines.antisymm
    · exact hr m n fun v hv => h v hv ▸ .refl _
    · exact hr n m fun v hv => h v hv ▸ .refl _
  case sound => exact hs

theorem eval (s : Sentence) : Approximates (·.eval s) (·.holds s) s.vars :=
  of_refines (fun _ _ => Model.eval_refines)
    fun _ ν h => ⟨ν.holds s, Valuation.eval_eq_holds h, Iff.rfl⟩

theorem clauseValue (c : Clause) : Approximates (·.clauseValue c) (·.Satisfies c) c.vars :=
  of_refines (fun _ _ => Model.clauseValue_refines) fun _ _ => Valuation.exists_clauseValue_eq

end Approximates

namespace Valuation.Extends

variable {ν : Valuation} {m : Model} {s : Sentence} {c : Clause} {b : Bool}

theorem satisfies (he : ν.Extends m) (h : m.clauseValue c = some true) : ν.Satisfies c :=
  ((Approximates.clauseValue c).sound m true h ν he).mpr rfl

theorem not_satisfies (he : ν.Extends m) (h : m.clauseValue c = some false) : ¬ν.Satisfies c :=
  fun hs => Bool.false_ne_true <| ((Approximates.clauseValue c).sound m false h ν he).mp hs

theorem holds_eq (he : ν.Extends m) (h : m.eval s = some b) : ν.holds s = b :=
  Bool.eq_iff_iff.mpr <| (Approximates.eval s).sound m b h ν he

end Valuation.Extends

theorem Model.values_approximate (s : Sentence) (c : Clause) :
    Approximates (·.eval s) (·.holds s) s.vars ∧
      Approximates (·.clauseValue c) (·.Satisfies c) c.vars :=
  ⟨.eval s, .clauseValue c⟩

-- One true side settles the sentence and the clause, while `B` has no value yet.
theorem Model.values_approximate_either :
    let a : Var := ⟨"A"⟩
    let b : Var := ⟨"B"⟩
    let s := Sentence.implies (.not (.var a)) (.iff (.var a) (.var b))
    let c := Clause.ofLiterals [a.positive, b.negative]
    let m : Model := (∅ : Model).extend a true
    let n := m.extend b false
    n.Extends m ∧ m.eval s = some true ∧ n.eval s = some true ∧ n.clauseValue c = some true ∧
      ∀ ν : Valuation, ν a = true → ν.holds s ∧ ν.Satisfies c := by
  intro a b s c m n
  have ⟨hs, hc⟩ := Model.values_approximate s c
  have he : n.Extends m := by
    intro v x hv
    have hb : v ≠ b := by
      rintro rfl
      cases hv
    simpa [n, hb] using hv
  have hm : m.eval s = some true := rfl
  have hmc : m.clauseValue c = some true := rfl
  refine ⟨he, hm, hs.mono m n he true hm, hc.mono m n he true hmc, fun ν hν => ?_⟩
  have hνm : ν.Extends m := (Valuation.extends_extend (Model.value_empty a)).mpr
    ⟨hν, Valuation.extends_empty ν⟩
  exact ⟨(hs.sound m true hm ν hνm).mpr rfl, (hc.sound m true hmc ν hνm).mpr rfl⟩

end Sentential
