import Sentential.Horn.Basic
import Sentential.NormalForm.Basic
import Sentential.Proofs.Evaluation

namespace Sentential

namespace Sentence

-- A tree of conjunctions with variables at its leaves.
inductive IsVarTree : Sentence → Prop
  | var (v : Var) : IsVarTree (.var v)
  | and {l r} : IsVarTree l → IsVarTree r → IsVarTree (.and l r)

-- A variable, or the implication of a variable by a conjunction of variables.
inductive IsHorn : Sentence → Prop
  | fact (v : Var) : IsHorn (.var v)
  | rule {s} (v : Var) : IsVarTree s → IsHorn (.implies s (.var v))

-- The leaves of such a tree are its conjuncts.
theorem isVarTree_iff {s : Sentence} : s.IsVarTree ↔ ∃ vs : List Var, s.conjuncts = vs.map .var := by
  induction s
  case var v => exact iff_of_true (.var v) ⟨[v], rfl⟩
  case and l r hl hr =>
    constructor
    case mp =>
      intro h
      cases h
      case and h₁ h₂ =>
        obtain ⟨us, hu⟩ := hl.mp h₁
        obtain ⟨ws, hw⟩ := hr.mp h₂
        exact ⟨us ++ ws, by rw [conjuncts, hu, hw, List.map_append]⟩
    case mpr =>
      rintro ⟨vs, h⟩
      obtain ⟨us, ws, _, hu, hw⟩ := List.append_eq_map_iff.mp h
      exact .and (hl.mpr ⟨us, hu.symm⟩) (hr.mpr ⟨ws, hw.symm⟩)
  all_goals
    refine iff_of_false (fun h => nomatch h) ?_
    rintro ⟨vs, h⟩
    obtain ⟨v, _, hv⟩ := List.map_eq_singleton_iff.mp h.symm
    cases hv

end Sentence

-- The head is true if all premises are.
def Valuation.Respects (ν : Valuation) (c : HornClause) : Prop :=
  (∀ v ∈ c.premises, ν v) → ν c.head

namespace HornClause

open Sentence

variable {s : Sentence} {ss before after : List Sentence} {c : HornClause} {v : Var} {vs : List Var}
  {ν : Valuation}

-- The collector goes on to the end just if all leaves are variables, and then has added all of them.

theorem isVarTree_of_addPremises (h : (c.addPremises s).1) : s.IsVarTree := by
  induction s generalizing c
  case var v => exact .var v
  case and l r hl hr =>
    rw [addPremises] at h
    split at h
    case h_1 hc => exact .and (hl (congrArg Prod.fst hc)) (hr h)
    case h_2 => cases h
  all_goals cases h

theorem addPremises_of_conjuncts (h : s.conjuncts = vs.map .var) :
    c.addPremises s = (true, vs.foldl addPremise c) := by
  induction s generalizing c vs
  case and l r hl hr =>
    obtain ⟨us, ws, rfl, hu, hw⟩ := List.append_eq_map_iff.mp h
    rw [addPremises, hl hu.symm, List.foldl_append]
    exact hr hw.symm
  all_goals
    obtain ⟨v, rfl, hv⟩ := List.map_eq_singleton_iff.mp h.symm
    cases hv
  case var => rfl

theorem ofSentence?_of_conjuncts (h : s.conjuncts = vs.map .var) :
    ofSentence? (.implies s (.var v)) = some (new v vs) := by
  rw [ofSentence?, addPremises_of_conjuncts h]
  rfl

-- The shape of what was read, and what became of its parts.
theorem ofSentence?_cases (h : ofSentence? s = some c) :
    (s = .var c.head ∧ c.premises = []) ∨
      ∃ (a : Sentence) (vs : List Var),
        s = .implies a (.var c.head) ∧ a.conjuncts = vs.map .var ∧ c.premises = vs.eraseDups := by
  unfold ofSentence? at h
  split at h
  case h_1 v =>
    cases h
    exact .inl ⟨rfl, rfl⟩
  case h_2 a v =>
    split at h
    case h_1 hc =>
      obtain ⟨vs, hv⟩ := isVarTree_iff.mp <| isVarTree_of_addPremises (congrArg Prod.fst hc)
      cases h
      have hn : new v vs = c := congrArg Prod.snd <| (addPremises_of_conjuncts hv).symm.trans hc
      exact .inr ⟨a, vs, by rw [← hn, head_new], hv, by rw [← hn, premises_new]⟩
    case h_2 => cases h
  case h_3 => cases h

theorem isSome_ofSentence? : (ofSentence? s).isSome ↔ s.IsHorn := by
  constructor
  case mp =>
    intro h
    obtain ⟨c, hc⟩ := Option.isSome_iff_exists.mp h
    obtain ⟨hs, _⟩ | ⟨a, vs, hs, hv, _⟩ := ofSentence?_cases hc
    · exact hs ▸ .fact c.head
    · exact hs ▸ .rule c.head (isVarTree_iff.mpr ⟨vs, hv⟩)
  case mpr =>
    intro h
    cases h
    case fact v => rfl
    case rule a v ha =>
      obtain ⟨vs, hv⟩ := isVarTree_iff.mp ha
      rw [ofSentence?_of_conjuncts hv, Option.isSome_some]

instance (s : Sentence) : Decidable s.IsHorn :=
  decidable_of_iff _ isSome_ofSentence?

theorem holds_iff_of_conjuncts (h : s.conjuncts = vs.map .var) : ν.holds s ↔ ∀ v ∈ vs, ν v := by
  induction s generalizing vs
  case and l r hl hr =>
    obtain ⟨us, ws, rfl, hu, hw⟩ := List.append_eq_map_iff.mp h
    rw [Valuation.holds, Bool.and_eq_true, hl hu.symm, hr hw.symm, List.forall_mem_append]
  all_goals
    obtain ⟨v, rfl, hv⟩ := List.map_eq_singleton_iff.mp h.symm
    cases hv
  case var => rw [List.forall_mem_singleton, Valuation.holds]

theorem holds_iff_respects (h : ofSentence? s = some c) : ν.holds s ↔ ν.Respects c := by
  obtain ⟨hs, hp⟩ | ⟨a, vs, hs, hv, hp⟩ := ofSentence?_cases h
  case inl => simp [hs, Valuation.holds, Valuation.Respects, hp]
  case inr =>
    simp only [hs, Valuation.Respects, hp, List.mem_eraseDups]
    rw [← holds_iff_of_conjuncts hv]
    cases hl : ν.holds a <;> simp [Valuation.holds, hl]

theorem ofSentence_eq_ok : ofSentence s = .ok c ↔ ofSentence? s = some c := by
  unfold ofSentence
  split
  case h_1 d hd => rw [hd, Except.ok.injEq, Option.some.injEq]
  case h_2 hn =>
    rw [hn]
    exact iff_of_false nofun nofun

theorem ofSentence_of_not_isHorn (h : ¬s.IsHorn) : ofSentence s = .error ⟨s⟩ := by
  have : ofSentence? s = none := by
    rw [← Option.not_isSome_iff_eq_none, isSome_ofSentence?]
    exact h
  rw [ofSentence, this]

theorem ofSentence_of_isHorn (h : s.IsHorn) :
    ∃ c, ofSentence s = .ok c ∧ ∀ ν : Valuation, ν.holds s ↔ ν.Respects c := by
  have ⟨c, hc⟩ := Option.isSome_iff_exists.mp (isSome_ofSentence?.mpr h)
  exact ⟨c, by rw [ofSentence, hc], fun ν => holds_iff_respects hc⟩

theorem mapM_ofSentence (h : ∀ s ∈ ss, s.IsHorn) : ∃ cs, ss.mapM ofSentence = .ok cs ∧
    ∀ ν : Valuation, (∀ s ∈ ss, ν.holds s) ↔ ∀ c ∈ cs, ν.Respects c := by
  induction ss
  case nil => exact ⟨[], rfl, by simp⟩
  case cons s ss hi =>
    have ⟨c, hc, hν⟩ := ofSentence_of_isHorn (h s List.mem_cons_self)
    have ⟨cs, hcs, hνs⟩ := hi fun t ht => h t (List.mem_cons_of_mem s ht)
    refine ⟨c :: cs, ?_, fun ν => ?_⟩
    · rw [List.mapM_cons, hc, hcs]
      rfl
    · rw [List.forall_mem_cons, List.forall_mem_cons, hν, hνs]

theorem mapM_ofSentence_error (h : ∀ t ∈ before, t.IsHorn) (hs : ¬s.IsHorn) :
    (before ++ s :: after).mapM ofSentence = .error ⟨s⟩ := by
  induction before
  case nil =>
    rw [List.nil_append, List.mapM_cons, ofSentence_of_not_isHorn hs]
    rfl
  case cons t ts hi =>
    have ⟨c, hc, _⟩ := ofSentence_of_isHorn (h t List.mem_cons_self)
    rw [List.cons_append, List.mapM_cons, hc, hi fun u hu => h u (List.mem_cons_of_mem t hu)]
    rfl

-- Just the sentences of the shape are read. The head of the clause is the variable that is implied, and its
-- premises are the leaves of the tree from left to right, each one at its first mention. The clause is true
-- where the sentence is. Of a sentence of another shape, only its own text is reported, whatever leaves
-- were collected before that came out.
theorem ofSentence_collects_leaves (s : Sentence) :
    ((∃ c, ofSentence s = .ok c) ↔ s.IsHorn) ∧
    (∀ c, ofSentence s = .ok c →
      ((s = .var c.head ∧ c.premises = []) ∨
        ∃ (a : Sentence) (vs : List Var),
          s = .implies a (.var c.head) ∧ a.conjuncts = vs.map .var ∧ c.premises = vs.eraseDups) ∧
      c.premises.Nodup ∧
      ∀ ν : Valuation, ν.holds s ↔ ν.Respects c) ∧
    (¬s.IsHorn → ∃ e, ofSentence s = .error e ∧ e = ⟨s⟩ ∧
      e.message = "Sentence is not a Horn clause: " ++ s.text) := by
  refine ⟨?_, fun c hc => ?_, fun h => ⟨_, ofSentence_of_not_isHorn h, rfl, rfl⟩⟩
  · rw [← isSome_ofSentence?, Option.isSome_iff_exists]
    exact exists_congr fun _ => ofSentence_eq_ok
  · have hc := ofSentence_eq_ok.mp hc
    exact ⟨ofSentence?_cases hc, c.nodup, fun _ => holds_iff_respects hc⟩

-- In the first sentence `B` is a leaf twice. In the second one, two leaves are collected before the third
-- turns out to be no variable.
theorem ofSentence_collects_leaves_twice :
    let a := Sentence.var ⟨"A"⟩
    let b := Sentence.var ⟨"B"⟩
    let c := Sentence.var ⟨"C"⟩
    let s := Sentence.implies (.and (.and a b) (.and c b)) (.var ⟨"D"⟩)
    let t := Sentence.implies (.and (.and a b) (.not c)) (.var ⟨"D"⟩)
    (∃ h, ofSentence s = .ok h ∧ h.premises = [⟨"A"⟩, ⟨"B"⟩, ⟨"C"⟩] ∧
      ∀ ν : Valuation, ν.holds s ↔ ν.Respects h) ∧
    ¬t.IsHorn ∧ ((new ⟨"D"⟩ []).addPremises (.and (.and a b) (.not c))).2.premises = [⟨"A"⟩, ⟨"B"⟩] ∧
    ∃ e, ofSentence t = .error e ∧
      e.message = "Sentence is not a Horn clause: (((A AND B) AND (NOT C)) => D)" := by
  intro a b c s t
  have hs : s.IsHorn := by decide
  have ht : ¬t.IsHorn := by decide
  obtain ⟨h, hh⟩ := (ofSentence_collects_leaves s).left.mpr hs
  obtain ⟨_, _, hν⟩ := (ofSentence_collects_leaves s).right.left h hh
  obtain ⟨e, he, _, hm⟩ := (ofSentence_collects_leaves t).right.right ht
  have hp : h.premises = [⟨"A"⟩, ⟨"B"⟩, ⟨"C"⟩] := by
    cases hh
    decide
  exact ⟨⟨h, hh, hp, hν⟩, ht, by decide, e, he, hm⟩

end HornClause
end Sentential
