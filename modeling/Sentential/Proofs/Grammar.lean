import Sentential.Grammar

namespace Sentential

theorem Connective.token_inj {k k' : Connective} (h : k.token = k'.token) : k = k' := by
  cases k <;> cases k' <;> first | rfl | exact nomatch h

theorem Connective.mem_vars_join {k : Connective} {l r : Sentence} {v : Var} :
    v ∈ (k.join l r).vars ↔ v ∈ l.vars ∨ v ∈ r.vars := by
  cases k <;> exact VarSet.mem_union

-- Induction over sentences, with one case for all connectives.
@[elab_as_elim]
theorem Sentence.induction_join {P : Sentence → Prop} (truth : P .truth) (falsity : P .falsity)
    (var : ∀ v, P (.var v)) (not : ∀ s, P s → P (.not s))
    (join : ∀ (k : Connective) l r, P l → P r → P (k.join l r)) (s : Sentence) : P s := by
  induction s
  case truth => exact truth
  case falsity => exact falsity
  case var v => exact var v
  case not s hi => exact not s hi
  case and l r hl hr => exact join .and l r hl hr
  case or l r hl hr => exact join .or l r hl hr
  case implies l r hl hr => exact join .implies l r hl hr
  case iff l r hl hr => exact join .iff l r hl hr

namespace Grammar

variable {ts us xs ys : List Token} {t : Token} {l r s s' : Sentence} {v : Var}

theorem joins_iff : Joins t l r s ↔ ∃ k : Connective, t = k.token ∧ s = k.join l r := by
  constructor
  case mp =>
    intro h
    cases h
    case and => exact ⟨.and, rfl, rfl⟩
    case or => exact ⟨.or, rfl, rfl⟩
    case implies => exact ⟨.implies, rfl, rfl⟩
    case iff => exact ⟨.iff, rfl, rfl⟩
  case mpr =>
    rintro ⟨k, rfl, rfl⟩
    cases k <;> constructor

theorem IsSentence.join (k : Connective) (ho : IsOperand ts l) (h : IsSentence us r) :
    IsSentence (ts ++ k.token :: us) (k.join l r) :=
  .joined ho (joins_iff.mpr ⟨k, rfl, rfl⟩) h

-- No connective comes next.
def Stops (ts : List Token) : Prop :=
  ∀ k : Connective, ts.head? ≠ some k.token

theorem stops_rightParen (ts : List Token) : Stops (.rightParen :: ts) := by
  intro k
  cases k <;> simp [Connective.token]

theorem IsOperand.exists_cons (h : IsOperand ts s) : ∃ t us, ts = t :: us ∧ t ≠ .not := by
  cases h
  all_goals exact ⟨_, _, rfl, nofun⟩

theorem IsOperand.append_ne_not (h : IsOperand ts s) : ts ++ xs ≠ .not :: ys := by
  have ⟨_, _, he, hn⟩ := h.exists_cons
  rw [he]
  exact fun e => hn (List.cons.inj e).left

mutual

-- Of all beginnings of a list of tokens, one at most is a sentence that no connective follows.
theorem IsSentence.eq_of_append {ts us xs ys : List Token} {s s' : Sentence} :
    IsSentence ts s → IsSentence us s' → ts ++ xs = us ++ ys → Stops xs → Stops ys →
      ts = us ∧ s = s'
  | .not h, .not h', he, hx, hy =>
    have ⟨ht, hs⟩ := h.eq_of_append h' (List.cons.inj he).right hx hy
    ⟨ht ▸ rfl, hs ▸ rfl⟩
  | .not _, .operand h', he, _, _ => absurd he.symm h'.append_ne_not
  | .not _, .joined h' _ _, he, _, _ =>
    absurd ((List.append_assoc ..).symm.trans he.symm) h'.append_ne_not
  | .operand h, .not _, he, _, _ => absurd he h.append_ne_not
  | .operand h, .operand h', he, _, _ => h.eq_of_append h' he
  | .operand h, .joined h' hj _, he, hx, _ => by
    obtain ⟨k, rfl, rfl⟩ := joins_iff.mp hj
    rw [List.append_assoc] at he
    cases (h.eq_of_append h' he).left
    exact absurd (List.append_cancel_left he ▸ rfl) (hx k)
  | .joined h _ _, .not _, he, _, _ =>
    absurd ((List.append_assoc ..).symm.trans he) h.append_ne_not
  | .joined h hj _, .operand h', he, _, hy => by
    obtain ⟨k, rfl, rfl⟩ := joins_iff.mp hj
    rw [List.append_assoc] at he
    cases (h.eq_of_append h' he).left
    exact absurd (List.append_cancel_left he ▸ rfl) (hy k)
  | .joined h₁ hj h₂, .joined h₁' hj' h₂', he, hx, hy => by
    obtain ⟨k, rfl, rfl⟩ := joins_iff.mp hj
    obtain ⟨k', rfl, rfl⟩ := joins_iff.mp hj'
    rw [List.append_assoc, List.append_assoc] at he
    have ⟨ht, hl⟩ := h₁.eq_of_append h₁' he
    subst ht hl
    have ⟨hk, he⟩ := List.cons.inj (List.append_cancel_left he)
    have ⟨ht, hr⟩ := h₂.eq_of_append h₂' he hx hy
    cases Connective.token_inj hk
    exact ⟨ht ▸ rfl, hr ▸ rfl⟩

theorem IsOperand.eq_of_append {ts us xs ys : List Token} {s s' : Sentence} :
    IsOperand ts s → IsOperand us s' → ts ++ xs = us ++ ys → ts = us ∧ s = s'
  | .truth, h', he => by cases h' <;> simp_all
  | .falsity, h', he => by cases h' <;> simp_all
  | .name n, h', he => by cases h' <;> simp_all
  | .parens h, .parens h', he => by
    simp only [List.cons_append, List.append_assoc, List.cons.injEq, true_and] at he
    have ⟨ht, hs⟩ := h.eq_of_append h' he (stops_rightParen _) (stops_rightParen _)
    exact ⟨ht ▸ rfl, hs⟩
  | .parens _, .truth, he | .parens _, .falsity, he | .parens _, .name _, he =>
    nomatch (List.cons.inj he).left

end

theorem IsSentence.unique (h : IsSentence ts s) (h' : IsSentence ts s') : s = s' :=
  have he : ts ++ [] = ts ++ [] := rfl
  (h.eq_of_append h' he nofun nofun).right

mutual

theorem IsSentence.name_mem {ts : List Token} {s : Sentence} {v : Var} :
    IsSentence ts s → v ∈ s.vars → .name v.name ∈ ts
  | .not h, hv => List.mem_cons_of_mem _ (h.name_mem hv)
  | .operand h, hv => h.name_mem hv
  | .joined h₁ hj h₂, hv => by
    obtain ⟨k, rfl, rfl⟩ := joins_iff.mp hj
    cases Connective.mem_vars_join.mp hv
    case inl hv => exact List.mem_append_left _ (h₁.name_mem hv)
    case inr hv => exact List.mem_append_right _ (List.mem_cons_of_mem _ (h₂.name_mem hv))

theorem IsOperand.name_mem {ts : List Token} {s : Sentence} {v : Var} :
    IsOperand ts s → v ∈ s.vars → .name v.name ∈ ts
  | .truth, hv | .falsity, hv => absurd hv (VarSet.not_mem_empty v)
  | .name n, hv => by simp_all [Sentence.vars]
  | .parens h, hv => by simp [h.name_mem hv]

end

end Grammar
end Sentential
