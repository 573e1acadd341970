import Sentential.Clause.Printer
import Sentential.Proofs.Horn
import Sentential.Proofs.NormalForm
import Sentential.Proofs.Printing

namespace Sentential

open Text Grammar

namespace Sentence

variable {s t : Sentence} {ss : List Sentence} {links : List (Connective × Sentence)}

-- The sentence that the chain is, given by its first operand and the connectives with those after them.
def chain (s : Sentence) : List (Connective × Sentence) → Sentence
  | [] => s
  | (k, t) :: links => k.join s (chain t links)

-- How the chain is written.
def chainText (s : Sentence) : List (Connective × Sentence) → String
  | [] => s.text
  | (k, t) :: links => s.text ++ " " ++ k.token.text ++ " " ++ chainText t links

theorem chainText_map (k : Connective) (s : Sentence) (ss : List Sentence) :
    chainText s (ss.map (k, ·)) = (" " ++ k.token.text ++ " ").intercalate ((s :: ss).map text) := by
  induction ss generalizing s
  case nil => simp [chainText]
  case cons t ss hi =>
    rw [List.map_cons, chainText, hi, List.map_cons, List.map_cons, List.map_cons,
      String.intercalate_cons_cons]
    simp only [String.append_assoc]

theorem chainText_concat (s : Sentence) (links : List (Connective × Sentence)) (k : Connective)
    (t : Sentence) :
    chainText s (links ++ [(k, t)]) = chainText s links ++ " " ++ k.token.text ++ " " ++ t.text := by
  induction links generalizing s
  case nil => rfl
  case cons link links hi => simp only [List.cons_append, chainText, hi, String.append_assoc]

-- The induction is on what follows the first operand, which is read as a sentence of its own.
theorem spells_chain (hs : s.ReadsBack) (hl : ∀ link ∈ links, link.2.ReadsBack) :
    ∃ ts, IsSentence ts (s.chain links) ∧ Spells (s.chainText links).toList ts [] := by
  induction links generalizing s
  case nil =>
    have ⟨ts, ho, hs⟩ := hs [] nofun
    exact ⟨ts, .operand ho, hs⟩
  case cons link links hi =>
    have ⟨ht, hl⟩ := List.forall_mem_cons.mp hl
    have ⟨us, hus, hsp⟩ := hi ht hl
    have ⟨ts, ho, hs⟩ := hs.before_connective link.1 hsp
    refine ⟨_, .join link.1 ho hus, ?_⟩
    simpa [chainText] using hs

theorem parse_chain (hs : s.ReadsBack) (hl : ∀ link ∈ links, link.2.ReadsBack) :
    parse (s.chainText links) = .ok (s.chain links) :=
  have ⟨_, h, hs⟩ := spells_chain hs hl
  parse_of_spells hs h

theorem readsBack_var {v : Var} (h : v.IsReadable) : (var v).ReadsBack :=
  readsBack fun w hw => by simp_all [vars]

theorem readsBack_ofLiteral {l : Literal} (h : l.var.IsReadable) : (ofLiteral l).ReadsBack := by
  obtain ⟨v, b⟩ := l
  cases b
  case false => exact (readsBack_var h).not
  case true => exact readsBack_var h

-- A tree of disjunctions is its own normal form, and one clause if no disjunct is the constant `truth`.
theorem clauses_of_disjuncts (h : ∀ d ∈ s.disjuncts, d.isPlain ∧ d ≠ truth) : s.clauses = [s.clause] := by
  have hd : s.isDisjunction := isDisjunction_of_disjuncts fun d hd => (h d hd).left
  have ht : truth ∉ s.disjuncts := fun ht => (h truth ht).right rfl
  have hc : s.conjuncts = [s] := by
    apply conjuncts_of_ne
    rintro l r rfl
    cases hd
  rw [clauses_eq, distinctConjuncts_eq, cnf_of_isDisjunction hd, hc]
  simp [ht, List.eraseDups_cons]

-- The literals joined by `or`, which for no literals is the constant false sentence.
def disjunction : List Literal → Sentence
  | [] => falsity
  | l :: ls => (ofLiteral l).chain (ls.map fun k => (.or, ofLiteral k))

theorem disjuncts_ofLiteral (l : Literal) : (ofLiteral l).disjuncts = [ofLiteral l] := by
  obtain ⟨v, b⟩ := l
  cases b <;> rfl

theorem isPlain_ofLiteral (l : Literal) : (ofLiteral l).isPlain ∧ ofLiteral l ≠ truth := by
  obtain ⟨v, b⟩ := l
  cases b <;> exact ⟨rfl, nofun⟩

theorem disjuncts_disjunction (l : Literal) (ls : List Literal) :
    (disjunction (l :: ls)).disjuncts = (l :: ls).map ofLiteral := by
  induction ls generalizing l
  case nil => exact disjuncts_ofLiteral l
  case cons k ls hi =>
    have hs : disjunction (l :: k :: ls) = or (ofLiteral l) (disjunction (k :: ls)) := rfl
    rw [hs, disjuncts, hi, disjuncts_ofLiteral]
    rfl

theorem clauses_disjunction (ls : List Literal) : (disjunction ls).clauses = [.ofLiterals ls] := by
  cases ls
  case nil => exact clauses_of_disjuncts (List.forall_mem_singleton.mpr ⟨rfl, by decide⟩)
  case cons l ls =>
    rw [clauses_of_disjuncts, clause_eq, disjuncts_disjunction]
    · simp [List.filterMap_map]
    · rw [disjuncts_disjunction]
      exact List.forall_mem_map.mpr fun k _ => isPlain_ofLiteral k

end Sentence

namespace Clause

variable {c : Clause}

theorem isEmpty_of_literals (h : c.literals = []) : c.isEmpty := by
  refine isEmpty_iff.mpr <| ext_literal fun l => iff_of_false ?_ (not_mem_empty l)
  rw [← mem_literals, h]
  exact List.not_mem_nil

theorem text_disjunct (l : Literal) : text.disjunct l = (Sentence.ofLiteral l).text := by
  obtain ⟨v, b⟩ := l
  cases b <;> rfl

theorem text_of_literals {l : Literal} {ls : List Literal} (h : c.literals = l :: ls) :
    c.text = (Sentence.ofLiteral l).chainText (ls.map fun k => (.or, .ofLiteral k)) := by
  have hn : ¬c.isEmpty := fun he => by cases isEmpty_iff.mp he; cases h
  have hl : (l :: ls).map text.disjunct = (.ofLiteral l :: ls.map .ofLiteral).map Sentence.text := by
    simp [text_disjunct]
  have hm := Sentence.chainText_map .or (.ofLiteral l) (ls.map .ofLiteral)
  rw [List.map_map] at hm
  rw [text, if_neg hn, h, hl]
  exact hm.symm

theorem parse_text (h : ∀ v ∈ c.vars, v.IsReadable) :
    Sentence.parse c.text = .ok (.disjunction c.literals) := by
  have hr : ∀ l ∈ c.literals, (Sentence.ofLiteral l).ReadsBack := fun l hl =>
    Sentence.readsBack_ofLiteral <| h _ <| var_mem_vars <| mem_literals.mp hl
  cases hl : c.literals
  case nil =>
    rw [text, if_pos (isEmpty_of_literals hl)]
    exact Sentence.parse_text (s := .falsity) nofun
  case cons l ls =>
    rw [hl] at hr
    have ⟨hl', hls⟩ := List.forall_mem_cons.mp hr
    rw [text_of_literals hl]
    exact Sentence.parse_chain hl' <| List.forall_mem_map.mpr hls

-- The text of a clause is a sentence of which it is the only clause, if its names are readable.
theorem text_reads_back (c : Clause) (h : ∀ v ∈ c.vars, v.IsReadable) :
    ∃ s, Sentence.parse c.text = .ok s ∧ s.clauses = [c] :=
  ⟨_, parse_text h, by rw [Sentence.clauses_disjunction, ofLiterals_literals]⟩

-- A clause with both literals of a variable, and the empty clause.
theorem text_reads_back_tautology :
    let c : Clause := ⟨.ofList [⟨"B"⟩, ⟨"A"⟩], .ofList [⟨"A"⟩]⟩
    (∀ v ∈ c.vars, v.IsReadable) ∧ c.text = "A OR B OR (NOT A)" ∧
    (∃ s, Sentence.parse "A OR B OR (NOT A)" = .ok s ∧ s.clauses = [c]) ∧
    ∃ s, Sentence.parse "FALSE" = .ok s ∧ s.clauses = [∅] := by
  intro c
  have h : ∀ v ∈ c.vars.toList, v.IsReadable := by decide +kernel
  have ht : c.text = "A OR B OR (NOT A)" := by decide +kernel
  exact ⟨h, ht, ht ▸ text_reads_back c h, text_reads_back ∅ nofun⟩

end Clause

namespace HornClause

variable {c : HornClause} {p : Var} {ps : List Var} {ν : Valuation}

-- What is read where a rule with these premises is written, of which there is at least one.
def readRule (head p : Var) (ps : List Var) : Sentence :=
  (Sentence.var p).chain (ps.map (fun q => (.and, .var q)) ++ [(.implies, .var head)])

-- What is read where the clause is written.
def reading (c : HornClause) : Sentence :=
  match c.premises with
  | [] => .var c.head
  | p :: ps => readRule c.head p ps

theorem text_of_premises (h : c.premises = p :: ps) :
    c.text = (Sentence.var p).chainText (ps.map (fun q => (.and, .var q)) ++ [(.implies, .var c.head)]) := by
  have hf : ¬c.isFact := by simp [isFact, h]
  have hn : (p :: ps).map Var.name = (.var p :: ps.map .var).map Sentence.text := by simp [Sentence.text]
  have hm := Sentence.chainText_map .and (.var p) (ps.map .var)
  rw [List.map_map] at hm
  rw [text, if_neg hf, h, hn, Sentence.chainText_concat]
  simp only [String.append_assoc]
  exact congrArg₂ (· ++ ·) hm.symm rfl

theorem parse_text (hh : c.head.IsReadable) (hp : ∀ v ∈ c.premises, v.IsReadable) :
    Sentence.parse c.text = .ok c.reading := by
  have hr : ∀ v ∈ c.premises, (Sentence.var v).ReadsBack := fun v hv => Sentence.readsBack_var (hp v hv)
  rw [reading]
  cases h : c.premises
  case nil =>
    have hf : c.isFact := by simp [isFact, h]
    rw [text, if_pos hf]
    exact Sentence.parse_text (s := .var c.head) fun w hw => by simp_all [Sentence.vars]
  case cons p ps =>
    rw [h] at hr
    have ⟨hr₁, hr₂⟩ := List.forall_mem_cons.mp hr
    rw [text_of_premises h]
    refine Sentence.parse_chain hr₁ <| List.forall_mem_append.mpr ⟨List.forall_mem_map.mpr hr₂, ?_⟩
    exact List.forall_mem_singleton.mpr (Sentence.readsBack_var hh)

theorem holds_readRule (head p : Var) (ps : List Var) : ν.holds (readRule head p ps) ↔
    (∀ v ∈ (p :: ps).dropLast, ν v) ∧ ((∀ v ∈ p :: ps, ν v) → ν head) := by
  induction ps generalizing p
  case nil => cases hp : ν p <;> simp [readRule, Sentence.chain, Connective.join, Valuation.holds, hp]
  case cons q qs hi =>
    have hs : readRule head p (q :: qs) = .and (.var p) (readRule head q qs) := rfl
    rw [hs, Valuation.holds, Bool.and_eq_true, hi, Valuation.holds, List.dropLast_cons_cons,
      List.forall_mem_cons, List.forall_mem_cons]
    grind

-- Besides what the clause says, the sentence says that all premises are true but the last one.
theorem holds_reading : ν.holds c.reading ↔ (∀ v ∈ c.premises.dropLast, ν v) ∧ ν.Respects c := by
  rw [reading, Valuation.Respects]
  cases c.premises
  case nil => simp [Valuation.holds]
  case cons p ps => exact holds_readRule c.head p ps

theorem ofSentence_reading_of_le (h : c.premises.length ≤ 1) : ofSentence c.reading = .ok c := by
  obtain ⟨head, premises, nodup⟩ := c
  match premises with
  | [] => rfl
  | [p] => rfl

-- From two premises on, the sentence is a conjunction.
theorem not_isHorn_reading (h : 1 < c.premises.length) : ¬c.reading.IsHorn := by
  rw [reading]
  match hc : c.premises with
  | [] | [p] => simp [hc] at h
  | p :: q :: qs => exact fun hr => nomatch hr

-- The text of a Horn clause with readable names is always a sentence. It is the clause again if there is
-- one premise at most. With more premises the sentence is no Horn clause, and it says more than the clause
-- does, namely that all premises are true but the last one.
theorem text_reads_back_iff (c : HornClause) (hh : c.head.IsReadable)
    (hp : ∀ v ∈ c.premises, v.IsReadable) :
    ∃ s, Sentence.parse c.text = .ok s ∧
      (ofSentence s = .ok c ↔ c.premises.length ≤ 1) ∧
      (1 < c.premises.length → ofSentence s = .error ⟨s⟩) ∧
      ∀ ν : Valuation, ν.holds s ↔ (∀ v ∈ c.premises.dropLast, ν v) ∧ ν.Respects c := by
  refine ⟨c.reading, parse_text hh hp, ⟨fun hs => ?_, ofSentence_reading_of_le⟩,
    fun h => ofSentence_of_not_isHorn (not_isHorn_reading h), fun _ => holds_reading⟩
  by_contra h
  have he := ofSentence_of_not_isHorn (not_isHorn_reading (Nat.lt_of_not_ge h))
  cases hs.symm.trans he

theorem text_reads_back_iff_one_premise :
    let c := new ⟨"B"⟩ [⟨"A"⟩]
    (c.head.IsReadable ∧ ∀ v ∈ c.premises, v.IsReadable) ∧ c.text = "A => B" ∧
      ∃ s, Sentence.parse "A => B" = .ok s ∧ ofSentence s = .ok c := by
  intro c
  have h : c.head.IsReadable ∧ ∀ v ∈ c.premises, v.IsReadable := by decide +kernel
  obtain ⟨s, hs, hc, _⟩ := text_reads_back_iff c h.left h.right
  exact ⟨h, rfl, s, hs, hc.mpr (by decide)⟩

-- With two premises, the implication becomes the second half of a conjunction.
theorem text_not_read_back_two_premises :
    let c := new ⟨"C"⟩ [⟨"A"⟩, ⟨"B"⟩]
    (c.head.IsReadable ∧ ∀ v ∈ c.premises, v.IsReadable) ∧ c.text = "A AND B => C" ∧
    Sentence.parse c.text = .ok (.and (.var ⟨"A"⟩) (.implies (.var ⟨"B"⟩) (.var ⟨"C"⟩))) ∧
    ¬∃ s, Sentence.parse c.text = .ok s ∧ ofSentence s = .ok c := by
  intro c
  have h : c.head.IsReadable ∧ ∀ v ∈ c.premises, v.IsReadable := by decide +kernel
  have hp : Sentence.parse c.text = .ok c.reading := parse_text h.left h.right
  refine ⟨h, by decide +kernel, hp, ?_⟩
  rintro ⟨s, hs, hc⟩
  cases hp.symm.trans hs
  cases hc.symm.trans (ofSentence_of_not_isHorn (not_isHorn_reading (by decide)))

end HornClause
end Sentential
