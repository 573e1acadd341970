import Sentential.Entailment
import Sentential.Proofs.Chaining
import Sentential.Proofs.Dpll
import Sentential.Proofs.Saturation
import Sentential.Proofs.TruthTable

namespace Sentential

theorem Valuation.holds_conjunction {ν : Valuation} {ss : List Sentence} :
    ν.holds (.conjunction ss) ↔ ∀ s ∈ ss, ν.holds s := by
  induction ss
  case nil => simp [Sentence.conjunction, Sentence.conjunction?, holds]
  case cons s ss hi =>
    rw [List.forall_mem_cons, ← hi, Sentence.conjunction, Sentence.conjunction, Sentence.conjunction?]
    cases Sentence.conjunction? ss <;> simp [holds]

-- A query follows exactly if its negation cannot be true together with the premise.
theorem not_exists_holds_iff {premise query : Sentence} :
    (¬∃ ν : Valuation, ν.holds (.and premise query.not)) ↔
      ∀ ν : Valuation, ν.holds premise → ν.holds query := by
  simp [Valuation.holds]

theorem Saturation.entails_iff {premise query : Sentence} :
    (entails premise query).value ↔ ∀ ν : Valuation, ν.holds premise → ν.holds query := by
  rw [← not_exists_holds_iff]
  simp only [Valuation.holds_iff_clauses]
  exact (saturate_justified _).isRefuted_iff

theorem Dpll.entails_iff {premise query : Sentence} :
    (entails premise query).value ↔ ∀ ν : Valuation, ν.holds premise → ν.holds query := by
  rw [← not_exists_holds_iff, ← isSome_findModel_iff]
  simp [entails, satisfiable, Traced.map]

namespace KnowledgeBase

variable {kb : KnowledgeBase} {query : Sentence} {v : Var}

theorem entails_conjunction_iff :
    (∀ ν : Valuation, ν.holds kb.conjunction → ν.holds query) ↔ kb.Entails query :=
  forall_congr' fun _ => imp_congr_left Valuation.holds_conjunction

theorem entailsByTruthTable_iff : (kb.entailsByTruthTable query).value ↔ kb.Entails query :=
  TruthTable.entails_iff.trans entails_conjunction_iff

theorem entailsByResolution_iff : (kb.entailsByResolution query).value ↔ kb.Entails query :=
  Saturation.entails_iff.trans entails_conjunction_iff

theorem entailsByDpll_iff : (kb.entailsByDpll query).value ↔ kb.Entails query :=
  Dpll.entails_iff.trans entails_conjunction_iff

theorem entails_answers_agree (kb : KnowledgeBase) (query : Sentence) :
    ∃ answer : Bool,
      (kb.entails query .truthTable).value = .ok answer ∧
      (kb.entails query .resolution).value = .ok answer ∧
      (kb.entails query .dpll).value = .ok answer ∧
      (answer = true ↔ kb.Entails query) := by
  have hr : (kb.entailsByResolution query).value = (kb.entailsByTruthTable query).value :=
    Bool.eq_iff_iff.mpr (entailsByResolution_iff.trans entailsByTruthTable_iff.symm)
  have hd : (kb.entailsByDpll query).value = (kb.entailsByTruthTable query).value :=
    Bool.eq_iff_iff.mpr (entailsByDpll_iff.trans entailsByTruthTable_iff.symm)
  exact ⟨_, rfl, congrArg Except.ok hr, congrArg Except.ok hd, entailsByTruthTable_iff⟩

-- The first sentence, in the order of the knowledge base, that is no Horn clause.
def FirstNotHorn (kb : KnowledgeBase) (s : Sentence) : Prop :=
  ∃ before after, kb.sentences = before ++ s :: after ∧ (∀ t ∈ before, t.IsHorn) ∧ ¬s.IsHorn

theorem exists_firstNotHorn (h : ∃ s ∈ kb.sentences, ¬s.IsHorn) : ∃ s, kb.FirstNotHorn s := by
  have ⟨t, ht, hn⟩ := h
  have hf : (kb.sentences.find? fun s => ¬s.IsHorn).isSome :=
    List.find?_isSome.mpr ⟨t, ht, decide_eq_true hn⟩
  have ⟨s, hs⟩ := Option.isSome_iff_exists.mp hf
  have ⟨hn, before, after, he, hb⟩ := List.find?_eq_some_iff_append.mp hs
  exact ⟨s, before, after, he, by simpa using hb, of_decide_eq_true hn⟩

theorem entailsByChaining_error {s : Sentence} (h : kb.FirstNotHorn s) :
    kb.entailsByChaining v = .error ⟨s⟩ := by
  have ⟨before, after, he, hb, hn⟩ := h
  rw [entailsByChaining, he, HornClause.mapM_ofSentence_error hb hn]
  rfl

theorem entailsByChaining_ok (h : ∀ s ∈ kb.sentences, s.IsHorn) :
    ∃ answer, kb.entailsByChaining v = .ok answer ∧ (answer.value ↔ kb.Entails (.var v)) := by
  have ⟨cs, hc, hν⟩ := HornClause.mapM_ofSentence h
  refine ⟨Chaining.entails cs v, by rw [entailsByChaining, hc]; rfl, ?_⟩
  rw [Chaining.entails_iff_derives, Chaining.derives_iff]
  exact forall_congr' fun ν => imp_congr_left (hν ν).symm

theorem entails_forwardChaining_of_ne (kb : KnowledgeBase) (h : ¬∃ v, query = .var v) :
    (kb.entails query .forwardChaining).value = .error (.precondition (.queryNotVariable query)) := by
  cases query
  case var v => exact absurd ⟨v, rfl⟩ h
  all_goals rfl

theorem entails_forwardChaining_error {s : Sentence} (h : kb.FirstNotHorn s) :
    (kb.entails (.var v) .forwardChaining).value = .error (.notHorn ⟨s⟩) := by
  simp only [entails, Traced.value_bind, entailsByChaining_error h, Traced.value_pure]

theorem entails_forwardChaining_ok (h : ∀ s ∈ kb.sentences, s.IsHorn) :
    ∃ answer, (kb.entails (.var v) .forwardChaining).value = .ok answer ∧
      (answer = true ↔ kb.Entails (.var v)) := by
  have ⟨answer, ha, he⟩ := entailsByChaining_ok (v := v) h
  refine ⟨answer.value, ?_, he⟩
  simp only [entails, Traced.value_bind, ha, Traced.value_pure]

-- The algorithm is one for all sentences, or these sentences are ones for forward chaining.
def CanDecide (kb : KnowledgeBase) (query : Sentence) (a : Algorithm) : Prop :=
  a = .forwardChaining → (∀ s ∈ kb.sentences, s.IsHorn) ∧ ∃ v, query = .var v

theorem CanDecide.exists_answer {a : Algorithm} (h : kb.CanDecide query a) :
    ∃ answer, (kb.entails query a).value = .ok answer ∧ (answer = true ↔ kb.Entails query) := by
  cases a
  case truthTable => exact ⟨_, rfl, entailsByTruthTable_iff⟩
  case resolution => exact ⟨_, rfl, entailsByResolution_iff⟩
  case dpll => exact ⟨_, rfl, entailsByDpll_iff⟩
  case forwardChaining =>
    obtain ⟨hh, v, rfl⟩ := h rfl
    exact entails_forwardChaining_ok hh

theorem entails_forwardChaining_cases (kb : KnowledgeBase) (query : Sentence) :
    ((∃ e, (kb.entails query .forwardChaining).value = .error (.precondition e)) ↔
      ¬∃ v, query = .var v) ∧
    ∀ v, query = .var v →
      ((∃ e, (kb.entails query .forwardChaining).value = .error (.notHorn e)) ↔
        ∃ s ∈ kb.sentences, ¬s.IsHorn) ∧
      (∀ e, (kb.entails query .forwardChaining).value = .error (.notHorn e) →
        kb.FirstNotHorn e.sentence ∧
          (Failure.notHorn e).message = "Sentence is not a Horn clause: " ++ e.sentence.text) ∧
      ((∀ s ∈ kb.sentences, s.IsHorn) →
        ∃ answer : Bool,
          (kb.entails query .forwardChaining).value = .ok answer ∧
          (kb.entails query .truthTable).value = .ok answer ∧
          (answer = true ↔ kb.Entails query)) := by
  by_cases hq : ∃ v, query = .var v
  case neg =>
    have he := entails_forwardChaining_of_ne kb hq
    exact ⟨iff_of_true ⟨_, he⟩ hq, fun v hv => absurd ⟨v, hv⟩ hq⟩
  case pos =>
    have ⟨v, hv⟩ := hq
    cases hv
    -- Either all sentences can be read as clauses, or the first that cannot is reported.
    by_cases hh : ∀ s ∈ kb.sentences, s.IsHorn
    case pos =>
      have ⟨answer, ha, he⟩ := entails_forwardChaining_ok (v := v) hh
      have ht : (kb.entails (.var v) .truthTable).value = .ok answer :=
        congrArg Except.ok <| Bool.eq_iff_iff.mpr <| entailsByTruthTable_iff.trans he.symm
      have hn : ¬∃ s ∈ kb.sentences, ¬s.IsHorn := fun ⟨s, hs, hn⟩ => hn (hh s hs)
      rw [ha]
      refine ⟨iff_of_false nofun (· hq), fun _ _ => ⟨iff_of_false nofun hn, nofun, fun _ => ?_⟩⟩
      exact ⟨answer, rfl, ht, he⟩
    case neg =>
      have hn : ∃ s ∈ kb.sentences, ¬s.IsHorn := by simpa using hh
      have ⟨s, hs⟩ := exists_firstNotHorn hn
      rw [entails_forwardChaining_error hs]
      refine ⟨iff_of_false nofun (· hq), fun _ _ => ⟨iff_of_true ⟨_, rfl⟩ hn, ?_, (absurd · hh)⟩⟩
      intro e he
      cases he
      exact ⟨hs, rfl⟩

-- The first knowledge base is answered. The second one has two sentences that are no Horn clauses, and
-- is refused for the one that comes first.
theorem entails_forwardChaining_cases_chain :
    let a := Sentence.var ⟨"A"⟩
    let b := Sentence.var ⟨"B"⟩
    let kb : KnowledgeBase := ⟨[a, .implies (.and a a) b]⟩
    let kb' : KnowledgeBase := ⟨[a, .or a b, .not b]⟩
    (∀ s ∈ kb.sentences, s.IsHorn) ∧
    (∃ answer : Bool,
      (kb.entails b .forwardChaining).value = .ok answer ∧
      (kb.entails b .truthTable).value = .ok answer ∧
      (answer = true ↔ kb.Entails b)) ∧
    (kb'.entails b .forwardChaining).value = .error (.notHorn ⟨.or a b⟩) ∧
    kb'.FirstNotHorn (.or a b) ∧
    (Failure.notHorn ⟨.or a b⟩).message = "Sentence is not a Horn clause: (A OR B)" := by
  intro a b kb kb'
  have hh : ∀ s ∈ kb.sentences, s.IsHorn := by decide
  have he : (kb'.entails b .forwardChaining).value = .error (.notHorn ⟨.or a b⟩) := rfl
  have ⟨_, _, ha⟩ := (entails_forwardChaining_cases kb b).right ⟨"B"⟩ rfl
  have ⟨_, hf, _⟩ := (entails_forwardChaining_cases kb' b).right ⟨"B"⟩ rfl
  have ⟨hf, hm⟩ := hf _ he
  exact ⟨hh, ha hh, he, hf, hm⟩

end KnowledgeBase
end Sentential
