import Sentential.Proofs.Lines
import Sentential.Proofs.NormalForm

namespace Sentential

variable {v : Var} {s : Sentence} {ss : List Sentence}

theorem Sentence.exists_mem_vars_of_conjunction (h : v ∈ (conjunction ss).vars) :
    ∃ s ∈ ss, v ∈ s.vars := by
  induction ss
  case nil => cases h
  case cons s ss hi =>
    rw [conjunction, conjunction?] at h
    rw [conjunction] at hi
    cases hc : conjunction? ss
    case none =>
      rw [hc] at h
      exact ⟨s, List.mem_cons_self, h⟩
    case some t =>
      rw [hc] at h hi
      obtain hs | ht := VarSet.mem_union.mp h
      · exact ⟨s, List.mem_cons_self, hs⟩
      · have ⟨t, ht, hv⟩ := hi ht
        exact ⟨t, List.mem_cons_of_mem s ht, hv⟩

namespace KnowledgeBase

variable {kb : KnowledgeBase} {text : String}

theorem exists_parse_of_read (h : read text = .ok kb) (hs : s ∈ kb.sentences) :
    ∃ line, Sentence.parse line = .ok s := by
  have hm : .ok s ∈ (sentenceTexts (Text.lines text.toList)).map Sentence.parse := by
    rw [read_eq_ok_iff_parse.mp h]
    exact List.mem_map_of_mem hs
  obtain ⟨line, _, hl⟩ := List.mem_map.mp hm
  exact ⟨line, hl⟩

theorem isReadable_of_read (h : read text = .ok kb) (hs : s ∈ kb.sentences) (hv : v ∈ s.vars) :
    v.IsReadable := by
  obtain ⟨line, hl⟩ := exists_parse_of_read h hs
  exact Sentence.isReadable_of_parse hl hv

theorem isReadable_of_mem_clauseVars (h : read text = .ok kb)
    (hv : v ∈ clauseVars kb.conjunction.clauses) : v.IsReadable := by
  have ⟨c, hc, hv⟩ := mem_clauseVars.mp hv
  have ⟨s, hs, hv⟩ := Sentence.exists_mem_vars_of_conjunction <| Sentence.mem_vars_of_mem_clauses hc hv
  exact isReadable_of_read h hs hv

end KnowledgeBase
end Sentential
