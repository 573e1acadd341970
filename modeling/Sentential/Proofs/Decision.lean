import Sentential.CommandLine.Decision
import Sentential.Proofs.Entailment
import Sentential.Proofs.Reading
import Sentential.Proofs.Settings
import Sentential.Proofs.Splitting
import Sentential.Proofs.WalkSat
import Sentential.Random.Script

namespace Sentential

open Text

namespace CommandLine

variable {v : Var} {m : Model} {kb : KnowledgeBase} {text : String}

namespace Verdict

-- A name starts with a letter, so the dash is not taken for a part of it.
theorem readWord_literalText (h : v.IsReadable) (b : Bool) :
    readWord (literalText (v.literal b)).toList = (v, b) := by
  cases b
  case false => simp [literalText, Var.literal, readWord]
  case true =>
    have hn : literalText (v.literal true) = v.name := rfl
    have hd : '-' ∉ v.name.toList := h.not_mem (by decide +kernel)
    rw [hn, readWord, String.ofList_toList]
    intro name he
    exact hd (he ▸ List.mem_cons_self)

theorem blank_not_mem_literalText (h : v.IsReadable) (b : Bool) :
    ' ' ∉ (literalText (v.literal b)).toList := by
  have hn : ' ' ∉ v.name.toList := h.not_mem <| not_isWordChar_of_isBlank (by decide)
  cases b <;> simpa [literalText, Var.literal] using hn

theorem toList_modelLine (m : Model) : (modelLine m).toList =
    [' '].intercalate (['v'] :: m.entries.map fun e => (literalText (e.1.literal e.2)).toList) := by
  rw [modelLine, String.toList_intercalate, List.map_cons, Model.literals, List.map_map, List.map_map]
  rfl

theorem readModel?_modelLine (h : ∀ v, m.value v ≠ none → v.IsReadable) :
    readModel? (modelLine m) = some m := by
  have he : ∀ e ∈ m.entries, e.1.IsReadable := fun e he =>
    h e.1 (Option.ne_none_iff_exists'.mpr ⟨e.2, Model.mem_entries.mp he⟩)
  have hb : ∀ word ∈ ['v'] :: m.entries.map fun e => (literalText (e.1.literal e.2)).toList, ' ' ∉ word :=
    List.forall_mem_cons.mpr ⟨by decide, List.forall_mem_map.mpr fun e hm =>
      blank_not_mem_literalText (he e hm) e.2⟩
  have hw : (m.entries.map fun e => (literalText (e.1.literal e.2)).toList).map readWord = m.entries := by
    rw [List.map_map]
    exact (List.map_congr_left fun e hm => readWord_literalText (he e hm) e.2).trans (List.map_id' _)
  rw [readModel?, toList_modelLine, split_intercalate hb (List.cons_ne_nil _ _)]
  simp only [hw, m.sorted, dite_true]

end Verdict

namespace Decision

variable {d : Decision}

-- Whatever is logged, the decision prints comments and then these lines, and has this exit code.
def Prints (d : Decision) (ls : List String) (code : UInt32) : Prop :=
  d.exitCode = code ∧ ∀ log : Log, ∃ comments : List String,
    (∀ text ∈ comments, ['c', ' '] <+: text.toList) ∧
      (d.lines.filter (·.isWanted log)).map Line.render = comments ++ ls

-- The decision prints a line from which its model is read, and with the values of this model all sentences
-- are true, whatever values the other variables have.
def ShowsModel (d : Decision) (kb : KnowledgeBase) : Prop :=
  ∃ m line, d.verdict = .ok (.satisfiable m) ∧ d.Prints ["s SATISFIABLE", line] 10 ∧
    Verdict.readModel? line = some m ∧ ∀ ν : Valuation, ν.Extends m → ∀ s ∈ kb.sentences, ν.holds s

theorem Prints.not_prints {ls ls' : List String} {code code' : UInt32} (h : d.Prints ls code)
    (hc : code ≠ code') : ¬d.Prints ls' code' :=
  fun h' => hc (h.left.symm.trans h'.left)

theorem comment_render (topic : Option String) (level : Level) (text : String) :
    ['c', ' '] <+: (Line.log topic level text).render.toList := by
  cases level
  all_goals simp [Line.render]

-- What comes before the verdict is no result.
def IsLogged (d : Decision) : Prop :=
  ∀ line ∈ d.log, ∃ topic level text, line = .log topic level text

theorem prints_of_verdict {v : Verdict} (hl : d.IsLogged) (hv : d.verdict = .ok v) :
    d.Prints v.lines v.exitCode := by
  refine ⟨by rw [exitCode, hv], fun log => ⟨(d.log.filter (·.isWanted log)).map Line.render, ?_, ?_⟩⟩
  · intro text ht
    obtain ⟨line, hm, rfl⟩ := List.mem_map.mp ht
    obtain ⟨topic, level, text, rfl⟩ := hl line (List.mem_filter.mp hm).left
    exact comment_render topic level text
  · rw [lines, hv, List.filter_append, List.map_append]
    simp [List.filter_map, Function.comp_def, Line.isWanted, Line.render]

theorem exists_eq_log_of_mem_eventLines {es : List Event} {line : Line} (h : line ∈ eventLines es) :
    ∃ topic level text, line = .log topic level text := by
  have ⟨e, _, he⟩ := List.mem_map.mp h
  exact ⟨some e.topic, .debug, e.message, he.symm⟩

theorem isLogged_entailment (kb : KnowledgeBase) (query : String) (engine : Engine) :
    (entailment kb query engine).IsLogged := by
  cases engine
  case walkSat => exact nofun
  case deciding a =>
    intro line hm
    obtain rfl | hm := List.mem_cons.mp hm
    · exact ⟨_, _, _, rfl⟩
    · exact exists_eq_log_of_mem_eventLines hm

variable {σ : Type} {settings : Settings} {g : Random.Generator σ} {start : σ} {o : Options}

theorem isLogged_satisfiability (kb : KnowledgeBase) (settings : Settings) (g : Random.Generator σ)
    (start : σ) (engine : Engine) : (satisfiability kb settings g start engine).IsLogged := by
  intro line hm
  unfold satisfiability at hm
  split at hm
  case h_1 => exact exists_eq_log_of_mem_eventLines hm
  case h_2 =>
    split at hm
    case h_3 =>
      obtain rfl | hm := List.mem_cons.mp hm
      · exact ⟨_, _, _, rfl⟩
      · exact exists_eq_log_of_mem_eventLines hm
    all_goals exact ⟨_, _, _, List.mem_singleton.mp hm⟩
  case h_3 => cases hm

-- All names in a model of the clauses are names in the sentences.
theorem showsModel_of_verdict (hr : KnowledgeBase.read text = .ok kb) (hl : d.IsLogged)
    (hv : d.verdict = .ok (.satisfiable m))
    (hm : ∀ v, m.value v ≠ none → v ∈ clauseVars kb.conjunction.clauses)
    (he : m.eval kb.conjunction = some true) : d.ShowsModel kb := by
  refine ⟨m, Verdict.modelLine m, hv, prints_of_verdict hl hv, ?_, fun ν hν => ?_⟩
  · exact Verdict.readModel?_modelLine fun v hv => KnowledgeBase.isReadable_of_mem_clauseVars hr (hm v hv)
  · exact Valuation.holds_conjunction.mp (hν.holds_eq he)

theorem ShowsModel.exists_holds (h : d.ShowsModel kb) :
    ∃ ν : Valuation, ∀ s ∈ kb.sentences, ν.holds s := by
  have ⟨m, _, _, _, _, hm⟩ := h
  exact ⟨.complete m, hm _ (Valuation.complete_extends m)⟩

theorem ShowsModel.not_prints {ls : List String} {code : UInt32} (h : d.ShowsModel kb) (hc : 10 ≠ code) :
    ¬d.Prints ls code := by
  have ⟨_, _, _, hp, _⟩ := h
  exact hp.not_prints hc

theorem satisfiability_dpll (hr : KnowledgeBase.read text = .ok kb) (settings : Settings)
    (g : Random.Generator σ) (start : σ) :
    let d := satisfiability kb settings g start (.deciding .dpll)
    d.ShowsModel kb ∨
      d.Prints ["s UNSATISFIABLE"] 20 ∧ ¬∃ ν : Valuation, ∀ s ∈ kb.sentences, ν.holds s := by
  intro d
  have hl : d.IsLogged := isLogged_satisfiability kb settings g start _
  have hf := Dpll.findModel_found kb.conjunction
  have hv : d.verdict = .ok ((Dpll.findModel kb.conjunction).value.elim .unsatisfiable .satisfiable) := rfl
  cases hm : (Dpll.findModel kb.conjunction).value
  case none =>
    rw [hm] at hf hv
    refine .inr ⟨prints_of_verdict hl hv, fun ⟨ν, hν⟩ => hf <| Dpll.solvable_empty_iff.mpr ?_⟩
    exact ⟨ν, Valuation.holds_conjunction.mpr hν⟩
  case some m =>
    rw [hm] at hf hv
    refine .inl (showsModel_of_verdict hr hl hv (fun v hv => ?_) hf.eval_eq_true)
    exact (hf.vars v hv).resolve_left (· (Model.value_empty v))

theorem satisfiability_walkSat (hr : KnowledgeBase.read text = .ok kb)
    (hp : isProbability settings.probability) (hs : (settings.search g start kb.conjunction).isSome) :
    let d := satisfiability kb settings g start .walkSat
    d.ShowsModel kb ∨ d.Prints ["s UNKNOWN"] 0 := by
  intro d
  have hl : d.IsLogged := isLogged_satisfiability kb settings g start _
  have ⟨(r, stop), he⟩ := Option.isSome_iff_exists.mp hs
  have ⟨t, ht, hf⟩ := WalkSat.ensures_search hp start r stop he
  have hv : d.verdict = .ok (t.value.elim .unknown .satisfiable) := by
    simp only [d, satisfiability, he, ht]
  cases hm : t.value
  case none =>
    rw [hm] at hv
    exact .inr (prints_of_verdict hl hv)
  case some m =>
    rw [hm] at hv
    have hf := hf m hm
    exact .inl (showsModel_of_verdict hr hl hv (fun v => (hf.assigns v).mp) hf.eval_eq_true)

-- Finished or not, the walk never says that there is no model.
theorem exitCode_walkSat (kb : KnowledgeBase) (settings : Settings) (g : Random.Generator σ) (start : σ) :
    (satisfiability kb settings g start .walkSat).exitCode ≠ 20 := by
  rw [satisfiability]
  split
  case h_3 found _ _ => cases found.value <;> simp [exitCode, Verdict.exitCode]
  all_goals simp [exitCode]

theorem entailment_deciding {query : Sentence} {a : Algorithm} (hq : Sentence.parse text = .ok query)
    (ha : kb.CanDecide query a) :
    let d := entailment kb text (.deciding a)
    d.Prints ["s ENTAILED"] 10 ∧ kb.Entails query ∨ d.Prints ["s NOT ENTAILED"] 20 ∧ ¬kb.Entails query := by
  intro d
  have hl : d.IsLogged := isLogged_entailment kb text _
  have ⟨answer, hv, he⟩ := ha.exists_answer
  have hd : d.verdict = .ok (if answer then .entailed else .notEntailed) := by
    simp only [d, entailment, KnowledgeBase.entailsText, hq, hv]
    rfl
  cases answer
  case true => exact .inl ⟨prints_of_verdict hl hd, he.mp rfl⟩
  case false => exact .inr ⟨prints_of_verdict hl hd, mt he.mpr Bool.false_ne_true⟩

-- Which algorithm is to decide about a query.
theorem ofOptions_query {query : Sentence} (hq : o.query = some text)
    (he : o.engine = none ∨ (∃ name ∈ ["tt", "resolution", "dpll"], o.engine = Engine.ofName? name) ∨
      o.engine = Engine.ofName? "fc" ∧ (∀ s ∈ kb.sentences, s.IsHorn) ∧ ∃ v, query = .var v) :
    ∃ a, ofOptions o settings g start kb = entailment kb text (.deciding a) ∧ kb.CanDecide query a := by
  rw [ofOptions, hq]
  obtain he | ⟨name, hn, he⟩ | ⟨he, hh⟩ := he
  · exact ⟨.truthTable, by rw [he]; rfl, (absurd · (by decide))⟩
  · simp only [List.mem_cons, List.not_mem_nil, or_false] at hn
    obtain rfl | rfl | rfl := hn
    · exact ⟨.truthTable, by rw [he]; rfl, (absurd · (by decide))⟩
    · exact ⟨.resolution, by rw [he]; rfl, (absurd · (by decide))⟩
    · exact ⟨.dpll, by rw [he]; rfl, (absurd · (by decide))⟩
  · exact ⟨.forwardChaining, by rw [he]; rfl, fun _ => hh⟩

end Decision

open Decision

-- For a knowledge base that was read from a text, the search says whether there is a valuation under which
-- all sentences are true, and shows one. The walk shows one or says nothing, whatever generator it draws
-- from, unless a draw runs out of attempts. Of a query it is said whether it is entailed.
theorem ofOptions_prints_truth {settings : Settings} {u : Settings.Update} {σ : Type}
    (hr : KnowledgeBase.read text = .ok kb) (hs : ({} : Settings).apply u = .ok settings)
    (g : Random.Generator σ) (start : σ) (o : Options) :
    let d := Decision.ofOptions o settings g start kb
    let satisfiable := ∃ ν : Valuation, ∀ s ∈ kb.sentences, ν.holds s
    (o.query = none → o.engine = none ∨ o.engine = Engine.ofName? "dpll" →
      (d.Prints ["s UNSATISFIABLE"] 20 ↔ ¬satisfiable) ∧ (satisfiable → d.ShowsModel kb)) ∧
    (o.query = none → o.engine = Engine.ofName? "walksat" →
      ¬d.Prints ["s UNSATISFIABLE"] 20 ∧
        ((settings.search g start kb.conjunction).isSome →
          d.ShowsModel kb ∨ d.Prints ["s UNKNOWN"] 0)) ∧
    ∀ text query, o.query = some text → Sentence.parse text = .ok query →
      (o.engine = none ∨ (∃ name ∈ ["tt", "resolution", "dpll"], o.engine = Engine.ofName? name) ∨
        o.engine = Engine.ofName? "fc" ∧ (∀ s ∈ kb.sentences, s.IsHorn) ∧ ∃ v, query = .var v) →
      (d.Prints ["s ENTAILED"] 10 ↔ kb.Entails query) ∧
        (d.Prints ["s NOT ENTAILED"] 20 ↔ ¬kb.Entails query) := by
  intro d satisfiable
  refine ⟨fun hq he => ?dpll, fun hq he => ?walkSat, fun text query hq hp he => ?entailment⟩
  case dpll =>
    have hd : d = satisfiability kb settings g start (.deciding .dpll) := by
      obtain he | he := he <;> simp only [d, ofOptions, hq, he] <;> rfl
    rw [hd]
    obtain h | ⟨h, hn⟩ := satisfiability_dpll hr settings g start
    · exact ⟨iff_of_false (h.not_prints (by decide)) (· h.exists_holds), fun _ => h⟩
    · exact ⟨iff_of_true h hn, (absurd · hn)⟩
  case walkSat =>
    have hd : d = satisfiability kb settings g start .walkSat := by
      simp only [d, ofOptions, hq, he]
      rfl
    have hp := Settings.isProbability_of_apply hs (by decide)
    rw [hd]
    exact ⟨fun h => exitCode_walkSat kb settings g start h.left, satisfiability_walkSat hr hp⟩
  case entailment =>
    obtain ⟨a, hd, ha⟩ : ∃ a, d = entailment kb text (.deciding a) ∧ kb.CanDecide query a :=
      ofOptions_query hq he
    rw [hd]
    obtain ⟨h, he⟩ | ⟨h, he⟩ := entailment_deciding hp ha
    · exact ⟨iff_of_true h he, iff_of_false (h.not_prints (by decide)) (· he)⟩
    · exact ⟨iff_of_false (h.not_prints (by decide)) he, iff_of_true h he⟩

-- A comment and blanks are passed over in reading, and the words of the script let the walk come to its end.
theorem ofOptions_prints_truth_rules :
    let a := Sentence.var ⟨"A"⟩
    let b := Sentence.var ⟨"B"⟩
    let kb : KnowledgeBase := ⟨[.or a b, .implies a b]⟩
    let o : Options :=
      { input := none, query := none, engine := none, settingsFile := none, settings := [], dimacs := none }
    let decision (o : Options) := ofOptions o {} Random.Script.generator (.ofWords [0]) kb
    let walk := decision { o with engine := Engine.ofName? "walksat" }
    KnowledgeBase.read "# rules\nA OR B\n A => B" = .ok kb ∧
    (decision o).ShowsModel kb ∧
    (walk.ShowsModel kb ∨ walk.Prints ["s UNKNOWN"] 0) ∧
    (decision { o with query := some "B" }).Prints ["s ENTAILED"] 10 ∧
    (decision { o with query := some "NOT A", engine := Engine.ofName? "resolution" }).Prints
      ["s NOT ENTAILED"] 20 := by
  intro a b kb o decision walk
  have hr : KnowledgeBase.read "# rules\nA OR B\n A => B" = .ok kb := by decide +kernel
  have hs : ({} : Settings).apply {} = .ok {} := rfl
  have hf : (({} : Settings).search Random.Script.generator (.ofWords [0]) kb.conjunction).isSome := by
    decide +kernel
  have hb : Sentence.parse "B" = .ok b := by decide +kernel
  have ha : Sentence.parse "NOT A" = .ok a.not := by decide +kernel
  have hν : ∀ s ∈ kb.sentences, Valuation.holds (fun _ => true) s := by decide
  have he : kb.Entails b := by
    intro ν hν
    have h₁ := hν _ List.mem_cons_self
    have h₂ := hν _ (List.mem_cons_of_mem _ List.mem_cons_self)
    simp only [Valuation.holds, a, b] at h₁ h₂ ⊢
    grind
  have hn : ¬kb.Entails a.not := fun h => absurd (h _ hν) (by decide)
  have h := ofOptions_prints_truth hr hs Random.Script.generator (.ofWords [0])
  obtain ⟨hd, _, _⟩ := h o
  obtain ⟨_, hw, _⟩ := h { o with engine := Engine.ofName? "walksat" }
  obtain ⟨_, _, hq⟩ := h { o with query := some "B" }
  obtain ⟨_, _, hq₂⟩ := h { o with query := some "NOT A", engine := Engine.ofName? "resolution" }
  refine ⟨hr, (hd rfl (.inl rfl)).right ⟨_, hν⟩, (hw rfl rfl).right hf, ?_, ?_⟩
  · exact (hq "B" b rfl hb (.inl rfl)).left.mpr he
  · exact (hq₂ "NOT A" a.not rfl ha (.inr <| .inl ⟨"resolution", by decide, rfl⟩)).right.mpr hn

end CommandLine
end Sentential
