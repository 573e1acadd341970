import Sentential.Event
import Sentential.Model.Basic
import Sentential.NormalForm.Basic

namespace Sentential.Dpll

-- The clauses that are open under the model, or nothing if some clause is false.
def openClauses? (cs : List Clause) (m : Model) : Option (List Clause) :=
  if cs.any (m.clauseValue · = some false) then none
  else some (cs.filter (m.clauseValue · = none))

-- The literal of `v` that occurs in the clauses, unless both do or none does.
def onlyPolarity? (cs : List Clause) (v : Var) : Option Literal :=
  match cs.any (v ∈ ·.positive), cs.any (v ∈ ·.negative) with
  | true, false => some v.positive
  | false, true => some v.negative
  | _, _ => none

-- The literal of the first free variable that occurs in one polarity only.
def pureLiteral? (opened : List Clause) (m : Model) : Option Literal :=
  ((clauseVars opened).toList.filter (m.value · = none)).findSome? (onlyPolarity? opened)

-- The only literal of the clause whose variable is free, if there is just one.
def lastLiteral? (m : Model) (c : Clause) : Option Literal :=
  match c.literals.filter (m.literalValue · = none) with
  | [l] => some l
  | _ => none

-- What is left of the first clause of which only one literal is left.
def unitLiteral? (opened : List Clause) (m : Model) : Option Literal :=
  opened.findSome? (lastLiteral? m)

-- The variables of the clauses that have no value yet.
def freeVars (cs : List Clause) (m : Model) : List Var :=
  (clauseVars cs).toList.filter (m.value · = none)

theorem mem_freeVars {cs : List Clause} {m : Model} {v : Var} :
    v ∈ freeVars cs m ↔ v ∈ clauseVars cs ∧ m.value v = none := by
  simp [freeVars]

-- Giving a value to a free variable leaves fewer of them.
theorem freeVars_extend_length {cs : List Clause} {m : Model} {v : Var} (b : Bool)
    (h : v ∈ freeVars cs m) : (freeVars cs (m.extend v b)).length < (freeVars cs m).length := by
  have he : freeVars cs (m.extend v b) = (freeVars cs m).filter (· ≠ v) := by
    simp only [freeVars, List.filter_filter, Model.value_extend]
    refine List.filter_congr fun w _ => ?_
    by_cases e : w = v
    case pos => simp [e]
    case neg => simp [e]
  rw [he, List.length_filter_lt_length_iff_exists]
  exact ⟨v, h, by simp⟩

theorem mem_of_openClauses? {cs opened : List Clause} {m : Model}
    (h : openClauses? cs m = some opened) {c : Clause} (hc : c ∈ opened) : c ∈ cs := by
  unfold openClauses? at h
  split at h
  case isTrue => exact nomatch h
  case isFalse => exact (List.mem_filter.mp (Option.some.inj h ▸ hc)).1

theorem onlyPolarity?_var {cs : List Clause} {v : Var} {l : Literal}
    (h : onlyPolarity? cs v = some l) : l.var = v := by
  unfold onlyPolarity? at h
  split at h
  · exact Option.some.inj h ▸ rfl
  · exact Option.some.inj h ▸ rfl
  · exact nomatch h

theorem pureLiteral?_free {opened : List Clause} {m : Model} {l : Literal}
    (h : pureLiteral? opened m = some l) : l.var ∈ freeVars opened m := by
  obtain ⟨v, hv, hl⟩ := List.exists_of_findSome?_eq_some h
  exact onlyPolarity?_var hl ▸ hv

theorem lastLiteral?_mem {m : Model} {c : Clause} {l : Literal} (h : lastLiteral? m c = some l) :
    l ∈ c ∧ m.value l.var = none := by
  unfold lastLiteral? at h
  split at h
  case h_1 k hk =>
    have : k ∈ c.literals.filter (m.literalValue · = none) := by simp [hk]
    simpa [Model.literalValue, Option.some.inj h] using this
  case h_2 => exact nomatch h

theorem unitLiteral?_free {opened : List Clause} {m : Model} {l : Literal}
    (h : unitLiteral? opened m = some l) : l.var ∈ freeVars opened m := by
  obtain ⟨c, hc, hl⟩ := List.exists_of_findSome?_eq_some h
  obtain ⟨hm, hv⟩ := lastLiteral?_mem hl
  exact mem_freeVars.mpr ⟨mem_clauseVars.mpr ⟨c, hc, Clause.var_mem_vars hm⟩, hv⟩

-- The literal to be set without a choice.
def forced? (opened : List Clause) (m : Model) : Option Literal :=
  pureLiteral? opened m <|> unitLiteral? opened m

theorem forced?_free {cs opened : List Clause} {m : Model} {l : Literal}
    (ho : openClauses? cs m = some opened) (h : forced? opened m = some l) :
    l.var ∈ freeVars cs m := by
  have : l.var ∈ freeVars opened m := by
    unfold forced? at h
    cases hp : pureLiteral? opened m
    case none => exact unitLiteral?_free (by simpa [hp] using h)
    case some k => exact pureLiteral?_free (by simpa [hp] using h)
  obtain ⟨hv, hn⟩ := mem_freeVars.mp this
  obtain ⟨c, hc, hvc⟩ := mem_clauseVars.mp hv
  exact mem_freeVars.mpr ⟨mem_clauseVars.mpr ⟨c, mem_of_openClauses? ho hc, hvc⟩, hn⟩

-- The outcome of a search and the number of variables that were tried.
structure Result where
  model : Option Model
  decisions : Nat
deriving DecidableEq, Repr

-- Searches an extension of `m` that makes all clauses true.
def solve (cs : List Clause) (m : Model) : Result :=
  match ho : openClauses? cs m with
  | none => ⟨none, 0⟩
  | some [] => ⟨some m, 0⟩
  | some opened =>
    match hf : forced? opened m with
    | some l =>
      have := freeVars_extend_length l.positive (forced?_free ho hf)
      solve cs (m.assign l)
    | none =>
      match hv : freeVars cs m with
      | [] => ⟨none, 0⟩
      | v :: _ =>
        have free : v ∈ freeVars cs m := by simp [hv]
        have := freeVars_extend_length true free
        have := freeVars_extend_length false free
        let first := solve cs (m.extend v true)
        match first.model with
        | some m' => ⟨some m', first.decisions + 1⟩
        | none =>
          let second := solve cs (m.extend v false)
          ⟨second.model, first.decisions + second.decisions + 1⟩
termination_by (freeVars cs m).length

-- Searches a model of the sentence. Whatever the model leaves open can have any value.
def findModel (s : Sentence) : Traced (Option Model) := do
  let cs := s.clauses
  Traced.emit (.searching cs.length (clauseVars cs).size)
  let result := solve cs ∅
  Traced.emit (.searched result.decisions result.model.isSome)
  return result.model

def satisfiable (s : Sentence) : Traced Bool :=
  (findModel s).map Option.isSome

-- Whether the premise and the negated query have no model in common.
def entails (premise query : Sentence) : Traced Bool :=
  (satisfiable (.and premise query.not)).map (!·)

end Sentential.Dpll
