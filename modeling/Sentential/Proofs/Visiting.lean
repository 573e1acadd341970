import Mathlib.Data.List.Basic
import Sentential.Horn.Chaining

namespace Sentential

namespace PremiseIndex

variable {index : PremiseIndex} {v w : Var} {i k : Nat} {vs : List Var} {cs : List HornClause}

theorem places_add :
    (index.add i v).places w = if w = v then index.places w ++ [i] else index.places w := by
  rw [places, add, VarMap.find?_insert]
  split
  case isTrue he => rw [he, Option.getD_some]
  case isFalse => rfl

-- Premises are listed once each, so the place is noted once at most.
theorem places_foldl_add (hn : vs.Nodup) :
    (vs.foldl (add i) index).places w = if w ∈ vs then index.places w ++ [i] else index.places w := by
  induction vs generalizing index
  case nil => simp
  case cons v vs hi =>
    have ⟨hv, hn⟩ := List.nodup_cons.mp hn
    rw [List.foldl_cons, hi hn, places_add]
    grind

theorem places_foldl_clauses :
    ((cs.zipIdx k).foldl (fun index (c, i) => c.premises.foldl (add i) index) index).places v =
      index.places v ++ cs.findIdxs (v ∈ ·.premises) k := by
  induction cs generalizing index k
  case nil => simp
  case cons c cs hi =>
    rw [List.zipIdx_cons, List.foldl_cons, hi, places_foldl_add c.nodup, List.findIdxs_cons]
    by_cases hv : v ∈ c.premises
    case pos => simp [hv]
    case neg => simp [hv]

theorem places_ofClauses : (ofClauses cs).places v = cs.findIdxs (v ∈ ·.premises) :=
  places_foldl_clauses.trans (List.nil_append _)

end PremiseIndex

namespace Chaining

variable {query v : Var} {r : Rule} {s : State}

-- The rule once `v` is inferred.
def Rule.discharge (v : Var) (r : Rule) : Rule :=
  if v ∈ r.clause.premises then r.countDown else r

-- Whether `v` is the last premise that is missing.
def Rule.firesOn (v : Var) (r : Rule) : Bool :=
  v ∈ r.clause.premises ∧ r.missing = 1

theorem Rule.firesOn_iff : r.firesOn v ↔ v ∈ r.clause.premises ∧ r.missing = 1 := by
  simp [firesOn]

-- A rule fires just if its count comes down to zero.
theorem Rule.firesOn_iff_discharge :
    r.firesOn v ↔ r.missing ≠ 0 ∧ (r.discharge v).missing = 0 := by
  rw [firesOn_iff, discharge]
  split
  case isTrue hv =>
    simp only [hv, true_and, countDown]
    omega
  case isFalse hv => simp [hv]

@[simp]
theorem Rule.clause_discharge (v : Var) (r : Rule) : (r.discharge v).clause = r.clause := by
  unfold discharge
  split <;> rfl

-- The heads of the rules that fire once `v` is inferred.
def firedHeads (v : Var) (rules : List Rule) : List Var :=
  (rules.filter (Rule.firesOn v)).map (·.clause.head)

theorem firedHeads_cons (v : Var) (r : Rule) (rules : List Rule) : firedHeads v (r :: rules) =
    if r.firesOn v then r.clause.head :: firedHeads v rules else firedHeads v rules := by
  rw [firedHeads, List.filter_cons, apply_ite (List.map _), List.map_cons]
  rfl

-- The rules before the place that is visited next are done with, and those from there on are still as
-- they were.
theorem visit_findIdxs (query v : Var) (done rules : List Rule) (agenda : List Var) :
    visit query (rules.findIdxs (v ∈ ·.clause.premises) done.length) (done ++ rules) agenda =
      if query ∈ firedHeads v rules then none
      else some (done ++ rules.map (Rule.discharge v), agenda ++ firedHeads v rules) := by
  induction rules generalizing done agenda
  case nil => simp [visit, firedHeads]
  case cons r rules hi =>
    have hi (r' : Rule) (agenda : List Var) : visit query
        (rules.findIdxs (v ∈ ·.clause.premises) (done.length + 1)) (done ++ r' :: rules) agenda =
        if query ∈ firedHeads v rules then none
        else some (done ++ r' :: rules.map (Rule.discharge v), agenda ++ firedHeads v rules) := by
      simpa using hi (done ++ [r']) agenda
    rw [List.findIdxs_cons, firedHeads_cons, List.map_cons]
    by_cases hv : v ∈ r.clause.premises
    case neg => simp [hv, hi, Rule.firesOn, Rule.discharge]
    case pos =>
      have hg : (done ++ r :: rules)[done.length]? = some r := by simp
      have hs : (done ++ r :: rules).set done.length r.countDown = done ++ r.countDown :: rules := by simp
      simp only [decide_eq_true hv, if_true, visit, hg, hs]
      by_cases hm : r.missing = 1
      case neg => simp [hv, hm, hi, Rule.firesOn, Rule.discharge]
      case pos =>
        by_cases hq : r.clause.head = query
        case pos => simp [hv, hm, hq, Rule.firesOn]
        case neg => simp [hv, hm, hq, Ne.symm hq, hi, Rule.firesOn, Rule.discharge]

-- The state once `v` is inferred, with `rest` left of the agenda.
def State.infer (s : State) (v : Var) (rest : List Var) : State where
  rules := s.rules.map (Rule.discharge v)
  index := s.index
  inferred := s.inferred.insert v
  agenda := rest ++ firedHeads v s.rules
  indexed := by simpa [Function.comp_def] using s.indexed

theorem State.places_index (s : State) (v : Var) :
    s.index.places v = s.rules.findIdxs (v ∈ ·.clause.premises) := by
  rw [s.indexed, PremiseIndex.places_ofClauses, List.findIdxs_map]
  rfl

-- What a look into the index comes to is the same as asking every rule.
theorem State.conclude_eq (s : State) (query v : Var) (rest : List Var) : s.conclude query v rest =
    if query ∈ firedHeads v s.rules then .inl .reached else .inr (s.infer v rest) := by
  have hv := visit_findIdxs query v [] s.rules rest
  rw [List.nil_append, List.length_nil, ← s.places_index, List.nil_append] at hv
  unfold conclude
  split
  case h_1 h =>
    rw [h] at hv
    split at hv
    case isTrue hq => rw [if_pos hq]
    case isFalse => cases hv
  case h_2 rules agenda h =>
    rw [h] at hv
    split at hv
    case isTrue => cases hv
    case isFalse hq =>
      cases hv
      rw [if_neg hq, infer]

end Chaining
end Sentential
