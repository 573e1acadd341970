import Sentential.Event
import Sentential.Horn.Index

namespace Sentential.Chaining

-- A clause and the number of its premises that are not inferred yet.
structure Rule where
  clause : HornClause
  missing : Nat
deriving DecidableEq, Repr

namespace Rule

def ofClause (c : HornClause) : Rule where
  clause := c
  missing := c.premises.length

-- The rule with one premise less missing.
def countDown (r : Rule) : Rule :=
  { r with missing := r.missing - 1 }

end Rule

-- The rules, the variables inferred so far, and those waiting to be looked at.
structure State where
  rules : List Rule
  index : PremiseIndex
  inferred : VarSet
  agenda : List Var
  indexed : index = .ofClauses (rules.map Rule.clause)
deriving DecidableEq, Repr

namespace State

def start (cs : List HornClause) : State where
  rules := cs.map .ofClause
  index := .ofClauses cs
  inferred := ∅
  agenda := (cs.filter HornClause.isFact).map HornClause.head
  indexed := by simp [Function.comp_def, Rule.ofClause]

end State

-- Visits the rules at the places, which all have a premise that has just been inferred. If it was the
-- last one missing, the head goes onto the agenda. There is no result if such a head is the query.
def visit (query : Var) : List Nat → List Rule → List Var → Option (List Rule × List Var)
  | [], rules, agenda => some (rules, agenda)
  | i :: is, rules, agenda =>
    match rules[i]? with
    | none => visit query is rules agenda
    | some r =>
      if r.missing = 1 then
        if r.clause.head = query then none
        else visit query is (rules.set i r.countDown) (agenda ++ [r.clause.head])
      else visit query is (rules.set i r.countDown) agenda

-- The number of premises that are missing in all rules together.
def missing (rules : List Rule) : Nat :=
  rules.foldr (fun r n => r.missing + n) 0

theorem missing_set {i : Nat} {r : Rule} {rules : List Rule} (r' : Rule) (h : rules[i]? = some r) :
    missing (rules.set i r') + r.missing = missing rules + r'.missing := by
  induction rules generalizing i
  case nil => simp at h
  case cons q rules hi =>
    cases i
    case zero =>
      cases h
      simp only [List.set_cons_zero, missing, List.foldr_cons]
      omega
    case succ i =>
      have := hi h
      simp only [List.set_cons_succ, missing, List.foldr_cons] at this ⊢
      omega

variable {query : Var} {is : List Nat} {rules rules' : List Rule} {agenda agenda' : List Var}

theorem map_clause_set {i : Nat} {r r' : Rule} (h : rules[i]? = some r) (hr : r'.clause = r.clause) :
    (rules.set i r').map Rule.clause = rules.map Rule.clause := by
  obtain ⟨hi, rfl⟩ := List.getElem?_eq_some_iff.mp h
  have hm : i < (rules.map Rule.clause).length := by rwa [List.length_map]
  rw [List.map_set, hr, ← List.getElem_map (h := hm), List.set_getElem_self]

-- A rule that puts its head onto the agenda had a premise missing, and so pays for it.
theorem visit_keeps (h : visit query is rules agenda = some (rules', agenda')) :
    rules'.map Rule.clause = rules.map Rule.clause ∧
      missing rules' + agenda'.length ≤ missing rules + agenda.length := by
  fun_induction visit query is rules agenda
  case case1 =>
    cases h
    exact ⟨rfl, Nat.le_refl _⟩
  case case2 hi => exact hi h
  case case3 => cases h
  case case4 r hr hm _ hi =>
    have ⟨hc, hw⟩ := hi h
    have := missing_set r.countDown hr
    refine ⟨hc.trans (map_clause_set hr rfl), ?_⟩
    simp only [Rule.countDown, List.length_append, List.length_singleton] at this hw
    omega
  case case5 r hr hm hi =>
    have ⟨hc, hw⟩ := hi h
    have := missing_set r.countDown hr
    refine ⟨hc.trans (map_clause_set hr rfl), ?_⟩
    simp only [Rule.countDown] at this hw
    omega

-- The outcome of chaining: the query was reached, or the agenda ran out without it.
inductive Outcome where
  | reached
  | exhausted (inferred : VarSet)
deriving DecidableEq, Repr

namespace Outcome

def isReached : Outcome → Bool
  | reached => true
  | exhausted _ => false

end Outcome

-- Infers `v`, with `rest` left of the agenda.
def State.conclude (query : Var) (s : State) (v : Var) (rest : List Var) : Outcome ⊕ State :=
  match h : visit query (s.index.places v) s.rules rest with
  | none => .inl .reached
  | some (rules, agenda) =>
    .inr
      { rules, agenda
        index := s.index
        inferred := s.inferred.insert v
        indexed := (visit_keeps h).left ▸ s.indexed }

-- Takes one variable from the agenda. This either settles the matter or leads to a next state.
def step (query : Var) (s : State) : Traced (Outcome ⊕ State) :=
  match s.agenda with
  | [] => return .inl (.exhausted s.inferred)
  | v :: rest =>
    if v = query then return .inl .reached
    else if v ∈ s.inferred then return .inr { s with agenda := rest }
    else do
      Traced.emit (.inferred v)
      return s.conclude query v rest

-- A bound on the number of steps.
def State.work (s : State) : Nat :=
  missing s.rules + s.agenda.length

theorem work_conclude {s s' : State} {v : Var} {rest : List Var}
    (h : s.conclude query v rest = .inr s') : s'.work ≤ missing s.rules + rest.length := by
  unfold State.conclude at h
  split at h
  case h_1 => cases h
  case h_2 hv =>
    cases h
    exact (visit_keeps hv).right

theorem work_step {s s' : State} (h : (step query s).value = .inr s') : s'.work < s.work := by
  unfold step at h
  split at h
  case h_1 => cases h
  case h_2 v rest ha =>
    have hs : s.work = missing s.rules + rest.length + 1 := by rw [State.work, ha, List.length_cons]; rfl
    split at h
    case isTrue => cases h
    case isFalse =>
      split at h
      case isTrue =>
        cases h
        exact hs ▸ Nat.lt_succ_self _
      case isFalse => exact hs ▸ Nat.lt_succ_of_le (work_conclude h)

-- Works the agenda off until the query turns up.
def run (query : Var) (s : State) : Traced Outcome :=
  let t := step query s
  match h : t.value with
  | .inl o => ⟨o, t.events⟩
  | .inr s' =>
    have := work_step h
    let u := run query s'
    ⟨u.value, t.events ++ u.events⟩
termination_by s.work

-- Whether the clauses entail the variable.
def entails (cs : List HornClause) (query : Var) : Traced Bool :=
  (run query (.start cs)).map Outcome.isReached

end Sentential.Chaining
