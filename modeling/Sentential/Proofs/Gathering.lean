import Mathlib.Logic.Relation
import Sentential.NormalForm.Basic
import Sentential.Ordered

namespace Sentential.Sentence

variable {s d : Sentence} {k : Literal}

theorem ne_and_of_mem_conjuncts (h : d ∈ s.conjuncts) (l r : Sentence) : d ≠ and l r := by
  induction s
  case and l' r' hl hr => exact (List.mem_append.mp h).elim hl hr
  all_goals
    cases List.mem_singleton.mp h
    exact nofun

namespace Gathering

variable {g g' : Gathering}

-- What the gathering is going to give.
def goal (g : Gathering) : List Sentence :=
  foundWith g.found (g.stack.flatMap conjuncts)

-- One step of the gathering leads from the first state to the second.
def Next (g g' : Gathering) : Prop :=
  g.step = some g'

-- The second state comes up in the gathering that starts in the first one.
def Reaches : Gathering → Gathering → Prop :=
  Relation.ReflTransGen Next

-- A conjunction has the conjuncts of its sides, and any other sentence is its own conjunct.
theorem Next.goal_eq (h : Next g g') : g'.goal = g.goal := by
  obtain ⟨l, r, rest, hs, rfl⟩ | ⟨s, rest, hn, hs, rfl⟩ := step_cases h
  · simp only [goal, hs, List.flatMap_cons, conjuncts, List.append_assoc]
  · simp only [goal, hs, List.flatMap_cons, conjuncts_of_ne hn, List.singleton_append, foundWith_insert]

theorem Reaches.goal_eq (h : Reaches g g') : g'.goal = g.goal := by
  induction h
  case refl => rfl
  case tail _ hn hi => exact hn.goal_eq.trans hi

theorem stack_of_step (h : g.step = none) : g.stack = [] := by
  unfold step at h
  split at h
  case h_1 hs => exact hs
  all_goals cases h

-- The loop comes to its end, and gives what it has found there.
theorem exists_end (g : Gathering) : ∃ g', Reaches g g' ∧ g'.stack = [] ∧ g'.found.reverse = g.run := by
  rw [run]
  split
  case h_1 h => exact ⟨g, .refl, stack_of_step h, rfl⟩
  case h_2 g₁ h =>
    have := work_step h
    obtain ⟨g', hr, hs, hf⟩ := exists_end g₁
    exact ⟨g', .head h hr, hs, hf⟩
termination_by g.work

theorem run_eq_goal (g : Gathering) : g.run = g.goal := by
  obtain ⟨g', hr, hs, hf⟩ := g.exists_end
  rw [← hf, ← hr.goal_eq, goal, hs, List.flatMap_nil, foundWith_nil]

end Gathering

theorem distinctConjuncts_eq (s : Sentence) : s.distinctConjuncts = s.conjuncts.eraseDups := by
  rw [distinctConjuncts, Gathering.run_eq_goal, Gathering.goal, Gathering.start, List.flatMap_singleton,
    nil_foundWith]

theorem foldDisjuncts_eq {α : Type} (f : α → Sentence → α) (a : α) (s : Sentence) :
    s.foldDisjuncts f a = s.disjuncts.foldl f a := by
  induction s generalizing a
  case or l r hl hr => rw [foldDisjuncts, disjuncts, List.foldl_append, hl, hr]
  all_goals rfl

theorem foldl_truth (ds : List Sentence) (b : Bool) :
    ds.foldl (fun b d => if d = truth then true else b) b ↔ b ∨ truth ∈ ds := by
  induction ds generalizing b
  case nil => simp
  case cons d ds hi =>
    rw [List.foldl_cons, hi, List.mem_cons]
    by_cases hd : d = truth
    case pos => simp [hd]
    case neg => simp [hd, Ne.symm hd]

theorem hasTruth_iff : s.hasTruth ↔ truth ∈ s.disjuncts := by
  rw [hasTruth, foldDisjuncts_eq, foldl_truth]
  simp

theorem clause_eq (s : Sentence) : s.clause = .ofLiterals (s.disjuncts.filterMap literal?) := by
  rw [clause, foldDisjuncts_eq, Clause.ofLiterals, List.foldl_filterMap]
  congr
  funext c d
  cases d.literal? <;> rfl

theorem literal?_eq_some_iff : s.literal? = some k ↔ s = ofLiteral k := by
  constructor
  case mp =>
    intro h
    unfold literal? at h
    split at h
    case h_1 | h_2 =>
      cases h
      rfl
    case h_3 => cases h
  case mpr => exact fun h => h ▸ literal?_ofLiteral k

theorem mem_clause : k ∈ s.clause ↔ ∃ d ∈ s.disjuncts, d.literal? = some k := by
  rw [clause_eq, Clause.mem_ofLiterals, List.mem_filterMap]

theorem mem_clause_iff_ofLiteral : k ∈ s.clause ↔ ofLiteral k ∈ s.disjuncts := by
  simp [mem_clause, literal?_eq_some_iff]

theorem reverse_foldl_addClause (ds : List Sentence) (cs : List Clause) :
    (ds.foldl addClause cs).reverse =
      foundWith cs ((ds.filter (truth ∉ ·.disjuncts)).map clause) := by
  induction ds generalizing cs
  case nil => simp
  case cons d ds hi =>
    rw [List.foldl_cons, hi, addClause]
    by_cases h : truth ∈ d.disjuncts
    case pos => simp [hasTruth_iff, h]
    case neg => simp [hasTruth_iff, h, foundWith_insert]

theorem clauses_eq (s : Sentence) :
    s.clauses = ((s.cnf.distinctConjuncts.filter (truth ∉ ·.disjuncts)).map clause).eraseDups := by
  rw [clauses, reverse_foldl_addClause, nil_foundWith]

-- The stack runs empty with the leaves of the tree of conjunctions found, each one once and in order. The
-- clauses are those of the leaves of the normal form of which no disjunct is true, again each one once and
-- in order.
theorem gathers_leaves (s : Sentence) :
    (∃ g, Gathering.Reaches (.start s) g ∧ g.stack = [] ∧ g.found.reverse = s.distinctConjuncts) ∧
    s.distinctConjuncts = s.conjuncts.eraseDups ∧ s.distinctConjuncts.Nodup ∧
    (∀ d ∈ s.distinctConjuncts, ∀ l r, d ≠ and l r) ∧
    s.clauses = ((s.cnf.distinctConjuncts.filter (truth ∉ ·.disjuncts)).map clause).eraseDups ∧
    ∀ d : Sentence, ∀ v, (v ∈ d.clause.positive ↔ var v ∈ d.disjuncts) ∧
      (v ∈ d.clause.negative ↔ not (var v) ∈ d.disjuncts) := by
  have hd := distinctConjuncts_eq s
  refine ⟨(Gathering.start s).exists_end, hd, hd ▸ nodup_eraseDups _, fun d hm => ?_, clauses_eq s,
    fun d v => ⟨?_, ?_⟩⟩
  · rw [hd, List.mem_eraseDups] at hm
    exact ne_and_of_mem_conjuncts hm
  · exact mem_clause_iff_ofLiteral (k := v.positive)
  · exact mem_clause_iff_ofLiteral (k := v.negative)

-- A leaf that comes twice, disjunctions that are the same clause, and constants.
theorem gathers_leaves_twice :
    let a := var ⟨"A"⟩
    let b := not (var ⟨"B"⟩)
    let s := and (and (or a b) a) (and (or truth b) (and a (or b (or falsity a))))
    let gathered := [or a b, a, or truth b, or b (or falsity a)]
    let c := Clause.ofLiterals [Var.positive ⟨"A"⟩]
    s.distinctConjuncts = gathered ∧ (or a b ∈ s.distinctConjuncts ∧ ∀ l r, or a b ≠ and l r) ∧
      s.clauses = [c.insert (Var.negative ⟨"B"⟩), c] := by
  intro a b s gathered c
  have ⟨_, hd, _, hn, hc, _⟩ := gathers_leaves s
  have hg : s.distinctConjuncts = gathered := hd.trans (by decide)
  have hm : or a b ∈ s.distinctConjuncts := hg ▸ List.mem_cons_self
  exact ⟨hg, ⟨hm, hn _ hm⟩, hc.trans (by decide +kernel)⟩

end Sentential.Sentence
