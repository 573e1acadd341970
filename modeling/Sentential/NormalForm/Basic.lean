import Sentential.Clause.Basic
import Sentential.Sentence.Basic

namespace Sentential.Sentence

-- The normal form of the disjunction of two sentences in normal form.
--
-- A conjunction on the right is split first, then one on the left, and what stood beside it moves to
-- the right of each half.
def distribute (l r : Sentence) : Sentence :=
  match l, r with
  | l, and x y => and (distribute x l) (distribute y l)
  | and x y, r => and (distribute x r) (distribute y r)
  | l, r => or l r
termination_by sizeOf l + sizeOf r

mutual

-- An equivalent sentence in conjunctive normal form. Constants may remain, but are not negated.
def cnf : Sentence → Sentence
  | truth => truth
  | falsity => falsity
  | var v => var v
  | not s => s.negatedCnf
  | and l r => and l.cnf r.cnf
  | or l r => distribute l.cnf r.cnf
  | implies l r => distribute l.negatedCnf r.cnf
  | iff l r => and (distribute l.negatedCnf r.cnf) (distribute r.negatedCnf l.cnf)

-- The normal form of the negation, found by pushing the negation inwards.
def negatedCnf : Sentence → Sentence
  | truth => falsity
  | falsity => truth
  | var v => not (var v)
  | not s => s.cnf
  | and l r => distribute l.negatedCnf r.negatedCnf
  | or l r => and l.negatedCnf r.negatedCnf
  | implies l r => and l.cnf r.negatedCnf
  | iff l r => and (distribute l.cnf r.cnf) (distribute l.negatedCnf r.negatedCnf)

end

-- The leaves of the outermost tree of conjunctions, from left to right.
def conjuncts : Sentence → List Sentence
  | and l r => l.conjuncts ++ r.conjuncts
  | s => [s]

-- The number of sentences in the outermost tree of conjunctions.
def conjunctionSize : Sentence → Nat
  | and l r => l.conjunctionSize + r.conjunctionSize + 1
  | _ => 1

theorem conjuncts_of_ne {s : Sentence} (h : ∀ l r, s ≠ and l r) : s.conjuncts = [s] := by
  cases s
  case and l r => exact absurd rfl (h l r)
  all_goals rfl

theorem conjunctionSize_of_ne {s : Sentence} (h : ∀ l r, s ≠ and l r) : s.conjunctionSize = 1 := by
  cases s
  case and l r => exact absurd rfl (h l r)
  all_goals rfl

-- A search for conjuncts: those found so far, the last one first, and the sentences that the others
-- are in, the next one first.
structure Gathering where
  found : List Sentence
  stack : List Sentence
deriving DecidableEq, Repr

namespace Gathering

def start (s : Sentence) : Gathering where
  found := []
  stack := [s]

-- Takes the next sentence from the stack. Of a conjunction both sides go back, the left one on top,
-- and anything else is found, unless it was found before.
def step (g : Gathering) : Option Gathering :=
  match g.stack with
  | [] => none
  | and l r :: rest => some { g with stack := l :: r :: rest }
  | s :: rest => some { found := g.found.insert s, stack := rest }

theorem step_cases {g g' : Gathering} (h : g.step = some g') :
    (∃ l r rest, g.stack = and l r :: rest ∧ g' = { g with stack := l :: r :: rest }) ∨
      ∃ s rest, (∀ l r, s ≠ and l r) ∧ g.stack = s :: rest ∧
        g' = { found := g.found.insert s, stack := rest } := by
  unfold step at h
  split at h
  case h_1 => cases h
  case h_2 l r rest hs => exact .inl ⟨l, r, rest, hs, (Option.some.inj h).symm⟩
  case h_3 s rest hn hs => exact .inr ⟨s, rest, hn, hs, (Option.some.inj h).symm⟩

-- The number of steps that are left.
def work (g : Gathering) : Nat :=
  g.stack.foldr (fun s n => s.conjunctionSize + n) 0

theorem work_step {g g' : Gathering} (h : g.step = some g') : g.work = g'.work + 1 := by
  obtain ⟨l, r, rest, hs, rfl⟩ | ⟨s, rest, hn, hs, rfl⟩ := step_cases h
  · simp only [work, hs, List.foldr_cons, conjunctionSize]
    omega
  · simp only [work, hs, List.foldr_cons, conjunctionSize_of_ne hn]
    omega

-- Goes on until the stack is empty, and gives what was found, in order.
def run (g : Gathering) : List Sentence :=
  match h : g.step with
  | none => g.found.reverse
  | some g' =>
    have := work_step h
    g'.run
termination_by g.work

end Gathering

-- The different conjuncts, in order of first occurrence.
def distinctConjuncts (s : Sentence) : List Sentence :=
  (Gathering.start s).run

-- The leaves of the outermost tree of disjunctions, from left to right.
def disjuncts : Sentence → List Sentence
  | or l r => l.disjuncts ++ r.disjuncts
  | s => [s]

-- Goes through the disjuncts from left to right.
def foldDisjuncts {α : Type} (f : α → Sentence → α) (a : α) : Sentence → α
  | or l r => r.foldDisjuncts f (l.foldDisjuncts f a)
  | s => f a s

-- Whether one of the disjuncts is the constant true sentence.
def hasTruth (s : Sentence) : Bool :=
  s.foldDisjuncts (fun satisfied d => if d = truth then true else satisfied) false

-- The clause of the literals among the disjuncts. Whatever is no literal is passed over.
def clause (s : Sentence) : Clause :=
  s.foldDisjuncts (fun c d => match d.literal? with
    | some l => c.insert l
    | none => c) ∅

-- The clauses so far, the last one first, with that of a disjunction, unless they have it already.
def addClause (cs : List Clause) (d : Sentence) : List Clause :=
  if d.hasTruth then cs else cs.insert d.clause

-- The clauses of the normal form, each one once.
def clauses (s : Sentence) : List Clause :=
  (s.cnf.distinctConjuncts.foldl addClause []).reverse

end Sentential.Sentence
