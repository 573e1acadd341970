import Sentential.Algorithm
import Sentential.Clause.Printer
import Sentential.Sentence.Printer

namespace Sentential

-- A step of a procedure that is worth a line in the log.
inductive Event where
  | deciding (query : Sentence) (sentences : Nat) (algorithm : Algorithm)
  | enumerating (vars : Nat)
  | resolutionRound (number clauses fresh : Nat)
  | emptyClauseDerived (left right : Clause)
  | saturated (clauses : Nat)
  | inferred (v : Var)
  | searching (clauses vars : Nat)
  | searched (decisions : Nat) (satisfiable : Bool)
  | emptyClauseGiven
  | modelFoundAfter (flips : Nat)
  | modelFoundLast
  | gaveUp (flips : Nat)
deriving DecidableEq, Repr

namespace Event

def message : Event → String
  | deciding query sentences algorithm =>
    "Deciding entailment of " ++ query.text ++ s!" from {sentences} sentences using " ++
      algorithm.name
  | enumerating vars => s!"Enumerating assignments of {vars} variables"
  | resolutionRound number clauses fresh =>
    s!"Resolution round {number}: {clauses} clauses ({fresh} new)"
  | emptyClauseDerived left right =>
    "Derived the empty clause from " ++ left.text ++ " and " ++ right.text
  | saturated clauses => s!"Saturated with {clauses} clauses"
  | inferred v => "Inferred " ++ v.name
  | searching clauses vars => s!"DPLL on {clauses} clauses over {vars} variables"
  | searched decisions satisfiable =>
    s!"DPLL finished after {decisions} decisions: " ++
      if satisfiable then "satisfiable" else "unsatisfiable"
  | emptyClauseGiven => "WalkSAT input contains the empty clause"
  | modelFoundAfter flips => s!"WalkSAT found a model after {flips} flips"
  | modelFoundLast => "WalkSAT found a model with its last flip"
  | gaveUp flips => s!"WalkSAT gave up after {flips} flips"

-- What the event is about, by which events can be picked from a log.
def topic : Event → String
  | deciding .. => "entails"
  | enumerating .. => "tt_entails"
  | resolutionRound .. | emptyClauseDerived .. | saturated .. => "resolution"
  | inferred .. => "forward_chaining"
  | searching .. | searched .. => "dpll"
  | emptyClauseGiven | modelFoundAfter .. | modelFoundLast | gaveUp .. => "walksat"

end Event

-- A value and the events on the way to it.
structure Traced (α : Type) where
  value : α
  events : List Event

namespace Traced

variable {α β : Type}

instance : Monad Traced where
  pure x := ⟨x, []⟩
  bind t f :=
    let u := f t.value
    ⟨u.value, t.events ++ u.events⟩

def emit (e : Event) : Traced Unit :=
  ⟨(), [e]⟩

def map (f : α → β) (t : Traced α) : Traced β :=
  ⟨f t.value, t.events⟩

@[simp]
theorem value_pure (x : α) : (pure x : Traced α).value = x :=
  rfl

@[simp]
theorem value_bind (t : Traced α) (f : α → Traced β) : (t >>= f).value = (f t.value).value :=
  rfl

@[simp]
theorem events_bind (t : Traced α) (f : α → Traced β) :
    (t >>= f).events = t.events ++ (f t.value).events :=
  rfl

end Traced
end Sentential
