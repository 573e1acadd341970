namespace Sentential

-- The ways to decide whether a knowledge base entails a sentence.
inductive Algorithm where
  -- Go through all assignments.
  | truthTable
  -- Refute the negated query by resolution.
  | resolution
  -- Infer variables from Horn clauses until the query is among them.
  | forwardChaining
  -- Search a model of the negated query.
  | dpll
deriving DecidableEq, Repr

namespace Algorithm

def name : Algorithm → String
  | truthTable => "tt"
  | resolution => "resolution"
  | forwardChaining => "fc"
  | dpll => "dpll"

instance : ToString Algorithm where
  toString := name

-- All algorithms, in the order in which they are offered.
def all : List Algorithm :=
  [truthTable, resolution, forwardChaining, dpll]

-- The algorithm of that name, short or long, in letters of either case.
def ofName? (name : String) : Option Algorithm :=
  match String.ofList (name.toList.map Char.toLower) with
  | "tt" | "truth-table" => some truthTable
  | "resolution" => some resolution
  | "fc" | "forward-chaining" => some forwardChaining
  | "dpll" => some dpll
  | _ => none

end Algorithm
end Sentential
