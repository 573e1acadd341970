import Sentential.Algorithm
import Sentential.Decimal.Shortest
import Sentential.Sentence.Printer

namespace Sentential

-- A demand on the input that is not met.
inductive Precondition where
  | unknownAlgorithm (name : String)
  | queryNotVariable (query : Sentence)
  | notProbability (p : Float)
deriving Repr

namespace Precondition

def message : Precondition → String
  | unknownAlgorithm name =>
    "Unknown algorithm '" ++ name ++ "', expected one of " ++
      ", ".intercalate (Algorithm.all.map Algorithm.name)
  | queryNotVariable query =>
    "Forward chaining needs a single variable as query, got " ++ query.text
  | notProbability p =>
    "Random walk probability must be between 0 and 1, got " ++ Decimal.render p

end Precondition

-- The algorithm of that name.
def Algorithm.ofName (name : String) : Except Precondition Algorithm :=
  match ofName? name with
  | some a => .ok a
  | none => .error (.unknownAlgorithm name)

-- Whether the number lies between zero and one, which what is no number does not.
def isProbability (p : Float) : Bool :=
  0 ≤ p && p ≤ 1

-- Makes sure that the number is a probability.
def checkProbability (p : Float) : Except Precondition Unit :=
  if isProbability p then .ok () else .error (.notProbability p)

end Sentential
