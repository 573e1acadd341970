import Sentential.Model.Basic
import Sentential.Text.Lines

namespace Sentential.CommandLine

inductive Verdict where
  | entailed
  | notEntailed
  | satisfiable (m : Model)
  | unsatisfiable
  -- No model was found, which does not mean that there is none.
  | unknown
deriving DecidableEq, Repr

namespace Verdict

-- A literal that holds, as a variable with a dash in front of it if it is false.
def literalText (l : Literal) : String :=
  if l.positive then l.var.name else "-" ++ l.var.name

-- The literals that hold, in name order.
def modelLine (m : Model) : String :=
  " ".intercalate ("v" :: m.literals.map literalText)

-- The variable and the value that a word gives it.
def readWord : List Char → Var × Bool
  | '-' :: name => (⟨String.ofList name⟩, false)
  | name => (⟨String.ofList name⟩, true)

-- Reads a line that gives a model. The variables have to be in name order, so that none is there twice.
def readModel? (line : String) : Option Model :=
  match Text.split ' ' line.toList with
  | ['v'] :: words =>
    let entries := words.map readWord
    if h : entries.Pairwise (·.1 < ·.1) then some ⟨entries, h⟩ else none
  | _ => none

def lines : Verdict → List String
  | entailed => ["s ENTAILED"]
  | notEntailed => ["s NOT ENTAILED"]
  | satisfiable m => ["s SATISFIABLE", modelLine m]
  | unsatisfiable => ["s UNSATISFIABLE"]
  | unknown => ["s UNKNOWN"]

def exitCode : Verdict → UInt32
  | entailed | satisfiable _ => 10
  | notEntailed | unsatisfiable => 20
  | unknown => 0

end Verdict
end Sentential.CommandLine
