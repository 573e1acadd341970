import Sentential.Clause.Basic

namespace Sentential.Clause

-- The clause as a chain of disjunctions, with negated variables in parentheses.
def text (c : Clause) : String :=
  if c.isEmpty then "FALSE"
  else " OR ".intercalate (c.literals.map disjunct)
where
  disjunct (l : Literal) : String :=
    if l.positive then l.var.name else "(NOT " ++ l.var.name ++ ")"

instance : ToString Clause where
  toString := text

def listing (c : Clause) : String :=
  "[" ++ ", ".intercalate (c.literals.map toString) ++ "]"

end Sentential.Clause
