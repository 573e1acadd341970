import Sentential.Clause.Basic

namespace Sentential.Dimacs

-- The variables in the order of their numbers.
def numbering (cs : List Clause) : List Var :=
  (clauseVars cs).toList

-- The number of a variable.
def number (vs : List Var) (v : Var) : Nat :=
  vs.idxOf v + 1

def literalText (vs : List Var) (l : Literal) : String :=
  (if l.positive then "" else "-") ++ toString (number vs l.var)

def clauseLine (vs : List Var) (c : Clause) : String :=
  String.join (c.literals.map fun l => literalText vs l ++ " ") ++ "0"

def nameLine (vs : List Var) (v : Var) : String :=
  s!"c {number vs v} " ++ v.name

def header (vs : List Var) (cs : List Clause) : String :=
  s!"p cnf {vs.length} {cs.length}"

-- The lines for the clauses: the names of the numbers, the header, and a line for each clause.
def lines (cs : List Clause) : List String :=
  let vs := numbering cs
  vs.map (nameLine vs) ++ [header vs cs] ++ cs.map (clauseLine vs)

-- The text for the clauses.
def encode (cs : List Clause) : String :=
  String.join ((lines cs).map (· ++ "\n"))

-- The characters of a text that fit into the given number of bytes.
def fitting (room : Nat) : List Char → List Char
  | [] => []
  | c :: cs => if c.utf8Size ≤ room then c :: fitting (room - c.utf8Size) cs else []

-- The text for the clauses, written where there is room for so many bytes. If it does not fit, the
-- error is what was written until then.
def encodeWithin (room : Nat) (cs : List Clause) : Except String String :=
  let text := encode cs
  if text.utf8ByteSize ≤ room then .ok text
  else .error (String.ofList (fitting room text.toList))

end Sentential.Dimacs
