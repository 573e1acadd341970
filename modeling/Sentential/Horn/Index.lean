import Sentential.Horn.Basic
import Sentential.VarMap

namespace Sentential

-- For each variable, where the clauses stand of which it is a premise.
structure PremiseIndex extends VarMap (List Nat)
deriving DecidableEq, Repr

namespace PremiseIndex

instance : EmptyCollection PremiseIndex where
  emptyCollection := { entries := [] }

def places (index : PremiseIndex) (v : Var) : List Nat :=
  (index.find? v).getD []

-- Notes that the clause at the place has the premise.
def add (i : Nat) (index : PremiseIndex) (v : Var) : PremiseIndex where
  toVarMap := index.insert v (index.places v ++ [i])

def ofClauses (cs : List HornClause) : PremiseIndex :=
  cs.zipIdx.foldl (fun index (c, i) => c.premises.foldl (add i) index) ∅

end PremiseIndex
end Sentential
