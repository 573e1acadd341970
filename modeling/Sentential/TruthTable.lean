import Sentential.Event
import Sentential.Model.Basic

namespace Sentential.TruthTable

-- Whether the query holds wherever the premise does, among the extensions of `m` to the variables
-- of `vs`.
def holdsThroughout (premise query : Sentence) : List Var → Model → Bool
  | [], m => m.eval premise ≠ some true || m.eval query = some true
  | v :: vs, m =>
    holdsThroughout premise query vs (m.extend v true) &&
      holdsThroughout premise query vs (m.extend v false)

-- Whether every model of the premise is a model of the query.
def entails (premise query : Sentence) : Traced Bool := do
  let vars := premise.vars.union query.vars
  Traced.emit (.enumerating vars.size)
  return holdsThroughout premise query vars.toList ∅

end Sentential.TruthTable
