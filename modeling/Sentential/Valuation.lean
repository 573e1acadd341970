import Sentential.KnowledgeBase.Basic
import Sentential.Model.Basic

namespace Sentential

-- An assignment of truth values to all variables.
abbrev Valuation := Var → Bool

namespace Valuation

def holds (ν : Valuation) : Sentence → Bool
  | .truth => true
  | .falsity => false
  | .var v => ν v
  | .not s => !ν.holds s
  | .and l r => ν.holds l && ν.holds r
  | .or l r => ν.holds l || ν.holds r
  | .implies l r => !ν.holds l || ν.holds r
  | .iff l r => ν.holds l == ν.holds r

-- Some literal of the clause is true.
def Satisfies (ν : Valuation) (c : Clause) : Prop :=
  ∃ l ∈ c, ν l.var = l.positive

-- The valuation has all the values of the model.
def Extends (ν : Valuation) (m : Model) : Prop :=
  ∀ v b, m.value v = some b → ν v = b

end Valuation

namespace KnowledgeBase

-- The query is true whenever all that is known is.
def Entails (kb : KnowledgeBase) (query : Sentence) : Prop :=
  ∀ ν : Valuation, (∀ s ∈ kb.sentences, ν.holds s) → ν.holds query

end KnowledgeBase
end Sentential
