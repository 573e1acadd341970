import Sentential.Dpll
import Sentential.Horn.Chaining
import Sentential.KnowledgeBase.Basic
import Sentential.Precondition
import Sentential.Random.ChaCha
import Sentential.Saturation
import Sentential.Settings.Basic
import Sentential.TruthTable
import Sentential.WalkSat

namespace Sentential

-- Why a question has no answer.
inductive Failure where
  | parse (e : ParseError)
  | notHorn (e : NotHorn)
  | precondition (e : Precondition)
deriving Repr

namespace Failure

def message : Failure → String
  | parse e => "Could not parse sentence: " ++ e.message
  | notHorn e => e.message
  | precondition e => e.message

end Failure

namespace KnowledgeBase

-- Whether every model of the sentences is a model of the query.
def entailsByTruthTable (kb : KnowledgeBase) (query : Sentence) : Traced Bool :=
  TruthTable.entails kb.conjunction query

-- Whether the sentences and the negated query are refuted by resolution.
def entailsByResolution (kb : KnowledgeBase) (query : Sentence) : Traced Bool :=
  Saturation.entails kb.conjunction query

-- Whether the sentences and the negated query have no model.
def entailsByDpll (kb : KnowledgeBase) (query : Sentence) : Traced Bool :=
  Dpll.entails kb.conjunction query

-- Whether the sentences, all of them Horn clauses, let the query be inferred.
def entailsByChaining (kb : KnowledgeBase) (query : Var) : Except NotHorn (Traced Bool) :=
  (kb.sentences.mapM HornClause.ofSentence).map (Chaining.entails · query)

-- Decides by the given algorithm whether the sentences entail the query.
def entails (kb : KnowledgeBase) (query : Sentence) (algorithm : Algorithm) :
    Traced (Except Failure Bool) := do
  Traced.emit (.deciding query kb.size algorithm)
  match algorithm with
  | .truthTable => return .ok (← kb.entailsByTruthTable query)
  | .resolution => return .ok (← kb.entailsByResolution query)
  | .dpll => return .ok (← kb.entailsByDpll query)
  | .forwardChaining =>
    match query with
    | .var v =>
      match kb.entailsByChaining v with
      | .ok answer => return .ok (← answer)
      | .error e => return .error (.notHorn e)
    | _ => return .error (.precondition (.queryNotVariable query))

-- Decides by the given algorithm whether the sentences entail the written query.
def entailsText (kb : KnowledgeBase) (query : String) (algorithm : Algorithm) :
    Traced (Except Failure Bool) :=
  match Sentence.parse query with
  | .ok s => kb.entails s algorithm
  | .error e => return .error (.parse e)

end KnowledgeBase

namespace Settings

-- Searches a model of the sentence, drawing from the generator. There is no result if a draw does not
-- come to an end.
def search {σ : Type} (settings : Settings) (g : Random.Generator σ) (start : σ) (s : Sentence) :
    Option (Except Precondition (Traced (Option Model)) × σ) :=
  (WalkSat.search g s settings.maxFlips settings.probability).run start

-- Where the draws of a search start: from the seed, or from the fresh one if there is none.
def stream (settings : Settings) (fresh : UInt64) : Random.ChaCha.State :=
  .ofSeed (settings.seed.getD fresh)

def findModel (settings : Settings) (fresh : UInt64) (s : Sentence) :
    Option (Except Precondition (Traced (Option Model)) × Random.ChaCha.State) :=
  settings.search Random.ChaCha.generator (settings.stream fresh) s

end Settings
end Sentential
