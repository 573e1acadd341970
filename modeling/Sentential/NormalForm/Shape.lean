import Sentential.Sentence.Basic

namespace Sentential.Sentence

-- Whether the sentence is a constant, a variable or a negated variable.
def isPlain : Sentence → Bool
  | truth | falsity | var _ | not (var _) => true
  | _ => false

-- Whether the sentence is a tree of disjunctions of plain sentences.
def isDisjunction : Sentence → Bool
  | or l r => l.isDisjunction && r.isDisjunction
  | s => s.isPlain

-- Whether the sentence is in conjunctive normal form.
def isNormal : Sentence → Bool
  | and l r => l.isNormal && r.isNormal
  | s => s.isDisjunction

end Sentential.Sentence
