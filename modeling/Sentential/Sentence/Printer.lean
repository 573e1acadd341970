import Sentential.Sentence.Basic

namespace Sentential.Sentence

-- The text of a sentence, with parentheses around everything but the atoms.
def text : Sentence → String
  | truth => "TRUE"
  | falsity => "FALSE"
  | var v => v.name
  | not s => "(NOT " ++ s.text ++ ")"
  | and l r => "(" ++ l.text ++ " AND " ++ r.text ++ ")"
  | or l r => "(" ++ l.text ++ " OR " ++ r.text ++ ")"
  | implies l r => "(" ++ l.text ++ " => " ++ r.text ++ ")"
  | iff l r => "(" ++ l.text ++ " <=> " ++ r.text ++ ")"

instance : ToString Sentence where
  toString := text

end Sentential.Sentence
