import Sentential.Sentence.Basic
import Sentential.Token

namespace Sentential

namespace Connective

-- How the connective is written.
def token : Connective → Token
  | and => .and
  | or => .or
  | implies => .implies
  | iff => .iff

end Connective

namespace Grammar

-- The token between the first two sentences makes them the third one.
inductive Joins : Token → Sentence → Sentence → Sentence → Prop
  | and {l r : Sentence} : Joins .and l r (.and l r)
  | or {l r : Sentence} : Joins .or l r (.or l r)
  | implies {l r : Sentence} : Joins .implies l r (.implies l r)
  | iff {l r : Sentence} : Joins .iff l r (.iff l r)

mutual

-- The tokens are the sentence.
inductive IsSentence : List Token → Sentence → Prop
  | not {ts : List Token} {s : Sentence} : IsSentence ts s → IsSentence (.not :: ts) (.not s)
  | operand {ts : List Token} {s : Sentence} : IsOperand ts s → IsSentence ts s
  | joined {ts us : List Token} {t : Token} {l r s : Sentence} :
      IsOperand ts l → Joins t l r s → IsSentence us r → IsSentence (ts ++ t :: us) s

-- The tokens are the sentence, and a connective after them does not become part of it.
inductive IsOperand : List Token → Sentence → Prop
  | truth : IsOperand [.truth] .truth
  | falsity : IsOperand [.falsity] .falsity
  | name (n : String) : IsOperand [.name n] (.var ⟨n⟩)
  | parens {ts : List Token} {s : Sentence} :
      IsSentence ts s → IsOperand (.leftParen :: ts ++ [.rightParen]) s

end

end Grammar
end Sentential
