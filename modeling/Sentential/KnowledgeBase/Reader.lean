import Sentential.KnowledgeBase.Basic
import Sentential.Text.Lines

namespace Sentential.KnowledgeBase

open Text

-- A line that is no sentence. Lines are counted from one.
structure LineError where
  line : Nat
  text : String
  cause : ParseError
deriving DecidableEq, Repr

namespace LineError

-- Which line it is.
def place (e : LineError) : String :=
  s!"line {e.line}: Could not parse '" ++ e.text ++ "'"

def message (e : LineError) : String :=
  e.place ++ ": " ++ e.cause.message

end LineError

-- Whether a trimmed line holds no sentence.
def isSkipped (line : List Char) : Bool :=
  line.isEmpty || line.head? = some '#'

-- Adds the sentences of the lines, of which the first one has the given number.
def tellLines (kb : KnowledgeBase) (number : Nat) :
    List (List Char) → Except LineError KnowledgeBase
  | [] => .ok kb
  | l :: ls =>
    let line := trim l
    if isSkipped line then kb.tellLines (number + 1) ls
    else
      match kb.tell (String.ofList line) with
      | .ok kb' => kb'.tellLines (number + 1) ls
      | .error cause => .error { line := number, text := String.ofList line, cause }

def read (text : String) : Except LineError KnowledgeBase :=
  tellLines ∅ 1 (lines text.toList)

end Sentential.KnowledgeBase
