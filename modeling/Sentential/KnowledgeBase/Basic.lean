import Sentential.Parser
import Sentential.Sentence.Printer

namespace Sentential

-- What is known, in the order in which it was told.
structure KnowledgeBase where
  sentences : List Sentence := []
deriving DecidableEq, Repr

namespace KnowledgeBase

instance : EmptyCollection KnowledgeBase where
  emptyCollection := {}

def size (kb : KnowledgeBase) : Nat :=
  kb.sentences.length

def isEmpty (kb : KnowledgeBase) : Bool :=
  kb.sentences.isEmpty

def extend (kb : KnowledgeBase) (ss : List Sentence) : KnowledgeBase :=
  ⟨kb.sentences ++ ss⟩

def tell (kb : KnowledgeBase) (text : String) : Except ParseError KnowledgeBase :=
  (Sentence.parse text).map fun s => kb.extend [s]

-- Adds the sentences that the texts are, up to the first one that is none.
def tellAll (kb : KnowledgeBase) : List String → Except ParseError Unit × KnowledgeBase
  | [] => (.ok (), kb)
  | text :: texts =>
    match kb.tell text with
    | .ok kb' => kb'.tellAll texts
    | .error e => (.error e, kb)

-- All sentences in one, if there are any.
def conjunction? (kb : KnowledgeBase) : Option Sentence :=
  Sentence.conjunction? kb.sentences

-- All sentences in one, which is constantly true if there are none.
def conjunction (kb : KnowledgeBase) : Sentence :=
  Sentence.conjunction kb.sentences

def listing (kb : KnowledgeBase) : String :=
  "KnowledgeBase \x7b sentences: [" ++ ", ".intercalate (kb.sentences.map Sentence.text) ++ "] \x7d"

end KnowledgeBase
end Sentential
