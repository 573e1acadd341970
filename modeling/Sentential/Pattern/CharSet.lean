import Sentential.Text.Blank
import Sentential.Text.Digit
import Sentential.Text.Joiner
import Sentential.Text.Letter

namespace Sentential

inductive CharSet where
  | none
  -- The characters from the first to the second, both included.
  | range (lo hi : Char)
  | digit
  | blank
  -- Letters, digits, and what joins them.
  | word
  | outside (s : CharSet)
  | either (s t : CharSet)
  | both (s t : CharSet)
deriving DecidableEq, Repr

namespace CharSet

def single (c : Char) : CharSet :=
  range c c

def any : CharSet :=
  outside none

def ofRanges (rs : List (Char × Char)) : CharSet :=
  rs.foldl (fun s r => either s (range r.1 r.2)) none

-- What is in the first set, but not in the second.
def without (s t : CharSet) : CharSet :=
  both s (outside t)

-- What is in exactly one of the sets.
def differing (s t : CharSet) : CharSet :=
  either (without s t) (without t s)

-- Whether the character belongs to words.
def isWordPart (c : Char) : Bool :=
  Text.isLetter c || Text.isDecimalDigit c || Text.isJoiner c

-- Whether the set has the character. If case is folded, a range also has the letters whose other
-- case it has.
def contains (fold : Bool) : CharSet → Char → Bool
  | none, _ => false
  | range lo hi, c =>
    let within (c : Char) : Bool := lo ≤ c ∧ c ≤ hi
    within c || fold && (within c.toLower || within c.toUpper)
  | digit, c => Text.isDecimalDigit c
  | blank, c => Text.isBlank c
  | word, c => isWordPart c
  | outside s, c => !s.contains fold c
  | either s t, c => s.contains fold c || t.contains fold c
  | both s t, c => s.contains fold c && t.contains fold c

end CharSet
end Sentential
