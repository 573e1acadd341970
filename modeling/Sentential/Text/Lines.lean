import Sentential.Text.Blank

namespace Sentential.Text

-- Puts a character in front of a text that is cut into pieces.
def consPiece (separator c : Char) : List (List Char) → List (List Char)
  | [] => [[c]]
  | l :: ls => if c = separator then [] :: l :: ls else (c :: l) :: ls

-- Cuts a text at a separator. The text after the last one comes last, also if it is empty.
def split (separator : Char) (cs : List Char) : List (List Char) :=
  cs.foldr (consPiece separator) [[]]

-- The line without the carriage return at its end.
def dropReturn (l : List Char) : List Char :=
  if l.getLast? = some '\r' then l.dropLast else l

-- The lines of the pieces between line feeds.
def linesOfPieces : List (List Char) → List (List Char)
  | [] => []
  | [l] => if l = [] then [] else [l]
  | l :: ls => dropReturn l :: linesOfPieces ls

-- The lines of a text, the last one of which need not end with a line feed.
def lines (cs : List Char) : List (List Char) :=
  linesOfPieces (split '\n' cs)

-- The text without the white space at its ends.
def trim (cs : List Char) : List Char :=
  ((cs.dropWhile isBlank).reverse.dropWhile isBlank).reverse

end Sentential.Text
