import Sentential.Decimal.Reader
import Sentential.Pattern.Basic
import Sentential.Text.Word

namespace Sentential.Pattern

-- How letters, line ends and dots are to be understood.
structure Mode where
  foldCase : Bool := false
  -- Whether `^` and `$` also stand for the ends of lines.
  byLine : Bool := false
  -- Whether the dot also stands for a line feed.
  dotAll : Bool := false
deriving DecidableEq, Repr

namespace Mode

-- Whether the letters switch modes, those after a dash off.
def isSwitch (letters : List Char) : Bool :=
  letters.all ("imsUuR-".toList.contains ·) ∧ letters.Nodup ∧ letters.getLast? ≠ some '-'

-- The mode after a switch. The letters for what a pattern prefers make no difference.
def switch (mode : Mode) (letters : List Char) : Mode :=
  let on := letters.takeWhile (· ≠ '-')
  let set (letter : Char) (was : Bool) : Bool :=
    if letter ∈ on then true else if letter ∈ letters then false else was
  { foldCase := set 'i' mode.foldCase
    byLine := set 'm' mode.byLine
    dotAll := set 's' mode.dotAll }

end Mode

-- A piece of a written pattern.
inductive Piece where
  | set (s : CharSet)
  | dot
  | caret
  | dollar
  -- A pattern that does not depend on the mode.
  | fixed (p : Pattern)
  | count (least : Nat) (most : Option Nat)
  | bar
  | opening (letters : List Char)
  | closing
  | switch (letters : List Char)
deriving DecidableEq, Repr

-- The character with the code point of the hexadecimal digits.
def codePoint? (digits : List Char) : Option Char :=
  let values := digits.filterMap (Decimal.digitIn? 16)
  let code := Decimal.natOfDigits 16 values
  if digits ≠ [] ∧ values.length = digits.length ∧ code.isValidChar then some (.ofNat code) else none

-- A code point in so many digits or in braces, and what follows.
def takeCodePoint? (length : Nat) : List Char → Option (Char × List Char)
  | '\x7b' :: cs =>
    match cs.dropWhile (· ≠ '\x7d') with
    | _ :: rest => (codePoint? (cs.takeWhile (· ≠ '\x7d'))).map (·, rest)
    | [] => none
  | cs =>
    if cs.length < length then none
    else (codePoint? (cs.take length)).map (·, cs.drop length)

-- Whether a backslash takes the special meaning of the character away.
def isPlainEscape (c : Char) : Bool :=
  c.toNat < 128 && !c.isAlphanum && c ≠ '<' && c ≠ '>'

-- The piece after a backslash, and what follows it.
def escape? : List Char → Option (Piece × List Char)
  | [] => none
  | c :: cs =>
    let set (s : CharSet) := some (Piece.set s, cs)
    let fixed (p : Pattern) := some (Piece.fixed p, cs)
    let code (length : Nat) := (takeCodePoint? length cs).map fun (c, rest) =>
      (Piece.set (.single c), rest)
    match c with
    | 'd' => set .digit
    | 'D' => set (.outside .digit)
    | 's' => set .blank
    | 'S' => set (.outside .blank)
    | 'w' => set .word
    | 'W' => set (.outside .word)
    | 'a' => set (.single '\x07')
    | 'f' => set (.single '\x0c')
    | 'n' => set (.single '\n')
    | 'r' => set (.single '\r')
    | 't' => set (.single '\t')
    | 'v' => set (.single '\x0b')
    | 'x' => code 2
    | 'u' => code 4
    | 'U' => code 8
    | 'A' => fixed (.start false)
    | 'z' => fixed (.finish false)
    | 'b' => fixed (.wordEdge true)
    | 'B' => fixed (.wordEdge false)
    | c => if isPlainEscape c then set (.single c) else none

-- The set of that name, of which all characters have small codes.
def namedSet? (name : String) : Option CharSet :=
  match name with
  | "alnum" => some (.ofRanges [('0', '9'), ('A', 'Z'), ('a', 'z')])
  | "alpha" => some (.ofRanges [('A', 'Z'), ('a', 'z')])
  | "ascii" => some (.range '\x00' '\x7f')
  | "blank" => some (.ofRanges [('\t', '\t'), (' ', ' ')])
  | "cntrl" => some (.ofRanges [('\x00', '\x1f'), ('\x7f', '\x7f')])
  | "digit" => some (.range '0' '9')
  | "graph" => some (.range '!' '~')
  | "lower" => some (.range 'a' 'z')
  | "print" => some (.range ' ' '~')
  | "punct" => some (.ofRanges [('!', '/'), (':', '@'), ('[', '\x60'), ('\x7b', '~')])
  | "space" => some (.ofRanges [('\t', '\r'), (' ', ' ')])
  | "upper" => some (.range 'A' 'Z')
  | "word" => some (.ofRanges [('0', '9'), ('A', 'Z'), ('_', '_'), ('a', 'z')])
  | "xdigit" => some (.ofRanges [('0', '9'), ('A', 'F'), ('a', 'f')])
  | _ => none

-- A named set after its opening bracket, such as `:digit:]` or `:^digit:]`, and what follows.
def takeNamed? : List Char → Option (CharSet × List Char)
  | ':' :: cs =>
    let (negated, cs) := match cs with
      | '^' :: cs => (true, cs)
      | cs => (false, cs)
    match cs.dropWhile (· ≠ ':') with
    | ':' :: ']' :: rest => (namedSet? (String.ofList (cs.takeWhile (· ≠ ':')))).map fun s =>
        (if negated then .outside s else s, rest)
    | _ => none
  | _ => none

-- A set of one character or a class of them, and what follows.
def takeMember? : List Char → Option (CharSet × List Char)
  | [] => none
  | '\\' :: cs =>
    match escape? cs with
    | some (.set s, rest) => some (s, rest)
    | _ => none
  | c :: cs => some (.single c, cs)

-- A member or, with a dash between two of them, a range.
def takeRange? (cs : List Char) : Option (CharSet × List Char) := do
  let (s, rest) ← takeMember? cs
  match rest with
  | [] | '-' :: [] | '-' :: ']' :: _ | '-' :: '-' :: _ => return (s, rest)
  | '-' :: cs =>
    match s, ← takeMember? cs with
    | .range lo _, (.range hi _, rest) => if lo ≤ hi then some (.range lo hi, rest) else none
    | _, _ => none
  | _ => return (s, rest)

-- The members that stand for themselves because they come first: dashes or a closing bracket.
def takeFirst : List Char → CharSet × List Char
  | ']' :: cs => (.single ']', cs)
  | '-' :: cs => (.single '-', cs.dropWhile (· = '-'))
  | cs => (.none, cs)

mutual

-- A set after its opening bracket, and what follows it.
def takeSet? : Nat → List Char → Option (CharSet × List Char)
  | 0, _ => none
  | fuel + 1, cs => do
    let (negated, cs) := match cs with
      | '^' :: cs => (true, cs)
      | cs => (false, cs)
    let (first, cs) := takeFirst cs
    let (s, rest) ← takeMembers? fuel id first cs
    return (if negated then .outside s else s, rest)

-- The members of a set and its closing bracket. What came before the last operator is combined with
-- the set of the members since then.
def takeMembers? : Nat → (CharSet → CharSet) → CharSet → List Char → Option (CharSet × List Char)
  | 0, _, _, _ => none
  | fuel + 1, combine, members, cs =>
    match cs with
    | [] => none
    | ']' :: rest => some (combine members, rest)
    | '&' :: '&' :: rest => takeMembers? fuel (.both (combine members)) .none rest
    | '-' :: '-' :: rest => takeMembers? fuel (.without (combine members)) .none rest
    | '~' :: '~' :: rest => takeMembers? fuel (.differing (combine members)) .none rest
    | '[' :: cs => do
      let (s, rest) ← match takeNamed? cs with
        | some found => some found
        | none => takeSet? fuel cs
      takeMembers? fuel combine (.either members s) rest
    | cs => do
      let (s, rest) ← takeRange? cs
      takeMembers? fuel combine (.either members s) rest

end

-- A number with blanks around it, and what follows.
def takeNumber? (cs : List Char) : Option (Nat × List Char) :=
  match Decimal.takeDigits (cs.dropWhile Text.isBlank) with
  | ([], _) => none
  | (ds, rest) =>
    let n := Decimal.natOfDigits 10 ds
    if n < UInt32.size then some (n, rest.dropWhile Text.isBlank) else none

-- How often to repeat, after the opening brace, and what follows the closing one.
def takeCount? (cs : List Char) : Option (Piece × List Char) := do
  let (least, rest) ← takeNumber? cs
  match rest with
  | '\x7d' :: rest => return (.count least (some least), rest)
  | ',' :: '\x7d' :: rest => return (.count least none, rest)
  | ',' :: rest =>
    match ← takeNumber? rest with
    | (most, '\x7d' :: rest) => if least ≤ most then some (.count least (some most), rest) else none
    | _ => none
  | _ => none

-- Drops the mark of a repetition that prefers to be short.
def dropPreference : List Char → List Char
  | '?' :: cs => cs
  | cs => cs

-- Whether a group can have that name.
def isGroupName : List Char → Bool
  | [] => false
  | c :: cs =>
    (c = '_' || Text.isLetter c) &&
      cs.all fun c => c = '_' || c = '.' || c = '[' || c = ']' || Text.isWordChar c

-- The name of a group and what follows it.
def takeName? (cs : List Char) : Option (Piece × List Char) :=
  match cs.dropWhile (· ≠ '>') with
  | _ :: rest => if isGroupName (cs.takeWhile (· ≠ '>')) then some (.opening [], rest) else none
  | [] => none

-- What opens with a parenthesis, and what follows: a group, or a switch that is closed at once.
def takeOpening? : List Char → Option (Piece × List Char)
  | '?' :: 'P' :: '<' :: cs => takeName? cs
  | '?' :: '<' :: cs => takeName? cs
  | '?' :: cs =>
    let isEnd (c : Char) : Bool := c = ':' || c = ')'
    let letters := cs.takeWhile (!isEnd ·)
    if !Mode.isSwitch letters then none
    else match cs.dropWhile (!isEnd ·) with
      | ':' :: rest => some (.opening letters, rest)
      | ')' :: rest => if letters = [] then none else some (.switch letters, rest)
      | _ => none
  | cs => some (.opening [], cs)

-- The first piece of a written pattern, and what follows.
def takePiece? : List Char → Option (Piece × List Char)
  | [] => none
  | c :: cs =>
    match c with
    | '.' => some (.dot, cs)
    | '^' => some (.caret, cs)
    | '$' => some (.dollar, cs)
    | '|' => some (.bar, cs)
    | ')' => some (.closing, cs)
    | '(' => takeOpening? cs
    | '[' => (takeSet? (2 * cs.length + 2) cs).map fun (s, rest) => (.set s, rest)
    | '\\' => escape? cs
    | '*' => some (.count 0 none, dropPreference cs)
    | '+' => some (.count 1 none, dropPreference cs)
    | '?' => some (.count 0 (some 1), dropPreference cs)
    | '\x7b' => (takeCount? cs).map fun (p, rest) => (p, dropPreference rest)
    | c => some (.set (.single c), cs)

-- The pieces of a written pattern, of which there are no more than the fuel.
def pieces? : Nat → List Char → Option (List Piece)
  | _, [] => some []
  | 0, _ => none
  | fuel + 1, cs => do
    let (p, rest) ← takePiece? cs
    return p :: (← pieces? fuel rest)

-- A group that is not closed yet.
structure Group where
  mode : Mode := {}
  -- The finished alternatives.
  alternatives : Option Pattern := none
  -- The parts of the last alternative, the last one first. A switch leaves a gap, which cannot be
  -- repeated.
  parts : List (Option Pattern) := []
deriving DecidableEq, Repr

namespace Group

def add (g : Group) (p : Pattern) : Group :=
  { g with parts := some p :: g.parts }

-- The pattern of all alternatives.
def pattern (g : Group) : Pattern :=
  let last := match g.parts.reverse.filterMap id with
    | [] => .empty
    | p :: ps => ps.foldl sequence p
  match g.alternatives with
  | some p => .either p last
  | none => last

def repeatLast? (g : Group) (least : Nat) (most : Option Nat) : Option Group :=
  match g.parts with
  | some p :: ps => some { g with parts := some (.times least most p) :: ps }
  | _ => none

end Group

-- The pattern of the pieces, with the groups around the innermost open one.
def assemble? (g : Group) (outer : List Group) : List Piece → Option Pattern
  | [] => if outer = [] then some g.pattern else none
  | p :: ps =>
    match p with
    | .set s => assemble? (g.add (.one g.mode.foldCase s)) outer ps
    | .dot =>
      let s := if g.mode.dotAll then CharSet.any else .outside (.single '\n')
      assemble? (g.add (.one false s)) outer ps
    | .caret => assemble? (g.add (.start g.mode.byLine)) outer ps
    | .dollar => assemble? (g.add (.finish g.mode.byLine)) outer ps
    | .fixed p => assemble? (g.add p) outer ps
    | .count least most =>
      match g.repeatLast? least most with
      | some g => assemble? g outer ps
      | none => none
    | .bar => assemble? { g with alternatives := some g.pattern, parts := [] } outer ps
    | .opening letters => assemble? { mode := g.mode.switch letters } (g :: outer) ps
    | .closing =>
      match outer with
      | parent :: outer => assemble? (parent.add g.pattern) outer ps
      | [] => none
    | .switch letters =>
      assemble? { g with mode := g.mode.switch letters, parts := none :: g.parts } outer ps

-- Reads a pattern that is written as a regular expression.
def parse? (text : List Char) : Option Pattern :=
  (pieces? text.length text).bind (assemble? {} [])

end Sentential.Pattern
