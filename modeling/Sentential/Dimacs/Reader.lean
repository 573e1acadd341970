import Sentential.Dimacs
import Sentential.Text.Lines

namespace Sentential.Dimacs

-- What a text in the format says.
structure Document where
  -- The variables that the comments name, with their numbers.
  names : List (Nat × Var)
  varCount : Nat
  clauseCount : Nat
  -- The numbers of each clause, without the zero at the end.
  rows : List (List Int)
deriving DecidableEq, Repr

-- Reads a word that consists of digits.
def readNat? (word : List Char) : Option Nat :=
  if word ≠ [] ∧ word.all Char.isDigit then some (Nat.ofDigitChars 10 word 0) else none

-- Reads a word that consists of digits, perhaps after a minus sign.
def readInt? : List Char → Option Int
  | '-' :: word => (readNat? word).map (-Int.ofNat ·)
  | word => (readNat? word).map .ofNat

namespace Document

-- Reads a comment: the letter `c`, a number, and a name that may hold blanks.
def readName? (line : List Char) : Option (Nat × Var) :=
  match Text.split ' ' line with
  | ['c'] :: number :: word :: words =>
    (readNat? number).map (·, ⟨String.ofList ([' '].intercalate (word :: words))⟩)
  | _ => none

-- Reads the numbers of variables and clauses off the header.
def readHeader? (line : List Char) : Option (Nat × Nat) :=
  match Text.split ' ' line with
  | [['p'], ['c', 'n', 'f'], vars, clauses] => do
    return (← readNat? vars, ← readNat? clauses)
  | _ => none

-- Reads the numbers of a clause, of which the last one and no other is zero.
def readRow? (line : List Char) : Option (List Int) := do
  let numbers ← (Text.split ' ' line).mapM readInt?
  if numbers.getLast? = some 0 ∧ 0 ∉ numbers.dropLast then some numbers.dropLast else none

def readLines? : List (List Char) → Option Document
  | [] => none
  | line :: lines =>
    match readName? line with
    | some name => (readLines? lines).map fun d => { d with names := name :: d.names }
    | none => do
      let (varCount, clauseCount) ← readHeader? line
      return { names := [], varCount, clauseCount, rows := ← lines.mapM readRow? }

-- Reads a text, the last line of which ends with a line feed as well.
def read? (text : String) : Option Document :=
  let pieces := Text.split '\n' text.toList
  if pieces.getLast? = some [] then readLines? pieces.dropLast else none

-- The literal that a number stands for, if its variable has a name.
def literal? (d : Document) (n : Int) : Option Literal :=
  (d.names.find? (·.1 = n.natAbs)).map fun name => name.2.literal (0 < n)

def clause? (d : Document) (row : List Int) : Option Clause :=
  (row.mapM d.literal?).map Clause.ofLiterals

-- The clauses that the document holds, if all numbers have names.
def clauses? (d : Document) : Option (List Clause) :=
  d.rows.mapM d.clause?

-- With these values of the numbers, every clause has a number whose sign is right.
def HoldsUnder (d : Document) (value : Nat → Bool) : Prop :=
  ∀ row ∈ d.rows, ∃ n ∈ row, value n.natAbs = decide (0 < n)

end Document
end Sentential.Dimacs
