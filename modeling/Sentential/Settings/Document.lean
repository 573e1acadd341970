import Sentential.Settings.Basic
import Sentential.Settings.Number
import Sentential.Text.Lines

namespace Sentential.Settings

inductive DocumentError where
  | malformed (line : Nat)
  | unknownKey (key : String)
  | duplicateKey (key : String)
  | wrongType (key : String)
deriving DecidableEq, Repr

namespace DocumentError

def message : DocumentError → String
  | malformed line => s!"expected a parameter and a number at line {line}"
  | unknownKey key => "unknown parameter '" ++ key ++ "'"
  | duplicateKey key => "duplicate parameter '" ++ key ++ "'"
  | wrongType key => "invalid value for parameter '" ++ key ++ "'"

end DocumentError

namespace Document

-- A parameter and the number it is set to.
structure Entry where
  key : String
  value : Number
deriving Repr

def isSpace (c : Char) : Bool :=
  c = ' ' ∨ c = '\t'

def skipSpaces (cs : List Char) : List Char :=
  cs.dropWhile isSpace

-- Whether nothing but a comment is left of a line.
def isDone : List Char → Bool
  | [] => true
  | '#' :: cs => cs.all fun c => c = '\t' || ' ' ≤ c
  | _ => false

-- The character with a code point written in so many hexadecimal digits, and what follows.
def takeCodePoint? (digits : Nat) (cs : List Char) : Option (Char × List Char) :=
  let values := (cs.take digits).filterMap (Decimal.digitIn? 16)
  let code := Decimal.natOfDigits 16 values
  if values.length = digits ∧ code.isValidChar then some (.ofNat code, cs.drop digits) else none

-- The text up to the closing quote, and what follows it. Of the escapes only code points are read,
-- since no parameter's name has any of the other characters.
def takeQuoted? : List Char → List Char → Option (String × List Char)
  | _, [] => none
  | done, '"' :: cs => some (String.ofList done.reverse, cs)
  | done, '\\' :: 'u' :: a :: b :: c :: d :: cs =>
    match takeCodePoint? 4 [a, b, c, d] with
    | some (x, _) => takeQuoted? (x :: done) cs
    | none => none
  | done, '\\' :: 'U' :: a :: b :: c :: d :: e :: f :: g :: h :: cs =>
    match takeCodePoint? 8 [a, b, c, d, e, f, g, h] with
    | some (x, _) => takeQuoted? (x :: done) cs
    | none => none
  | _, '\\' :: _ => none
  | done, c :: cs => takeQuoted? (c :: done) cs

-- The name at the start of a line, bare or in quotes of either kind, and what follows.
def takeKey? : List Char → Option (String × List Char)
  | '"' :: cs => takeQuoted? [] cs
  | '\'' :: cs =>
    match cs.dropWhile (· ≠ '\'') with
    | _ :: rest => some (String.ofList (cs.takeWhile (· ≠ '\'')), rest)
    | [] => none
  | cs =>
    match Number.takeBare cs with
    | ([], _) => none
    | (word, rest) => some (String.ofList word, rest)

-- The entry on a line that has one, such as `max_flips = 50000`.
def entry? (cs : List Char) : Option Entry := do
  let (key, cs) ← takeKey? cs
  match skipSpaces cs with
  | '=' :: cs =>
    let (value, cs) ← Number.take? (skipSpaces cs)
    if isDone (skipSpaces cs) then some { key, value } else none
  | _ => none

end Document

namespace Update

open Document

-- The number of a count, which is whole and not negative.
def count? : Number → Option Nat
  | .integer (.ofNat n) => some n
  | _ => none

-- The float that a number is.
def real : Number → Float
  | .integer n => .ofInt n
  | .float x => x

-- The update with one more parameter set.
def set (u : Update) (e : Entry) : Except DocumentError Update :=
  match e.key with
  | "max_flips" =>
    if u.maxFlips.isSome then .error (.duplicateKey e.key)
    else match count? e.value with
      | some n => .ok { u with maxFlips := n }
      | none => .error (.wrongType e.key)
  | "random_walk_probability" =>
    if u.probability.isSome then .error (.duplicateKey e.key)
    else .ok { u with probability := real e.value }
  | "seed" =>
    if u.seed.isSome then .error (.duplicateKey e.key)
    else match count? e.value with
      | some n => .ok { u with seed := n.toUInt64 }
      | none => .error (.wrongType e.key)
  | _ => .error (.unknownKey e.key)

-- Adds what the lines set, the first of which has the given number.
def setLines (u : Update) (number : Nat) : List (List Char) → Except DocumentError Update
  | [] => .ok u
  | l :: ls =>
    let line := skipSpaces l
    if isDone line then u.setLines (number + 1) ls
    else
      match entry? line with
      | none => .error (.malformed number)
      | some e =>
        match u.set e with
        | .ok u' => u'.setLines (number + 1) ls
        | .error e => .error e

-- Reads a document. A byte order mark in front of it does not count.
def parse (text : String) : Except DocumentError Update :=
  let cs := match text.toList with
    | '\ufeff' :: cs => cs
    | cs => cs
  setLines {} 1 (Text.lines cs)

end Update
end Sentential.Settings
