import Sentential.Decimal.Reader

namespace Sentential.Settings

open Decimal

-- A number as it is written in a document.
inductive Number where
  | integer (n : Int)
  | float (x : Float)
deriving Repr

namespace Number

-- Whether the character can stand in a bare word.
def isBare (c : Char) : Bool :=
  ('a' ≤ c ∧ c ≤ 'z') ∨ ('A' ≤ c ∧ c ≤ 'Z') ∨ ('0' ≤ c ∧ c ≤ '9') ∨ c = '_' ∨ c = '-'

-- A bare word and what follows it.
def takeBare (cs : List Char) : List Char × List Char :=
  (cs.takeWhile isBare, cs.dropWhile isBare)

-- Whether two underscores stand side by side.
def hasDoubled : List Char → Bool
  | '_' :: '_' :: _ => true
  | _ :: cs => hasDoubled cs
  | [] => false

-- A run of digits in the base, and what follows it. Underscores may stand between digits.
def takeRun? (base : Nat) (leadingZeros : Bool) (cs : List Char) :
    Option (List Nat × List Char) :=
  let inRun (c : Char) := c = '_' || (digitIn? base c).isSome
  let run := cs.takeWhile inRun
  let digits := run.filterMap (digitIn? base)
  if run.head? = none ∨ run.head? = some '_' ∨ run.getLast? = some '_' then none
  else if hasDoubled run then none
  else if !leadingZeros ∧ digits.head? = some 0 ∧ 1 < digits.length then none
  else some (digits, cs.dropWhile inRun)

-- A sign and a run of decimal digits, and what follows them.
def takeSigned? (leadingZeros : Bool) : List Char → Option (Bool × List Nat × List Char)
  | '-' :: cs => (takeRun? 10 leadingZeros cs).map fun r => (true, r)
  | cs => (takeRun? 10 leadingZeros cs).map fun r => (false, r)

-- The integers that a document can write.
def fits (n : Int) : Bool :=
  Int64.minValue.toInt ≤ n ∧ n ≤ Int64.maxValue.toInt

-- The integer that a word is.
def integer? (word : List Char) : Option Number :=
  let signed (r : Option (Bool × List Nat × List Char)) (base : Nat) : Option Number :=
    match r with
    | some (negative, digits, []) =>
      let n : Int := natOfDigits base digits
      let n := if negative then -n else n
      if fits n then some (.integer n) else none
    | _ => none
  let unsigned (base : Nat) (cs : List Char) :=
    signed ((takeRun? base true cs).map fun r => (false, r)) base
  match word with
  | '0' :: 'x' :: cs => unsigned 16 cs
  | '0' :: 'o' :: cs => unsigned 8 cs
  | '0' :: 'b' :: cs => unsigned 2 cs
  | cs => signed (takeSigned? false cs) 10

-- The exponent that starts with the given rest of a word, and what follows. The sign `+` ends a
-- word, so that the digits after it are the next one.
def takeExponent? (suffix rest : List Char) : Option (Int × List Char) :=
  match suffix with
  | [] => some (0, rest)
  | [e] =>
    if e = 'e' ∨ e = 'E' then
      let rest := match rest with
        | '+' :: cs => cs
        | cs => cs
      let (word, rest) := takeBare rest
      match takeRun? 10 true word with
      | some (digits, []) => some (natOfDigits 10 digits, rest)
      | _ => none
    else none
  | e :: cs =>
    if e = 'e' ∨ e = 'E' then
      match takeSigned? true cs with
      | some (negative, digits, []) =>
        let n : Int := natOfDigits 10 digits
        some (if negative then -n else n, rest)
      | _ => none
    else none

-- The float that starts with the word, and what follows. Digits that are too large for any float
-- are refused.
def float? (word rest : List Char) : Option (Number × List Char) := do
  let (negative, whole, suffix) ← takeSigned? false word
  let (fraction, suffix, rest) ← match suffix, rest with
    | [], '.' :: cs =>
      let (word, rest) := takeBare cs
      (takeRun? 10 true word).map fun (digits, suffix) => (digits, suffix, rest)
    | suffix, rest => some ([], suffix, rest)
  let (exponent, rest) ← takeExponent? suffix rest
  let x := Written.toFloat { negative, whole, fraction, exponent }
  if x.isFinite then some (.float x, rest) else none

-- Whether a float is written so: with a point or an exponent.
def isFloat (word rest : List Char) : Bool :=
  'e' ∈ word ∨ 'E' ∈ word ∨ rest.head? = some '.'

-- The number that starts with the word, and what follows.
def ofWord? (word rest : List Char) : Option (Number × List Char) :=
  match word with
  | ['i', 'n', 'f'] => some (.float (1.0 / 0.0), rest)
  | ['-', 'i', 'n', 'f'] => some (.float (-(1.0 / 0.0)), rest)
  | ['n', 'a', 'n'] | ['-', 'n', 'a', 'n'] => some (.float (0.0 / 0.0), rest)
  | '0' :: b :: _ =>
    if b = 'x' ∨ b = 'o' ∨ b = 'b' then (integer? word).map (·, rest)
    else if isFloat word rest then float? word rest
    else (integer? word).map (·, rest)
  | _ =>
    if isFloat word rest then float? word rest
    else (integer? word).map (·, rest)

-- Reads a number, before which a `+` is passed over, and gives what follows it.
def take? : List Char → Option (Number × List Char)
  | '+' :: cs => ofWord? (takeBare cs).1 (takeBare cs).2
  | cs => ofWord? (takeBare cs).1 (takeBare cs).2

end Number
end Sentential.Settings
