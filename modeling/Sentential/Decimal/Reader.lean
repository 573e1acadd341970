namespace Sentential.Decimal

-- The digits of a number from the most significant one.
def natOfDigits (base : Nat) (ds : List Nat) : Nat :=
  ds.foldl (fun n d => n * base + d) 0

-- The value of a digit in bases up to sixteen.
def digitValue? (c : Char) : Option Nat :=
  if '0' ≤ c ∧ c ≤ '9' then some (c.toNat - '0'.toNat)
  else if 'a' ≤ c ∧ c ≤ 'f' then some (c.toNat - 'a'.toNat + 10)
  else if 'A' ≤ c ∧ c ≤ 'F' then some (c.toNat - 'A'.toNat + 10)
  else none

-- The value of a digit, if it is one in the base.
def digitIn? (base : Nat) (c : Char) : Option Nat :=
  (digitValue? c).filter (· < base)

def isDigit (c : Char) : Bool :=
  (digitIn? 10 c).isSome

-- The parts of a written number.
structure Written where
  negative : Bool
  whole : List Nat
  fraction : List Nat
  exponent : Int
deriving DecidableEq, Repr

-- The double nearest to a written number.
def Written.toFloat (w : Written) : Float :=
  let digits := natOfDigits 10 (w.whole ++ w.fraction)
  let magnitude := match w.exponent - w.fraction.length with
    | .ofNat n => Float.ofScientific digits false n
    | .negSucc n => Float.ofScientific digits true (n + 1)
  if w.negative then -magnitude else magnitude

-- A sign, if there is one, and what follows.
def takeSign : List Char → Bool × List Char
  | '-' :: cs => (true, cs)
  | '+' :: cs => (false, cs)
  | cs => (false, cs)

def takeDigits (cs : List Char) : List Nat × List Char :=
  ((cs.takeWhile isDigit).filterMap (digitIn? 10), cs.dropWhile isDigit)

-- The exponent that the rest of a number consists of, zero if nothing is left.
def readExponent? : List Char → Option Int
  | [] => some 0
  | c :: cs =>
    if c = 'e' ∨ c = 'E' then
      let (negative, cs) := takeSign cs
      match takeDigits cs with
      | (d :: ds, []) =>
        let n := natOfDigits 10 (d :: ds)
        some (if negative then -n else n)
      | _ => none
    else none

-- Reads the number that the text writes in digits.
def readWritten? (negative : Bool) (cs : List Char) : Option Written :=
  let (whole, cs) := takeDigits cs
  let (fraction, cs) := match cs with
    | '.' :: cs => takeDigits cs
    | cs => ([], cs)
  if whole = [] ∧ fraction = [] then none
  else (readExponent? cs).map fun exponent => { negative, whole, fraction, exponent }

-- Reads a text as a double.
def read? (text : String) : Option Float :=
  let (negative, cs) := takeSign text.toList
  match String.ofList (cs.map Char.toLower) with
  | "inf" | "infinity" => some (if negative then -(1.0 / 0.0) else 1.0 / 0.0)
  | "nan" => some (0.0 / 0.0)
  | _ => (readWritten? negative cs).map Written.toFloat

end Sentential.Decimal
