import Sentential.Decimal.Binary

namespace Sentential.Decimal

-- The digits of a number, read as `digits · 10 ^ exponent`.
structure Scaled where
  digits : Nat
  exponent : Int
deriving DecidableEq, Repr

-- The value `mantissa · 2 ^ exponent` and the interval of the reals that round to it.
structure Rounding where
  value : Ratio
  low : Ratio
  high : Ratio
  -- Whether the ends of the interval belong to it.
  closed : Bool
deriving Repr

namespace Rounding

-- The interval reaches half way to the neighbouring doubles. The lower one is nearer where the
-- exponent changes.
def ofMantissa (mantissa : Nat) (exponent : Int) : Rounding :=
  let quarter (n : Nat) := (Ratio.mk n 4).scale 2 exponent
  let below := if mantissa = Binary.hiddenBit ∧ exponent ≠ -1074 then 1 else 2
  { value := quarter (4 * mantissa)
    low := quarter (4 * mantissa - below)
    high := quarter (4 * mantissa + 2)
    closed := mantissa % 2 = 0 }

-- Whether the number rounds to the value.
def covers (r : Rounding) (x : Ratio) : Bool :=
  if r.closed then r.low.le x && x.le r.high else r.low.lt x && x.lt r.high

-- The decimal with the unit `10 ^ unit` that rounds to the value and is nearest to it, upwards if
-- two are equally near.
def nearestWith? (r : Rounding) (unit : Int) : Option Scaled :=
  let below := (r.value.scale 10 (-unit)).floor
  let real (n : Nat) := (Ratio.mk n 1).scale 10 unit
  let middle := (Ratio.mk (2 * below + 1) 2).scale 10 unit
  match r.covers (real below), r.covers (real (below + 1)) with
  | true, false => some ⟨below, unit⟩
  | false, true => some ⟨below + 1, unit⟩
  | true, true => some ⟨if r.value.lt middle then below else below + 1, unit⟩
  | false, false => none

-- The decimals with the units from `unit` downwards, up to the first that rounds to the value.
def shortestFrom (r : Rounding) : Nat → Int → Scaled
  | 0, unit => ⟨(r.value.scale 10 (-unit)).floor, unit⟩
  | tries + 1, unit => (r.nearestWith? unit).getD (r.shortestFrom tries (unit - 1))

end Rounding

-- The exponent of the leading decimal digit of a positive number.
def leadingExponent (r : Ratio) : Int :=
  if r.den ≤ r.num then (Nat.toDigits 10 r.floor).length - 1
  else -(Nat.toDigits 10 ((r.den + r.num - 1) / r.num - 1)).length

-- Seventeen digits tell any two doubles apart.
def mostDigits : Nat := 17

-- The shortest decimal of the positive double `mantissa · 2 ^ exponent`.
def shortest (mantissa : Nat) (exponent : Int) : Scaled :=
  let r := Rounding.ofMantissa mantissa exponent
  r.shortestFrom mostDigits (leadingExponent r.value)

namespace Scaled

-- The decimal written out without an exponent.
def positional (d : Scaled) : String :=
  let ds := Nat.toDigits 10 d.digits
  match d.exponent with
  | .ofNat n => String.ofList (ds ++ List.replicate n '0')
  | .negSucc n =>
    let places := n + 1
    let padded := List.replicate (places + 1 - ds.length) '0' ++ ds
    let whole := padded.take (padded.length - places)
    let part := (padded.drop (padded.length - places)).reverse.dropWhile (· = '0') |>.reverse
    String.ofList (if part.isEmpty then whole else whole ++ '.' :: part)

end Scaled

-- A double in the fewest digits, written out without an exponent.
def render (x : Float) : String :=
  match Binary.ofFloat x with
  | .nan => "NaN"
  | .infinite negative => if negative then "-inf" else "inf"
  | .finite negative mantissa exponent =>
    let sign := if negative then "-" else ""
    if mantissa = 0 then sign ++ "0" else sign ++ (shortest mantissa exponent).positional

end Sentential.Decimal
