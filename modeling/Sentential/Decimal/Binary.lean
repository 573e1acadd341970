namespace Sentential.Decimal

-- What a double stands for: `finite` is the mantissa times two to the exponent, with a sign.
inductive Binary where
  | nan
  | infinite (negative : Bool)
  | finite (negative : Bool) (mantissa : Nat) (exponent : Int)
deriving DecidableEq, Repr

namespace Binary

-- The leading bit of a mantissa, which is not written down.
def hiddenBit : Nat := 1 <<< 52

-- Reads the fields of the 64-bit format.
def ofFloat (x : Float) : Binary :=
  let bits : Nat := x.toBits.toNat
  let negative := bits >>> 63 = 1
  let exponent : Nat := bits >>> 52 % 2048
  let fraction : Nat := bits % hiddenBit
  if exponent = 2047 then
    if fraction = 0 then infinite negative else nan
  else if exponent = 0 then finite negative fraction (-1074)
  else finite negative (fraction + hiddenBit) ((exponent : Int) - 1075)

end Binary

-- A quotient of natural numbers.
structure Ratio where
  num : Nat
  den : Nat
deriving DecidableEq, Repr

namespace Ratio

-- The ratio times `base ^ exponent`.
def scale (r : Ratio) (base : Nat) : Int → Ratio
  | .ofNat n => { r with num := r.num * Nat.pow base n }
  | .negSucc n => { r with den := r.den * Nat.pow base (n + 1) }

def le (r s : Ratio) : Bool :=
  r.num * s.den ≤ s.num * r.den

def lt (r s : Ratio) : Bool :=
  r.num * s.den < s.num * r.den

def floor (r : Ratio) : Nat :=
  r.num / r.den

end Ratio
end Sentential.Decimal
