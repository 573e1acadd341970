import Sentential.Decimal.Binary

namespace Sentential.Random

-- A source of random words with states in `σ`.
structure Generator (σ : Type) where
  word32 : σ → UInt32 × σ
  word64 : σ → UInt64 × σ
  -- The number of attempts at one draw. At least every other word will do, so that a fair generator
  -- never gets there.
  attempts : Nat := 65536

-- A computation that draws from a generator, and that is without result if a draw does not come to
-- an end.
abbrev Draw (σ : Type) := StateT σ Option

variable {σ : Type}

namespace Generator

-- A random bit, the highest one of a word.
def bit (g : Generator σ) : Draw σ Bool := fun s =>
  let (w, s) := g.word32 s
  some (UInt32.size ≤ 2 * w.toNat, s)

-- The largest low half for which the product of a word and `n` is taken: with the others left out,
-- each element comes from the same number of words.
def zone (n : Nat) : Nat :=
  n <<< (31 - n.log2) - 1

-- The element that a word stands for, if it stands for one.
def element? (n : Nat) (hn : 0 < n) (w : UInt32) : Option (Fin n) :=
  let product := w.toNat * n
  if product % UInt32.size ≤ zone n then
    some ⟨product / UInt32.size, Nat.div_lt_of_lt_mul ((Nat.mul_lt_mul_right hn).mpr w.toNat_lt)⟩
  else none

-- A random number below `n`, found with the given number of attempts at most.
def indexWithin (g : Generator σ) (n : Nat) (hn : 0 < n) : Nat → Draw σ (Fin n)
  | 0 => fun _ => none
  | tries + 1 => fun s =>
    let (w, s) := g.word32 s
    match element? n hn w with
    | some i => some (i, s)
    | none => g.indexWithin n hn tries s

-- A random element of the list. From an empty list none is drawn, and no word used.
def choose? {α : Type} (g : Generator σ) : List α → Draw σ (Option α)
  | [] => pure none
  | x :: xs => do
    let i ← g.indexWithin (x :: xs).length (Nat.succ_pos _) g.attempts
    return some ((x :: xs).get i)

-- The chance `p` in units of `2 ^ -64`, rounded down, for `p` from zero to one.
def chance (p : Float) : Nat :=
  match Decimal.Binary.ofFloat p with
  | .finite false mantissa exponent => ((Decimal.Ratio.mk mantissa 1).scale 2 (exponent + 64)).floor
  | _ => 0

-- A coin that falls on true with the probability `p`. If that is certain, no word is used.
def coin (g : Generator σ) (p : Float) : Draw σ Bool := fun s =>
  if chance p = UInt64.size then some (true, s)
  else
    let (w, s) := g.word64 s
    some (w.toNat < chance p, s)

end Generator
end Sentential.Random
