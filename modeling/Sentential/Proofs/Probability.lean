import Mathlib.Algebra.Order.Field.Power
import Mathlib.Algebra.Order.Ring.Rat
import Mathlib.Tactic.NormNum
import Sentential.Precondition

namespace Sentential

open Float.Model (Format UnpackedFloat)
open Float.Model.UnpackedFloat (Sign unpack unpackSign unpackExponent unpackMantissa)

namespace Decimal.Binary

-- The number that the double stands for, if it stands for one.
def value : Binary → Option ℚ
  | nan | infinite _ => none
  | finite true mantissa exponent => some (-(mantissa * 2 ^ exponent))
  | finite false mantissa exponent => some (mantissa * 2 ^ exponent)

def isNegative : Sign → Bool
  | .negative => true
  | .positive => false

-- A double in the form in which comparisons take it apart.
def ofUnpacked : UnpackedFloat → Binary
  | .notANumber => nan
  | .infinity s => infinite (isNegative s)
  | .zero s => finite (isNegative s) 0 (-1074)
  | .finite s mantissa exponent _ => finite (isNegative s) mantissa exponent

theorem ofUnpacked_finite {s : Sign} {mantissa : Nat} {exponent : Int} {h : 0 < mantissa} :
    ofUnpacked (.finite s mantissa exponent h) = finite (isNegative s) mantissa exponent :=
  rfl

section

variable (b : BitVec Format.binary64.numBits)

theorem toNat_unpackExponent : (unpackExponent b).toNat = b.toNat >>> 52 % 2048 := by
  simp [unpackExponent]

theorem toNat_unpackMantissa : (unpackMantissa b).toNat = b.toNat % hiddenBit := by
  simp [unpackMantissa, hiddenBit]

theorem toNat_append_unpackMantissa :
    (1#1 ++ unpackMantissa b).toNat = b.toNat % hiddenBit + hiddenBit := by
  rw [BitVec.toNat_append, ← Nat.shiftLeft_add_eq_or_of_lt (unpackMantissa b).isLt,
    toNat_unpackMantissa]
  simp [hiddenBit, Nat.add_comm]

theorem isNegative_unpackSign :
    isNegative (Sign.ofBitVec (unpackSign b)) = decide (b.toNat >>> 63 = 1) := by
  have hb : b.toNat < 2 ^ 64 := b.isLt
  have hlt : b.toNat >>> 63 < 2 := by omega
  have hs : unpackSign b = 0#1 ↔ b.toNat >>> 63 = 0 := by
    delta unpackSign
    simp [BitVec.toNat_eq]
    omega
  rw [Sign.ofBitVec]
  split
  case isTrue h => rw [hs.mp h]; rfl
  case isFalse h =>
    have h₁ : b.toNat >>> 63 = 1 := by
      have := mt hs.mpr h
      omega
    rw [h₁]
    rfl

end

theorem ofFloat_eq_ofUnpacked (x : Float) : ofFloat x = ofUnpacked x.toModel.unpack := by
  let b : BitVec Format.binary64.numBits := x.toModel.toBits.toBitVec
  have hb : x.toBits.toNat = b.toNat := rfl
  have hu : x.toModel.unpack = unpack .binary64 b := rfl
  have he : unpackExponent b = -1#_ ↔ b.toNat >>> 52 % 2048 = 2047 := by
    rw [← toNat_unpackExponent, BitVec.toNat_eq]
    rfl
  have hz : unpackExponent b = 0#_ ↔ b.toNat >>> 52 % 2048 = 0 := by
    rw [← toNat_unpackExponent, BitVec.toNat_eq]
    rfl
  have hm : unpackMantissa b = 0#_ ↔ b.toNat % hiddenBit = 0 := by
    rw [← toNat_unpackMantissa, BitVec.toNat_eq]
    rfl
  rw [hu, ofFloat, hb]
  delta unpack
  by_cases h₁ : b.toNat >>> 52 % 2048 = 2047
  case pos =>
    rw [if_pos h₁, if_pos (he.mpr h₁)]
    by_cases h₂ : b.toNat % hiddenBit = 0
    case pos =>
      rw [if_pos h₂, if_pos (hm.mpr h₂), ← isNegative_unpackSign]
      rfl
    case neg =>
      rw [if_neg h₂, if_neg (mt hm.mp h₂)]
      rfl
  case neg =>
    rw [if_neg h₁, if_neg (mt he.mp h₁)]
    by_cases h₂ : b.toNat >>> 52 % 2048 = 0
    case pos =>
      rw [if_pos h₂, if_pos (hz.mpr h₂)]
      by_cases h₃ : b.toNat % hiddenBit = 0
      case pos =>
        rw [dif_pos (hm.mpr h₃), h₃, ← isNegative_unpackSign]
        rfl
      case neg =>
        rw [dif_neg (mt hm.mp h₃), ofUnpacked_finite, isNegative_unpackSign, toNat_unpackMantissa,
          toNat_unpackExponent, h₂]
        rfl
    case neg =>
      rw [if_neg h₂, if_neg (mt hz.mp h₂), ofUnpacked_finite, isNegative_unpackSign,
        toNat_append_unpackMantissa, toNat_unpackExponent]
      rfl

theorem ofFloat_finite {x : Float} {negative : Bool} {mantissa : Nat} {exponent : Int}
    (h : ofFloat x = finite negative mantissa exponent) :
    mantissa < 2 ^ 53 ∧ (2 ^ 52 ≤ mantissa ∨ exponent = -1074) := by
  have hlt : x.toBits.toNat % hiddenBit < 2 ^ 52 := Nat.mod_lt _ (by decide)
  have hd : hiddenBit = 2 ^ 52 := rfl
  simp only [ofFloat] at h
  repeat' split at h
  all_goals
    cases h
    all_goals omega

section

variable {mantissa : Nat} {exponent : Int}

theorem mul_zpow_le_one (hm : mantissa < 2 ^ 53)
    (h : exponent < -52 ∨ exponent = -52 ∧ mantissa ≤ 2 ^ 52) : (mantissa : ℚ) * 2 ^ exponent ≤ 1 := by
  obtain he | ⟨rfl, hm⟩ := h
  case inl =>
    have hm : (mantissa : ℚ) ≤ 2 ^ 53 := by exact_mod_cast hm.le
    have he : (2 : ℚ) ^ exponent ≤ 2 ^ (-53 : ℤ) := zpow_le_zpow_right₀ (by norm_num) (by omega)
    calc (mantissa : ℚ) * 2 ^ exponent
      _ ≤ 2 ^ 53 * 2 ^ (-53 : ℤ) := by gcongr
      _ = 1 := by norm_num
  case inr =>
    have hm : (mantissa : ℚ) ≤ 2 ^ 52 := by exact_mod_cast hm
    calc (mantissa : ℚ) * 2 ^ (-52 : ℤ)
      _ ≤ 2 ^ 52 * 2 ^ (-52 : ℤ) := by gcongr
      _ = 1 := by norm_num

theorem one_lt_mul_zpow (hm : 2 ^ 52 ≤ mantissa)
    (h : -52 < exponent ∨ exponent = -52 ∧ 2 ^ 52 < mantissa) : 1 < (mantissa : ℚ) * 2 ^ exponent := by
  obtain he | ⟨rfl, hm⟩ := h
  case inl =>
    have hm : (2 : ℚ) ^ 52 ≤ mantissa := by exact_mod_cast hm
    have he : (2 : ℚ) ^ (-51 : ℤ) ≤ 2 ^ exponent := zpow_le_zpow_right₀ (by norm_num) (by omega)
    calc (1 : ℚ)
      _ < 2 ^ 52 * 2 ^ (-51 : ℤ) := by norm_num
      _ ≤ mantissa * 2 ^ exponent := by gcongr
  case inr =>
    have hm : (2 : ℚ) ^ 52 < mantissa := by exact_mod_cast hm
    calc (1 : ℚ)
      _ = 2 ^ 52 * 2 ^ (-52 : ℤ) := by norm_num
      _ < mantissa * 2 ^ (-52 : ℤ) := by gcongr

-- Comparing by exponent first is comparing by value, since mantissas of greater exponents are full.
theorem isLE_compare_one_iff (hm : mantissa < 2 ^ 53) (he : 2 ^ 52 ≤ mantissa ∨ exponent = -1074) :
    ((compare exponent (-52)).then (compare mantissa (2 ^ 52))).isLE ↔
      (mantissa : ℚ) * 2 ^ exponent ≤ 1 := by
  have hle : ((compare exponent (-52)).then (compare mantissa (2 ^ 52))).isLE ↔
      exponent < -52 ∨ exponent = -52 ∧ mantissa ≤ 2 ^ 52 := by
    simp [Ordering.isLE_then_iff_or, Int.compare_eq_lt, Nat.isLE_compare]
  rw [hle]
  constructor
  case mp => exact mul_zpow_le_one hm
  case mpr =>
    intro h
    by_contra hc
    have hlt : -52 < exponent ∨ exponent = -52 ∧ 2 ^ 52 < mantissa := by omega
    exact absurd h (not_le.mpr (one_lt_mul_zpow (by omega) hlt))

end

-- The comparisons are those of the IEEE rules, here taken constructor by constructor.
theorem le_zero_one_iff {u : UnpackedFloat}
    (h : ∀ {s mantissa exponent hm}, u = .finite s mantissa exponent hm →
      mantissa < 2 ^ 53 ∧ (2 ^ 52 ≤ mantissa ∨ exponent = -1074)) :
    (UnpackedFloat.zero .positive).le u ∧ u.le (.finite .positive (2 ^ 52) (-52) (by decide)) ↔
      ∃ q, (ofUnpacked u).value = some q ∧ 0 ≤ q ∧ q ≤ 1 := by
  cases u
  case notANumber =>
    refine iff_of_false (fun h => absurd h.left (by decide)) ?_
    rintro ⟨q, hq, _⟩
    cases hq
  case infinity s =>
    refine iff_of_false (fun h => ?_) ?_
    · cases s
      case positive => exact absurd h.right (by decide)
      case negative => exact absurd h.left (by decide)
    · rintro ⟨q, hq, _⟩
      cases hq
  case zero s => cases s <;> exact iff_of_true ⟨rfl, rfl⟩ ⟨_, rfl, by simp, by simp⟩
  case finite s mantissa exponent hm =>
    have hp : (0 : ℚ) < mantissa * 2 ^ exponent := by positivity
    cases s
    case negative =>
      refine iff_of_false (fun h => Bool.false_ne_true h.left) ?_
      rintro ⟨q, hq, hz, _⟩
      cases hq
      exact absurd (neg_nonneg.mp hz) (not_le.mpr hp)
    case positive =>
      have ⟨hm, he⟩ := h rfl
      have hc := isLE_compare_one_iff hm he
      constructor
      case mp => exact fun h => ⟨_, rfl, hp.le, hc.mp h.right⟩
      case mpr =>
        rintro ⟨q, hq, _, ho⟩
        cases hq
        exact ⟨rfl, hc.mpr ho⟩

end Decimal.Binary

open Decimal.Binary

theorem float_le_iff {x y : Float} : x ≤ y ↔ x.toModel.unpack.le y.toModel.unpack :=
  decide_eq_true_iff

theorem isProbability_iff (p : Float) :
    isProbability p ↔ ∃ q, (ofFloat p).value = some q ∧ 0 ≤ q ∧ q ≤ 1 := by
  have hz : (0 : Float).toModel.unpack = .zero .positive := rfl
  have ho : (1 : Float).toModel.unpack = .finite .positive (2 ^ 52) (-52) (by decide) := rfl
  rw [isProbability, Bool.and_eq_true, decide_eq_true_iff, decide_eq_true_iff, float_le_iff,
    float_le_iff, hz, ho, ofFloat_eq_ofUnpacked]
  apply le_zero_one_iff
  intro s mantissa exponent hm hu
  apply ofFloat_finite (x := p)
  rw [ofFloat_eq_ofUnpacked, hu]
  rfl

end Sentential
