import Mathlib
import NumberDuel.Decimal.Dyadic

/-!
# The whole number nearest to a double

A finite double stands for a fraction, `Dyadic.value`, and rounding takes it to the one whole
number that `IsNearest` singles out: none is nearer, and of two that are equally near it is the
even one. The reading of the bits is the one by which the library computes, so a double can be
rounded if and only if it is finite.
-/

namespace NumberDuel

open Float.Model

/-! ## The nearest whole number -/

/-- The whole number nearest to a fraction; of two that are equally near, the even one. -/
structure IsNearest (q : ℚ) (n : ℤ) : Prop where
  near : |q - n| ≤ 1 / 2
  even : |q - n| = 1 / 2 → Even n

variable {q : ℚ} {m n : ℤ}

theorem isNearest_of_lt (near : |q - n| < 1 / 2) : IsNearest q n :=
  ⟨near.le, fun half => absurd half near.ne⟩

theorem isNearest_of_even (half : |q - n| = 1 / 2) (even : Even n) : IsNearest q n :=
  ⟨half.le, fun _ => even⟩

/-- No fraction has two nearest whole numbers. -/
theorem IsNearest.eq (hm : IsNearest q m) (hn : IsNearest q n) : m = n := by
  have gap : |(m : ℚ) - n| ≤ |q - m| + |q - n| := by
    rw [abs_sub_comm q m]
    exact abs_sub_le ..
  have one : |m - n| ≤ 1 := by
    have := gap.trans (add_le_add hm.near hn.near)
    norm_num at this
    exact_mod_cast this
  rcases Int.abs_le_one_iff.mp one with same | apart | apart
  · exact sub_eq_zero.mp same
  all_goals
    -- neighbours are both nearest only halfway between them, and one of them is odd
    have wide : |(m : ℚ) - n| = 1 := by
      rw [← Int.cast_sub, apart]
      norm_num
    have even := (hm.even (by linarith [hm.near, hn.near])).sub
      (hn.even (by linarith [hm.near, hn.near]))
    rw [apart] at even
    exact absurd even (by decide)

theorem IsNearest.neg (h : IsNearest q n) : IsNearest (-q) (-n) := by
  have same : |-q - ((-n : ℤ) : ℚ)| = |q - n| := by
    rw [Int.cast_neg, ← neg_sub', abs_neg]
  exact ⟨same ▸ h.near, fun half => (h.even (same ▸ half)).neg⟩

theorem isNearest_roundQuotient (num : Nat) {den : Nat} (positive : 0 < den) :
    IsNearest (num / den) (roundQuotient num den) := by
  have den_pos : (0 : ℚ) < den := by exact_mod_cast positive
  have split : (num : ℚ) = den * (num / den : ℕ) + (num % den : ℕ) := by
    exact_mod_cast (Nat.div_add_mod num den).symm
  have rest_lt : num % den < den := Nat.mod_lt num positive
  unfold roundQuotient
  rw [split, add_div, mul_div_cancel_left₀ _ den_pos.ne']
  dsimp only
  generalize num / den = whole
  generalize num % den = rest at rest_lt ⊢
  have nonneg : (0 : ℚ) ≤ rest / den := by positivity
  have lt_one : (rest / den : ℚ) < 1 := by
    rw [div_lt_one den_pos]
    exact_mod_cast rest_lt
  split_ifs with below above even
  · have small : (rest / den : ℚ) < 1 / 2 := by
      rw [div_lt_div_iff₀ den_pos two_pos, one_mul, mul_comm]
      exact_mod_cast below
    refine isNearest_of_lt ?_
    rw [Int.cast_natCast, add_sub_cancel_left, abs_of_nonneg nonneg]
    exact small
  · have large : (1 / 2 : ℚ) < rest / den := by
      rw [div_lt_div_iff₀ two_pos den_pos, one_mul, mul_comm]
      exact_mod_cast above
    refine isNearest_of_lt ?_
    push_cast
    rw [add_sub_add_left_eq_sub, abs_of_nonpos (by linarith)]
    linarith
  all_goals
    have half : (rest / den : ℚ) = 1 / 2 := by
      rw [div_eq_div_iff den_pos.ne' two_ne_zero, one_mul, mul_comm]
      exact_mod_cast le_antisymm (not_lt.mp above) (not_lt.mp below)
    refine isNearest_of_even ?_ ?_
  · rw [half, Int.cast_natCast, add_sub_cancel_left, abs_of_nonneg (by norm_num)]
  · exact_mod_cast Nat.even_iff.mpr even
  · push_cast
    rw [half, add_sub_add_left_eq_sub]
    norm_num
  · exact_mod_cast Nat.even_add_one.mpr (Nat.even_iff.not.mpr even)

namespace Dyadic

variable (d : Dyadic)

def value : ℚ := (if d.negative then -1 else 1) * (d.significand * 2 ^ d.exponent)

theorem denominator_pos : 0 < d.denominator := Nat.two_pow_pos _

theorem numerator_div_denominator :
    (d.numerator : ℚ) / d.denominator = d.significand * 2 ^ d.exponent := by
  rw [numerator, denominator]
  push_cast [Nat.pow_eq]
  rw [mul_div_assoc, ← zpow_natCast, ← zpow_natCast, ← zpow_sub₀ two_ne_zero]
  congr 2
  omega

/-- Counted in units of `10 ^ (-places)`, a magnitude goes to the nearest unit. -/
theorem isNearest_roundedTo (places : Nat) :
    IsNearest (d.significand * 2 ^ d.exponent * 10 ^ places) (d.roundedTo places) := by
  have scaled : (d.significand * 2 ^ d.exponent * 10 ^ places : ℚ) =
      ((d.numerator * Nat.pow 10 places : ℕ) : ℚ) / d.denominator := by
    rw [← numerator_div_denominator]
    push_cast [Nat.pow_eq]
    ring
  rw [scaled]
  exact isNearest_roundQuotient _ d.denominator_pos

/-- Rounding keeps the sign. -/
theorem isNearest_signed (places : Nat) :
    IsNearest (d.value * 10 ^ places) (d.signed (d.roundedTo places)) := by
  have magnitude := d.isNearest_roundedTo places
  rw [value, signed]
  cases d.negative with
  | false => simpa using magnitude
  | true => simpa using magnitude.neg

theorem isNearest_round : IsNearest d.value d.round := by
  simpa [round] using d.isNearest_signed 0

end Dyadic

/-! ## The reading of a double -/

section

variable (bits : BitVec Format.binary64.numBits)

theorem toNat_unpackExponent :
    (UnpackedFloat.unpackExponent bits).toNat = bits.toNat / Nat.pow 2 52 % Nat.pow 2 11 := by
  rw [UnpackedFloat.unpackExponent, BitVec.toNat_cast, BitVec.extractLsb_toNat,
    Nat.shiftRight_eq_div_pow]
  rfl

theorem toNat_unpackMantissa :
    (UnpackedFloat.unpackMantissa bits).toNat = bits.toNat % Nat.pow 2 52 := by
  rw [UnpackedFloat.unpackMantissa, BitVec.toNat_cast, BitVec.extractLsb_toNat,
    Nat.shiftRight_eq_div_pow, Nat.pow_zero, Nat.div_one]
  rfl

theorem toNat_unpackSign : (UnpackedFloat.unpackSign bits).toNat = bits.toNat / Nat.pow 2 63 := by
  rw [UnpackedFloat.unpackSign, BitVec.toNat_cast, BitVec.extractLsb_toNat,
    Nat.shiftRight_eq_div_pow]
  exact Nat.mod_eq_of_lt (Nat.div_lt_of_lt_mul bits.isLt)

theorem isNegative_unpackSign :
    (UnpackedFloat.Sign.ofBitVec (UnpackedFloat.unpackSign bits) == .negative) =
      decide (Nat.pow 2 63 ≤ bits.toNat) := by
  have positive : UnpackedFloat.unpackSign bits = 0#1 ↔ bits.toNat < Nat.pow 2 63 := by
    rw [← BitVec.toNat_inj, toNat_unpackSign]
    exact Nat.div_eq_zero_iff_lt (by decide)
  unfold UnpackedFloat.Sign.ofBitVec
  split_ifs with h
  · exact (decide_eq_false (not_le.mpr (positive.mp h))).symm
  · exact (decide_eq_true (not_lt.mp (positive.not.mp h))).symm

/-- A normal double has one more bit than its fraction. -/
theorem toNat_one_append (fraction : BitVec 52) :
    (1#1 ++ fraction).toNat = fraction.toNat + Nat.pow 2 52 := by
  rw [BitVec.toNat_append, ← Nat.shiftLeft_add_eq_or_of_lt fraction.isLt, Nat.add_comm]
  rfl

end

namespace Reading

def ofUnpacked : UnpackedFloat → Reading
  | .infinity s => .infinite (s == .negative)
  | .notANumber => .notANumber
  | .zero s => .finite ⟨s == .negative, 0, -1074⟩
  | .finite s m e _ => .finite ⟨s == .negative, m, e⟩

/-- The bits are read as the operations on doubles read them. -/
theorem ofFloat_eq (x : Float) : ofFloat x = ofUnpacked x.toModel.unpack := by
  have exponent := toNat_unpackExponent x.toModel.toBits.toBitVec
  have fraction := toNat_unpackMantissa x.toModel.toBits.toBitVec
  have sign := isNegative_unpackSign x.toModel.toBits.toBitVec
  have largest : (-BitVec.ofNat Format.binary64.exponentBits 1).toNat = 2047 := rfl
  have least : (BitVec.ofNat Format.binary64.exponentBits 0).toNat = 0 := rfl
  have whole : (BitVec.ofNat Format.binary64.mantissaBitsWithoutImplicit 0).toNat = 0 := rfl
  unfold ofFloat Float.Model.unpack UnpackedFloat.unpack Float.toBits UInt64.toNat
  dsimp only
  rw [← exponent, ← fraction, ← sign]
  simp only [← BitVec.toNat_inj, largest, least, whole]
  split_ifs with beyond infinite subnormal zero
  · rfl
  · rfl
  · rw [zero]
    rfl
  · rw [subnormal]
    rfl
  · rw [ofUnpacked, toNat_one_append]
    rfl

theorem isFinite_iff {x : Float} : x.isFinite = true ↔ ∃ d, ofFloat x = .finite d := by
  rw [ofFloat_eq]
  change x.toModel.unpack.isFinite = true ↔ _
  cases x.toModel.unpack <;> simp [ofUnpacked, UnpackedFloat.isFinite]

end Reading

/-! ## Rounding a double -/

def RoundsTo (x : Float) (n : ℤ) : Prop :=
  ∃ d, Reading.ofFloat x = .finite d ∧ IsNearest d.value n

theorem roundHalfEven?_eq_some_iff {x : Float} : roundHalfEven? x = some n ↔ RoundsTo x n := by
  unfold roundHalfEven? RoundsTo
  cases Reading.ofFloat x with
  | finite d =>
    simp only [Option.some.injEq, Reading.finite.injEq, exists_eq_left']
    exact ⟨fun same => same ▸ d.isNearest_round, fun nearest => d.isNearest_round.eq nearest⟩
  | infinite | notANumber => simp

/-- Finite doubles, and no others, can be rounded. -/
theorem isSome_roundHalfEven? (x : Float) : (roundHalfEven? x).isSome = x.isFinite := by
  rw [Bool.eq_iff_iff, Reading.isFinite_iff]
  unfold roundHalfEven?
  cases Reading.ofFloat x <;> simp

end NumberDuel
