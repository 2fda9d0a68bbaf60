import NumberDuel.Proofs.Double.Closeness
import NumberDuel.Proofs.Double.Rounding

/-!
# Equal doubles

A double has one way to write its number as a significand with an exponent: the significand has all
its bits, or the exponent is the least one. So two finite doubles are equal if and only if they
stand for the same number. The two zeros are equal, and they alone are two doubles for one number.
-/

namespace NumberDuel

open Float.Model

namespace Dyadic

variable {d d' : Dyadic}

/-- The form in which a double has its number. -/
structure Canonical (d : Dyadic) : Prop where
  bounded : d.significand < 2 ^ 53
  least : -1074 ≤ d.exponent
  /-- Bits are missing only at the least exponent. -/
  full : 2 ^ 52 ≤ d.significand ∨ d.exponent = -1074

theorem canonical_of_reading {x : Float} (reading : Reading.ofFloat x = .finite d) :
    d.Canonical := by
  have fraction := Nat.mod_lt x.toBits.toNat (Nat.two_pow_pos 52)
  simp only [Reading.ofFloat, Nat.pow_eq] at reading
  split at reading
  · split at reading <;> cases reading
  split at reading
  · cases reading
    exact ⟨fraction.trans (by decide), le_rfl, .inr rfl⟩
  · next some =>
    cases reading
    constructor <;> dsimp only <;> omega

theorem abs_value (d : Dyadic) : |d.value| = d.significand * 2 ^ d.exponent := by
  have positive : (0 : ℚ) ≤ d.significand * 2 ^ d.exponent := by positivity
  rw [value, abs_mul, abs_of_nonneg positive]
  cases d.negative <;> simp

/-- The same magnitude at a larger exponent would need more bits than there are. -/
theorem Canonical.exponent_le (h : d.Canonical) (h' : d'.Canonical)
    (same : (d.significand * 2 ^ d.exponent : ℚ) = d'.significand * 2 ^ d'.exponent) :
    d'.exponent ≤ d.exponent := by
  by_contra! larger
  have all_bits : 2 ^ 52 ≤ d'.significand := h'.full.resolve_right fun least => by
    have := h.least
    omega
  obtain ⟨shift, shift_eq⟩ := Int.eq_ofNat_of_zero_le (Int.sub_nonneg.mpr larger.le)
  have shifted : d.significand = d'.significand * 2 ^ shift := by
    have apart : (2 : ℚ) ^ d'.exponent = 2 ^ shift * 2 ^ d.exponent := by
      rw [← zpow_natCast, ← zpow_add₀ two_ne_zero, ← shift_eq, sub_add_cancel]
    rw [apart, ← mul_assoc] at same
    exact_mod_cast mul_right_cancel₀ (zpow_ne_zero _ two_ne_zero) same
  have twice : 2 ^ 1 ≤ 2 ^ shift := Nat.pow_le_pow_right two_pos (by omega)
  have := Nat.mul_le_mul all_bits twice
  have := h.bounded
  omega

/-- A canonical form is determined by its number, except for the sign of a zero. -/
theorem Canonical.value_eq_iff (h : d.Canonical) (h' : d'.Canonical) :
    d.value = d'.value ↔ d.significand = d'.significand ∧ d.exponent = d'.exponent ∧
      (d.significand ≠ 0 → d.negative = d'.negative) := by
  constructor
  · intro same
    have magnitude := congrArg (|·|) same
    simp only [abs_value] at magnitude
    have exponent : d.exponent = d'.exponent :=
      le_antisymm (h'.exponent_le h magnitude.symm) (h.exponent_le h' magnitude)
    have unit : (2 : ℚ) ^ d'.exponent ≠ 0 := zpow_ne_zero _ two_ne_zero
    rw [exponent] at magnitude
    have significand : d.significand = d'.significand := by
      exact_mod_cast mul_right_cancel₀ unit magnitude
    refine ⟨significand, exponent, fun some => ?_⟩
    have nonzero : (d'.significand * 2 ^ d'.exponent : ℚ) ≠ 0 :=
      mul_ne_zero (by exact_mod_cast significand ▸ some) unit
    rw [value, value, significand, exponent] at same
    have sign := mul_right_cancel₀ nonzero same
    revert sign
    cases d.negative <;> cases d'.negative <;> norm_num
  · rintro ⟨significand, exponent, sign⟩
    rw [value, value, significand, exponent]
    by_cases zero : d'.significand = 0
    · simp [zero]
    · rw [sign (significand ▸ zero)]

end Dyadic

namespace Double

variable {x y : Float} {d d' : Dyadic}

theorem isNaN_of_reading (reading : Reading.ofFloat x = .finite d) : x.isNaN = false :=
  ((isFinite_iff _).mp (Reading.isFinite_iff.mpr ⟨d, reading⟩)).2

/-- The place of a finite double by its sign and its two parts. -/
theorem rank_of_reading (reading : Reading.ofFloat x = .finite d) :
    rank x = if d.significand = 0 then toLex (0, toLex (0, 0))
      else if d.negative then toLex (-1, toLex (-d.exponent, -(d.significand : Int)))
      else toLex (1, toLex (d.exponent, (d.significand : Int))) := by
  rw [Reading.ofFloat_eq] at reading
  unfold rank
  cases unpacked : x.toModel.unpack with
  | infinity | notANumber =>
    rw [unpacked] at reading
    cases reading
  | zero s =>
    rw [unpacked] at reading
    cases reading
    rfl
  | finite s m e hm =>
    rw [unpacked] at reading
    cases reading
    cases s <;> simp [rankOf, hm.ne']

/-- Finite doubles are equal if and only if they stand for the same number. -/
theorem beq_iff_value (hx : Reading.ofFloat x = .finite d) (hy : Reading.ofFloat y = .finite d') :
    (x == y) = true ↔ d.value = d'.value := by
  have h := Dyadic.canonical_of_reading hx
  have h' := Dyadic.canonical_of_reading hy
  rw [beq_iff_rank (isNaN_of_reading hx) (isNaN_of_reading hy), rank_of_reading hx,
    rank_of_reading hy, h.value_eq_iff h']
  by_cases zero : d.significand = 0
  · by_cases zero' : d'.significand = 0
    · have least : d.exponent = -1074 := h.full.resolve_left (by omega)
      have least' : d'.exponent = -1074 := h'.full.resolve_left (by omega)
      simp [zero, zero', least, least']
    · cases d'.negative <;> simp [zero, zero', Ne.symm zero']
  · by_cases zero' : d'.significand = 0
    · cases d.negative <;> simp [zero, zero']
    · cases d.negative <;> cases d'.negative <;> simp [zero, zero', and_comm]

/-! ## Whole doubles -/

def IsWhole (x : Float) : Prop := ∃ d, Reading.ofFloat x = .finite d ∧ ∃ n : ℤ, d.value = n

theorem exists_value_eq_iff : (∃ n : ℤ, d.value = n) ↔ d.denominator ∣ d.numerator := by
  have den : (d.denominator : ℚ) ≠ 0 := by exact_mod_cast d.denominator_pos.ne'
  have magnitude : |d.value| = d.numerator / d.denominator := by
    rw [Dyadic.abs_value, Dyadic.numerator_div_denominator]
  constructor
  · rintro ⟨n, whole⟩
    rw [whole, eq_div_iff den] at magnitude
    refine ⟨n.natAbs, ?_⟩
    rw [mul_comm]
    have : |n| * d.denominator = d.numerator := by exact_mod_cast magnitude
    rw [Int.abs_eq_natAbs] at this
    exact_mod_cast this.symm
  · rintro ⟨k, whole⟩
    rw [whole, Nat.cast_mul, mul_div_cancel_left₀ _ den] at magnitude
    rcases abs_eq (Nat.cast_nonneg k) |>.mp magnitude with positive | negative
    · exact ⟨k, by rw [positive, Int.cast_natCast]⟩
    · exact ⟨-k, by rw [negative, Int.cast_neg, Int.cast_natCast]⟩

theorem isWhole_iff (reading : Reading.ofFloat x = .finite d) :
    IsWhole x ↔ d.denominator ∣ d.numerator := by
  rw [IsWhole, reading, ← exists_value_eq_iff]
  simp

instance decidableIsWhole (x : Float) : Decidable (IsWhole x) :=
  match reading : Reading.ofFloat x with
  | .finite _ => decidable_of_iff _ (isWhole_iff reading).symm
  | .infinite _ | .notANumber => .isFalse fun ⟨_, finite, _⟩ => by simp [reading] at finite

example : IsWhole (-10) ∧ IsWhole 1e300 ∧ ¬ IsWhole 0.5 := by decide +kernel

end Double

end NumberDuel
