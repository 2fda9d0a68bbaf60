import NumberDuel.Proofs.Double.Magnitude

/-!
# Which whole numbers have a double

A whole number of more bits than a double has is rounded to as many. It has no double if that
takes it past the largest one, by its size or by the carry of the rounding: from `beyond` on, which
lies half a place above the largest double, and for no smaller number.
-/

namespace NumberDuel

open Float.Model

namespace Double

variable {m n k shift : Nat} {e : Int}

/-! ## A significand cut to fewer bits -/

theorem div_two_pow_lt_iff (hn : n ≠ 0) (k bits : Nat) :
    n / 2 ^ k < 2 ^ bits ↔ n.log2 < bits + k := by
  rw [Nat.div_lt_iff_lt_mul (Nat.two_pow_pos k), ← Nat.pow_add, Nat.log2_lt hn]

theorem le_div_two_pow_iff (hn : n ≠ 0) (k bits : Nat) :
    2 ^ bits ≤ n / 2 ^ k ↔ bits + k ≤ n.log2 := by
  rw [Nat.le_div_iff_mul_le (Nat.two_pow_pos k), ← Nat.pow_add, Nat.le_log2 hn]

/-- A significand without its lowest bits, which stay as what decides its rounding. -/
def cut (m shift : Nat) : UnpackedFloat.ExtendedMantissa :=
  UnpackedFloat.ExtendedMantissa.ofMantissaAndAccuracy m .exact >>> shift

theorem mantissa_cut (m shift : Nat) : (cut m shift).mantissa = m / 2 ^ shift :=
  mantissa_shiftRight ..

/-- What is kept, with the highest bit of what is not. -/
theorem roundBit_cut (m shift : Nat) :
    2 * (cut m (shift + 1)).mantissa + (cut m (shift + 1)).roundBit.toNat = m / 2 ^ shift := by
  have last : cut m (shift + 1) = (cut m shift).shiftRightOne := rfl
  rw [last, ← mantissa_cut]
  rcases Nat.mod_two_eq_zero_or_one (cut m shift).mantissa with even | odd
  all_goals
    simp [UnpackedFloat.ExtendedMantissa.shiftRightOne, *]
    omega

theorem le_roundedMantissa (em : UnpackedFloat.ExtendedMantissa) :
    em.mantissa ≤ em.roundedMantissa := by
  rcases em with ⟨m, _ | _, _ | _⟩ <;>
    simp [UnpackedFloat.ExtendedMantissa.roundedMantissa,
      UnpackedFloat.ExtendedMantissa.accuracy, UnpackedFloat.Accuracy.roundToNearestEven]

/-- A rounding carries into one more bit if every bit and the one after the last are set: a tie
goes up from there, to the even side. -/
theorem le_roundedMantissa_iff {em : UnpackedFloat.ExtendedMantissa} {bits : Nat}
    (lt : em.mantissa < 2 ^ (bits + 1)) :
    2 ^ (bits + 1) ≤ em.roundedMantissa ↔
      2 ^ (bits + 2) ≤ 2 * em.mantissa + em.roundBit.toNat + 1 := by
  have twice : 2 ^ (bits + 2) = 2 * 2 ^ (bits + 1) := Nat.pow_succ'
  rcases em with ⟨m, _ | _, _ | _⟩ <;>
    simp [UnpackedFloat.ExtendedMantissa.roundedMantissa,
      UnpackedFloat.ExtendedMantissa.accuracy,
      UnpackedFloat.Accuracy.roundToNearestEven] at lt ⊢ <;>
    omega

/-- A significand cut to the `53` bits of a double, and rounded. -/
theorem roundedMantissa_cut (bits : m.log2 = k + 53) :
    2 ^ 52 ≤ (cut m (k + 1)).roundedMantissa ∧ (cut m (k + 1)).roundedMantissa ≤ 2 ^ 53 ∧
      (2 ^ 53 ≤ (cut m (k + 1)).roundedMantissa ↔ 2 ^ 54 ≤ m / 2 ^ k + 1) := by
  have hm : m ≠ 0 := by
    rintro rfl
    simp at bits
  have ge : 2 ^ 52 ≤ (cut m (k + 1)).mantissa := by
    rw [mantissa_cut, le_div_two_pow_iff hm]
    omega
  have lt : (cut m (k + 1)).mantissa < 2 ^ (52 + 1) := by
    rw [mantissa_cut, div_two_pow_lt_iff hm]
    omega
  have carries := le_roundedMantissa_iff lt
  rw [roundBit_cut] at carries
  have := le_roundedMantissa (cut m (k + 1))
  have := roundedMantissa_le (cut m (k + 1))
  exact ⟨by omega, by omega, carries⟩

/-- A significand with at least the bits of a double is cut to as many. -/
theorem shiftToTargetExponent_eq (least : -1074 ≤ e) (bits : 52 ≤ m.log2) :
    UnpackedFloat.shiftToTargetExponent Format.binary64 m e .exact =
      (cut m (m.log2 - 52), e + (m.log2 - 52 : Nat)) := by
  have shift : (Format.binary64.targetExponent (totalExponent m e) - e).toNat = m.log2 - 52 := by
    simp only [Format.targetExponent, totalExponent, Format.mantissaBits, Format.minExponent]
    omega
  rw [UnpackedFloat.shiftToTargetExponent, UnpackedFloat.shiftToExponent, shift, cut]

/-! ## Past the largest double -/

theorem IsBelow.isInf {k : Int} {f : UnpackedFloat} (h : IsBelow k f) : f.isInf = false := by
  cases f with
  | infinity => exact h.elim
  | zero | finite | notANumber => rfl

/-- What is packed is infinite if its exponent is larger than that of the largest double. -/
theorem isInf_pack_finite (s m e hm) :
    (pack (.finite s m e hm)).unpack.isInf = true ↔ 971 < e := by
  have packed (field : BitVec 11) (mantissa) (some : field ≠ -1#_) :
      (UnpackedFloat.unpack Format.binary64
        (UnpackedFloat.packComponents Format.binary64 s field mantissa)).isInf = false :=
    (isBelow_unpack_packComponents s mantissa some).isInf
  change (UnpackedFloat.unpack Format.binary64
    (UnpackedFloat.pack Format.binary64 (.finite s m e hm))).isInf = true ↔ _
  unfold UnpackedFloat.pack
  dsimp only
  split_ifs with overflow normal <;> simp [Format.exponentBias] at overflow
  · have infinite : (UnpackedFloat.unpack Format.binary64
        (UnpackedFloat.packedInfinity Format.binary64 s)).isInf = true := by
      cases s <;> rfl
    exact iff_of_true infinite (by omega)
  · rw [packed _ _ fun all => ?_]
    · exact iff_of_false Bool.false_ne_true (by omega)
    have := congrArg BitVec.toNat all
    simp [Format.exponentBias] at this
    omega
  · rw [packed _ _ (by decide)]
    exact iff_of_false Bool.false_ne_true (by omega)

/-- A significand with more bits than a double has becomes infinite by its exponent, or by a carry
into the next one. -/
theorem isInf_pack_roundWithAccuracy (s) (least : -1074 ≤ e) (bits : m.log2 = k + 53) :
    (pack (UnpackedFloat.roundWithAccuracy Format.binary64 s m e .exact)).unpack.isInf = true ↔
      971 < e + k + 1 ∨ e + k + 1 = 971 ∧ 2 ^ 54 ≤ m / 2 ^ k + 1 := by
  unfold UnpackedFloat.roundWithAccuracy
  rw [shiftToTargetExponent_eq least (by omega), show m.log2 - 52 = k + 1 by omega]
  dsimp only
  obtain ⟨ge, le, carries⟩ := roundedMantissa_cut bits
  generalize (cut m (k + 1)).roundedMantissa = r at *
  have hr : r ≠ 0 := by omega
  have log_ge : 52 ≤ r.log2 := (Nat.le_log2 hr).mpr ge
  have log_lt : r.log2 < 54 := (Nat.log2_lt hr).mpr (by omega)
  have log_eq : 53 ≤ r.log2 ↔ 2 ^ 53 ≤ r := Nat.le_log2 hr
  rw [shiftToTargetExponent_eq (by omega) log_ge]
  -- the second shift takes back the bit that a carry has added, and no other
  have some : (cut r (r.log2 - 52)).mantissa ≠ 0 := by
    have : 2 ^ (r.log2 - 52) ≤ r :=
      (Nat.pow_le_pow_right two_pos (Nat.sub_le ..)).trans (Nat.log2_self_le hr)
    rw [mantissa_cut]
    exact (Nat.div_pos this (Nat.two_pow_pos _)).ne'
  rw [dif_neg some, isInf_pack_finite]
  push_cast
  omega

/-! ## Whole numbers -/

/-- The least whole number without a double, half a place above the largest double. -/
def beyond : Nat := 2 ^ 1024 - 2 ^ 970

theorem beyond_eq : beyond = (2 ^ 54 - 1) * 2 ^ 970 := by
  rw [beyond, Nat.sub_mul, ← Nat.pow_add, Nat.one_mul]

theorem ofNat_of_small (small : n < 2 ^ 53) : Float.ofNat n = n.toUInt64.toFloat * 1 := by
  unfold Float.ofNat OfScientific.ofScientific
  simp only [instOfScientificFloat, Float.ofScientific]
  rw [dif_pos ⟨small, by decide⟩]
  rfl

theorem below_ofNat (small : n < 2 ^ 53) : Below 67 (Float.ofNat n) := by
  have word : Fits (n.toUInt64.toNat : Int).natAbs 0 64 := ⟨64, n.toUInt64.toNat_lt, by decide⟩
  have whole : Below 65 n.toUInt64.toFloat :=
    isBelow_pack (isBelow_normalize word (by decide) _) (by decide) (by decide)
  rw [ofNat_of_small small]
  exact whole.mul (show Below 1 1 by decide +kernel) (by decide) (by decide)

theorem ofScientific_of_pos (hn : n ≠ 0) :
    UnpackedFloat.ofScientific Format.binary64 n 0 =
      UnpackedFloat.roundWithAccuracy Format.binary64 .positive (n <<< 53) (-53) .exact := by
  have least : ¬ (0 : Int) < -((2 ^ Format.binary64.exponentBits : Int) + n.log2) := by
    simp
  rw [UnpackedFloat.ofScientific, dif_neg hn, if_neg (by decide), if_neg least, if_pos le_rfl]
  change UnpackedFloat.roundWithAccuracy Format.binary64 .positive (n <<< 53 * 1) (-53) .exact = _
  rw [Nat.mul_one]

theorem ofNat_of_large {n : Nat} (large : 2 ^ 53 ≤ n) :
    Float.ofNat n = .ofModel (pack
      (UnpackedFloat.roundWithAccuracy Format.binary64 .positive (n <<< 53) (-53) .exact)) := by
  have hn : n ≠ 0 := by omega
  rw [← ofScientific_of_pos hn]
  unfold Float.ofNat OfScientific.ofScientific
  simp only [instOfScientificFloat, Float.ofScientific]
  rw [dif_neg (by omega)]
  rfl

theorem log2_shiftLeft (hn : n ≠ 0) (shift : Nat) : (n <<< shift).log2 = n.log2 + shift := by
  induction shift with
  | zero => rfl
  | succ shift ih =>
    rw [Nat.shiftLeft_succ, Nat.log2_two_mul (by simpa using hn), ih, Nat.add_assoc]

theorem shiftLeft_div (shift k : Nat) : n <<< shift / 2 ^ (k + shift) = n / 2 ^ k := by
  rw [Nat.shiftLeft_eq, Nat.pow_add, Nat.mul_div_mul_right _ _ (Nat.two_pow_pos shift)]

theorem isInf_ofNat (n : Nat) : (Float.ofNat n).isInf = true ↔ beyond ≤ n := by
  rw [beyond_eq, ← Nat.le_div_iff_mul_le (Nat.two_pow_pos 970)]
  by_cases small : n < 2 ^ 53
  · rw [(below_ofNat small).isInf]
    refine iff_of_false Bool.false_ne_true ?_
    have := Nat.div_le_self n (2 ^ 970)
    omega
  · have hn : n ≠ 0 := by omega
    rw [ofNat_of_large (by omega)]
    refine (isInf_pack_roundWithAccuracy .positive (by decide) (log2_shiftLeft hn 53)).trans ?_
    rcases Nat.lt_trichotomy n.log2 1023 with less | same | more
    · refine iff_of_false (by omega) ?_
      have := (div_two_pow_lt_iff hn 970 53).mpr less
      omega
    · rw [same, shiftLeft_div 53 970]
      omega
    · refine iff_of_true (by omega) ?_
      have := (le_div_two_pow_iff hn 970 54).mpr more
      omega

/-- An unpacked double has an exponent that can be packed. -/
theorem unpack_exponent_le {b : BitVec Format.binary64.numBits} {s m hm}
    (h : UnpackedFloat.unpack Format.binary64 b = .finite s m e hm) : e ≤ 971 := by
  have field : UnpackedFloat.unpackExponent b ≠ -1#_ := by
    intro all
    unfold UnpackedFloat.unpack at h
    dsimp only at h
    rw [if_pos all] at h
    split at h <;> cases h
  have largest : (UnpackedFloat.unpackExponent b).toNat ≠ 2 ^ 11 - 1 :=
    fun same => field (BitVec.eq_of_toNat_eq same)
  have below := isBelow_unpack b field
  rw [h] at below
  have := exponent_le_of_fits h below
  have : (UnpackedFloat.unpackExponent b).toNat < 2 ^ 11 := BitVec.isLt _
  omega

theorem isInf_neg (x : Float) : (-x).isInf = x.isInf := by
  change (pack x.toModel.unpack.neg).unpack.isInf = x.toModel.unpack.isInf
  cases hx : x.toModel.unpack with
  | infinity s => cases s <;> rfl
  | notANumber => rfl
  | zero s => cases s <;> rfl
  | finite s m e hm =>
    rw [Bool.eq_iff_iff]
    have := unpack_exponent_le hx
    exact (isInf_pack_finite ..).trans (iff_of_false (by omega) Bool.false_ne_true)

theorem isInf_ofInt (n : Int) : (Float.ofInt n).isInf = true ↔ beyond ≤ n.natAbs := by
  cases n with
  | ofNat n => exact isInf_ofNat n
  | negSucc n =>
    have : (Float.ofInt (.negSucc n)).isInf = (Float.ofNat (n + 1)).isInf := isInf_neg _
    rw [this]
    exact isInf_ofNat _

end Double

/-- A whole number has a double unless it is as large as `Double.beyond`. -/
theorem doubleOfInt?_eq_none_iff {n : Int} :
    doubleOfInt? n = none ↔ Double.beyond ≤ n.natAbs := by
  rw [← Double.isInf_ofInt]
  simp [doubleOfInt?]

end NumberDuel
