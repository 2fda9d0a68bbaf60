import NumberDuel.Arithmetic
import NumberDuel.Proofs.Double.Order

/-!
# How large a double can get

`Below k x` says that a double is finite and smaller than `2 ^ k` in magnitude. Sum, product and
quotient keep such bounds, each at the price of the carry of one rounding; the quotient because a
divisor that is not close to zero is at least `2 ^ (-20)`. Where the bounds stay within the range
of the doubles, nothing overflows and nothing is undefined.
-/

namespace NumberDuel.Double

open Float.Model

/-! ## Bounds of a significand with its exponent -/

/-- The significand has at most as many bits as fit below `2 ^ k`. -/
def Fits (m : Nat) (e k : Int) : Prop := ∃ bits : Nat, m < 2 ^ bits ∧ bits + e ≤ k

variable {m n : Nat} {e e' i j k : Int}

theorem Fits.mono (h : Fits m e i) (hij : i ≤ j) : Fits m e j := by
  obtain ⟨bits, lt, le⟩ := h
  exact ⟨bits, lt, by omega⟩

theorem Fits.of_le (h : Fits m e k) (hn : n ≤ m) : Fits n e k := by
  obtain ⟨bits, lt, le⟩ := h
  exact ⟨bits, hn.trans_lt lt, le⟩

/-- A significand is shifted up while its exponent is lowered. -/
theorem Fits.lower (h : Fits m e k) (shift : Nat) : Fits (m <<< shift) (e - shift) k := by
  obtain ⟨bits, lt, le⟩ := h
  refine ⟨bits + shift, ?_, by omega⟩
  rw [Nat.shiftLeft_eq, Nat.pow_add]
  exact Nat.mul_lt_mul_of_pos_right lt (Nat.two_pow_pos shift)

theorem Fits.add (hm : Fits m e i) (hn : Fits n e j) : Fits (m + n) e (max i j + 1) := by
  obtain ⟨a, hm, ha⟩ := hm
  obtain ⟨b, hn, hb⟩ := hn
  refine ⟨max a b + 1, ?_, by omega⟩
  have := Nat.pow_le_pow_right two_pos (Nat.le_max_left a b)
  have := Nat.pow_le_pow_right two_pos (Nat.le_max_right a b)
  omega

theorem Fits.mul (hm : Fits m e i) (hn : Fits n e' j) : Fits (m * n) (e + e') (i + j) := by
  obtain ⟨a, hm, ha⟩ := hm
  obtain ⟨b, hn, hb⟩ := hn
  refine ⟨a + b, ?_, by omega⟩
  rw [Nat.pow_add]
  exact Nat.mul_lt_mul'' hm hn

/-- The exponent of the last place of a rounded value lies below its bound. -/
theorem Fits.targetExponent_le (h : Fits m e k) (hk : -1074 ≤ k) :
    Format.binary64.targetExponent (totalExponent m e) ≤ k := by
  obtain ⟨bits, lt, le⟩ := h
  have log : m.log2 ≤ bits := by
    rcases Nat.eq_zero_or_pos m with rfl | hm
    · simp
    · exact ((Nat.log2_lt hm.ne').mpr lt).le
  simp only [Format.targetExponent, totalExponent, Format.mantissaBits, Format.minExponent]
  omega

/-! ## One rounding -/

theorem mantissa_shiftRight (em : UnpackedFloat.ExtendedMantissa) (shift : Nat) :
    (em >>> shift).mantissa = em.mantissa / 2 ^ shift := by
  induction shift with
  | zero => simp [HShiftRight.hShiftRight, Nat.repeat]
  | succ shift ih =>
    change (em >>> shift).mantissa / 2 = _
    rw [ih, Nat.div_div_eq_div_mul, Nat.pow_succ]

theorem roundedMantissa_le (em : UnpackedFloat.ExtendedMantissa) :
    em.roundedMantissa ≤ em.mantissa + 1 := by
  rcases em with ⟨m, _ | _, _ | _⟩ <;>
    simp [UnpackedFloat.ExtendedMantissa.roundedMantissa,
      UnpackedFloat.ExtendedMantissa.accuracy, UnpackedFloat.Accuracy.roundToNearestEven]
  omega

theorem mantissa_shiftToExponent (m : Nat) (e target : Int) (accuracy) :
    (UnpackedFloat.shiftToExponent m e accuracy target).1.mantissa =
      m / 2 ^ (target - e).toNat := by
  rw [UnpackedFloat.shiftToExponent, mantissa_shiftRight]
  rcases accuracy with _ | _ | _ | _ <;> rfl

/-- Rounding a significand may carry, and no more. -/
theorem Fits.round (h : Fits m e k) {shift : Nat} (place : e + shift ≤ k) {r : Nat}
    (hr : r ≤ m / 2 ^ shift + 1) : Fits r (e + shift) (k + 1) := by
  obtain ⟨bits, lt, le⟩ := h
  rcases Nat.le_total shift bits with hs | hs
  · refine ⟨bits - shift + 1, ?_, by omega⟩
    have : m / 2 ^ shift < 2 ^ (bits - shift) := by
      rw [Nat.div_lt_iff_lt_mul (Nat.two_pow_pos shift), ← Nat.pow_add, Nat.sub_add_cancel hs]
      exact lt
    have := Nat.two_pow_pos (bits - shift)
    omega
  · refine ⟨1, ?_, by omega⟩
    have : m / 2 ^ shift = 0 :=
      Nat.div_eq_of_lt (lt.trans_le (Nat.pow_le_pow_right two_pos hs))
    omega

/-- Dropping bits keeps the bound, unless it leaves nothing. -/
theorem Fits.drop (h : Fits m e k) {shift : Nat} (some : m / 2 ^ shift ≠ 0) :
    Fits (m / 2 ^ shift) (e + shift) k := by
  obtain ⟨bits, lt, le⟩ := h
  have hs : shift ≤ bits := by
    by_contra more
    exact some (Nat.div_eq_of_lt (lt.trans_le (Nat.pow_le_pow_right two_pos (by omega))))
  refine ⟨bits - shift, ?_, by omega⟩
  rw [Nat.div_lt_iff_lt_mul (Nat.two_pow_pos shift), ← Nat.pow_add, Nat.sub_add_cancel hs]
  exact lt

def IsBelow (k : Int) : UnpackedFloat → Prop
  | .zero _ => True
  | .finite _ m e _ => Fits m e k
  | .infinity _ | .notANumber => False

theorem IsBelow.mono {f : UnpackedFloat} (h : IsBelow i f) (hij : i ≤ j) : IsBelow j f := by
  cases f with
  | zero => trivial
  | finite => exact Fits.mono h hij
  | infinity | notANumber => exact h

theorem isBelow_roundWithAccuracy (h : Fits m e k) (hk : -1074 ≤ k) (s accuracy) :
    IsBelow (k + 1) (UnpackedFloat.roundWithAccuracy Format.binary64 s m e accuracy) := by
  have target := h.targetExponent_le hk
  have place : e ≤ k := by
    obtain ⟨bits, -, le⟩ := h
    omega
  have rounded : Fits
      (UnpackedFloat.shiftToTargetExponent Format.binary64 m e accuracy).1.roundedMantissa
      (UnpackedFloat.shiftToTargetExponent Format.binary64 m e accuracy).2 (k + 1) := by
    refine h.round (by omega) ((roundedMantissa_le _).trans ?_)
    rw [UnpackedFloat.shiftToTargetExponent, mantissa_shiftToExponent]
  unfold UnpackedFloat.roundWithAccuracy
  dsimp only
  split
  · trivial
  · next some =>
    rw [UnpackedFloat.shiftToTargetExponent, mantissa_shiftToExponent] at some
    change Fits _ _ _
    rw [UnpackedFloat.shiftToTargetExponent, mantissa_shiftToExponent]
    exact rounded.drop some

theorem isBelow_normalize {mantissa : Int} (h : Fits mantissa.natAbs e k) (hk : -1074 ≤ k)
    (zeroSign) :
    IsBelow (k + 1) (UnpackedFloat.normalize Format.binary64 mantissa e zeroSign) := by
  have round (s) {m : Nat} (hm : m = mantissa.natAbs) :
      IsBelow (k + 1) (UnpackedFloat.round Format.binary64 s m e) :=
    isBelow_roundWithAccuracy ((hm ▸ h).lower _) hk s _
  unfold UnpackedFloat.normalize
  split
  · next lt =>
    rw [Int.compare_eq_lt] at lt
    exact round _ (by omega)
  · trivial
  · next gt =>
    rw [Int.compare_eq_gt] at gt
    exact round _ (by omega)

/-! ## Unpacked doubles -/

/-- The exponent field of a double bounds it. -/
theorem isBelow_unpack (b : BitVec Format.binary64.numBits)
    (field : UnpackedFloat.unpackExponent b ≠ -1#_) :
    IsBelow ((UnpackedFloat.unpackExponent b).toNat - 1022)
      (UnpackedFloat.unpack Format.binary64 b) := by
  have mantissa : (UnpackedFloat.unpackMantissa b).toNat < 2 ^ 52 :=
    (UnpackedFloat.unpackMantissa b).isLt
  unfold UnpackedFloat.unpack
  dsimp only
  rw [if_neg field]
  split
  · next subnormal =>
    split
    · trivial
    · refine ⟨52, mantissa, ?_⟩
      simp [subnormal, Format.exponentBias]
  · refine ⟨53, BitVec.isLt _, ?_⟩
    simp [Format.exponentBias]
    omega

theorem isBelow_unpack_packComponents (s) {field : BitVec 11} (mantissa) (some : field ≠ -1#_) :
    IsBelow (field.toNat - 1022) (UnpackedFloat.unpack Format.binary64
      (UnpackedFloat.packComponents Format.binary64 s field mantissa)) := by
  have below := isBelow_unpack (UnpackedFloat.packComponents Format.binary64 s field mantissa)
  rw [UnpackedFloat.unpackExponent_packComponents] at below
  exact below some

/-- Packing a value with an exponent in the range of the doubles keeps its bound. -/
theorem isBelow_pack_finite (h : Fits m e k) (low : -1022 ≤ k) (range : e ≤ 971) (s hm) :
    IsBelow k (pack (.finite s m e hm)).unpack := by
  obtain ⟨bits, lt, le⟩ := h
  -- whichever exponent field is packed, it stands for a bound of `k` at most
  have packed (field : BitVec 11) (mantissa) (some : field ≠ -1#_)
      (hfield : (field.toNat : Int) - 1022 ≤ k) :
      IsBelow k (UnpackedFloat.unpack Format.binary64
        (UnpackedFloat.packComponents Format.binary64 s field mantissa)) :=
    (isBelow_unpack_packComponents s mantissa some).mono hfield
  change IsBelow k (UnpackedFloat.unpack Format.binary64
    (UnpackedFloat.pack Format.binary64 (.finite s m e hm)))
  unfold UnpackedFloat.pack
  dsimp only
  split_ifs with overflow normal
  · simp [Format.exponentBias] at overflow
    omega
  · have : bits ≥ 53 := by
      have := (Nat.log2_lt hm.ne').mpr lt
      simp [Format.mantissaBits] at normal
      omega
    refine packed _ _ (fun all => ?_) ?_
    · have := congrArg BitVec.toNat all
      simp [Format.exponentBias] at this
      omega
    · rw [BitVec.toNat_ofNat]
      have := Nat.mod_le (e + (Format.binary64.exponentBias : Int) +
        (Format.binary64.mantissaBitsWithoutImplicit : Int)).toNat (2 ^ 11)
      simp [Format.exponentBias] at this ⊢
      omega
  · exact packed _ _ (by decide) (by simpa using low)

/-- Packing a value within the range of the doubles keeps its bound. -/
theorem isBelow_pack {f : UnpackedFloat} (h : IsBelow k f) (low : -1022 ≤ k) (high : k ≤ 971) :
    IsBelow k (pack f).unpack := by
  cases f with
  | infinity | notANumber => exact h.elim
  | zero s => cases s <;> trivial
  | finite s m e hm =>
    have range : e ≤ 971 := by
      obtain ⟨bits, -, le⟩ := h
      omega
    exact isBelow_pack_finite h low range s hm

/-! ## Operations -/

def Below (k : Int) (x : Float) : Prop := IsBelow k x.toModel.unpack

variable {x y z : Float}

instance decidableFits : Decidable (Fits m e k) :=
  decidable_of_iff ((if m = 0 then 0 else (m.log2 : Int) + 1) + e ≤ k) (by
    constructor
    · intro le
      split at le
      · next zero => exact ⟨0, by simp [zero], by simpa using le⟩
      · exact ⟨m.log2 + 1, Nat.lt_log2_self, by omega⟩
    · rintro ⟨bits, lt, le⟩
      split
      · omega
      · next hm =>
        have := (Nat.log2_lt hm).mpr lt
        omega)

instance decidableIsBelow : (f : UnpackedFloat) → Decidable (IsBelow k f)
  | .zero _ => .isTrue trivial
  | .finite _ m e _ => inferInstanceAs (Decidable (Fits m e k))
  | .infinity _ | .notANumber => .isFalse id

instance decidableBelow : Decidable (Below k x) :=
  inferInstanceAs (Decidable (IsBelow k x.toModel.unpack))

theorem Below.mono (h : Below i x) (hij : i ≤ j) : Below j x := IsBelow.mono h hij

theorem Below.isFinite (h : Below k x) : x.isFinite = true := by
  change x.toModel.unpack.isFinite = true
  unfold Below at h
  cases hx : x.toModel.unpack <;> rw [hx] at h <;> first | rfl | exact h.elim

theorem Below.isNaN (h : Below k x) : x.isNaN = false :=
  ((isFinite_iff _).mp h.isFinite).2

theorem Below.isInf (h : Below k x) : x.isInf = false :=
  ((isFinite_iff _).mp h.isFinite).1

theorem natAbs_apply (s : UnpackedFloat.Sign) (m : Nat) : (s.apply m).natAbs = m := by
  cases s <;> simp [UnpackedFloat.Sign.apply]

/-- Two significands brought to their smaller exponent. -/
theorem Fits.align {d : Int} (h : Fits m e k) (hd : d ≤ e) :
    Fits (UnpackedFloat.decreaseExponent m e d).1 d k := by
  have := h.lower (e - d).toNat
  rwa [show e - ((e - d).toNat : Int) = d by omega] at this

theorem isBelow_add {f g : UnpackedFloat} (hf : IsBelow i f) (hg : IsBelow j g)
    (hi : -1074 ≤ i) : IsBelow (max i j + 2) (UnpackedFloat.add Format.binary64 f g) := by
  cases f with
  | infinity | notANumber => exact hf.elim
  | zero s =>
    cases g with
    | infinity | notANumber => exact hg.elim
    | zero t => cases s <;> cases t <;> trivial
    | finite => exact Fits.mono hg (by omega)
  | finite s m e hm =>
    cases g with
    | infinity | notANumber => exact hg.elim
    | zero => exact Fits.mono hf (by omega)
    | finite t n e' hn =>
      have sum := (Fits.align hf (min_le_left e e')).add (Fits.align hg (min_le_right e e'))
      refine (isBelow_normalize (sum.of_le ?_) (by omega) _).mono (by omega)
      refine (Int.natAbs_add_le _ _).trans (Nat.le_of_eq ?_)
      rw [natAbs_apply, natAbs_apply]
      rfl

theorem isBelow_neg {f : UnpackedFloat} (h : IsBelow k f) : IsBelow k f.neg := by
  cases f <;> exact h

theorem isBelow_abs {f : UnpackedFloat} (h : IsBelow k f) : IsBelow k f.abs := by
  cases f <;> exact h

theorem neg_apply (s : UnpackedFloat.Sign) (n : Int) : (-s).apply n = -s.apply n := by
  cases s with
  | positive => rfl
  | negative => exact (Int.neg_neg n).symm

/-- A difference is a sum with the opposite. -/
theorem sub_eq_add_neg (f g : UnpackedFloat) :
    UnpackedFloat.sub Format.binary64 f g = UnpackedFloat.add Format.binary64 f g.neg := by
  cases f <;> cases g <;>
    simp [UnpackedFloat.sub, UnpackedFloat.add, UnpackedFloat.neg, neg_apply, Int.sub_eq_add_neg]

theorem isBelow_mul {f g : UnpackedFloat} (hf : IsBelow i f) (hg : IsBelow j g)
    (hk : -1074 ≤ i + j) : IsBelow (i + j + 1) (UnpackedFloat.mul Format.binary64 f g) := by
  cases f with
  | infinity | notANumber => exact hf.elim
  | zero s => cases g <;> first | exact hg.elim | trivial
  | finite s m e hm =>
    cases g with
    | infinity | notANumber => exact hg.elim
    | zero => trivial
    | finite t n e' hn => exact isBelow_roundWithAccuracy (Fits.mul hf hg) hk _ _

def IsAtLeast (l : Int) : UnpackedFloat → Prop
  | .finite _ m e _ => l ≤ m.log2 + e
  | .infinity _ => True
  | .zero _ | .notANumber => False

theorem isBelow_div {f g : UnpackedFloat} {l : Int} (hf : IsBelow i f) (hg : IsBelow j g)
    (away : IsAtLeast l g) (hk : -1074 ≤ i - l) :
    IsBelow (i - l + 1) (UnpackedFloat.div Format.binary64 f g) := by
  cases f with
  | infinity | notANumber => exact hf.elim
  | zero s => cases g <;> first | exact away.elim | exact hg.elim | trivial
  | finite s m e hm =>
    cases g with
    | infinity | notANumber => exact hg.elim
    | zero => exact away.elim
    | finite t n e' hn =>
      obtain ⟨bits, lt, le⟩ := hf
      have low : l ≤ n.log2 + e' := away
      have divisor : 2 ^ n.log2 ≤ n := Nat.log2_self_le hn.ne'
      have dividend : m.log2 < bits := (Nat.log2_lt hm.ne').mpr lt
      refine isBelow_roundWithAccuracy ?_ hk _ _
      -- the quotient is taken at an exponent that leaves it enough bits
      have target : min (e - e') (Format.binary64.targetExponent
          (totalExponent m e - totalExponent n e')) ≤ i - l := by
        simp only [Format.targetExponent, totalExponent, Format.mantissaBits, Format.minExponent]
        omega
      change Fits (m <<< (e - e' - min (e - e') _).toNat / n) (min (e - e') _) _
      generalize hd : min (e - e') (Format.binary64.targetExponent
        (totalExponent m e - totalExponent n e')) = d at target ⊢
      have hde : d ≤ e - e' := hd ▸ min_le_left _ _
      obtain ⟨shift, hshift⟩ := Int.eq_ofNat_of_zero_le (Int.sub_nonneg.mpr hde)
      rw [hshift, Int.toNat_natCast, Nat.shiftLeft_eq]
      have product : m * 2 ^ shift < 2 ^ (bits + shift) := by
        rw [Nat.pow_add]
        exact Nat.mul_lt_mul_of_pos_right lt (Nat.two_pow_pos shift)
      rcases Nat.le_total n.log2 (bits + shift) with room | none
      · refine ⟨bits + shift - n.log2, ?_, by omega⟩
        rw [Nat.div_lt_iff_lt_mul hn]
        refine product.trans_le ?_
        calc 2 ^ (bits + shift) = 2 ^ (bits + shift - n.log2) * 2 ^ n.log2 := by
              rw [← Nat.pow_add, Nat.sub_add_cancel room]
          _ ≤ 2 ^ (bits + shift - n.log2) * n := Nat.mul_le_mul_left _ divisor
      · refine ⟨0, ?_, by omega⟩
        have : m * 2 ^ shift < n :=
          product.trans_le ((Nat.pow_le_pow_right two_pos none).trans divisor)
        rw [Nat.div_eq_of_lt this]
        exact Nat.one_pos

/-! ## Operations on doubles -/

theorem Below.add (hx : Below i x) (hy : Below j y) (hi : 0 ≤ i) (hk : max i j + 2 ≤ 971) :
    Below (max i j + 2) (x + y) :=
  isBelow_pack (isBelow_add hx hy (by omega)) (by omega) hk

theorem Below.sub (hx : Below i x) (hy : Below j y) (hi : 0 ≤ i) (hk : max i j + 2 ≤ 971) :
    Below (max i j + 2) (x - y) := by
  refine isBelow_pack ?_ (by omega) hk
  rw [sub_eq_add_neg]
  exact isBelow_add hx (isBelow_neg hy) (by omega)

theorem Below.mul (hx : Below i x) (hy : Below j y) (hij : 0 ≤ i + j) (hk : i + j + 1 ≤ 971) :
    Below (i + j + 1) (x * y) :=
  isBelow_pack (isBelow_mul hx hy (by omega)) (by omega) hk

theorem Below.abs (hx : Below k x) (low : -1022 ≤ k) (high : k ≤ 971) : Below k x.abs :=
  isBelow_pack (isBelow_abs hx) low high

/-! ### Divisors -/

/-- A double of which one cannot tell that it is small is at least as large. -/
theorem isAtLeast_of_not_isBelow {f : UnpackedFloat} (defined : f.isNaN = false)
    (h : ¬ IsBelow k f) : IsAtLeast k f := by
  cases f with
  | infinity => trivial
  | notANumber => cases defined
  | zero => exact h trivial
  | finite s m e hm =>
    by_contra less
    exact h ⟨m.log2 + 1, Nat.lt_log2_self, by
      simp only [IsAtLeast] at less
      omega⟩

/-- The significand of a finite double has all its bits, or the least exponent. -/
theorem unpack_canonical {b : BitVec Format.binary64.numBits} {s m hm}
    (h : UnpackedFloat.unpack Format.binary64 b = .finite s m e hm) :
    2 ^ 52 ≤ m ∨ e = -1074 := by
  unfold UnpackedFloat.unpack at h
  dsimp only at h
  split at h
  · split at h <;> cases h
  split at h
  · next least =>
    split at h
    · cases h
    · obtain ⟨-, -, rfl⟩ := UnpackedFloat.finite.inj h
      right
      simp [least, Format.exponentBias]
  · obtain ⟨-, rfl, -⟩ := UnpackedFloat.finite.inj h
    left
    rw [BitVec.toNat_append, ← Nat.shiftLeft_add_eq_or_of_lt (BitVec.isLt _)]
    exact Nat.le_add_right _ _

/-- A double within a bound has an exponent to match, unless it has the least one. -/
theorem exponent_le_of_fits {b : BitVec Format.binary64.numBits} {s m hm}
    (h : UnpackedFloat.unpack Format.binary64 b = .finite s m e hm) (fits : Fits m e k) :
    e ≤ max (-1074) (k - 53) := by
  obtain ⟨bits, lt, le⟩ := fits
  rcases unpack_canonical h with full | rfl
  · have : 52 < bits := (Nat.pow_lt_pow_iff_right one_lt_two).mp (full.trans_lt lt)
    omega
  · exact le_max_left ..

theorem unpack_zeroTolerance :
    zeroTolerance.toModel.unpack = .finite .positive 4722366482869645 (-72) (by decide) :=
  rfl

theorem Below.le_zeroTolerance (h : Below (-20) x) : x ≤ zeroTolerance := by
  rw [le_iff_rank h.isNaN rfl, rank, rank, unpack_zeroTolerance]
  refine le_of_lt ?_
  unfold Below at h
  cases hx : x.toModel.unpack with
  | infinity | notANumber =>
    rw [hx] at h
    exact h.elim
  | zero => simp [rankOf, Prod.Lex.toLex_lt_toLex]
  | finite s m e hm =>
    rw [hx] at h
    have exponent : e < -72 := (exponent_le_of_fits hx h).trans_lt (by decide)
    cases s <;> simp [rankOf, Prod.Lex.toLex_lt_toLex, exponent]

/-- A finite divisor that is not close to zero is not small. -/
theorem isAtLeast_of_isClose (hy : Below k y) (apart : isClose zeroTolerance y 0 = false) :
    IsAtLeast (-20) y.toModel.unpack := by
  refine isAtLeast_of_not_isBelow hy.isNaN fun small => ?_
  have gap : Below (-20) (0 - y) := by
    refine isBelow_pack ?_ (by decide) (by decide)
    rw [sub_eq_add_neg]
    change IsBelow (-20) (UnpackedFloat.add _ (.zero .positive) _)
    revert small
    cases y.toModel.unpack with
    | zero t => cases t <;> exact id
    | finite | infinity | notANumber => exact id
  have close := (gap.abs (by decide) (by decide)).le_zeroTolerance
  have infinite : (0 : Float).isInf = false := rfl
  simp [isClose, hy.isInf, infinite, close] at apart

theorem Below.div (hx : Below i x) (hy : Below j y) (apart : isClose zeroTolerance y 0 = false)
    (hi : 0 ≤ i) (hk : i + 21 ≤ 971) : Below (i + 21) (x / y) := by
  have := isBelow_div hx hy (isAtLeast_of_isClose hy apart) (by omega)
  rw [show i - -20 + 1 = i + 21 by omega] at this
  exact isBelow_pack this (by omega) hk

end NumberDuel.Double
