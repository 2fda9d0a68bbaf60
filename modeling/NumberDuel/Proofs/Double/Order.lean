import Mathlib
import NumberDuel.Decimal.Dyadic

/-!
# The order of the doubles

Away from the undefined value the comparisons of doubles are a total preorder: `Double.rank` sends
every double to a linear order, and `<` and `≤` are those of the ranks. The distance of a defined
value to a finite one is defined.
-/

namespace NumberDuel.Double

open Float.Model

/-- The place of a double among all others: its class first, then exponent and mantissa. -/
def rankOf : UnpackedFloat → Lex (Int × Lex (Int × Int))
  | .infinity .negative => toLex (-2, toLex (0, 0))
  | .finite .negative m e _ => toLex (-1, toLex (-e, -(m : Int)))
  | .zero _ => toLex (0, toLex (0, 0))
  | .finite .positive m e _ => toLex (1, toLex (e, (m : Int)))
  | .infinity .positive => toLex (2, toLex (0, 0))
  | .notANumber => toLex (3, toLex (0, 0))

def rank (x : Float) : Lex (Int × Lex (Int × Int)) := rankOf x.toModel.unpack

theorem then_eq_lt_iff {e e' : Int} {m m' : Nat} :
    (compare e e').then (compare m m') = .lt ↔ e < e' ∨ e = e' ∧ m < m' := by
  simp [Ordering.then_eq_lt, compare_lt_iff_lt]

theorem then_eq_gt_iff {e e' : Int} {m m' : Nat} :
    (compare e e').then (compare m m') = .gt ↔ e' < e ∨ e = e' ∧ m' < m := by
  simp [Ordering.then_eq_gt, compare_gt_iff_gt]

theorem then_isLE_iff {e e' : Int} {m m' : Nat} :
    ((compare e e').then (compare m m')).isLE = true ↔ e < e' ∨ e = e' ∧ m ≤ m' := by
  rw [Ordering.isLE_iff_ne_gt, then_eq_gt_iff]
  omega

theorem then_isGE_iff {e e' : Int} {m m' : Nat} :
    ((compare e e').then (compare m m')).isGE = true ↔ e' < e ∨ e = e' ∧ m' ≤ m := by
  rw [Ordering.isGE_iff_ne_lt, then_eq_lt_iff]
  omega

theorem lt_iff_rankOf {a b : UnpackedFloat} (ha : a.isNaN = false) (hb : b.isNaN = false) :
    a.lt b = true ↔ rankOf a < rankOf b := by
  rcases a with ⟨_ | _⟩ | _ | _ | ⟨_ | _, m, e, _⟩ <;>
    rcases b with ⟨_ | _⟩ | _ | _ | ⟨_ | _, m', e', _⟩ <;>
    simp_all [UnpackedFloat.lt, UnpackedFloat.compare, UnpackedFloat.isNaN, rankOf,
      Prod.Lex.toLex_lt_toLex, then_eq_lt_iff, then_eq_gt_iff]
  rfl

theorem le_iff_rankOf {a b : UnpackedFloat} (ha : a.isNaN = false) (hb : b.isNaN = false) :
    a.le b = true ↔ rankOf a ≤ rankOf b := by
  rcases a with ⟨_ | _⟩ | _ | _ | ⟨_ | _, m, e, _⟩ <;>
    rcases b with ⟨_ | _⟩ | _ | _ | ⟨_ | _, m', e', _⟩ <;>
    simp_all [UnpackedFloat.le, UnpackedFloat.compare, UnpackedFloat.isNaN, rankOf,
      Prod.Lex.toLex_le_toLex, then_isLE_iff, then_isGE_iff]
  all_goals rfl

/-- Defined doubles compare as their ranks do. -/
theorem lt_iff_rank {x y : Float} (hx : x.isNaN = false) (hy : y.isNaN = false) :
    x < y ↔ rank x < rank y :=
  Iff.trans decide_eq_true_iff (lt_iff_rankOf hx hy)

theorem le_iff_rank {x y : Float} (hx : x.isNaN = false) (hy : y.isNaN = false) :
    x ≤ y ↔ rank x ≤ rank y :=
  Iff.trans decide_eq_true_iff (le_iff_rankOf hx hy)

theorem not_lt_iff {x y : Float} (hx : x.isNaN = false) (hy : y.isNaN = false) :
    ¬ x < y ↔ y ≤ x := by
  rw [lt_iff_rank hx hy, le_iff_rank hy hx, not_lt]

theorem lt_of_isNaN {a b : UnpackedFloat} (h : a.isNaN = true ∨ b.isNaN = true) :
    a.lt b = false := by
  rcases h with h | h
  · cases a <;> first | rfl | cases h
  · cases b
    case notANumber => cases a <;> rfl
    all_goals cases h

/-- The undefined value is below nothing, and nothing is below it. -/
theorem not_lt_of_isNaN {x y : Float} (h : x.isNaN = true ∨ y.isNaN = true) : ¬ x < y :=
  mt decide_eq_true_iff.mp (Bool.eq_false_iff.mp (lt_of_isNaN h))

/-! ### Where the undefined value comes from -/

theorem isNaN_unpack {spec : Format} (b : BitVec spec.numBits) :
    (UnpackedFloat.unpack spec b).isNaN = true ↔
      UnpackedFloat.unpackExponent b = -1#_ ∧ UnpackedFloat.unpackMantissa b ≠ 0#_ := by
  unfold UnpackedFloat.unpack
  dsimp only
  split_ifs <;> simp_all [UnpackedFloat.isNaN]

theorem isNaN_pack_finite (s m e hm) : (pack (.finite s m e hm)).unpack.isNaN = false := by
  rw [Bool.eq_false_iff, Ne, unpack, isNaN_unpack]
  change ¬ (UnpackedFloat.unpackExponent (UnpackedFloat.pack Format.binary64 _) = _ ∧
    UnpackedFloat.unpackMantissa (UnpackedFloat.pack Format.binary64 _) ≠ _)
  unfold UnpackedFloat.pack
  dsimp only
  split_ifs with overflow normal
  · simp [UnpackedFloat.packedInfinity]
  · -- a normal double has an exponent field below the largest one
    rw [UnpackedFloat.unpackExponent_packComponents]
    rintro ⟨field, -⟩
    have := congrArg BitVec.toNat field
    rw [BitVec.toNat_ofNat, Nat.mod_eq_of_lt (by omega), BitVec.neg_one_eq_allOnes,
      BitVec.toNat_allOnes] at this
    omega
  · rw [UnpackedFloat.unpackExponent_packComponents]
    exact fun ⟨field, _⟩ => absurd field (by decide)

/-- Packing makes no double undefined that was not so before. -/
theorem isNaN_pack (f : UnpackedFloat) : (pack f).unpack.isNaN = f.isNaN := by
  rcases f with ⟨_ | _⟩ | _ | ⟨_ | _⟩ | ⟨s, m, e, hm⟩
  case finite => exact isNaN_pack_finite s m e hm
  all_goals decide +kernel

theorem isNaN_roundWithAccuracy (spec : Format) (s m e accuracy) :
    (UnpackedFloat.roundWithAccuracy spec s m e accuracy).isNaN = false := by
  unfold UnpackedFloat.roundWithAccuracy
  dsimp only
  split_ifs <;> rfl

theorem isNaN_normalize (spec : Format) (mantissa exponent : Int) (zeroSign) :
    (UnpackedFloat.normalize spec mantissa exponent zeroSign).isNaN = false := by
  unfold UnpackedFloat.normalize
  split
  · exact isNaN_roundWithAccuracy ..
  · rfl
  · exact isNaN_roundWithAccuracy ..

theorem isNaN_mul_finite (spec : Format) {f : UnpackedFloat} (h : f.isNaN = false) (s m e hm) :
    (UnpackedFloat.mul spec f (.finite s m e hm)).isNaN = false := by
  cases f with
  | notANumber => cases h
  | infinity | zero => rfl
  | finite => exact isNaN_roundWithAccuracy ..

theorem isNaN_sub_finite (spec : Format) {f g : UnpackedFloat} (hf : f.isNaN = false)
    (hg : g.isFinite = true) : (UnpackedFloat.sub spec f g).isNaN = false := by
  cases f with
  | notANumber => cases hf
  | infinity => cases g <;> first | rfl | cases hg
  | zero s =>
    cases g with
    | zero t => cases s <;> cases t <;> rfl
    | finite => rfl
    | infinity | notANumber => cases hg
  | finite =>
    cases g with
    | zero => rfl
    | finite => exact isNaN_normalize ..
    | infinity | notANumber => cases hg

theorem isNaN_abs (f : UnpackedFloat) : f.abs.isNaN = f.isNaN := by cases f <;> rfl

theorem isNaN_neg (f : UnpackedFloat) : f.neg.isNaN = f.isNaN := by cases f <;> rfl

theorem isFinite_iff (f : UnpackedFloat) :
    f.isFinite = true ↔ f.isInf = false ∧ f.isNaN = false := by
  cases f <;> simp [UnpackedFloat.isFinite, UnpackedFloat.isInf, UnpackedFloat.isNaN]

/-- The distance of a defined double to a finite one is defined. -/
theorem isNaN_distance {x aim : Float} (hx : x.isNaN = false) (ha : aim.isFinite = true) :
    (x - aim).abs.isNaN = false := by
  have hsub : (x - aim).toModel.unpack.isNaN = false :=
    (isNaN_pack _).trans (isNaN_sub_finite Format.binary64 hx ha)
  exact (isNaN_pack _).trans ((isNaN_abs _).trans hsub)

theorem isNaN_ofScientific (spec : Format) (m : Nat) {e : Int} (he : 0 ≤ e) :
    (UnpackedFloat.ofScientific spec m e).isNaN = false := by
  unfold UnpackedFloat.ofScientific
  split_ifs
  · rfl
  · rfl
  · rfl
  · exact isNaN_roundWithAccuracy ..

theorem isNaN_ofNat (n : Nat) : (Float.ofNat n).isNaN = false := by
  change (Float.ofScientific n false 0).isNaN = false
  unfold Float.ofScientific
  split
  · -- a small number is multiplied by one
    have one : (Float.ofBits 0x3FF0000000000000).toModel.unpack =
        .finite .positive (2 ^ 52) (-52) (by decide) := rfl
    have defined : n.toUInt64.toFloat.toModel.unpack.isNaN = false :=
      (isNaN_pack _).trans (isNaN_normalize ..)
    refine (isNaN_pack _).trans ?_
    change (UnpackedFloat.mul _ _ (Float.ofBits 0x3FF0000000000000).toModel.unpack).isNaN = _
    rw [one]
    exact isNaN_mul_finite _ defined ..
  · exact (isNaN_pack _).trans (isNaN_ofScientific _ _ (by decide))

/-- The double of a whole number, where there is one, is finite. -/
theorem isFinite_of_doubleOfInt? {n : Int} {x : Float} (h : doubleOfInt? n = some x) :
    x.isFinite = true := by
  have defined : (Float.ofInt n).isNaN = false := by
    cases n with
    | ofNat n => exact isNaN_ofNat n
    | negSucc n => exact (isNaN_pack _).trans ((isNaN_neg _).trans (isNaN_ofNat (n + 1)))
  unfold doubleOfInt? at h
  dsimp only at h
  split_ifs at h with infinite
  obtain rfl := Option.some.inj h
  exact (isFinite_iff _).mpr ⟨Bool.eq_false_iff.mpr infinite, defined⟩

end NumberDuel.Double
