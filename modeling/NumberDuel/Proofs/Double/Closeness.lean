import NumberDuel.Proofs.Double.Order

/-!
# Which doubles are close to each other

To agree is symmetric, since a difference changes no more than its sign when its sides are
exchanged. Defined doubles that do not agree are apart in one of the two directions.
-/

namespace NumberDuel.Double

open Float.Model

/-! ## A difference the other way round -/

theorem abs_roundWithAccuracy (spec : Format) (s t m e accuracy) :
    (UnpackedFloat.roundWithAccuracy spec s m e accuracy).abs =
      (UnpackedFloat.roundWithAccuracy spec t m e accuracy).abs := by
  unfold UnpackedFloat.roundWithAccuracy
  dsimp only
  split <;> rfl

/-- Opposite sums are rounded to the same magnitude. -/
theorem abs_normalize_neg (spec : Format) (mantissa exponent : Int) (zeroSign) :
    (UnpackedFloat.normalize spec (-mantissa) exponent zeroSign).abs =
      (UnpackedFloat.normalize spec mantissa exponent zeroSign).abs := by
  unfold UnpackedFloat.normalize
  rcases lt_trichotomy mantissa 0 with negative | rfl | positive
  · have opposite : compare (-mantissa) 0 = .gt := Int.compare_eq_gt.mpr (by omega)
    rw [opposite, Int.compare_eq_lt.mpr negative]
    exact abs_roundWithAccuracy ..
  · rfl
  · have opposite : compare (-mantissa) 0 = .lt := Int.compare_eq_lt.mpr (by omega)
    rw [opposite, Int.compare_eq_gt.mpr positive]
    dsimp only
    rw [Int.neg_neg]
    exact abs_roundWithAccuracy ..

theorem abs_sub_comm_unpacked (spec : Format) (f g : UnpackedFloat) :
    (UnpackedFloat.sub spec f g).abs = (UnpackedFloat.sub spec g f).abs := by
  cases f with
  | notANumber => cases g <;> rfl
  | infinity s =>
    cases g with
    | infinity t => cases s <;> cases t <;> rfl
    | notANumber | zero | finite => rfl
  | zero s =>
    cases g with
    | zero t => cases s <;> cases t <;> rfl
    | notANumber | infinity | finite => rfl
  | finite s m e hm =>
    cases g with
    | notANumber | infinity | zero => rfl
    | finite t n e' hn =>
      simp only [UnpackedFloat.sub, min_comm e' e]
      rw [← Int.neg_sub, abs_normalize_neg]

/-- Packing looks at the sign only to keep it. -/
theorem abs_unpack_packComponents (spec : Format) (s t exponent mantissa) :
    (UnpackedFloat.unpack spec (UnpackedFloat.packComponents spec s exponent mantissa)).abs =
      (UnpackedFloat.unpack spec (UnpackedFloat.packComponents spec t exponent mantissa)).abs := by
  unfold UnpackedFloat.unpack
  simp only [UnpackedFloat.unpackExponent_packComponents,
    UnpackedFloat.unpackMantissa_packComponents]
  split_ifs <;> rfl

theorem abs_unpack_pack {f g : UnpackedFloat} (same : f.abs = g.abs) :
    (pack f).unpack.abs = (pack g).unpack.abs := by
  cases f with
  | notANumber =>
    cases g with
    | notANumber => rfl
    | infinity | zero | finite => cases same
  | infinity s =>
    cases g with
    | infinity t => exact abs_unpack_packComponents ..
    | notANumber | zero | finite => cases same
  | zero s =>
    cases g with
    | zero t => exact abs_unpack_packComponents ..
    | notANumber | infinity | finite => cases same
  | finite s m e hm =>
    cases g with
    | notANumber | infinity | zero => cases same
    | finite t n e' hn =>
      obtain ⟨-, rfl, rfl⟩ := UnpackedFloat.finite.inj same
      change (UnpackedFloat.unpack Format.binary64 (UnpackedFloat.pack Format.binary64 _)).abs =
        (UnpackedFloat.unpack Format.binary64 (UnpackedFloat.pack Format.binary64 _)).abs
      unfold UnpackedFloat.pack
      dsimp only
      split_ifs <;> exact abs_unpack_packComponents ..

/-- Two doubles are as far from each other as they are the other way round. -/
theorem abs_sub_comm (x y : Float) : (x - y).abs = (y - x).abs := by
  have same : (x - y).toModel.unpack.abs = (y - x).toModel.unpack.abs :=
    abs_unpack_pack (abs_sub_comm_unpacked Format.binary64 x.toModel.unpack y.toModel.unpack)
  exact congrArg (fun f => Float.ofModel (pack f)) same

/-! ## Agreement -/

theorem beq_iff_rankOf {a b : UnpackedFloat} (ha : a.isNaN = false) (hb : b.isNaN = false) :
    a.beq b = true ↔ rankOf a = rankOf b := by
  rcases a with ⟨_ | _⟩ | _ | _ | ⟨_ | _, m, e, _⟩ <;>
    rcases b with ⟨_ | _⟩ | _ | _ | ⟨_ | _, m', e', _⟩ <;>
    simp_all [UnpackedFloat.beq, UnpackedFloat.compare, UnpackedFloat.isNaN, rankOf,
      Ordering.then_eq_eq]
  all_goals rfl

/-- Defined doubles are equal if and only if their ranks are. -/
theorem beq_iff_rank {x y : Float} (hx : x.isNaN = false) (hy : y.isNaN = false) :
    (x == y) = true ↔ rank x = rank y :=
  beq_iff_rankOf hx hy

theorem isClose_comm (margin : Float) {x y : Float} (hx : x.isNaN = false)
    (hy : y.isNaN = false) : isClose margin x y = isClose margin y x := by
  have equal : (x == y) = (y == x) := by
    rw [Bool.eq_iff_iff, beq_iff_rank hx hy, beq_iff_rank hy hx, eq_comm]
  simp only [isClose, equal, abs_sub_comm y x, Bool.or_comm x.isInf]
  rw [Bool.or_comm (decide (_ ≤ (1e-9 * y).abs))]

/-- What does not agree is smaller or larger. -/
theorem lt_or_gt_of_isClose {margin x y : Float} (hx : x.isNaN = false) (hy : y.isNaN = false)
    (apart : isClose margin x y = false) : x < y ∨ y < x := by
  have unequal : ¬ (x == y) = true := by
    intro equal
    simp [isClose, equal] at apart
  rw [lt_iff_rank hx hy, lt_iff_rank hy hx]
  exact lt_or_gt_of_ne fun same => unequal ((beq_iff_rank hx hy).mpr same)

theorem lt_asymm {x y : Float} (hx : x.isNaN = false) (hy : y.isNaN = false) (h : x < y) :
    ¬ y < x := by
  rw [lt_iff_rank hx hy] at h
  rw [lt_iff_rank hy hx]
  exact h.asymm

end NumberDuel.Double
