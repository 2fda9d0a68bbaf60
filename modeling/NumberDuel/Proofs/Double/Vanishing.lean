import NumberDuel.Proofs.Double.Closeness
import NumberDuel.Proofs.Double.Conversion

/-!
# Which doubles agree with zero

Agreement with zero has two tolerances, a fixed one and a billionth of the double itself. The second
never decides: a double beyond the first has all its bits, so that a billionth of it has a smaller
exponent. What is left is a bound on the magnitude.
-/

namespace NumberDuel.Double

open Float.Model

variable {x y : Float} {s : UnpackedFloat.Sign} {m : Nat} {e k : Int} {hm : 0 < m}

/-! ## The magnitude of a double -/

theorem abs_unpack_packComponents_positive (spec : Format) (exponent mantissa) :
    (UnpackedFloat.unpack spec
        (UnpackedFloat.packComponents spec .positive exponent mantissa)).abs =
      UnpackedFloat.unpack spec
        (UnpackedFloat.packComponents spec .positive exponent mantissa) := by
  unfold UnpackedFloat.unpack
  simp only [UnpackedFloat.unpackSign_packComponents, UnpackedFloat.Sign.ofBitVec_toBitVec]
  split_ifs <;> rfl

theorem abs_unpack_pack_positive (m e hm) :
    (pack (.finite .positive m e hm)).unpack.abs = (pack (.finite .positive m e hm)).unpack := by
  change (UnpackedFloat.unpack Format.binary64 (UnpackedFloat.pack Format.binary64 _)).abs =
    UnpackedFloat.unpack Format.binary64 (UnpackedFloat.pack Format.binary64 _)
  unfold UnpackedFloat.pack
  dsimp only
  split_ifs <;> exact abs_unpack_packComponents_positive ..

/-- What is packed without a sign has none. -/
theorem abs_unpack_pack_abs (f : UnpackedFloat) :
    (pack f.abs).unpack.abs = (pack f.abs).unpack := by
  cases f with
  | notANumber => rfl
  | infinity | zero => exact abs_unpack_packComponents_positive ..
  | finite s m e hm => exact abs_unpack_pack_positive m e hm

theorem pack_unpack (x : Float) : pack x.toModel.unpack = x.toModel := by
  rcases x with ⟨⟨bits, valid⟩⟩
  simp only [unpack, pack, UnpackedFloat.pack_unpack_of_valid valid]

theorem unpack_abs (x : Float) : x.abs.toModel.unpack = x.toModel.unpack.abs := by
  have same : x.toModel.unpack.abs.abs = x.toModel.unpack.abs := by
    cases x.toModel.unpack <;> rfl
  calc x.abs.toModel.unpack
      = (pack x.toModel.unpack.abs).unpack.abs := (abs_unpack_pack_abs _).symm
    _ = (pack x.toModel.unpack).unpack.abs := abs_unpack_pack same
    _ = x.toModel.unpack.abs := by rw [pack_unpack]

theorem abs_eq_of_rankOf {f g : UnpackedFloat} (same : rankOf f.abs = rankOf g.abs) :
    f.abs = g.abs := by
  cases f <;> cases g <;> simp_all [UnpackedFloat.abs, rankOf]

/-- Magnitudes have a single zero, so as numbers they are equal only if they are the same. -/
theorem abs_eq_of_le (hx : x.abs.isNaN = false) (hy : y.abs.isNaN = false) (le : x.abs ≤ y.abs)
    (ge : y.abs ≤ x.abs) : x.abs = y.abs := by
  rw [le_iff_rank hx hy] at le
  rw [le_iff_rank hy hx] at ge
  have ranks : rank x.abs = rank y.abs := le_antisymm le ge
  rw [rank, rank, unpack_abs, unpack_abs] at ranks
  exact congrArg (fun f => Float.ofModel (pack f)) (abs_eq_of_rankOf ranks)

theorem sub_zero (x : Float) : x - 0 = x := by
  have same (f : UnpackedFloat) :
      UnpackedFloat.sub Format.binary64 f (.zero .positive) = f := by
    cases f with
    | zero s => cases s <;> rfl
    | notANumber | infinity | finite => rfl
  have packed : pack (UnpackedFloat.sub Format.binary64 x.toModel.unpack (.zero .positive)) =
      x.toModel := by
    rw [same, pack_unpack]
  exact congrArg Float.ofModel packed

/-- The distance to zero is the magnitude. -/
theorem abs_zero_sub (x : Float) : (0 - x).abs = x.abs := by
  rw [abs_sub_comm, sub_zero]

theorem isNaN_magnitude (x : Float) : x.abs.isNaN = x.isNaN :=
  (isNaN_pack _).trans (isNaN_abs _)

theorem isNaN_abs_of_finite (unpacked : x.toModel.unpack = .finite s m e hm) :
    x.abs.isNaN = false := by
  rw [isNaN_magnitude]
  change x.toModel.unpack.isNaN = false
  rw [unpacked]
  rfl

theorem rank_abs_of_finite (unpacked : x.toModel.unpack = .finite s m e hm) :
    rank x.abs = toLex (1, toLex (e, (m : Int))) := by
  rw [rank, unpack_abs, unpacked]
  rfl

/-! ## A billionth of a double -/

theorem mantissa_lt (unpacked : x.toModel.unpack = .finite s m e hm) : m < 2 ^ 53 := by
  unfold unpack UnpackedFloat.unpack at unpacked
  dsimp only at unpacked
  split_ifs at unpacked
  · obtain ⟨-, rfl, -⟩ := UnpackedFloat.finite.inj unpacked
    exact (BitVec.isLt _).trans (by decide)
  · obtain ⟨-, rfl, -⟩ := UnpackedFloat.finite.inj unpacked
    exact BitVec.isLt _

/-- A bound below the exponent of another double is a bound below its magnitude. -/
theorem Below.abs_lt_abs (hx : Below k x) (unpacked : y.toModel.unpack = .finite s m e hm)
    (room : max (-1074) (k - 53) < e) : x.abs < y.abs := by
  have defined : x.abs.isNaN = false := (isNaN_magnitude x).trans hx.isNaN
  rw [lt_iff_rank defined (isNaN_abs_of_finite unpacked), rank_abs_of_finite unpacked]
  cases small : x.toModel.unpack with
  | infinity | notANumber =>
    rw [Below, small] at hx
    exact hx.elim
  | zero =>
    rw [rank, unpack_abs, small]
    simp [UnpackedFloat.abs, rankOf, Prod.Lex.toLex_lt_toLex]
  | finite s' m' e' hm' =>
    rw [Below, small] at hx
    have less : e' < e := (exponent_le_of_fits small hx).trans_lt room
    rw [rank_abs_of_finite small]
    simp [Prod.Lex.toLex_lt_toLex, less]

/-- Packing keeps a bound wherever it does not overflow. -/
theorem isBelow_pack_of_isInf {f : UnpackedFloat} (h : IsBelow k f) (low : -1022 ≤ k)
    (bounded : (pack f).unpack.isInf = false) : IsBelow k (pack f).unpack := by
  cases f with
  | infinity | notANumber => exact h.elim
  | zero s => cases s <;> trivial
  | finite s m e hm =>
    have range : ¬ 971 < e := by
      rw [← isInf_pack_finite s m e hm, bounded]
      exact Bool.false_ne_true
    exact isBelow_pack_finite h low (by omega) s hm

theorem unpack_billionth :
    (1e-9 : Float).toModel.unpack = .finite .positive 4835703278458517 (-82) (by decide) :=
  rfl

/-- A billionth of a double that has all its bits is smaller by so many binary places. -/
theorem below_billionth (unpacked : x.toModel.unpack = .finite s m e hm) (normal : -972 ≤ e) :
    Below (e + 25) (1e-9 * x) := by
  have product : (1e-9 * x).toModel =
      pack (UnpackedFloat.roundWithAccuracy Format.binary64 (.positive * s)
        (4835703278458517 * m) (-82 + e) .exact) := by
    change pack (UnpackedFloat.mul Format.binary64 _ x.toModel.unpack) = _
    rw [unpacked, unpack_billionth]
    rfl
  have full : 2 ^ 52 ≤ m := by
    rcases unpack_canonical unpacked with full | rfl
    · exact full
    · omega
  have lt := mantissa_lt unpacked
  have le := unpack_exponent_le unpacked
  have some : 4835703278458517 * m ≠ 0 := by omega
  have least : 104 ≤ (4835703278458517 * m).log2 := (Nat.le_log2 some).mpr (by omega)
  have most : (4835703278458517 * m).log2 < 106 := (Nat.log2_lt some).mpr (by omega)
  have bounded : (1e-9 * x).toModel.unpack.isInf = false := by
    have bits : (4835703278458517 * m).log2 = (4835703278458517 * m).log2 - 53 + 53 := by omega
    rw [product, Bool.eq_false_iff, Ne,
      isInf_pack_roundWithAccuracy _ (by omega) bits]
    omega
  have fits : Fits (4835703278458517 * m) (-82 + e) (e + 24) := ⟨106, by omega, by omega⟩
  unfold Below
  rw [product] at bounded ⊢
  exact isBelow_pack_of_isInf
    ((isBelow_roundWithAccuracy fits (by omega) _ _).mono (by omega)) (by omega) bounded

/-! ## Agreement with zero -/

/-- Beyond the margin the exponent is that of the margin, or larger. -/
theorem exponent_of_zeroTolerance_lt (unpacked : x.toModel.unpack = .finite s m e hm)
    (beyond : ¬ x.abs ≤ zeroTolerance) : -72 ≤ e := by
  by_contra small
  refine beyond ?_
  have less : e < -72 := by omega
  rw [le_iff_rank (isNaN_abs_of_finite unpacked) rfl, rank_abs_of_finite unpacked, rank,
    unpack_zeroTolerance]
  simp [rankOf, Prod.Lex.toLex_le_toLex, less]

/-- A double that is within a billionth of itself is within the margin. -/
theorem le_zeroTolerance_of_le_billionth (unpacked : x.toModel.unpack = .finite s m e hm)
    (h : x.abs ≤ (1e-9 * x).abs) : x.abs ≤ zeroTolerance := by
  by_contra beyond
  have place := exponent_of_zeroTolerance_lt unpacked beyond
  have below := below_billionth unpacked (by omega)
  have less := below.abs_lt_abs unpacked (by omega)
  have defined := (isNaN_magnitude _).trans below.isNaN
  exact (not_lt_iff defined (isNaN_abs_of_finite unpacked)).mpr h less

/-- A double agrees with zero if and only if its magnitude is within the margin. -/
theorem isClose_zero_iff (x : Float) :
    isClose zeroTolerance x 0 = true ↔ x.abs ≤ zeroTolerance := by
  have rebuilt : x = .ofModel (pack x.toModel.unpack) := by rw [pack_unpack]
  cases unpacked : x.toModel.unpack with
  | notANumber =>
    rw [rebuilt, unpacked]
    decide +kernel
  | infinity s | zero s =>
    rw [rebuilt, unpacked]
    cases s <;> decide +kernel
  | finite s m e hm =>
    have apart : (x == 0) = false := by
      change x.toModel.unpack.beq (.zero .positive) = false
      rw [unpacked]
      cases s <;> rfl
    have finite : x.isInf = false := by
      change x.toModel.unpack.isInf = false
      rw [unpacked]
      rfl
    have positive : ¬ x.abs ≤ (1e-9 * 0).abs := by
      have zero : rank (1e-9 * 0).abs = toLex (0, toLex (0, 0)) := rfl
      rw [le_iff_rank (isNaN_abs_of_finite unpacked) rfl, rank_abs_of_finite unpacked, zero]
      simp [Prod.Lex.toLex_le_toLex]
    have bounded : (0 : Float).isInf = false := rfl
    simp only [isClose, apart, finite, bounded, abs_zero_sub, positive, decide_false,
      Bool.or_eq_true, Bool.false_or, Bool.false_eq_true, if_false, decide_eq_true_eq]
    exact or_iff_right_of_imp (le_zeroTolerance_of_le_billionth unpacked)

end NumberDuel.Double
