import NumberDuel.Expression
import NumberDuel.Proofs.Double.Rounding
import NumberDuel.Proofs.Text.Numeral

/-!
# The text of a number

A finite double is shown in hundredths: its exact number is rounded to the nearest one, a half to
the even one, and written with two places, of which the zeros at the end are dropped, and the point
with them. What is left is a canonical numeral. So its text tells the hundredth that it is nearest
to, and nothing more.
-/

namespace NumberDuel

open Text (Numeral)

variable {x y : Float} {m n : ℤ}

/-! ## The nearest hundredth -/

/-- A double that is finite, and nearest to this number of hundredths. -/
def InHundredths (x : Float) (n : ℤ) : Prop :=
  ∃ d, Reading.ofFloat x = .finite d ∧ IsNearest (d.value * 100) n

theorem InHundredths.eq (hm : InHundredths x m) (hn : InHundredths x n) : m = n := by
  obtain ⟨d, reading, nearest⟩ := hm
  obtain ⟨d', reading', nearest'⟩ := hn
  obtain rfl := Reading.finite.inj (reading.symm.trans reading')
  exact nearest.eq nearest'

/-! ## How a double is shown -/

/-- The numeral with two places, and then without what it need not say. -/
theorem formatNumber_eq_text {d : Dyadic} (reading : Reading.ofFloat x = .finite d) :
    formatNumber x = (Numeral.ofUnits d.negative 2 (d.roundedTo 2)).trim.unsignZero.text := by
  have whole := Numeral.isWhole_ofUnits d.negative 2 (d.roundedTo 2)
  have digits := Numeral.isDigits_places_ofUnits d.negative 2 (d.roundedTo 2)
  have fixed : Decimal.fixed 2 x = (Numeral.ofUnits d.negative 2 (d.roundedTo 2)).text := by
    rw [Numeral.text_ofUnits, Decimal.fixed, reading]
  rw [formatNumber, fixed, Numeral.text_trim whole digits nofun]
  exact Numeral.text_unsignZero whole

theorem value_ofUnits_roundedTo (d : Dyadic) (places : Nat) :
    (Numeral.ofUnits d.negative places (d.roundedTo places)).value =
      (d.signed (d.roundedTo places) : ℤ) / 10 ^ places := by
  rw [Numeral.value, Numeral.magnitude_ofUnits, Dyadic.signed]
  cases hn : d.negative <;> simp [Numeral.ofUnits, neg_div]

theorem exists_numeral (finite : x.isFinite = true) :
    ∃ (numeral : Numeral) (n : ℤ), formatNumber x = numeral.text ∧ numeral.Canonical ∧
      numeral.places.length ≤ 2 ∧ InHundredths x n ∧ numeral.value = n / 100 := by
  obtain ⟨d, reading⟩ := Reading.isFinite_iff.mp finite
  have nearest := d.isNearest_signed 2
  norm_num at nearest
  refine ⟨_, _, formatNumber_eq_text reading, ?_, ?_, ⟨d, reading, nearest⟩, ?_⟩
  · exact Numeral.canonical_unsignZero_trim (Numeral.isWhole_ofUnits ..)
      (Numeral.isDigits_places_ofUnits _ _ _)
  · rw [Numeral.places_unsignZero, Numeral.places_trim]
    exact (List.rdropWhile_prefix _ _).length_le.trans_eq (Numeral.length_places_ofUnits ..)
  · rw [Numeral.value_unsignZero, Numeral.value_trim, value_ofUnits_roundedTo]
    norm_num

/-- Two finite doubles are shown alike if and only if they are nearest to the same hundredth. -/
theorem formatNumber_eq_iff (finite : x.isFinite = true) (finite' : y.isFinite = true) :
    formatNumber x = formatNumber y ↔ ∃ n, InHundredths x n ∧ InHundredths y n := by
  obtain ⟨numeral, n, text, canonical, -, nearest, value⟩ := exists_numeral finite
  obtain ⟨numeral', n', text', canonical', -, nearest', value'⟩ := exists_numeral finite'
  rw [text, text', canonical.text_eq_iff canonical', value, value', div_left_inj' (by norm_num),
    Int.cast_inj]
  constructor
  · rintro rfl
    exact ⟨n, nearest, nearest'⟩
  · rintro ⟨k, hk, hk'⟩
    rw [nearest.eq hk, nearest'.eq hk']

/-- A finite double is shown as a canonical numeral with at most two places, for the hundredth that
it is nearest to; so two finite doubles are shown alike if and only if they are nearest to the same
one. -/
theorem formatNumber_canonical (finite : x.isFinite = true) :
    (∃ (numeral : Numeral) (n : ℤ), formatNumber x = numeral.text ∧ numeral.Canonical ∧
      numeral.places.length ≤ 2 ∧ InHundredths x n ∧ numeral.value = n / 100) ∧
    ∀ y : Float, y.isFinite = true →
      (formatNumber x = formatNumber y ↔ ∃ n, InHundredths x n ∧ InHundredths y n) :=
  ⟨exists_numeral finite, fun _ => formatNumber_eq_iff finite⟩

/-- An eighth lies between two hundredths, and goes to the even one: it is shown as `0.12` is. -/
theorem formatNumber_canonical_eighth :
    (0.125 : Float).isFinite = true ∧ (0.12 : Float).isFinite = true ∧
      formatNumber 0.125 = "0.12" ∧
      (∃ (numeral : Numeral) (n : ℤ), "0.12" = numeral.text ∧ numeral.Canonical ∧
        numeral.places.length ≤ 2 ∧ InHundredths 0.125 n ∧ numeral.value = n / 100) ∧
      ∃ n, InHundredths 0.125 n ∧ InHundredths 0.12 n := by
  have finite : (0.125 : Float).isFinite = true := by decide +kernel
  have finite' : (0.12 : Float).isFinite = true := by decide +kernel
  have shown : formatNumber 0.125 = "0.12" := by decide +kernel
  obtain ⟨numeral, alike⟩ := formatNumber_canonical finite
  rw [shown] at numeral
  exact ⟨finite, finite', shown, numeral, (alike 0.12 finite').mp (by decide +kernel)⟩

example :
    formatNumber (-0.001) = "0" ∧ formatNumber (-2.5) = "-2.5" ∧ formatNumber 100 = "100" := by
  decide +kernel

end NumberDuel
