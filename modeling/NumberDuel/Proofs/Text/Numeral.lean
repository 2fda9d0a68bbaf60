import Mathlib
import NumberDuel.Decimal.Fixed

/-!
# Decimal numerals

A decimal numeral is a sign, the digits of a whole number, and maybe a point with digits behind it.
It is canonical if it says nothing that it need not say: no zero in front of another digit of the
whole number, no zero at the end of the fraction, no point without a fraction, and no sign on a
zero. A canonical numeral can be read back from its text, and it is the only one for its number
(`Numeral.Canonical.text_eq_iff`).
-/

namespace NumberDuel.Text

variable {row row' : List Char} {c : Char}

/-! ## Rows of digits -/

def IsDigits (row : List Char) : Prop := ∀ c ∈ row, c.isDigit = true

def digitsValue (row : List Char) : Nat := Nat.ofDigitChars 10 row 0

theorem digitsValue_append_singleton (row : List Char) (c : Char) :
    digitsValue (row ++ [c]) = 10 * digitsValue row + (c.toNat - 48) := by
  rw [digitsValue, Nat.ofDigitChars_append]
  rfl

theorem digitsValue_cons (c : Char) (row : List Char) :
    digitsValue (c :: row) = 10 ^ row.length * (c.toNat - 48) + digitsValue row := by
  rw [digitsValue, Nat.ofDigitChars_cons, Nat.ofDigitChars_eq_ofDigitChars_zero, Nat.mul_zero,
    Nat.zero_add]
  rfl

theorem isDigits_append_singleton : IsDigits (row ++ [c]) ↔ IsDigits row ∧ c.isDigit = true := by
  simp [IsDigits, or_imp, forall_and]

theorem digit_bounds (h : c.isDigit = true) : 48 ≤ c.toNat ∧ c.toNat ≤ 57 :=
  Char.isDigit_iff_toNat.mp h

theorem digitsValue_lt (h : IsDigits row) : digitsValue row < 10 ^ row.length := by
  induction row using List.reverseRecOn with
  | nil => exact Nat.one_pos
  | append_singleton row c ih =>
    obtain ⟨h, hc⟩ := isDigits_append_singleton.mp h
    have := digit_bounds hc
    have := ih h
    rw [digitsValue_append_singleton, List.length_append, List.length_singleton, Nat.pow_succ]
    omega

/-- Rows of one length are told apart by their numbers. -/
theorem eq_of_digitsValue_eq (h : IsDigits row) (h' : IsDigits row')
    (length : row.length = row'.length) (same : digitsValue row = digitsValue row') :
    row = row' := by
  induction row using List.reverseRecOn generalizing row' with
  | nil => exact (List.length_eq_zero_iff.mp length.symm).symm
  | append_singleton row c ih =>
    obtain rfl | ⟨row', c', rfl⟩ := List.eq_nil_or_concat' row'
    · simp at length
    obtain ⟨h, hc⟩ := isDigits_append_singleton.mp h
    obtain ⟨h', hc'⟩ := isDigits_append_singleton.mp h'
    have := digit_bounds hc
    have := digit_bounds hc'
    rw [digitsValue_append_singleton, digitsValue_append_singleton] at same
    have last : c = c' := Char.toNat_inj.mp (by omega)
    rw [ih h h' (by simpa using length) (by omega), last]

/-! ## Whole numbers -/

/-- A whole number without zeros in front of it. -/
structure IsWhole (row : List Char) : Prop where
  digits : IsDigits row
  ne_nil : row ≠ []
  leading : row.head? = some '0' → row = ['0']

/-- A larger number has no fewer digits. -/
theorem IsWhole.length_le (h : IsWhole row) (h' : IsWhole row')
    (le : digitsValue row ≤ digitsValue row') : row.length ≤ row'.length := by
  obtain _ | ⟨c, rest⟩ := row
  · exact absurd rfl h.ne_nil
  by_cases zero : c = '0'
  · rw [h.leading (congrArg some zero)]
    exact List.length_pos_of_ne_nil h'.ne_nil
  · have digit := digit_bounds (h.digits c (by simp))
    have some : 1 ≤ c.toNat - 48 := by
      have : c.toNat ≠ 48 := fun same => zero (Char.toNat_inj.mp same)
      omega
    have long : 10 ^ rest.length ≤ digitsValue (c :: rest) := by
      rw [digitsValue_cons]
      exact (Nat.le_mul_of_pos_right _ some).trans (Nat.le_add_right ..)
    exact (Nat.pow_lt_pow_iff_right (by decide)).mp
      (long.trans_lt (le.trans_lt (digitsValue_lt h'.digits)))

theorem IsWhole.eq_of_digitsValue_eq (h : IsWhole row) (h' : IsWhole row')
    (same : digitsValue row = digitsValue row') : row = row' :=
  Text.eq_of_digitsValue_eq h.digits h'.digits
    (le_antisymm (h.length_le h' same.le) (h'.length_le h same.ge)) same

theorem digitsValue_toDigits (n : Nat) : digitsValue (Nat.toDigits 10 n) = n :=
  Nat.ofDigitChars_ten_toDigits

theorem isDigits_toDigits (n : Nat) : IsDigits (Nat.toDigits 10 n) :=
  fun _ mem => Nat.isDigit_of_mem_toDigits (by decide) (by decide) mem

/-- A number is written without zeros in front of it: with one it would take fewer digits. -/
theorem isWhole_toDigits (n : Nat) : IsWhole (Nat.toDigits 10 n) := by
  refine ⟨isDigits_toDigits n, Nat.toDigits_ne_nil, fun zero => ?_⟩
  have digits := isDigits_toDigits n
  have value := digitsValue_toDigits n
  have length (k : Nat) (pos : 0 < k) : (Nat.toDigits 10 n).length ≤ k ↔ n < 10 ^ k :=
    Nat.length_toDigits_le_iff (by decide) pos
  obtain ⟨rest, written⟩ := List.head?_eq_some_iff.mp zero
  rw [written] at digits value length ⊢
  obtain rfl | some := List.eq_nil_or_concat' rest
  · rfl
  · have fewer : n < 10 ^ rest.length := by
      rw [← value, digitsValue_cons]
      simpa using digitsValue_lt fun c mem => digits c (List.mem_cons_of_mem _ mem)
    obtain ⟨_, _, rfl⟩ := some
    have := (length _ (by simp)).mpr fewer
    simp at this

/-! ## Fractions -/

theorem digitsValue_mod_ten (h : IsDigits row) (some : row ≠ [])
    (last : row.getLast? ≠ .some '0') : digitsValue row % 10 ≠ 0 := by
  obtain rfl | ⟨row, c, rfl⟩ := List.eq_nil_or_concat' row
  · exact absurd rfl some
  have digit := digit_bounds (isDigits_append_singleton.mp h).2
  have : c.toNat ≠ 48 := by
    intro same
    have zero : c = '0' := Char.toNat_inj.mp same
    exact last (by rw [List.getLast?_concat, zero])
  rw [digitsValue_append_singleton]
  omega

/-- A longer fraction of the same size would end on a zero. -/
theorem length_le_of_fraction_eq (h : IsDigits row) (last : row.getLast? ≠ some '0')
    (same : digitsValue row * 10 ^ row'.length = digitsValue row' * 10 ^ row.length) :
    row.length ≤ row'.length := by
  by_contra! longer
  obtain ⟨more, more_eq⟩ := Nat.exists_eq_add_of_lt longer
  have some : row ≠ [] := List.ne_nil_of_length_pos (by omega)
  rw [more_eq, Nat.add_assoc, Nat.pow_add, Nat.mul_left_comm, Nat.mul_comm] at same
  have shifted := Nat.eq_of_mul_eq_mul_left (Nat.pow_pos (by decide)) same
  refine digitsValue_mod_ten h some last ?_
  rw [shifted, Nat.pow_succ, ← Nat.mul_assoc, Nat.mul_mod_left]

theorem eq_of_fraction_eq (h : IsDigits row) (h' : IsDigits row')
    (last : row.getLast? ≠ some '0') (last' : row'.getLast? ≠ some '0')
    (same : (digitsValue row / 10 ^ row.length : ℚ) = digitsValue row' / 10 ^ row'.length) :
    row = row' := by
  have crossed : digitsValue row * 10 ^ row'.length = digitsValue row' * 10 ^ row.length := by
    rw [div_eq_div_iff (by positivity) (by positivity)] at same
    exact_mod_cast same
  have length : row.length = row'.length :=
    le_antisymm (length_le_of_fraction_eq h last crossed)
      (length_le_of_fraction_eq h' last' crossed.symm)
  rw [length] at crossed
  exact eq_of_digitsValue_eq h h' length
    (Nat.eq_of_mul_eq_mul_right (Nat.pow_pos (by decide)) crossed)

/-! ## Numerals -/

/-- A decimal: its sign, the digits before the point, and those behind it if there is a point. -/
@[ext]
structure Numeral where
  negative : Bool
  whole : List Char
  fraction : Option (List Char)

namespace Numeral

variable {d d' : Numeral}

def places (d : Numeral) : List Char := d.fraction.getD []

def text (d : Numeral) : String :=
  String.ofList ((if d.negative then ['-'] else []) ++ d.whole ++ d.fraction.elim [] ('.' :: ·))

def magnitude (d : Numeral) : ℚ :=
  digitsValue d.whole + digitsValue d.places / 10 ^ d.places.length

def value (d : Numeral) : ℚ := if d.negative then -d.magnitude else d.magnitude

/-- Nothing is written that need not be. -/
structure Canonical (d : Numeral) : Prop where
  /-- No zero stands before another digit of the whole number. -/
  whole : IsWhole d.whole
  /-- A fraction is of digits. -/
  digits : IsDigits d.places
  /-- No point stands without a fraction. -/
  point : d.fraction ≠ some []
  /-- No fraction ends on a zero. -/
  trailing : d.places.getLast? ≠ some '0'
  /-- Zero has no sign. -/
  sign : d.negative = true → d.whole = ['0'] → d.fraction ≠ none

/-! ### Reading a numeral back -/

/-- The digits before the point end where the text goes on with a point, or ends. -/
theorem takeWhile_whole (digits : IsDigits row) (fraction : Option (List Char)) :
    (row ++ fraction.elim [] ('.' :: ·)).takeWhile Char.isDigit = row := by
  rw [List.takeWhile_append_of_pos digits]
  cases fraction <;> simp

/-- The first character tells the sign. -/
theorem head?_toList_text (h : d.Canonical) :
    d.text.toList.head? = some '-' ↔ d.negative = true := by
  obtain ⟨negative, _ | ⟨c, whole⟩, fraction⟩ := d
  · exact absurd rfl h.whole.ne_nil
  have digit := h.whole.digits c (by simp)
  cases negative with
  | true => simp [text]
  | false =>
    suffices c ≠ '-' by simpa [text]
    rintro rfl
    cases digit

theorem Canonical.eq_of_text_eq (h : d.Canonical) (h' : d'.Canonical) (same : d.text = d'.text) :
    d = d' := by
  have sign : d.negative = d'.negative := by
    rw [Bool.eq_iff_iff, ← head?_toList_text h, ← head?_toList_text h', same]
  have chars := congrArg String.toList same
  simp only [text, String.toList_ofList, sign, List.append_assoc] at chars
  have behind := List.append_cancel_left chars
  have whole : d.whole = d'.whole := by
    rw [← takeWhile_whole h.whole.digits d.fraction, behind,
      takeWhile_whole h'.whole.digits d'.fraction]
  rw [whole] at behind
  have fraction : d.fraction = d'.fraction := by
    have := List.append_cancel_left behind
    cases hf : d.fraction <;> cases hf' : d'.fraction <;> simp_all
  exact Numeral.ext sign whole fraction

/-- Digits, a sign and a point are all that is written. -/
theorem Canonical.mem_text (h : d.Canonical) {c : Char} (mem : c ∈ d.text.toList) :
    c = '-' ∨ c = '.' ∨ c.isDigit = true := by
  rw [text, String.toList_ofList, List.mem_append, List.mem_append] at mem
  rcases mem with (sign | whole) | behind
  · split at sign
    · exact .inl (List.mem_singleton.mp sign)
    · cases sign
  · exact .inr (.inr (h.whole.digits c whole))
  · have digits := h.digits
    unfold Numeral.places at digits
    cases hf : d.fraction with
    | none => simp [hf] at behind
    | some row =>
      rw [hf] at digits behind
      rcases List.mem_cons.mp behind with point | digit
      · exact .inr (.inl point)
      · exact .inr (.inr (digits c digit))

/-! ### One numeral for each number -/

theorem magnitude_nonneg (d : Numeral) : 0 ≤ d.magnitude := by
  rw [magnitude]
  positivity

theorem abs_value (d : Numeral) : |d.value| = d.magnitude := by
  rw [value]
  split
  · rw [abs_neg, abs_of_nonneg d.magnitude_nonneg]
  · exact abs_of_nonneg d.magnitude_nonneg

theorem Canonical.floor_magnitude (h : d.Canonical) :
    ⌊d.magnitude⌋₊ = digitsValue d.whole := by
  have below : (digitsValue d.places / 10 ^ d.places.length : ℚ) < 1 := by
    rw [div_lt_one (by positivity)]
    exact_mod_cast digitsValue_lt h.digits
  rw [Nat.floor_eq_iff d.magnitude_nonneg, magnitude]
  constructor
  · have : (0 : ℚ) ≤ digitsValue d.places / 10 ^ d.places.length := by positivity
    linarith
  · linarith

theorem Canonical.eq_of_magnitude_eq (h : d.Canonical) (h' : d'.Canonical)
    (same : d.magnitude = d'.magnitude) : d.whole = d'.whole ∧ d.fraction = d'.fraction := by
  have whole : digitsValue d.whole = digitsValue d'.whole := by
    rw [← h.floor_magnitude, same, h'.floor_magnitude]
  have places : d.places = d'.places := by
    rw [magnitude, magnitude, whole] at same
    exact eq_of_fraction_eq h.digits h'.digits h.trailing h'.trailing (add_left_cancel same)
  refine ⟨h.whole.eq_of_digitsValue_eq h'.whole whole, ?_⟩
  -- without digits behind it there is no point
  have := h.point
  have := h'.point
  unfold Numeral.places at places
  cases hf : d.fraction <;> cases hf' : d'.fraction <;> simp_all

/-- What has a sign is not zero. -/
theorem Canonical.magnitude_ne_zero (h : d.Canonical) (negative : d.negative = true) :
    d.magnitude ≠ 0 := by
  intro zero
  have nothing : Canonical ⟨false, ['0'], none⟩ :=
    { whole := isWhole_toDigits 0
      digits := List.forall_mem_nil _
      point := nofun
      trailing := nofun
      sign := nofun }
  have value : (Numeral.mk false ['0'] none).magnitude = 0 := by
    simp [magnitude, places, digitsValue, Nat.ofDigitChars_cons]
  obtain ⟨whole, fraction⟩ := h.eq_of_magnitude_eq nothing (zero.trans value.symm)
  exact h.sign negative whole fraction

theorem Canonical.eq_of_value_eq (h : d.Canonical) (h' : d'.Canonical)
    (same : d.value = d'.value) : d = d' := by
  have magnitude : d.magnitude = d'.magnitude := by
    rw [← abs_value, same, abs_value]
  have sign : d.negative = d'.negative := by
    -- of two opposite numbers with one magnitude both are zero, and a zero has no sign
    cases hn : d.negative <;> cases hn' : d'.negative <;>
      simp only [value, hn, hn', if_true, Bool.false_eq_true, if_false] at same
    · rfl
    · exact absurd (by linarith) (h'.magnitude_ne_zero hn')
    · exact absurd (by linarith) (h.magnitude_ne_zero hn)
    · rfl
  obtain ⟨whole, fraction⟩ := h.eq_of_magnitude_eq h' magnitude
  exact Numeral.ext sign whole fraction

/-- Canonical numerals are written alike if and only if they are for the same number. -/
theorem Canonical.text_eq_iff (h : d.Canonical) (h' : d'.Canonical) :
    d.text = d'.text ↔ d.value = d'.value :=
  ⟨fun same => congrArg value (h.eq_of_text_eq h' same),
    fun same => congrArg text (h.eq_of_value_eq h' same)⟩

end Numeral

/-! ## Numerals with fixed places -/

section

variable {width n : Nat}

theorem toList_padZeros (width n : Nat) :
    (Decimal.padZeros width n).toList =
      List.replicate (width - (Nat.toDigits 10 n).length) '0' ++ Nat.toDigits 10 n :=
  String.toList_ofList

theorem length_padZeros (pos : 0 < width) (lt : n < 10 ^ width) :
    (Decimal.padZeros width n).toList.length = width := by
  have := (Nat.length_toDigits_le_iff (by decide) pos).mpr lt
  rw [toList_padZeros, List.length_append, List.length_replicate]
  omega

theorem isDigits_padZeros (width n : Nat) : IsDigits (Decimal.padZeros width n).toList := by
  intro c mem
  rw [toList_padZeros, List.mem_append, List.mem_replicate] at mem
  rcases mem with ⟨-, rfl⟩ | mem
  · rfl
  · exact isDigits_toDigits n c mem

theorem digitsValue_padZeros (width n : Nat) :
    digitsValue (Decimal.padZeros width n).toList = n := by
  rw [toList_padZeros, digitsValue, Nat.ofDigitChars_append, Nat.ofDigitChars_replicate_zero,
    Nat.mul_zero]
  exact digitsValue_toDigits n

end

namespace Numeral

/-- `n` units of `10 ^ (-places)` with all their places. -/
def ofUnits (negative : Bool) (places n : Nat) : Numeral :=
  { negative := negative
    whole := Nat.toDigits 10 (n / 10 ^ places)
    fraction := if places = 0 then none
      else some (Decimal.padZeros places (n % 10 ^ places)).toList }

variable (negative : Bool) (places n : Nat)

theorem text_ofUnits :
    (ofUnits negative places n).text = Decimal.sign negative ++ Decimal.units places n := by
  rw [← String.toList_inj, text, Decimal.units, Decimal.sign]
  cases negative <;> by_cases whole : places = 0 <;> simp [ofUnits, whole]

theorem places_ofUnits :
    (ofUnits negative places n).places =
      if places = 0 then [] else (Decimal.padZeros places (n % 10 ^ places)).toList := by
  rw [Numeral.places, ofUnits]
  split <;> rfl

theorem length_places_ofUnits : (ofUnits negative places n).places.length = places := by
  rw [places_ofUnits]
  split
  · next whole => exact whole.symm
  · next some =>
    exact length_padZeros (Nat.pos_of_ne_zero some) (Nat.mod_lt n (Nat.pow_pos (by decide)))

theorem digitsValue_places_ofUnits :
    digitsValue (ofUnits negative places n).places = n % 10 ^ places := by
  rw [places_ofUnits]
  split
  · next whole =>
    rw [whole, Nat.pow_zero, Nat.mod_one]
    rfl
  · exact digitsValue_padZeros ..

theorem magnitude_ofUnits : (ofUnits negative places n).magnitude = n / 10 ^ places := by
  have unit : (10 ^ places : ℚ) ≠ 0 := by positivity
  rw [magnitude, digitsValue_places_ofUnits, length_places_ofUnits, ofUnits,
    digitsValue_toDigits, eq_div_iff unit, add_mul, div_mul_cancel₀ _ unit]
  exact_mod_cast Nat.div_add_mod' n (10 ^ places)

theorem isWhole_ofUnits : IsWhole (ofUnits negative places n).whole := isWhole_toDigits _

theorem isDigits_places_ofUnits : IsDigits (ofUnits negative places n).places := by
  rw [places_ofUnits]
  split
  · exact List.forall_mem_nil _
  · exact isDigits_padZeros _ _

end Numeral

/-! ## Dropping what need not be written -/

theorem toList_dropTrailing (c : Char) (s : String) :
    (Decimal.dropTrailing c s).toList = s.toList.rdropWhile (· == c) :=
  String.toList_ofList

/-- What is dropped at the end stands behind the last other character. -/
theorem rdropWhile_append_cons {p : Char → Bool} (stop : ¬ p c) (front row : List Char) :
    (front ++ c :: row).rdropWhile p = front ++ c :: row.rdropWhile p := by
  induction row using List.reverseRecOn with
  | nil => rw [List.rdropWhile_concat_neg p front c stop, List.rdropWhile_nil]
  | append_singleton row last ih =>
    rw [← List.cons_append, ← List.append_assoc]
    by_cases drop : p last
    · rw [List.rdropWhile_concat_pos _ _ _ drop, List.rdropWhile_concat_pos _ _ _ drop, ih]
    · rw [List.rdropWhile_concat_neg _ _ _ drop, List.rdropWhile_concat_neg _ _ _ drop,
        List.append_assoc, List.cons_append]

/-- No point is dropped behind a digit. -/
theorem rdropWhile_point (digits : IsDigits row) (some : row ≠ []) (front : List Char) :
    (front ++ row).rdropWhile (· == '.') = front ++ row := by
  rw [List.rdropWhile_eq_self_iff]
  intro _ point
  rw [List.getLast_append_of_ne_nil _ some] at point
  have digit := digits _ (List.getLast_mem some)
  rw [beq_iff_eq.mp point] at digit
  cases digit

/-- The zeros dropped at the end of a fraction are worth nothing. -/
theorem fraction_rdropWhile (row : List Char) :
    let kept := row.rdropWhile (· == '0')
    (digitsValue kept / 10 ^ kept.length : ℚ) = digitsValue row / 10 ^ row.length := by
  intro kept
  have zeros := List.eq_replicate_of_mem fun c mem =>
    beq_iff_eq.mp (List.mem_rtakeWhile_imp (p := (· == '0')) (l := row) mem)
  have parts : row = kept ++ List.replicate (row.rtakeWhile (· == '0')).length '0' := by
    rw [← zeros]
    exact List.rdropWhile_append_rtakeWhile.symm
  generalize (row.rtakeWhile (· == '0')).length = k at parts
  have value : digitsValue row = 10 ^ k * digitsValue kept := by
    rw [parts, digitsValue, Nat.ofDigitChars_append, Nat.ofDigitChars_replicate_zero]
    rfl
  have length : row.length = kept.length + k := by
    rw [parts, List.length_append, List.length_replicate]
  rw [value, length, pow_add, Nat.cast_mul, Nat.cast_pow, Nat.cast_ofNat]
  field_simp

namespace Numeral

variable {d : Numeral}

/-- Without the zeros at the end of its fraction, and without a point if nothing is left. -/
def trim (d : Numeral) : Numeral :=
  let kept := d.places.rdropWhile (· == '0')
  { d with fraction := if kept = [] then none else some kept }

/-- Without a sign where nothing but a zero is written. -/
def unsignZero (d : Numeral) : Numeral :=
  if d.whole = ['0'] ∧ d.fraction = none then { d with negative := false } else d

theorem places_trim : d.trim.places = d.places.rdropWhile (· == '0') := by
  rw [Numeral.places, trim]
  dsimp only
  by_cases nothing : d.places.rdropWhile (· == '0') = []
  · rw [if_pos nothing, nothing, Option.getD_none]
  · rw [if_neg nothing, Option.getD_some]

theorem isDigits_places_trim (digits : IsDigits d.places) : IsDigits d.trim.places := by
  rw [places_trim]
  exact fun c mem => digits c ((List.rdropWhile_prefix _ _).subset mem)

/-- The zeros at the end are dropped, and then the point if it stands at the end. Of a numeral with
a point no digit of the whole number is dropped. -/
theorem text_trim (whole : IsWhole d.whole) (digits : IsDigits d.places)
    (point : d.fraction ≠ none) :
    Decimal.dropTrailing '.' (Decimal.dropTrailing '0' d.text) = d.trim.text := by
  have kept := isDigits_places_trim digits
  rw [places_trim] at kept
  obtain ⟨row, fraction⟩ := Option.ne_none_iff_exists'.mp point
  have row_eq : d.places = row := by rw [Numeral.places, fraction, Option.getD_some]
  rw [row_eq] at kept
  rw [← String.toList_inj, toList_dropTrailing, toList_dropTrailing, text, text, trim, fraction,
    row_eq, String.toList_ofList, String.toList_ofList]
  dsimp only [Option.elim_some]
  rw [rdropWhile_append_cons (by decide)]
  by_cases nothing : row.rdropWhile (· == '0') = []
  · rw [if_pos nothing, nothing, List.rdropWhile_concat_pos _ _ _ rfl,
      rdropWhile_point whole.digits whole.ne_nil, Option.elim_none, List.append_nil]
  · rw [if_neg nothing, Option.elim_some, List.append_cons _ '.', rdropWhile_point kept nothing]

/-- Only a zero under a sign is written `-0`. -/
theorem text_eq_minus_zero_iff (whole : IsWhole d.whole) :
    d.text = "-0" ↔ d.negative = true ∧ d.whole = ['0'] ∧ d.fraction = none := by
  obtain ⟨negative, _ | ⟨c, front⟩, fraction⟩ := d
  · exact absurd rfl whole.ne_nil
  have digit : c ≠ '-' := by
    rintro rfl
    cases whole.digits '-' (by simp)
  have chars : "-0".toList = ['-', '0'] := rfl
  rw [← String.toList_inj, text, String.toList_ofList, chars]
  cases negative <;> cases fraction <;> simp [digit]

theorem text_unsignZero (whole : IsWhole d.whole) :
    (if d.text = "-0" then "0" else d.text) = d.unsignZero.text := by
  by_cases zero : d.whole = ['0'] ∧ d.fraction = none
  · rw [unsignZero, if_pos zero]
    obtain ⟨negative, _, _⟩ := d
    obtain ⟨rfl, rfl⟩ := zero
    cases negative <;> decide
  · have other : d.text ≠ "-0" := fun same => zero ((text_eq_minus_zero_iff whole).mp same).2
    rw [unsignZero, if_neg zero, if_neg other]

theorem value_unsignZero (d : Numeral) : d.unsignZero.value = d.value := by
  rw [unsignZero]
  split
  · next zero =>
    obtain ⟨negative, _, _⟩ := d
    obtain ⟨rfl, rfl⟩ := zero
    cases negative <;> simp [value, magnitude, places, digitsValue, Nat.ofDigitChars_cons]
  · rfl

theorem value_trim (d : Numeral) : d.trim.value = d.value := by
  have magnitude : d.trim.magnitude = d.magnitude := by
    rw [Numeral.magnitude, places_trim, fraction_rdropWhile]
    rfl
  rw [Numeral.value, magnitude]
  rfl

theorem places_unsignZero (d : Numeral) : d.unsignZero.places = d.places := by
  rw [unsignZero]
  split <;> rfl

/-- What is left without zeros at the end and without a sign on a zero is canonical. -/
theorem canonical_unsignZero_trim (whole : IsWhole d.whole) (digits : IsDigits d.places) :
    d.trim.unsignZero.Canonical where
  whole := by
    rw [unsignZero]
    split <;> exact whole
  digits := by
    rw [places_unsignZero]
    exact isDigits_places_trim digits
  point := by
    have point : d.trim.fraction ≠ some [] := by
      rw [trim]
      dsimp only
      split
      · nofun
      · next some => exact fun nothing => some (Option.some.inj nothing)
    rw [unsignZero]
    split <;> exact point
  trailing := by
    rw [places_unsignZero, places_trim]
    intro zero
    have some : d.places.rdropWhile (· == '0') ≠ [] := by
      intro nothing
      simp [nothing] at zero
    rw [List.getLast?_eq_some_getLast some] at zero
    exact List.rdropWhile_last_not _ _ some (beq_iff_eq.mpr (Option.some.inj zero))
  sign := by
    rw [unsignZero]
    split
    · nofun
    · next other => exact fun _ zero none => other ⟨zero, none⟩

end Numeral

end NumberDuel.Text
