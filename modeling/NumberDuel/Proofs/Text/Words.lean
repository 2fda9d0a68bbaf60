import Mathlib

/-!
# Rows of words

A text of words with a blank between each two of them can be read back, if no word has a blank in
it. The texts of numbers are words.
-/

namespace NumberDuel.Text

def IsWord (s : String) : Prop := ' ' ∉ s.toList

instance decidableIsWord (s : String) : Decidable (IsWord s) :=
  inferInstanceAs (Decidable (' ' ∉ s.toList))

/-- The words are read back from the blanks between them. -/
theorem splitOn_intercalate {words : List String} (h : ∀ w ∈ words, IsWord w) (some : words ≠ []) :
    (" ".intercalate words).toList.splitOn ' ' = words.map String.toList := by
  have chars : ∀ w ∈ words.map String.toList, ' ' ∉ w := List.forall_mem_map.mpr h
  rw [String.toList_intercalate]
  exact List.splitOn_intercalate ' ' chars (by simpa using some)

theorem intercalate_inj {words words' : List String} (h : ∀ w ∈ words, IsWord w)
    (h' : ∀ w ∈ words', IsWord w) (some : words ≠ []) (some' : words' ≠ [])
    (same : " ".intercalate words = " ".intercalate words') : words = words' := by
  have chars : words.map String.toList = words'.map String.toList := by
    rw [← splitOn_intercalate h some, ← splitOn_intercalate h' some', same]
  exact (List.map_inj_right fun _ _ => String.toList_inj.mp).mp chars

theorem isWord_repr (n : Nat) : IsWord n.repr := by
  intro blank
  rw [Nat.toList_repr] at blank
  have digit := Nat.isDigit_of_mem_toDigits (by decide) (by decide) blank
  cases digit

theorem isWord_toString_nat (n : Nat) : IsWord (toString n) := isWord_repr n

theorem isWord_toString_int (n : Int) : IsWord (toString n) := by
  have digits := isWord_repr (-n).toNat
  rw [Int.toString_eq_repr, Int.repr_eq_if]
  split
  · exact isWord_repr _
  · simpa [IsWord] using digits

end NumberDuel.Text
