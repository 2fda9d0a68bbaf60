import NumberDuel.Proofs.Text.Words
import NumberDuel.Validation

/-!
# What a reason says

The reason for a refusal is a row of words, and from its words one reads back which rule is
broken, and by how much.
-/

namespace NumberDuel.Breach

def shortWords (count : Nat) : List String :=
  ["must", "be", "used", toString count, "more", "time(s)."]

def surplusWords (count : Nat) : List String :=
  ["was", "used", toString count, "time(s)", "too", "many."]

def words : Breach → List String
  | empty => ["The", "expression", "is", "empty."]
  | incomplete => ["The", "expression", "is", "not", "complete."]
  | notFinite value => ["Number", nonFiniteText value, "is", "not", "a", "card", "value."]
  | numberShort value count => "Number" :: toString value :: shortWords count
  | numberSurplus value count => "Number" :: toString value :: surplusWords count
  | rootShort count => "√" :: shortWords count
  | rootSurplus count => "√" :: surplusWords count
  | multiplyShort count => "×" :: shortWords count
  | multiplySurplus count => "×" :: surplusWords count
  | disabledOperator op => ["Disabled", "operator", "used:", op.symbol]

theorem words_ne_nil (b : Breach) : b.words ≠ [] := by
  cases b <;> exact List.cons_ne_nil _ _

theorem toList_short (subject : String) (count : Nat) :
    (short subject count).toList =
      (" ".intercalate (subject :: shortWords count)).toList := by
  simp [short, shortWords]

theorem toList_surplus (subject : String) (count : Nat) :
    (surplus subject count).toList =
      (" ".intercalate (subject :: surplusWords count)).toList := by
  simp [surplus, surplusWords]

theorem detail_notFinite (x : Float) :
    (notFinite x).detail = "Number " ++ nonFiniteText x ++ " is not a card value." := rfl

theorem detail_eq_intercalate (b : Breach) : b.detail = " ".intercalate b.words := by
  rw [← String.toList_inj]
  cases b with
  | empty =>
    change "The expression is empty.".toList = _
    simp [words]
  | incomplete =>
    change "The expression is not complete.".toList = _
    simp [words]
  | notFinite x =>
    rw [detail_notFinite]
    simp [words]
  | numberShort n count =>
    change (short ("Number " ++ toString n) count).toList = _
    rw [toList_short]
    simp [words, shortWords]
  | numberSurplus n count =>
    change (surplus ("Number " ++ toString n) count).toList = _
    rw [toList_surplus]
    simp [words, surplusWords]
  | rootShort | multiplyShort => exact toList_short ..
  | rootSurplus | multiplySurplus => exact toList_surplus ..
  | disabledOperator op =>
    change ("Disabled operator used: " ++ op.symbol).toList = _
    simp [words]

theorem isWord_nonFiniteText (x : Float) : Text.IsWord (nonFiniteText x) := by
  unfold nonFiniteText
  split
  · next negative _ => cases negative <;> decide
  · decide

theorem isWord_of_mem_shortWords (count : Nat) : ∀ w ∈ shortWords count, Text.IsWord w := by
  simp only [shortWords, List.forall_mem_cons]
  exact ⟨by decide, by decide, by decide, Text.isWord_toString_nat count, by decide⟩

theorem isWord_of_mem_surplusWords (count : Nat) : ∀ w ∈ surplusWords count, Text.IsWord w := by
  simp only [surplusWords, List.forall_mem_cons]
  exact ⟨by decide, by decide, Text.isWord_toString_nat count, by decide⟩

theorem isWord_of_mem_words (b : Breach) : ∀ w ∈ b.words, Text.IsWord w := by
  cases b with
  | empty | incomplete => decide
  | disabledOperator op => cases op <;> decide
  | notFinite x =>
    simp only [words, List.forall_mem_cons]
    exact ⟨by decide, isWord_nonFiniteText x, by decide⟩
  | rootShort count | multiplyShort count =>
    exact List.forall_mem_cons.mpr ⟨by decide, isWord_of_mem_shortWords count⟩
  | rootSurplus count | multiplySurplus count =>
    exact List.forall_mem_cons.mpr ⟨by decide, isWord_of_mem_surplusWords count⟩
  | numberShort n count =>
    simp only [words, List.forall_mem_cons]
    exact ⟨by decide, Text.isWord_toString_int n, isWord_of_mem_shortWords count⟩
  | numberSurplus n count =>
    simp only [words, List.forall_mem_cons]
    exact ⟨by decide, Text.isWord_toString_int n, isWord_of_mem_surplusWords count⟩

theorem words_eq_iff {b c : Breach} :
    b.words = c.words ↔
      b = c ∨ ∃ x y, b = .notFinite x ∧ c = .notFinite y ∧ nonFiniteText x = nonFiniteText y := by
  constructor
  · intro same
    cases b <;> cases c <;> 
      simp_all [words, shortWords, surplusWords, Operator.symbol_injective.eq_iff]
  · rintro (rfl | ⟨x, y, rfl, rfl, text⟩)
    · rfl
    · simp only [words, text]

/-- A reason tells its rule and the amount; of a number that is not finite it tells no more than
its text. -/
theorem detail_eq_iff {b c : Breach} :
    b.detail = c.detail ↔
      b = c ∨ ∃ x y, b = .notFinite x ∧ c = .notFinite y ∧ nonFiniteText x = nonFiniteText y := by
  rw [← words_eq_iff, detail_eq_intercalate, detail_eq_intercalate]
  refine ⟨fun same => ?_, congrArg _⟩
  exact Text.intercalate_inj b.isWord_of_mem_words c.isWord_of_mem_words b.words_ne_nil
    c.words_ne_nil same

end NumberDuel.Breach
