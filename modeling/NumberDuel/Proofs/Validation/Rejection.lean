import NumberDuel.Proofs.Validation.Acceptance
import NumberDuel.Proofs.Validation.Wording

/-!
# What a refusal reports

A refused expression is told one reason. It belongs to the first rule that is broken, in the order
of the checks, and tells by how much: the number in it is the first one, in the order in which the
hand holds its numbers and then in the order of the terms, that is not used as often as it is held.
-/

namespace NumberDuel

section Search

variable {α β : Type} {f : α → Option β}

/-- A search may pass over what gives nothing. -/
theorem findSome?_filter_of_none {p : α → Bool} {xs : List α}
    (h : ∀ x ∈ xs, p x = false → f x = none) : (xs.filter p).findSome? f = xs.findSome? f := by
  induction xs with
  | nil => rfl
  | cons x xs ih =>
    obtain ⟨here, later⟩ := List.forall_mem_cons.mp h
    cases hp : p x with
    | true => rw [List.filter_cons_of_pos hp, List.findSome?_cons, List.findSome?_cons, ih later]
    | false => rw [List.filter_cons_of_neg (by simp [hp]), List.findSome?_cons, here hp, ih later]

variable [DecidableEq α]

/-- To look at something again changes nothing. -/
theorem findSome?_eraseDups (xs : List α) : xs.eraseDups.findSome? f = xs.findSome? f := by
  induction xs using List.reverseRecOn with
  | nil => rfl
  | append_singleton xs x ih =>
    rw [List.eraseDups_append, List.findSome?_append, List.findSome?_append, ih]
    by_cases seen : x ∈ xs
    · cases found : xs.findSome? f with
      | some y => rfl
      | none =>
        have nothing := List.findSome?_eq_none_iff.mp found x seen
        simp [List.removeAll, seen, nothing]
    · have fresh : [x].removeAll xs = [x] := by simp [List.removeAll, seen]
      rw [fresh, List.eraseDups_cons]
      rfl

/-- The first one that gives something: what stands before it gives nothing. -/
theorem findSome?_eq_some_iff_takeWhile {xs : List α} {y : β} :
    xs.findSome? f = some y ↔
      ∃ x ∈ xs, f x = some y ∧ ∀ z ∈ xs.takeWhile (· ≠ x), f z = none := by
  induction xs with
  | nil => simp
  | cons x xs ih =>
    rw [List.findSome?_cons]
    cases here : f x with
    | some z =>
      constructor
      · rintro ⟨⟩
        exact ⟨x, .head _, here, by simp⟩
      · rintro ⟨x', -, found, nothing⟩
        rcases eq_or_ne x x' with rfl | other
        · exact here.symm.trans found
        · have := nothing x (by simp [other])
          simp [here] at this
    | none =>
      have passed {x' : α} (found : f x' = some y) : x ≠ x' ∧
          (x :: xs).takeWhile (· ≠ x') = x :: xs.takeWhile (· ≠ x') := by
        have other : x ≠ x' := fun same => by simp [← same, here] at found
        exact ⟨other, List.takeWhile_cons_of_pos (by simpa using other)⟩
      rw [ih]
      constructor
      · rintro ⟨x', mem, found, nothing⟩
        refine ⟨x', .tail _ mem, found, ?_⟩
        rw [(passed found).2, List.forall_mem_cons]
        exact ⟨here, nothing⟩
      · rintro ⟨x', mem, found, nothing⟩
        rw [(passed found).2, List.forall_mem_cons] at nothing
        exact ⟨x', (List.mem_cons.mp mem).resolve_left (passed found).1.symm, found, nothing.2⟩

end Search

instance (x : Float) (n : ℤ) : Decidable (RoundsTo x n) :=
  decidable_of_iff _ roundHalfEven?_eq_some_iff

def Hand.heldNumbers (hand : Hand) : List ℤ := hand.numberValues.map fun v => (v.val : ℤ)

namespace Expression

/-- How many terms have this number as their nearest whole number. -/
def uses (e : Expression) (n : ℤ) : Nat := e.terms.countP fun t => RoundsTo t.value n

theorem count_roundedValues (e : Expression) (n : ℤ) : e.roundedValues.count n = e.uses n := by
  rw [roundedValues, Formula.values, List.filterMap_map, List.count_filterMap, uses]
  refine List.countP_congr fun t _ => ?_
  simp [roundHalfEven?_eq_some_iff]

/-! ## The rules -/

end Expression

/-- The rules, one for each check. -/
inductive Rule where
  | nonempty
  | complete
  | numbers
  | roots
  | multiplies
  | enabled
  deriving DecidableEq, Repr

namespace Rule

def all : List Rule := [nonempty, complete, numbers, roots, multiplies, enabled]

def Kept (e : Expression) (hand : Hand) : Rule → Prop
  | nonempty => e.terms ≠ []
  | complete => e.connectives.length + 1 = e.terms.length
  | numbers => ∃ rounded : List ℤ, e.values.Forall₂ RoundsTo rounded ∧
      rounded.Perm hand.heldNumbers
  | roots => e.terms.countP (·.rooted) = hand.rootCount
  | multiplies => e.connectives.count .multiply = hand.multiplyCount
  | enabled => ∀ op ∈ e.connectives, op ≠ .multiply → op ∉ hand.disabled

def check (e : Expression) (hand : Hand) : Rule → Option Breach
  | nonempty => e.checkNotEmpty
  | complete => e.checkComplete
  | numbers => e.checkNumbers hand
  | roots => e.checkRoots hand
  | multiplies => e.checkMultiplies hand
  | enabled => e.checkDisabled hand

variable {e : Expression} {hand : Hand}

theorem mem_all (r : Rule) : r ∈ all := by
  cases r <;> decide

theorem check_eq_none_iff (r : Rule) : r.check e hand = none ↔ r.Kept e hand := by
  cases r with
  | nonempty => simp [check, Kept, Expression.checkNotEmpty, Formula.isEmpty]
  | complete =>
    simp only [check, Kept, Expression.checkComplete, Formula.isComplete]
    grind
  | numbers =>
    simp only [check, Kept, Expression.checkNumbers_eq_none_iff,
      Expression.forall₂_roundsTo_iff, and_assoc, exists_and_left, exists_eq_left']
    rfl
  | roots | multiplies => exact Expression.checkCount_eq_none_iff
  | enabled => simp [check, Kept, Expression.checkDisabled_eq_none_iff, Hand.isEnabled]

end Rule

namespace Expression

variable {e : Expression} {hand : Hand}

/-- The first rule, in the order of the checks, that is not kept. -/
structure FirstBroken (e : Expression) (hand : Hand) (r : Rule) : Prop where
  broken : ¬ r.Kept e hand
  earlier : ∀ p ∈ Rule.all.takeWhile (· ≠ r), p.Kept e hand

theorem breach?_eq_findSome? (e : Expression) (hand : Hand) :
    e.breach? hand = Rule.all.findSome? fun r => r.check e hand := by
  simp only [breach?, Rule.all, Rule.check, List.findSome?_cons, Option.orElse_eq_orElse,
    Option.orElse_eq_or]
  grind

/-- The check of the first broken rule gives the breach. -/
theorem breach?_eq_some_iff {b : Breach} :
    e.breach? hand = some b ↔ ∃ r, e.FirstBroken hand r ∧ r.check e hand = some b := by
  rw [breach?_eq_findSome?, findSome?_eq_some_iff_takeWhile]
  simp only [Rule.check_eq_none_iff]
  constructor
  · rintro ⟨r, -, found, earlier⟩
    have broken : ¬ r.Kept e hand := by
      rw [← Rule.check_eq_none_iff, found]
      exact Option.some_ne_none b
    exact ⟨r, ⟨broken, earlier⟩, found⟩
  · rintro ⟨r, first, found⟩
    exact ⟨r, r.mem_all, found, first.earlier⟩

/-! ## The amounts -/

theorem checkCount_eq_some_iff {required used : Nat} {short surplus : Nat → Breach} {b : Breach} :
    checkCount required used short surplus = some b ↔
      ∃ d, 1 ≤ d ∧ (b = short d ∧ required = used + d ∨ b = surplus d ∧ used = required + d) := by
  unfold checkCount
  split
  · next fewer =>
    constructor
    · rintro ⟨⟩
      exact ⟨required - used, by omega, .inl ⟨rfl, by omega⟩⟩
    · rintro ⟨d, -, ⟨rfl, amount⟩ | ⟨-, amount⟩⟩
      · rw [amount, Nat.add_sub_cancel_left]
      · omega
  · split
    · next more =>
      constructor
      · rintro ⟨⟩
        exact ⟨used - required, by omega, .inr ⟨rfl, by omega⟩⟩
      · rintro ⟨d, -, ⟨-, amount⟩ | ⟨rfl, amount⟩⟩
        · omega
        · rw [amount, Nat.add_sub_cancel_left]
    · constructor
      · rintro ⟨⟩
      · rintro ⟨d, some, ⟨-, amount⟩ | ⟨-, amount⟩⟩ <;> omega

/-- The numbers are compared in held order and then in the order of the terms. -/
theorem checkCounts_eq_findSome? (held used : List ℤ) :
    checkCounts held used = (held ++ used).findSome? fun n =>
      checkCount (held.count n) (used.count n) (.numberShort n) (.numberSurplus n) := by
  rw [checkCounts, findSome?_eraseDups, List.findSome?_append, List.findSome?_append]
  cases found : held.findSome? fun n =>
      checkCount (held.count n) (used.count n) (.numberShort n) (.numberSurplus n) with
  | some b => rfl
  | none =>
    rw [Option.none_or, Option.none_or]
    refine findSome?_filter_of_none fun n _ ofHand => ?_
    exact List.findSome?_eq_none_iff.mp found n (by simpa using ofHand)

/-- All numbers compared before `n` are used as often as they are held: those that the hand holds
before it, and when the hand does not hold it, all that the hand holds; then no other number that
the hand does not hold comes earlier in the terms. -/
structure FirstMiscounted (e : Expression) (hand : Hand) (n : ℤ) : Prop where
  finite : ∀ t ∈ e.terms, t.value.isFinite = true
  held : ∀ m ∈ hand.heldNumbers.takeWhile (· ≠ n), e.uses m = hand.heldNumbers.count m
  foreign : n ∉ hand.heldNumbers → ∀ m ∈ e.roundedValues.takeWhile (· ≠ n), m ∈ hand.heldNumbers

/-- What stands before `n` in two rows after each other has equal counts in both: so have the
numbers of the first row before `n`, and when `n` is not among them, the second row has no others
before it. -/
theorem forall_takeWhile_append_count_iff {held used : List ℤ} {n : ℤ} :
    (∀ m ∈ (held ++ used).takeWhile (· ≠ n), used.count m = held.count m) ↔
      (∀ m ∈ held.takeWhile (· ≠ n), used.count m = held.count m) ∧
        (n ∉ held → ∀ m ∈ used.takeWhile (· ≠ n), m ∈ held) := by
  by_cases ofHand : n ∈ held
  · have cut : (held.takeWhile (· ≠ n)).length ≠ held.length := by
      intro whole
      have all := (List.takeWhile_prefix _).eq_of_length whole
      simpa using List.takeWhile_eq_self_iff.mp all n ofHand
    rw [List.takeWhile_append, if_neg cut]
    exact (and_iff_left fun foreign => absurd ofHand foreign).symm
  · have other : ∀ m ∈ held, decide (m ≠ n) = true := fun m hm => by
      simpa using ne_of_mem_of_not_mem hm ofHand
    rw [List.takeWhile_append_of_pos other, List.takeWhile_eq_self_iff.mpr other,
      List.forall_mem_append]
    refine and_congr_right fun exact_held => ?_
    constructor
    · -- a number of the second row is used, so with equal counts it is held as well
      intro counts _ m hm
      have used_once : 0 < used.count m :=
        List.count_pos_iff.mpr ((List.takeWhile_prefix _).subset hm)
      rw [counts m hm] at used_once
      exact List.count_pos_iff.mp used_once
    · exact fun known m hm => exact_held m (known ofHand m hm)

theorem checkCounts_eq_some_iff {held used : List ℤ} {b : Breach} :
    checkCounts held used = some b ↔
      ∃ n d, ((∀ m ∈ held.takeWhile (· ≠ n), used.count m = held.count m) ∧
          (n ∉ held → ∀ m ∈ used.takeWhile (· ≠ n), m ∈ held)) ∧ 1 ≤ d ∧
        (b = .numberShort n d ∧ held.count n = used.count n + d ∨
          b = .numberSurplus n d ∧ used.count n = held.count n + d) := by
  rw [checkCounts_eq_findSome?, findSome?_eq_some_iff_takeWhile]
  simp only [checkCount_eq_none_iff, checkCount_eq_some_iff, forall_takeWhile_append_count_iff]
  constructor
  · rintro ⟨n, -, ⟨d, some, amount⟩, before⟩
    exact ⟨n, d, before, some, amount⟩
  · rintro ⟨n, d, before, some, amount⟩
    refine ⟨n, ?_, ⟨d, some, amount⟩, before⟩
    rw [List.mem_append, ← List.count_pos_iff, ← List.count_pos_iff]
    omega

theorem checkNumbers_eq_some_iff {b : Breach} :
    e.checkNumbers hand = some b ↔
      e.checkFinite = some b ∨ ∃ n d, e.FirstMiscounted hand n ∧ 1 ≤ d ∧
        (b = .numberShort n d ∧ hand.heldNumbers.count n = e.uses n + d ∨
          b = .numberSurplus n d ∧ e.uses n = hand.heldNumbers.count n + d) := by
  have finite_iff : e.checkFinite = none ↔ ∀ t ∈ e.terms, t.value.isFinite = true := by
    simp [checkFinite_eq_none_iff, Formula.values]
  have counts_iff : checkCounts hand.heldNumbers e.roundedValues = some b ↔ _ :=
    checkCounts_eq_some_iff
  simp only [count_roundedValues] at counts_iff
  change (e.checkFinite <|> checkCounts hand.heldNumbers e.roundedValues) = some b ↔ _
  rw [Option.orElse_eq_orElse, Option.orElse_eq_or, Option.or_eq_some_iff, finite_iff, counts_iff]
  refine or_congr_right ?_
  constructor
  · rintro ⟨finite, n, d, ⟨held, foreign⟩, amount⟩
    exact ⟨n, d, ⟨finite, held, foreign⟩, amount⟩
  · rintro ⟨n, d, ⟨finite, held, foreign⟩, amount⟩
    exact ⟨finite, n, d, ⟨held, foreign⟩, amount⟩

theorem checkFinite_eq_some_iff {b : Breach} :
    e.checkFinite = some b ↔ ∃ before x after, e.values = before ++ x :: after ∧
      (∀ z ∈ before, z.isFinite = true) ∧ x.isFinite = false ∧ b = .notFinite x := by
  simp only [checkFinite, Option.map_eq_some_iff, List.find?_eq_some_iff_append]
  constructor
  · rintro ⟨x, ⟨infinite, before, after, split, finite⟩, rfl⟩
    exact ⟨before, x, after, split, by simpa using finite, by simpa using infinite, rfl⟩
  · rintro ⟨before, x, after, split, finite, infinite, rfl⟩
    exact ⟨x, ⟨by simpa using infinite, before, after, split, by simpa using finite⟩, rfl⟩

theorem checkDisabled_eq_some_iff {b : Breach} :
    e.checkDisabled hand = some b ↔ ∃ before op after, e.connectives = before ++ op :: after ∧
      (∀ p ∈ before, p ≠ .multiply → p ∉ hand.disabled) ∧
        (op ≠ .multiply ∧ op ∈ hand.disabled) ∧ b = .disabledOperator op := by
  simp only [checkDisabled, Option.map_eq_some_iff, List.find?_eq_some_iff_append]
  constructor
  · rintro ⟨op, ⟨disabled, before, after, split, enabled⟩, rfl⟩
    refine ⟨before, op, after, split, ?_, by simpa [Hand.isEnabled] using disabled, rfl⟩
    simpa [Hand.isEnabled, or_iff_not_imp_left] using enabled
  · rintro ⟨before, op, after, split, enabled, disabled, rfl⟩
    refine ⟨op, ⟨by simpa [Hand.isEnabled] using disabled, before, after, split, ?_⟩, rfl⟩
    simpa [Hand.isEnabled, or_iff_not_imp_left] using enabled

end Expression

namespace Breach

def rule : Breach → Rule
  | empty => .nonempty
  | incomplete => .complete
  | notFinite _ | numberShort .. | numberSurplus .. => .numbers
  | rootShort _ | rootSurplus _ => .roots
  | multiplyShort _ | multiplySurplus _ => .multiplies
  | disabledOperator _ => .enabled

/-- What a reason says of the expression is exact: the number is the first one miscounted, the
amount is what is missing or too much, and the value or operator is the first one not allowed. -/
def Accurate (e : Expression) (hand : Hand) : Breach → Prop
  | empty | incomplete => True
  | notFinite x => ∃ before y after, e.values = before ++ y :: after ∧
      (∀ z ∈ before, z.isFinite = true) ∧ y.isFinite = false ∧ nonFiniteText y = nonFiniteText x
  | numberShort n d => e.FirstMiscounted hand n ∧ 1 ≤ d ∧
      hand.heldNumbers.count n = e.uses n + d
  | numberSurplus n d => e.FirstMiscounted hand n ∧ 1 ≤ d ∧
      e.uses n = hand.heldNumbers.count n + d
  | rootShort d => 1 ≤ d ∧ hand.rootCount = e.rootCount + d
  | rootSurplus d => 1 ≤ d ∧ e.rootCount = hand.rootCount + d
  | multiplyShort d => 1 ≤ d ∧ hand.multiplyCount = e.count .multiply + d
  | multiplySurplus d => 1 ≤ d ∧ e.count .multiply = hand.multiplyCount + d
  | disabledOperator op => ∃ before after, e.connectives = before ++ op :: after ∧
      (∀ p ∈ before, p ≠ .multiply → p ∉ hand.disabled) ∧ op ≠ .multiply ∧ op ∈ hand.disabled

variable {e : Expression} {hand : Hand} {b c : Breach}

theorem rule_eq_of_detail_eq (same : b.detail = c.detail) : b.rule = c.rule := by
  rcases detail_eq_iff.mp same with rfl | ⟨x, y, rfl, rfl, -⟩ <;> rfl

theorem Accurate.of_detail_eq (accurate : b.Accurate e hand) (same : b.detail = c.detail) :
    c.Accurate e hand := by
  rcases detail_eq_iff.mp same with rfl | ⟨x, y, rfl, rfl, text⟩
  · exact accurate
  · obtain ⟨before, z, after, split, finite, first, told⟩ := accurate
    exact ⟨before, z, after, split, finite, first, told.trans text⟩

/-- What a check finds is a reason of its rule, and exact. -/
theorem rule_and_accurate_of_check {r : Rule} (found : r.check e hand = some b) :
    b.rule = r ∧ b.Accurate e hand := by
  cases r with
  | nonempty =>
    simp only [Rule.check, Expression.checkNotEmpty, Option.ite_none_right_eq_some,
      Option.some.injEq] at found
    obtain ⟨-, rfl⟩ := found
    exact ⟨rfl, trivial⟩
  | complete =>
    simp only [Rule.check, Expression.checkComplete, Option.ite_none_left_eq_some,
      Option.some.injEq] at found
    obtain ⟨-, rfl⟩ := found
    exact ⟨rfl, trivial⟩
  | numbers =>
    rcases Expression.checkNumbers_eq_some_iff.mp found with
      found | ⟨n, d, first, some, ⟨rfl, amount⟩ | ⟨rfl, amount⟩⟩
    · obtain ⟨before, x, after, split, finite, infinite, rfl⟩ :=
        Expression.checkFinite_eq_some_iff.mp found
      exact ⟨rfl, before, x, after, split, finite, infinite, rfl⟩
    · exact ⟨rfl, first, some, amount⟩
    · exact ⟨rfl, first, some, amount⟩
  | roots | multiplies =>
    obtain ⟨d, some, ⟨rfl, amount⟩ | ⟨rfl, amount⟩⟩ := Expression.checkCount_eq_some_iff.mp found
    · exact ⟨rfl, some, amount⟩
    · exact ⟨rfl, some, amount⟩
  | enabled =>
    obtain ⟨before, op, after, split, enabled, disabled, rfl⟩ :=
      Expression.checkDisabled_eq_some_iff.mp found
    exact ⟨rfl, before, after, split, enabled, disabled⟩

/-- An exact reason for a broken rule is the one that its check tells. -/
theorem exists_check_of_accurate (broken : ¬ b.rule.Kept e hand) (accurate : b.Accurate e hand) :
    ∃ c, b.rule.check e hand = some c ∧ c.detail = b.detail := by
  cases b with
  | empty | incomplete =>
    -- these two tell no amount, so any breach of the rule is the same
    obtain ⟨c, found⟩ := Option.ne_none_iff_exists'.mp (mt (Rule.check_eq_none_iff _).mp broken)
    have same := (rule_and_accurate_of_check found).1
    exact ⟨c, found, by cases c <;> first | rfl | cases same⟩
  | notFinite x =>
    obtain ⟨before, y, after, split, finite, infinite, text⟩ := accurate
    refine ⟨.notFinite y, ?_, detail_eq_iff.mpr (.inr ⟨y, x, rfl, rfl, text⟩)⟩
    refine Expression.checkNumbers_eq_some_iff.mpr (.inl ?_)
    exact Expression.checkFinite_eq_some_iff.mpr ⟨before, y, after, split, finite, infinite, rfl⟩
  | numberShort n d =>
    obtain ⟨first, some, amount⟩ := accurate
    exact ⟨_, Expression.checkNumbers_eq_some_iff.mpr
      (.inr ⟨n, d, first, some, .inl ⟨rfl, amount⟩⟩), rfl⟩
  | numberSurplus n d =>
    obtain ⟨first, some, amount⟩ := accurate
    exact ⟨_, Expression.checkNumbers_eq_some_iff.mpr
      (.inr ⟨n, d, first, some, .inr ⟨rfl, amount⟩⟩), rfl⟩
  | rootShort d | multiplyShort d =>
    exact ⟨_, Expression.checkCount_eq_some_iff.mpr ⟨d, accurate.1, .inl ⟨rfl, accurate.2⟩⟩, rfl⟩
  | rootSurplus d | multiplySurplus d =>
    exact ⟨_, Expression.checkCount_eq_some_iff.mpr ⟨d, accurate.1, .inr ⟨rfl, accurate.2⟩⟩, rfl⟩
  | disabledOperator op =>
    obtain ⟨before, after, split, enabled, disabled⟩ := accurate
    exact ⟨_, Expression.checkDisabled_eq_some_iff.mpr
      ⟨before, op, after, split, enabled, disabled, rfl⟩, rfl⟩

end Breach

namespace Expression

variable {e : Expression} {hand : Hand} {b : Breach}

/-- The breach, as far as its words tell, is the exact reason for the first broken rule. -/
theorem exists_breach?_iff :
    (∃ c, e.breach? hand = some c ∧ c.detail = b.detail) ↔
      e.FirstBroken hand b.rule ∧ b.Accurate e hand := by
  constructor
  · rintro ⟨c, found, same⟩
    obtain ⟨r, first, checked⟩ := breach?_eq_some_iff.mp found
    obtain ⟨rfl, accurate⟩ := Breach.rule_and_accurate_of_check checked
    rw [← Breach.rule_eq_of_detail_eq same]
    exact ⟨first, accurate.of_detail_eq same⟩
  · rintro ⟨first, accurate⟩
    obtain ⟨c, checked, same⟩ := Breach.exists_check_of_accurate first.broken accurate
    exact ⟨c, breach?_eq_some_iff.mpr ⟨b.rule, first, checked⟩, same⟩

theorem reasons_validate (e : Expression) (hand : Hand) :
    (e.validate hand).reasons = ((e.breach? hand).map Breach.detail).toList := by
  unfold validate
  cases e.breach? hand with
  | none => rfl
  | some b => simp [Verdict.reject, b.detail_ne_empty]

/-- Whoever is refused is told one reason, and of all reasons there are it is the one that belongs
to the first broken rule and is exact. -/
theorem reasons_validate_eq_singleton_iff (e : Expression) (hand : Hand) :
    ((e.validate hand).valid = false ↔
      ∃ breach : Breach, (e.validate hand).reasons = [breach.detail]) ∧
    ∀ breach : Breach, (e.validate hand).reasons = [breach.detail] ↔
      e.FirstBroken hand breach.rule ∧ breach.Accurate e hand := by
  have told (breach : Breach) : (e.validate hand).reasons = [breach.detail] ↔
      ∃ c, e.breach? hand = some c ∧ c.detail = breach.detail := by
    rw [reasons_validate, Option.toList_eq_singleton_iff, Option.map_eq_some_iff]
  constructor
  · rw [← Bool.not_eq_true, validate_valid]
    simp only [told]
    cases e.breach? hand with
    | none => simp
    | some c => simp
  · intro breach
    rw [told, exists_breach?_iff]

example :
    (Expression.validate ⟨[⟨3, false⟩, ⟨3, false⟩], [.add]⟩
      (.ofFaces 0 [9, 3] [.add] [])).reasons = ["Number 9 must be used 1 more time(s)."] := by
  decide +kernel

end Expression

end NumberDuel
