import NumberDuel.Game.Round
import NumberDuel.Proofs.Double.Order
import NumberDuel.Proofs.Validation.Rules

/-!
# What a judgement says

A submission that keeps the rules and has a defined value is as far from the target as this value;
every other submission is infinitely far. So a judgement never fails for a target among the
doubles, and its distance is never undefined.
-/

namespace NumberDuel

variable {hand : Hand} {e : Expression} {target : Int} {aim value : Float} {j : Judgement}

theorem judge_of_value (converts : doubleOfInt? target = some aim) (kept : e.breach? hand = none)
    (evaluated : e.evaluate = .ok value) (defined : value.isNaN = false) :
    judge e hand target = .ok ⟨{ success := true, value := value }, (value - aim).abs⟩ := by
  have valid := Expression.validate_valid.mpr kept
  simp only [judge, valid, evaluated, distanceTo, defined, converts]
  rfl

/-- The two ways in which a judgement comes out. -/
theorem judge_cases (e : Expression) (hand : Hand) (target : Int) :
    (∃ value, e.breach? hand = none ∧ e.evaluate = .ok value ∧ value.isNaN = false) ∨
      ∃ j, judge e hand target = .ok j ∧ j.distance = infiniteDistance := by
  by_cases valid : (e.validate hand).valid = true
  · cases evaluated : e.evaluate with
    | error failure =>
      right
      simp [judge, valid, evaluated]
    | ok value =>
      cases defined : value.isNaN with
      | false => exact .inl ⟨value, Expression.validate_valid.mp valid, rfl, defined⟩
      | true =>
        right
        refine ⟨⟨{ value := value }, infiniteDistance⟩, ?_, rfl⟩
        simp only [judge, valid, evaluated, distanceTo, defined]
        rfl
  · right
    simp [judge, valid]

theorem isNaN_infiniteDistance : infiniteDistance.isNaN = false := rfl

theorem isNaN_distance_of_judge (converts : doubleOfInt? target = some aim)
    (judged : judge e hand target = .ok j) : j.distance.isNaN = false := by
  rcases judge_cases e hand target with ⟨value, kept, evaluated, defined⟩ | ⟨j', judged', far⟩
  · rw [judge_of_value converts kept evaluated defined] at judged
    obtain rfl := Except.ok.inj judged
    exact Double.isNaN_distance defined (Double.isFinite_of_doubleOfInt? converts)
  · obtain rfl := Except.ok.inj (judged'.symm.trans judged)
    rw [far, isNaN_infiniteDistance]

theorem exists_judge (e : Expression) (hand : Hand) (converts : doubleOfInt? target = some aim) :
    ∃ j, judge e hand target = .ok j := by
  rcases judge_cases e hand target with ⟨value, kept, evaluated, defined⟩ | ⟨j, judged, -⟩
  · exact ⟨_, judge_of_value converts kept evaluated defined⟩
  · exact ⟨j, judged⟩

/-- Nothing is farther than a refused submission. -/
theorem le_infiniteDistance {x : Float} (h : x.isNaN = false) : x ≤ infiniteDistance := by
  rw [Double.le_iff_rank h isNaN_infiniteDistance]
  have infinite : infiniteDistance.toModel.unpack = .infinity .positive := rfl
  have defined : x.toModel.unpack.isNaN = false := h
  rw [Double.rank, Double.rank, infinite]
  generalize x.toModel.unpack = f at defined ⊢
  rcases f with ⟨_ | _⟩ | _ | _ | ⟨_ | _, m, e, hm⟩
  case notANumber => cases defined
  all_goals simp [Double.rankOf, Prod.Lex.toLex_le_toLex]

/-- A submission at a finite distance beats a refused one. -/
theorem decideWinner_infiniteDistance {x : Float} (defined : x.isNaN = false)
    (finite : x.isInf = false) : decideWinner x infiniteDistance = .player := by
  have infinite : infiniteDistance.toModel.unpack = .infinity .positive := rfl
  have isInf : infiniteDistance.isInf = true := rfl
  have apart : x.toModel.unpack.beq (.infinity .positive) = false ∧
      Double.rankOf x.toModel.unpack < Double.rankOf (.infinity .positive) := by
    change x.toModel.unpack.isNaN = false at defined
    change x.toModel.unpack.isInf = false at finite
    generalize x.toModel.unpack = f at defined finite
    rcases f with ⟨_ | _⟩ | _ | _ | ⟨_ | _, m, e, hm⟩
    case notANumber => cases defined
    case infinity.positive | infinity.negative => cases finite
    all_goals exact ⟨rfl, by simp [Double.rankOf, Prod.Lex.toLex_lt_toLex]⟩
  have beq : (x == infiniteDistance) = false := by
    change x.toModel.unpack.beq infiniteDistance.toModel.unpack = false
    rw [infinite]
    exact apart.1
  have lt : x < infiniteDistance := by
    rw [Double.lt_iff_rank defined isNaN_infiniteDistance, Double.rank, Double.rank, infinite]
    exact apart.2
  simp [decideWinner, isClose, finite, isInf, beq, lt]

end NumberDuel
