import NumberDuel.Proofs.Double.Order
import NumberDuel.Proofs.Search.Walk
import NumberDuel.Search.Basic

/-!
# The search as a selection from an enumeration

The search refines a specification in two steps: list the arrangements, then keep the first of
those closest to the target. `traced` is the search with a record of what the referee was asked
about; the record shows which list the search goes through, and in which order.
-/

namespace NumberDuel.Search

/-! ## The closest candidate -/

/-- The first candidate that no other is closer than. -/
def firstClosest (cs : List Candidate) : Option Candidate :=
  cs.find? fun c => cs.all fun d => c.distance ≤ d.distance

theorem firstClosest_le {cs : List Candidate} {c d : Candidate} (h : firstClosest cs = some c)
    (mem : d ∈ cs) : c.distance ≤ d.distance := by
  have least := List.find?_some h
  simp only [List.all_eq_true, decide_eq_true_eq] at least
  exact least d mem

theorem firstClosest_append_cons {earlier later : List Candidate} {c : Candidate}
    (defined : ∀ d ∈ earlier ++ c :: later, d.distance.isNaN = false)
    (before : ∀ d ∈ earlier, c.distance < d.distance)
    (after : ∀ d ∈ later, c.distance ≤ d.distance) :
    firstClosest (earlier ++ c :: later) = some c := by
  have hc := defined c (by simp)
  refine List.find?_eq_some_iff_append.mpr ⟨?_, earlier, later, rfl, fun d hd => ?_⟩
  · simp only [List.all_eq_true, decide_eq_true_eq, List.mem_append, List.mem_cons]
    rintro d (hd | rfl | hd)
    · have hd' := defined d (by simp [hd])
      have lt := before d hd
      rw [Double.lt_iff_rank hc hd'] at lt
      exact (Double.le_iff_rank hc hd').mpr lt.le
    · exact (Double.le_iff_rank hc hc).mpr le_rfl
    · exact after d hd
  · -- a candidate before `c` is not as close as `c`
    have hd' := defined d (by simp [hd])
    simp only [Bool.not_eq_true', List.all_eq_false, decide_eq_true_eq]
    refine ⟨c, by simp, fun le => ?_⟩
    exact (Double.not_lt_iff hc hd').mpr le (before d hd)

/-- The candidate held after a list is the first closest one: those before it are farther, those
after it not closer. -/
theorem foldl_closer_split {cs : List Candidate} (defined : ∀ d ∈ cs, d.distance.isNaN = false)
    (hne : cs ≠ []) :
    ∃ earlier c later, cs = earlier ++ c :: later ∧ cs.foldl closer none = some c ∧
      (∀ d ∈ earlier, c.distance < d.distance) ∧ ∀ d ∈ later, c.distance ≤ d.distance := by
  induction cs using List.reverseRecOn with
  | nil => exact absurd rfl hne
  | append_singleton cs x ih =>
    have hx := defined x (by simp)
    have hcs : ∀ d ∈ cs, d.distance.isNaN = false := fun d hd => defined d (by simp [hd])
    rcases eq_or_ne cs [] with rfl | hne
    · exact ⟨[], x, [], by simp [closer]⟩
    obtain ⟨earlier, c, later, rfl, held, before, after⟩ := ih hcs hne
    have hc := hcs c (by simp)
    rw [List.foldl_append, held, List.foldl_cons, List.foldl_nil, closer]
    split
    · -- the new one is closer than the held one, and so than all before it
      next lt =>
      refine ⟨earlier ++ c :: later, x, [], rfl, rfl, fun d hd => ?_, by simp⟩
      have hd' := hcs d hd
      simp only [Double.lt_iff_rank hx hc, Double.lt_iff_rank hx hd'] at lt ⊢
      refine lt.trans_le ?_
      rcases List.mem_append.mp hd with hd | hd
      · exact ((Double.lt_iff_rank hc hd').mp (before d hd)).le
      · rcases List.mem_cons.mp hd with rfl | hd
        · exact le_rfl
        · exact (Double.le_iff_rank hc hd').mp (after d hd)
    · next lt =>
      refine ⟨earlier, c, later ++ [x], by simp, rfl, before, fun d hd => ?_⟩
      rcases List.mem_append.mp hd with hd | hd
      · exact after d hd
      · obtain rfl := List.mem_singleton.mp hd
        exact (Double.not_lt_iff hx hc).mp lt

/-- Keeping the closer one from left to right finds the first closest candidate. -/
theorem foldl_closer {cs : List Candidate} (defined : ∀ c ∈ cs, c.distance.isNaN = false) :
    cs.foldl closer none = firstClosest cs := by
  rcases eq_or_ne cs [] with rfl | hne
  · rfl
  · obtain ⟨earlier, c, later, rfl, held, before, after⟩ := foldl_closer_split defined hne
    rw [held, firstClosest_append_cons defined before after]

/-! ## What the search keeps -/

def judge (referee : Referee) (hand : Hand) (aim : Float) (e : Expression) : Option Candidate :=
  if (referee.validate e hand).valid then
    match referee.evaluate e with
    | .ok value => some ⟨e, value, (value - aim).abs⟩
    | .error _ => none
  else none

def accepted (referee : Referee) (hand : Hand) (aim : Float) (es : List Expression) :
    List Candidate :=
  es.filterMap (judge referee hand aim)

theorem foldl_closer_filterMap {α : Type} (f : α → Option Candidate) (xs : List α)
    (held : Option Candidate) :
    (xs.filterMap f).foldl closer held =
      xs.foldl (fun held x => (f x).elim held (closer held)) held := by
  rw [List.foldl_filterMap]
  refine List.foldl_ext _ _ _ fun held x _ => ?_
  cases f x <;> rfl

section

variable (referee : Referee) (hand : Hand) (aim : Float)

theorem best_consider (e : Expression) (o : Outcome) :
    (consider referee hand aim e o).best =
      (judge referee hand aim e).elim o.best (closer o.best) := by
  unfold consider judge
  dsimp only
  split
  · simp_all
  · split <;> simp_all [accept]

theorem prioritizes_consider (e : Expression) (o : Outcome) :
    (consider referee hand aim e o).prioritizes = o.prioritizes := by
  unfold consider
  dsimp only
  split
  · rfl
  · split <;> rfl

/-- What is held of the candidates with the special cards, after one more arrangement. -/
def holdSpecial (prioritizes : Bool) (held : Option Candidate) (e : Expression) :
    Option Candidate :=
  ((judge referee hand aim e).filter fun c => prioritizes && usesSpecials c.expression hand).elim
    held (closer held)

theorem prioritized_consider (e : Expression) (o : Outcome) :
    (consider referee hand aim e o).prioritized =
      holdSpecial referee hand aim o.prioritizes o.prioritized e := by
  unfold consider holdSpecial judge
  dsimp only
  split
  · simp_all
  · split <;> simp_all [accept, Option.filter]
    split <;> rfl

theorem best_explore :
    (explore referee hand aim).best =
      (accepted referee hand aim (Space.ofHand hand).arrangements).foldl closer none := by
  rw [explore, (Space.ofHand hand).proj_walk Outcome.best countOrdering (consider referee hand aim)
    (fun best e => (judge referee hand aim e).elim best (closer best)) (fun _ => rfl)
    (best_consider referee hand aim), accepted, foldl_closer_filterMap]

theorem prioritizes_explore :
    (explore referee hand aim).prioritizes =
      decide (0 < hand.rootCount ∨ 0 < hand.multiplyCount) := by
  rw [explore, (Space.ofHand hand).proj_walk Outcome.prioritizes countOrdering
    (consider referee hand aim) (fun prioritizes _ => prioritizes) (fun _ => rfl)
    (prioritizes_consider referee hand aim)]
  simp

theorem prioritized_explore :
    (explore referee hand aim).prioritized =
      ((accepted referee hand aim (Space.ofHand hand).arrangements).filter fun c =>
        decide (0 < hand.rootCount ∨ 0 < hand.multiplyCount) &&
          usesSpecials c.expression hand).foldl closer none := by
  -- `prioritizes` steers the step and stays as it is, so it walks along
  have walked := (Space.ofHand hand).proj_walk (fun o : Outcome => (o.prioritizes, o.prioritized))
    countOrdering (consider referee hand aim)
    (fun (p, held) e => (p, holdSpecial referee hand aim p held e)) (fun _ => rfl)
    (fun e o => by rw [prioritizes_consider, prioritized_consider])
    { prioritizes := decide (0 < hand.rootCount ∨ 0 < hand.multiplyCount) }
  have fixed (p : Bool) (held : Option Candidate) (es : List Expression) :
      es.foldl (fun (q, held) e => (q, holdSpecial referee hand aim q held e)) (p, held) =
        (p, es.foldl (holdSpecial referee hand aim p) held) := by
    induction es generalizing held with
    | nil => rfl
    | cons e es ih => exact ih _
  rw [fixed] at walked
  refine (congrArg Prod.snd walked).trans ?_
  rw [accepted, List.filter_filterMap, foldl_closer_filterMap]
  rfl

/-! ## The search with a record -/

/-- The search, and what it asked the referee about, in order. -/
def traced : Outcome × List Expression :=
  (Space.ofHand hand).walk (fun (o, asked) => (countOrdering o, asked))
    (fun e (o, asked) => (consider referee hand aim e o, asked ++ [e]))
    ({ prioritizes := decide (0 < hand.rootCount ∨ 0 < hand.multiplyCount) }, [])

theorem traced_fst : (traced referee hand aim).1 = explore referee hand aim :=
  Space.map_walk Prod.fst countOrdering (consider referee hand aim) (fun _ => rfl)
    (fun _ _ => rfl) _

theorem traced_snd : (traced referee hand aim).2 = (Space.ofHand hand).arrangements := by
  have walked := (Space.ofHand hand).proj_walk Prod.snd
    (fun ((o, asked) : Outcome × List Expression) => (countOrdering o, asked))
    (fun e (o, asked) => (consider referee hand aim e o, asked ++ [e]))
    (fun asked e => asked ++ [e]) (fun _ => rfl) (fun _ _ => rfl)
  rw [traced, walked, List.foldl_append_eq_append, List.nil_append, ← List.flatMap_def,
    List.flatMap_singleton']

end

theorem search_eq_explore (referee : Referee) (hand : Hand) {target : Int} {aim : Float}
    (converts : doubleOfInt? target = some aim) :
    search referee hand target = .ok (explore referee hand aim) := by
  rw [search, converts]

/-- The search asks about the legal choices in their lexicographic order, and keeps the first of
the closest ones, over all and over those with the special cards. -/
theorem search_refines_enumeration (referee : Referee) (hand : Hand) {target : Int} {aim : Float}
    (converts : doubleOfInt? target = some aim) :
    let s := Space.ofHand hand
    let feasible := s.numbers ≠ [] ∧ s.multiplies ≤ s.numbers.length - 1 ∧
      s.numbers.length - 1 - s.multiplies ≤ s.pool.length
    let asked := if feasible then s.choices.map Choice.expression else []
    let candidates := accepted referee hand aim asked
    let special := candidates.filter fun c => usesSpecials c.expression hand
    (∀ cs : List (Choice s),
      cs = s.choices ↔ (∀ c, c ∈ cs ↔ c.Legal) ∧ cs.Pairwise Choice.Before) ∧
    ∃ outcome, search referee hand target = .ok outcome ∧
      traced referee hand aim = (outcome, asked) ∧
      outcome.best = candidates.foldl closer none ∧
      outcome.prioritized =
        (if 0 < hand.rootCount ∨ 0 < hand.multiplyCount then special.foldl closer none
        else none) ∧
      ((∀ c ∈ candidates, c.distance.isNaN = false) →
        outcome.best = firstClosest candidates ∧
        outcome.prioritized =
          if 0 < hand.rootCount ∨ 0 < hand.multiplyCount then firstClosest special else none) := by
  intro s feasible asked candidates special
  have listed : s.arrangements = asked := by
    rw [Space.arrangements_eq]
    exact if_congr Space.infeasible?_eq_none rfl rfl
  have best := best_explore referee hand aim
  have prioritized : (explore referee hand aim).prioritized =
      if 0 < hand.rootCount ∨ 0 < hand.multiplyCount then special.foldl closer none else none := by
    rw [prioritized_explore, listed]
    split
    · next demands => simp [demands, special, candidates]
    · next demands => simp [demands]
  rw [listed] at best
  refine ⟨fun cs => Space.eq_choices_iff, explore referee hand aim,
    search_eq_explore referee hand converts, ?_, best, prioritized, fun defined => ⟨?_, ?_⟩⟩
  · rw [← listed]
    exact Prod.ext (traced_fst ..) (traced_snd ..)
  · rw [best, foldl_closer defined]
  · rw [prioritized, foldl_closer fun c hc => defined c (List.mem_of_mem_filter hc)]

/-- Both orders of two numbers are tried, and the one that reaches the target is kept. -/
theorem search_refines_enumeration_three_five :
    let hand : Hand := { numbers := [⟨0, 3⟩, ⟨1, 5⟩], operators := [⟨2, .subtract⟩] }
    doubleOfInt? 2 = some 2 ∧ ∃ outcome, search .standard hand 2 = .ok outcome ∧
      (traced .standard hand 2).2 =
        [.ofParts [3, 5] [false, false] [.subtract], .ofParts [5, 3] [false, false] [.subtract]] ∧
      outcome.best.map (·.expression) = some (.ofParts [5, 3] [false, false] [.subtract]) := by
  intro hand
  have converts : doubleOfInt? 2 = some 2 := rfl
  obtain ⟨-, outcome, found, trace, -, -, first⟩ :=
    search_refines_enumeration .standard hand converts
  obtain ⟨best, -⟩ := first (by decide +kernel)
  refine ⟨converts, outcome, found, ?_, ?_⟩
  · rw [congrArg Prod.snd trace]
    dsimp only
    decide +kernel
  · rw [best]
    decide +kernel

end NumberDuel.Search
