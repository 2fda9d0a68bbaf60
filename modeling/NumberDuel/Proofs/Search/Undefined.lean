import NumberDuel.Proofs.Search.Soundness

/-!
# Candidates without a distance

A product that overflows, times zero, has no value, and a candidate without a value has no
distance: no comparison with it holds. Hence the search never takes such a candidate in place of
another, and never gives one up that it holds. What it plays is decided by the first candidate it
accepts: that one, if it has no distance, and else the first closest of those that have one.
-/

namespace NumberDuel.Search

/-! ## The closest of the candidates with a distance -/

def Candidate.isMeasured (c : Candidate) : Bool := !c.distance.isNaN

theorem Candidate.isMeasured_iff {c : Candidate} :
    c.isMeasured = true ↔ c.distance.isNaN = false := by
  rw [isMeasured, Bool.not_eq_true']

theorem Candidate.isMeasured_eq_false_iff {c : Candidate} :
    c.isMeasured = false ↔ c.distance.isNaN = true := by
  rw [isMeasured, Bool.not_eq_false']

theorem closer_of_isNaN {held found : Candidate}
    (h : found.distance.isNaN = true ∨ held.distance.isNaN = true) :
    closer (some held) found = some held :=
  if_neg (Double.not_lt_of_isNaN h)

/-- What is held without a distance is never given up. -/
theorem foldl_closer_undefined {c : Candidate} (h : c.distance.isNaN = true)
    (cs : List Candidate) : cs.foldl closer (some c) = some c := by
  induction cs with
  | nil => rfl
  | cons d cs ih => rw [List.foldl_cons, closer_of_isNaN (.inr h), ih]

/-- Candidates without a distance never replace one that has a distance. -/
theorem foldl_closer_measured {c : Candidate} (h : c.isMeasured = true) (cs : List Candidate) :
    cs.foldl closer (some c) = (cs.filter Candidate.isMeasured).foldl closer (some c) := by
  induction cs generalizing c with
  | nil => rfl
  | cons d cs ih =>
    cases hd : d.isMeasured with
    | false =>
      have undefined := Candidate.isMeasured_eq_false_iff.mp hd
      rw [List.foldl_cons, closer_of_isNaN (.inl undefined),
        List.filter_cons_of_neg (by simp [hd]), ih h]
    | true =>
      rw [List.filter_cons_of_pos hd, List.foldl_cons, List.foldl_cons, closer]
      split
      · exact ih hd
      · exact ih h

theorem foldl_closer_cons (c : Candidate) (cs : List Candidate) :
    (c :: cs).foldl closer none =
      if c.isMeasured then firstClosest ((c :: cs).filter Candidate.isMeasured) else some c := by
  have start : (c :: cs).foldl closer none = cs.foldl closer (some c) := rfl
  rw [start]
  split
  · next h =>
    have defined : ∀ d ∈ (c :: cs).filter Candidate.isMeasured, d.distance.isNaN = false :=
      fun d hd => Candidate.isMeasured_iff.mp (List.mem_filter.mp hd).2
    rw [foldl_closer_measured h, ← foldl_closer defined, List.filter_cons_of_pos h]
    rfl
  · next h =>
    exact foldl_closer_undefined (Candidate.isMeasured_eq_false_iff.mp (by simpa using h)) cs

/-- If some candidate has a distance, then the first closest of those that have one exists, and no
candidate is closer. -/
theorem exists_firstClosest_measured {cs : List Candidate} {d : Candidate} (mem : d ∈ cs)
    (defined : d.distance.isNaN = false) :
    ∃ c, firstClosest (cs.filter Candidate.isMeasured) = some c ∧ c.distance.isNaN = false ∧
      ∀ d ∈ cs, ¬ d.distance < c.distance := by
  have all : ∀ c ∈ cs.filter Candidate.isMeasured, c.distance.isNaN = false :=
    fun c hc => Candidate.isMeasured_iff.mp (List.mem_filter.mp hc).2
  have some : cs.filter Candidate.isMeasured ≠ [] :=
    List.ne_nil_of_mem (List.mem_filter.mpr ⟨mem, Candidate.isMeasured_iff.mpr defined⟩)
  obtain ⟨-, c, -, -, held, -⟩ := foldl_closer_split all some
  rw [foldl_closer all] at held
  have number := all c (List.mem_of_find?_eq_some held)
  refine ⟨c, held, number, fun d hd => ?_⟩
  cases hn : d.distance.isNaN with
  | true => exact Double.not_lt_of_isNaN (.inl hn)
  | false =>
    rw [Double.not_lt_iff hn number]
    exact firstClosest_le held (List.mem_filter.mpr ⟨hd, Candidate.isMeasured_iff.mpr hn⟩)

/-! ## What the search plays -/

section

variable {hand : Hand} {aim : Float}

theorem chosen_explore_cons {first : Candidate} {rest : List Candidate}
    (candidates : accepted .standard hand aim (Space.ofHand hand).arrangements = first :: rest) :
    (explore .standard hand aim).chosen =
      if first.isMeasured then firstClosest ((first :: rest).filter Candidate.isMeasured)
      else some first := by
  rw [chosen_explore_standard, best_explore, candidates, foldl_closer_cons]

/-- A first candidate without a distance is the one that the search plays. -/
theorem exists_undefined_chosen
    (first : (accepted .standard hand aim (Space.ofHand hand).arrangements).head?.any
      (·.distance.isNaN) = true) :
    ∃ c, (explore .standard hand aim).chosen = some c ∧ c.distance.isNaN = true := by
  cases split : accepted .standard hand aim (Space.ofHand hand).arrangements with
  | nil => simp [split] at first
  | cons c rest =>
    have undefined : c.distance.isNaN = true := by rw [split] at first; exact first
    have chosen := chosen_explore_cons split
    rw [Candidate.isMeasured_eq_false_iff.mpr undefined, if_neg Bool.false_ne_true] at chosen
    exact ⟨c, chosen, undefined⟩

/-- On at most 39 number cards every candidate has a distance. -/
theorem isNaN_distance_of_few {target : Int} (converts : doubleOfInt? target = some aim)
    (few : hand.numbers.length ≤ 39) {c : Candidate}
    (mem : c ∈ accepted .standard hand aim (Space.ofHand hand).arrangements) :
    c.distance.isNaN = false :=
  isNaN_distance_of_mem_accepted converts
    (fun _ _ legal evaluated => (legal.below few evaluated).isNaN) c mem

end

/-- If some candidate has a distance, then what the search plays has none if and only if the first
candidate it accepts has none, and then it plays that one. No candidate is closer than what it
plays, and on at most 39 number cards that has a distance. -/
theorem undefined_chosen_iff (hand : Hand) {target : Int} {aim : Float}
    (converts : doubleOfInt? target = some aim) {d : Candidate}
    (mem : d ∈ accepted .standard hand aim (Space.ofHand hand).arrangements)
    (defined : d.distance.isNaN = false) :
    let candidates := accepted .standard hand aim (Space.ofHand hand).arrangements
    ∃ outcome first c, search .standard hand target = .ok outcome ∧
      candidates.head? = some first ∧ outcome.chosen = some c ∧
      (c.distance.isNaN = true ↔ first.distance.isNaN = true) ∧
      (c.distance.isNaN = true → c = first) ∧
      (∀ d ∈ candidates, ¬ d.distance < c.distance) ∧
      (hand.numbers.length ≤ 39 → c.distance.isNaN = false) := by
  intro candidates
  obtain ⟨first, rest, split⟩ := List.exists_cons_of_ne_nil (List.ne_nil_of_mem mem)
  have found := search_eq_explore .standard hand converts
  have head : candidates.head? = some first := by
    change (accepted ..).head? = some first
    rw [split]
    rfl
  have chosen := chosen_explore_cons split
  cases measured : first.isMeasured with
  | false =>
    have undefined := Candidate.isMeasured_eq_false_iff.mp measured
    rw [measured, if_neg Bool.false_ne_true] at chosen
    refine ⟨_, first, first, found, head, chosen, Iff.rfl, fun _ => rfl, fun d _ => ?_,
      fun few => ?_⟩
    · exact Double.not_lt_of_isNaN (.inr undefined)
    · exact isNaN_distance_of_few converts few (split ▸ List.mem_cons_self)
  | true =>
    have number := Candidate.isMeasured_iff.mp measured
    rw [measured, if_pos rfl, ← split] at chosen
    obtain ⟨c, closest, defined', least⟩ := exists_firstClosest_measured mem defined
    refine ⟨_, first, c, found, head, chosen.trans closest, ?_, ?_, least, fun _ => defined'⟩
    · rw [defined', number]
    · exact fun undefined => absurd (undefined.symm.trans defined') (by decide)

/-- Eight minus two and two minus eight both have a distance to five. -/
theorem undefined_chosen_iff_eight_two :
    let hand : Hand := { numbers := [⟨0, 8⟩, ⟨1, 2⟩], operators := [⟨2, .subtract⟩] }
    let d : Candidate := ⟨.ofParts [2, 8] [false, false] [.subtract], -6, 11⟩
    doubleOfInt? 5 = some 5 ∧
      d ∈ accepted .standard hand 5 (Space.ofHand hand).arrangements ∧
      d.distance.isNaN = false ∧
      ∃ outcome c, search .standard hand 5 = .ok outcome ∧ outcome.chosen = some c ∧
        c.distance.isNaN = false ∧ ¬ d.distance < c.distance := by
  intro hand d
  have converts : doubleOfInt? 5 = some 5 := rfl
  have legal : Legal hand d.expression :=
    ⟨by decide +kernel, by decide +kernel, by decide +kernel, by decide +kernel⟩
  have mem : d ∈ accepted .standard hand 5 (Space.ofHand hand).arrangements :=
    mem_accepted_standard.mpr ⟨legal, by decide +kernel, by decide +kernel⟩
  have defined : d.distance.isNaN = false := by decide +kernel
  obtain ⟨outcome, first, c, found, -, chosen, -, -, least, few⟩ :=
    undefined_chosen_iff hand converts mem defined
  exact ⟨converts, mem, defined, outcome, c, found, chosen, few (by decide), least d mem⟩

/-- A product of 309 tens overflows, and times zero it has no value. Where the zero is the last
card held this is the first candidate, and the search plays it for a target of zero, which every
arrangement with the zero in another place hits. -/
theorem undefined_hides_hit :
    let hand : Hand :=
      .ofFaces 0 (List.replicate 309 10 ++ [0]) [] (List.replicate 309 .multiply)
    doubleOfInt? 0 = some 0 ∧
      (∃ d ∈ accepted .standard hand 0 (Space.ofHand hand).arrangements,
        d.distance.isNaN = false ∧ d.distance = 0) ∧
      ∃ outcome c, search .standard hand 0 = .ok outcome ∧ outcome.chosen = some c ∧
        c.distance.isNaN = true := by
  intro hand
  have converts : doubleOfInt? 0 = some 0 := rfl
  have feasible : (Space.ofHand hand).infeasible? = none := by decide +kernel
  have first : (accepted .standard hand 0 (Space.ofHand hand).arrangements).head?.any
      (·.distance.isNaN) = true := by
    rw [Space.arrangements_eq, if_pos feasible]
    decide +kernel
  obtain ⟨c, chosen, undefined⟩ := exists_undefined_chosen first
  let numbers : List CardValue := 0 :: List.replicate 309 10
  let e : Expression :=
    .ofParts (numbers.map CardValue.toFloat) (List.replicate 310 false)
      (List.replicate 309 .multiply)
  have legal : Legal hand e := by
    refine ⟨?_, by decide +kernel, by decide +kernel, ?_⟩
    · have held : hand.numberValues = List.replicate 309 10 ++ [0] := by decide +kernel
      rw [held, Expression.values_ofParts (by decide +kernel)]
      exact (List.perm_append_singleton 0 _).symm.map _
    · have none : e.connectives.filter (· != .multiply) = [] := by decide +kernel
      rw [none]
      exact List.nil_subperm
  have evaluated : e.evaluate = .ok 0 := by decide +kernel
  exact ⟨converts, ⟨_, legal.mem_accepted evaluated 0, by decide +kernel, by decide +kernel⟩, _, c,
    search_eq_explore .standard hand converts, chosen, undefined⟩

end NumberDuel.Search
