import NumberDuel.Proofs.Search.Choice

/-!
# Walks are folds

Each depth-first walk works on one trail: a turn of its loop takes something out of the stock,
places it, goes on, and undoes both, and it cuts branches that cannot be completed. Hence the walk
leaves its lists as it found them, and its visitor is handed exactly the rows of the list of its
stage, in order, with what was placed before in front; the cuts skip only empty lists. So
`Space.walk` is a fold over `Space.choices`.
-/

namespace NumberDuel.Search

variable {τ α β σ : Type}

/-! ## Undoing -/

namespace Trail

variable {t : Trail τ α σ}

/-- A loop each of whose turns leaves the lists as it found them changes the state alone. -/
theorem foldl_eq_of_restores {turn : Trail τ α σ → β → Trail τ α σ} (f : σ → β → σ)
    {xs : List β} (restores : ∀ x ∈ xs, ∀ state, turn { t with state } x =
      { t with state := f state x }) :
    xs.foldl turn t = { t with state := xs.foldl f t.state } := by
  induction xs generalizing t with
  | nil => rfl
  | cons x xs ih =>
    rw [List.foldl_cons, List.foldl_cons, restores x List.mem_cons_self t.state]
    exact ih fun y hy => restores y (List.mem_cons_of_mem x hy)

theorem pop_push (x : α) (state : σ) :
    { (t.push x) with state }.pop = { t with state } := by
  simp [push, pop]

end Trail

/-! ## Orderings of the numbers -/

section Orderings

variable [BEq α] [LawfulBEq α] {stock : List (α × Nat)} {x : α}

/-- Putting an element back undoes taking it, if there was one to take. -/
theorem putBack_takeOne (keys : (stock.map Prod.fst).Nodup) (held : supply stock x ≠ 0) :
    putBack (takeOne stock x) x = stock := by
  rw [putBack, takeOne, List.map_map]
  refine (List.map_congr_left fun entry held' => ?_).trans (List.map_id stock)
  obtain ⟨y, n⟩ := entry
  cases hx : y == x with
  | false => simp [hx]
  | true =>
    obtain rfl := eq_of_beq hx
    rw [supply_of_mem keys held'] at held
    simp [Nat.sub_add_cancel (Nat.pos_of_ne_zero held)]

/-- The walk puts back every number it takes, so the stock and what is placed are as they were. -/
theorem walkOrderings_eq (visit : List α → σ → σ) (slots : Nat)
    (t : Trail (List (α × Nat)) α σ) (keys : (t.stock.map Prod.fst).Nodup) :
    walkOrderings visit slots t =
      { t with
        state := (orderings slots t.stock).foldl
          (fun s xs => visit (t.placed ++ xs) s) t.state } := by
  induction slots generalizing t with
  | zero => simp [walkOrderings, orderings, Trail.finish]
  | succ slots ih =>
    rw [walkOrderings, Trail.foldl_eq_of_restores fun state x =>
      if supply t.stock x = 0 then state
      else (orderings slots (takeOne t.stock x)).foldl
        (fun s xs => visit (t.placed ++ x :: xs) s) state]
    · rw [List.foldl_map, orderings, List.foldl_flatMap]
      congr 1
      -- the stock has each key once, so the count that is looked up is that of the entry
      refine List.foldl_ext _ _ _ fun state entry held => ?_
      obtain ⟨x, n⟩ := entry
      by_cases hn : n = 0 <;> simp [supply_of_mem keys held, hn, List.foldl_map]
    · intro x _ state
      split
      · rfl
      · rw [ih _ (by simpa [Trail.push, Trail.restock] using keys)]
        simp [Trail.push, Trail.pop, Trail.restock, putBack_takeOne keys ‹_›]

end Orderings

/-! ## The numbers that get a root -/

/-- A flag is tried if a root is missing, no flag if the places left can take all that are. -/
theorem turns_eq (missing places : Nat) :
    (List.range' (missing - places) (min 1 missing + 1 - (missing - places))).reverse =
      if missing = 0 then [0]
      else if missing ≤ places then [1, 0]
      else if missing = places + 1 then [1]
      else [] := by
  split_ifs
  · simp [*]
  · rw [Nat.sub_eq_zero_of_le ‹_›, Nat.min_eq_left (by omega)]
    rfl
  · simp [*]
  · have : min 1 missing + 1 - (missing - places) = 0 := by omega
    simp [this]

theorem walkRoots_eq (visit : List Bool → σ → σ) {required : Nat} (places : Nat)
    (t : Trail Unit Bool σ) (few : t.placed.count true ≤ required) :
    walkRoots visit required places t =
      { t with
        state := (rootVectors places (required - t.placed.count true)).foldl
          (fun s flags => visit (t.placed ++ flags) s) t.state } := by
  induction places generalizing t with
  | zero =>
    rw [walkRoots]
    split
    · simp [*, rootVectors, Trail.finish]
    · rw [rootVectors_eq_nil (by omega)]
      rfl
  | succ places ih =>
    rw [walkRoots]
    generalize hm : required - t.placed.count true = missing
    rw [Trail.foldl_eq_of_restores fun state roots =>
      (rootVectors places (missing - roots)).foldl
        (fun s flags => visit (t.placed ++ (0 < roots : Bool) :: flags) s) state]
    · rw [turns_eq]
      cases missing with
      | zero => simp [rootVectors, List.foldl_map]
      | succ missing =>
        rw [rootVectors, List.foldl_append, List.foldl_map, List.foldl_map,
          if_neg missing.succ_ne_zero]
        -- a flag that is not tried has no rows behind it
        split
        · simp
        rw [rootVectors_eq_nil (by omega : places < missing + 1)]
        split
        · simp
        · rw [rootVectors_eq_nil (by omega : places < missing)]
          rfl
    · intro roots turn state
      have bounds : roots ≤ 1 ∧ roots ≤ missing := by
        simp at turn
        omega
      have flagged : (t.placed ++ [(0 < roots : Bool)]).count true =
          t.placed.count true + roots := by
        rcases roots with _ | _ | _ <;> simp at bounds ⊢
      rw [ih _ (by rw [Trail.push, flagged]; omega), Trail.pop_push]
      simp only [Trail.push, flagged, ← Nat.sub_sub, hm, List.append_assoc, List.singleton_append]

/-! ## The fillings of the gaps -/

theorem fillings_eq_nil {gaps forced : Nat} {pool : List α} (h : gaps < forced) :
    fillings gaps forced pool = [] := by
  refine List.eq_nil_iff_forall_not_mem.mpr fun filling hf => ?_
  obtain ⟨len, count, -⟩ := mem_fillings.mp hf
  have := filling.countP_le_length (p := Option.isNone)
  omega

/-- The operators that a filling puts into the gaps. -/
def fill (filling : List (Option Operator)) : List Operator := filling.map (·.getD .multiply)

@[simp] theorem fill_nil : fill [] = [] := rfl

@[simp] theorem fill_cons_none (filling : List (Option Operator)) :
    fill (none :: filling) = .multiply :: fill filling := rfl

@[simp] theorem fill_cons_some (op : Operator) (filling : List (Option Operator)) :
    fill (some op :: filling) = op :: fill filling := rfl

@[simp] theorem length_fill (filling : List (Option Operator)) :
    (fill filling).length = filling.length := List.length_map _

theorem foldl_range_eq_foldl_picks (f : σ → α → List α → σ) (pool : List α) (state : σ) :
    (List.range pool.length).foldl (fun s i => pool[i]?.elim s (f s · (pool.eraseIdx i))) state =
      (picks pool).foldl (fun s pick => f s pick.1 pick.2) state := by
  induction pool generalizing f state with
  | nil => rfl
  | cons x pool ih =>
    simp only [List.length_cons, List.range_succ_eq_map, List.foldl_cons, List.foldl_map, picks]
    exact ih (fun s y rest => f s y (x :: rest)) _

/-- What restores the lists goes through all that can be taken out of the stock. -/
theorem Trail.foldl_tryAt {t : Trail (List α) α σ} {go : Trail (List α) α σ → Trail (List α) α σ}
    (f : Trail (List α) α σ → σ) (restores : ∀ t, go t = { t with state := f t }) :
    (List.range t.stock.length).foldl (fun t i => t.tryAt i go) t =
      { t with
        state := (picks t.stock).foldl
          (fun s pick => f ⟨pick.2, t.placed ++ [pick.1], s⟩) t.state } := by
  rw [← foldl_range_eq_foldl_picks fun s x rest => f ⟨rest, t.placed ++ [x], s⟩]
  refine foldl_eq_of_restores _ fun i hi state => ?_
  have lt := List.mem_range.mp hi
  rw [tryAt, List.getElem?_eq_getElem lt]
  simp [restores, restock, push, pop, List.insertIdx_eraseIdx_getElem lt]

theorem walkGaps_eq (visit : List Operator → σ → σ) (gaps forced : Nat)
    (t : Trail (List Operator) Operator σ) :
    walkGaps visit gaps forced t =
      { t with
        state := (fillings gaps forced t.stock).foldl
          (fun s filling => visit (t.placed ++ fill filling) s) t.state } := by
  induction gaps generalizing forced t with
  | zero => cases forced <;> simp [walkGaps, fillings, Trail.finish]
  | succ gaps ih =>
    rw [walkGaps.eq_def]
    dsimp only
    split
    · rw [fillings_eq_nil ‹_›]
      rfl
    rw [Trail.foldl_tryAt _ (ih forced)]
    cases forced with
    | zero => simp [fillings, List.foldl_flatMap, List.foldl_map]
    | succ forced =>
      dsimp only
      rw [ih, Trail.pop_push, fillings, List.foldl_append, List.foldl_map, List.foldl_flatMap]
      simp [Trail.push, List.foldl_map]

namespace Space

variable {s : Space}

/-- A space is walked if there is a number, room for the forced `×`, and cards for the rest. -/
theorem infeasible?_eq_none :
    s.infeasible? = none ↔
      s.numbers ≠ [] ∧ s.multiplies ≤ s.gaps ∧ s.gaps - s.multiplies ≤ s.pool.length := by
  simp only [infeasible?, List.isEmpty_iff]
  grind

/-- The cards of the pool are those at its places. -/
theorem fillings_pool :
    fillings s.gaps s.multiplies s.pool =
      (fillings s.gaps s.multiplies (List.finRange s.pool.length)).map
        (List.map (Option.map s.pool.get)) := by
  rw [← fillings_map, List.map_get_finRange]

theorem fill_map_get (filling : List (Option (Fin s.pool.length))) :
    fill (filling.map (Option.map s.pool.get)) =
      filling.map fun card => (card.map s.pool.get).getD .multiply := by
  simp [fill, Function.comp_def]

/-- The walk with its three stages as one fold over the orderings. -/
theorem walk_eq_foldl (feasible : s.infeasible? = none) (ordering : σ → σ)
    (visit : Expression → σ → σ) (state : σ) :
    s.walk ordering visit state =
      (orderings s.numbers.length (tally s.numbers)).foldl (fun state numbers =>
        (s.choicesWith numbers).foldl (fun state c => visit c.expression state) (ordering state))
        state := by
  simp only [walk, feasible, walkRoots_eq _ _ ⟨_, [], _⟩ (Nat.zero_le _), walkGaps_eq,
    List.nil_append, List.count_nil, Nat.sub_zero]
  rw [walkOrderings_eq _ _ _ (nodup_keys_tally s.numbers)]
  refine List.foldl_ext _ _ _ fun state numbers hn => ?_
  rw [choicesWith, List.foldl_flatMap, ← (mem_orderings_tally.mp hn).length_eq, fillings_pool]
  simp [List.foldl_map, fill_map_get, Choice.expression, Choice.operators]

/-- A map that commutes with both visitors commutes with the walk. -/
theorem map_walk {τ : Type} (f : σ → τ) {ordering : σ → σ} {visit : Expression → σ → σ}
    (ordering' : τ → τ) (visit' : Expression → τ → τ)
    (hordering : ∀ state, f (ordering state) = ordering' (f state))
    (hvisit : ∀ e state, f (visit e state) = visit' e (f state)) (state : σ) :
    f (s.walk ordering visit state) = s.walk ordering' visit' (f state) := by
  cases feasible : s.infeasible? with
  | some reason => simp only [walk, feasible]
  | none =>
    have choices (cs : List (Choice s)) (state : σ) :
        f (cs.foldl (fun state c => visit c.expression state) state) =
          cs.foldl (fun state c => visit' c.expression state) (f state) :=
      (List.foldl_hom f fun state c => (hvisit c.expression state).symm).symm
    rw [walk_eq_foldl feasible, walk_eq_foldl feasible]
    refine (List.foldl_hom f fun state numbers => ?_).symm
    rw [choices, hordering]

/-- A walk that takes no notice of the orderings is a fold over the choices. -/
theorem walk_id (visit : Expression → σ → σ) (state : σ) :
    s.walk id visit state =
      (if s.infeasible? = none then s.choices.map Choice.expression else []).foldl
        (fun state e => visit e state) state := by
  split
  · rw [walk_eq_foldl ‹_›, Space.choices, List.map_flatMap, List.foldl_flatMap]
    simp [List.foldl_map]
  · obtain ⟨reason, infeasible⟩ := Option.ne_none_iff_exists'.mp ‹_›
    simp only [walk, infeasible, List.foldl_nil]

/-- The arrangements are the expressions of the choices, if the space is walked at all. -/
theorem arrangements_eq :
    s.arrangements =
      if s.infeasible? = none then s.choices.map Choice.expression else [] := by
  have reversed (es found : List Expression) :
      es.foldl (fun found e => e :: found) found = es.reverse ++ found := by
    simp
  rw [arrangements, walk_id, reversed, List.append_nil, List.reverse_reverse]

/-- What a walk does to a part of its state that the orderings leave alone. -/
theorem proj_walk (s : Space) {τ : Type} (f : σ → τ) (ordering : σ → σ) (visit : Expression → σ → σ)
    (step : τ → Expression → τ) (hordering : ∀ state, f (ordering state) = f state)
    (hvisit : ∀ e state, f (visit e state) = step (f state) e) (state : σ) :
    f (s.walk ordering visit state) = s.arrangements.foldl step (f state) := by
  rw [map_walk f id (fun e state => step state e) hordering hvisit, walk_id, arrangements_eq]

end Space

end NumberDuel.Search
