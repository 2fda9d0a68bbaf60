import Mathlib.Data.List.FinRange
import Mathlib.Data.List.Induction
import Mathlib.Data.List.Lex
import Mathlib.Data.List.Perm.Subperm
import Mathlib.Data.List.ReduceOption
import NumberDuel.Search.Space

/-!
# The choices behind an arrangement

An arrangement is chosen in three stages: an ordering of the numbers, the numbers that get a root,
and the filling of the gaps. `orderings`, `rootVectors` and `fillings` list the choices of each
stage. For each list there are two statements: what is in it, and that it is strictly increasing
in a lexicographic order; together they determine the list. `Space.choices` joins the stages.
-/

namespace NumberDuel.Search

variable {α β : Type}

/-! ## Orderings of the numbers -/

section Orderings

variable [BEq α]

def orderings : (slots : Nat) → List (α × Nat) → List (List α)
  | 0, _ => [[]]
  | slots + 1, stock =>
    stock.flatMap fun (x, n) =>
      if n = 0 then [] else (orderings slots (takeOne stock x)).map (x :: ·)

@[simp] theorem map_fst_takeOne (stock : List (α × Nat)) (x : α) :
    (takeOne stock x).map Prod.fst = stock.map Prod.fst := by
  simp only [takeOne, List.map_map]
  refine List.map_congr_left fun (y, n) _ => ?_
  simp only [Function.comp_apply]
  split <;> rfl

/-- The orderings come in the lexicographic order of the stock. -/
theorem pairwise_orderings {before : α → α → Prop} {slots : Nat} {stock : List (α × Nat)}
    (keys : (stock.map Prod.fst).Pairwise before) :
    (orderings slots stock).Pairwise (List.Lex before) := by
  induction slots generalizing stock with
  | zero => simp [orderings]
  | succ slots ih =>
    rw [orderings, List.pairwise_flatMap]
    constructor
    · rintro ⟨x, n⟩ -
      dsimp only
      split
      · exact .nil
      · rw [List.pairwise_map]
        exact (ih (by simpa using keys)).imp .cons
    · refine (List.pairwise_map.mp keys).imp ?_
      rintro ⟨x, n⟩ ⟨y, m⟩ hxy a ha b hb
      dsimp only at ha hb
      split at ha
      · cases ha
      split at hb
      · cases hb
      obtain ⟨_, _, rfl⟩ := List.mem_map.mp ha
      obtain ⟨_, _, rfl⟩ := List.mem_map.mp hb
      exact .rel hxy

@[simp] theorem map_fst_tally (xs : List α) : (tally xs).map Prod.fst = xs.eraseDups := by
  simp [tally, Function.comp_def]

variable [LawfulBEq α]

theorem supply_takeOne (stock : List (α × Nat)) (x y : α) :
    supply (takeOne stock x) y = supply stock y - if x == y then 1 else 0 := by
  induction stock with
  | nil => simp [supply, takeOne]
  | cons entry stock ih =>
    obtain ⟨z, n⟩ := entry
    change (List.lookup y ((if z == x then (z, n - 1) else (z, n)) :: takeOne stock x)).getD 0 = _
    cases hy : y == z with
    | true =>
      obtain rfl := eq_of_beq hy
      rw [BEq.comm (a := x)]
      cases hx : y == x <;> simp [supply]
    | false =>
      rw [supply] at ih
      cases hx : z == x <;> simp [supply, List.lookup_cons, hy, ih]

theorem supply_of_mem {stock : List (α × Nat)} {x : α} {n : Nat}
    (keys : (stock.map Prod.fst).Nodup) (held : (x, n) ∈ stock) : supply stock x = n := by
  induction stock with
  | nil => cases held
  | cons entry stock ih =>
    obtain ⟨y, m⟩ := entry
    rw [List.map_cons, List.nodup_cons] at keys
    rcases List.mem_cons.mp held with eq | held
    · obtain ⟨rfl, rfl⟩ := Prod.mk.inj eq
      simp [supply]
    · have hne : x ≠ y := fun eq => keys.1 (List.mem_map.mpr ⟨(x, n), held, eq⟩)
      rw [supply, List.lookup_cons, beq_eq_false_iff_ne.mpr hne]
      exact ih keys.2 held

theorem supply_pos_iff {stock : List (α × Nat)} (keys : (stock.map Prod.fst).Nodup) (x : α) :
    0 < supply stock x ↔ ∃ n, n ≠ 0 ∧ (x, n) ∈ stock := by
  constructor
  · intro pos
    cases found : stock.lookup x with
    | none => simp [supply, found] at pos
    | some n =>
      obtain ⟨before, after, rfl, -⟩ := List.lookup_eq_some_iff.mp found
      exact ⟨n, by simpa [supply, found, Nat.pos_iff_ne_zero] using pos, by simp⟩
  · rintro ⟨n, hn, held⟩
    rw [supply_of_mem keys held]
    exact Nat.pos_of_ne_zero hn

/-- The orderings from a stock are the rows of the right length that it can supply. -/
theorem mem_orderings {slots : Nat} {stock : List (α × Nat)} {xs : List α}
    (keys : (stock.map Prod.fst).Nodup) :
    xs ∈ orderings slots stock ↔ xs.length = slots ∧ ∀ x, xs.count x ≤ supply stock x := by
  induction slots generalizing stock xs with
  | zero => simp +contextual [orderings]
  | succ slots ih =>
    cases xs with
    | nil => simp [orderings, List.mem_flatMap]
    | cons y ys =>
      have stage : y :: ys ∈ orderings (slots + 1) stock ↔
          0 < supply stock y ∧ ys ∈ orderings slots (takeOne stock y) := by
        rw [supply_pos_iff keys]
        simp only [orderings, List.mem_flatMap, Prod.exists]
        constructor
        · rintro ⟨x, n, held, placed⟩
          split at placed
          · cases placed
          · obtain ⟨_, rest, eq⟩ := List.mem_map.mp placed
            obtain ⟨rfl, rfl⟩ := List.cons.inj eq
            exact ⟨⟨n, ‹_›, held⟩, rest⟩
        · rintro ⟨⟨n, hn, held⟩, rest⟩
          exact ⟨y, n, held, by simpa [hn] using rest⟩
      rw [stage, ih (by simpa using keys), List.length_cons, Nat.succ_inj]
      simp only [supply_takeOne, List.count_cons]
      constructor
      · rintro ⟨held, len, rest⟩
        refine ⟨len, fun x => ?_⟩
        have := rest x
        cases hx : y == x with
        | true => obtain rfl := eq_of_beq hx; simp at this ⊢; omega
        | false => simpa [hx] using this
      · rintro ⟨len, rest⟩
        have held := rest y
        simp only [BEq.rfl, if_true] at held
        refine ⟨by omega, len, fun x => ?_⟩
        have := rest x
        omega

/-- Distinct elements come in the order in which they first appear. -/
theorem pairwise_eraseDups (xs : List α) :
    xs.eraseDups.Pairwise fun x y => xs.idxOf x < xs.idxOf y := by
  induction xs using List.reverseRecOn with
  | nil => simp
  | append_singleton xs x ih =>
    have kept : xs.eraseDups.Pairwise fun y z => (xs ++ [x]).idxOf y < (xs ++ [x]).idxOf z := by
      refine ih.imp_of_mem fun hy hz lt => ?_
      rw [List.mem_eraseDups] at hy hz
      simpa [List.idxOf_append, hy, hz] using lt
    rw [List.eraseDups_append]
    by_cases hx : x ∈ xs
    · simpa [List.removeAll, hx] using kept
    · have single : [x].removeAll xs = [x] := by simp [List.removeAll, hx]
      rw [single, List.pairwise_append]
      refine ⟨kept, by simp [List.eraseDups_cons], fun y hy z hz => ?_⟩
      rw [List.mem_eraseDups] at hy hz
      obtain rfl := List.mem_singleton.mp hz
      have := List.idxOf_lt_length_of_mem hy
      simp [List.idxOf_append, hy, hx]
      omega

theorem nodup_keys_tally (xs : List α) : ((tally xs).map Prod.fst).Nodup := by
  rw [map_fst_tally]
  exact (pairwise_eraseDups xs).imp fun lt eq => by simp [eq] at lt

theorem supply_tally (xs : List α) (x : α) : supply (tally xs) x = xs.count x := by
  have lookup (keys : List α) : List.lookup x (keys.map fun y => (y, xs.count y)) =
      if x ∈ keys then some (xs.count x) else none := by
    induction keys with
    | nil => rfl
    | cons y keys ih =>
      cases hx : x == y with
      | true => obtain rfl := eq_of_beq hx; simp
      | false =>
        have hne : x ≠ y := fun h => by simp [h] at hx
        simp [List.lookup_cons, hx, hne, ih]
  simp only [supply, tally, lookup, List.mem_eraseDups]
  split
  · rfl
  · exact (List.count_eq_zero.mpr ‹_›).symm

/-- The orderings of a row are its rearrangements. -/
theorem mem_orderings_tally {xs ys : List α} :
    ys ∈ orderings xs.length (tally xs) ↔ ys.Perm xs := by
  rw [mem_orderings (nodup_keys_tally xs)]
  simp only [supply_tally]
  constructor
  · rintro ⟨len, le⟩
    exact (List.subperm_ext_iff.mpr fun x _ => le x).perm_of_length_le len.ge
  · exact fun perm => ⟨perm.length_eq, fun x => (perm.count_eq x).le⟩

end Orderings

/-! ## The numbers that get a root -/

def rootVectors : (places roots : Nat) → List (List Bool)
  | 0, 0 => [[]]
  | 0, _ + 1 => []
  | places + 1, 0 => (rootVectors places 0).map (false :: ·)
  | places + 1, roots + 1 =>
    (rootVectors places roots).map (true :: ·) ++
      (rootVectors places (roots + 1)).map (false :: ·)

theorem mem_rootVectors {places roots : Nat} {flags : List Bool} :
    flags ∈ rootVectors places roots ↔ flags.length = places ∧ flags.count true = roots := by
  fun_induction rootVectors places roots generalizing flags with
  | case1 => simp +contextual
  | case2 => simp +contextual
  | case3 places ih =>
    rcases flags with _ | ⟨_ | _, flags⟩ <;> simp [ih]
  | case4 places roots ih₁ ih₂ =>
    rcases flags with _ | ⟨_ | _, flags⟩ <;> simp [ih₁, ih₂]

theorem rootVectors_eq_nil {places roots : Nat} (h : places < roots) :
    rootVectors places roots = [] := by
  refine List.eq_nil_iff_forall_not_mem.mpr fun flags hf => ?_
  obtain ⟨len, count⟩ := mem_rootVectors.mp hf
  have := flags.count_le_length (a := true)
  omega

/-- A root comes before no root. -/
theorem pairwise_rootVectors (places roots : Nat) :
    (rootVectors places roots).Pairwise (List.Lex (· > ·)) := by
  have cons (flag : Bool) {vectors : List (List Bool)}
      (h : vectors.Pairwise (List.Lex (· > ·))) :
      (vectors.map (flag :: ·)).Pairwise (List.Lex (· > ·)) :=
    List.pairwise_map.mpr (h.imp .cons)
  fun_induction rootVectors places roots with
  | case1 => exact List.pairwise_singleton ..
  | case2 => exact .nil
  | case3 places ih => exact cons false ih
  | case4 places roots ih₁ ih₂ =>
    refine List.pairwise_append.mpr ⟨cons true ih₁, cons false ih₂, ?_⟩
    intro a ha b hb
    obtain ⟨_, _, rfl⟩ := List.mem_map.mp ha
    obtain ⟨_, _, rfl⟩ := List.mem_map.mp hb
    exact .rel (by decide)

/-! ## The fillings of the gaps -/

def picks : List α → List (α × List α)
  | [] => []
  | x :: xs => (x, xs) :: (picks xs).map fun (y, rest) => (y, x :: rest)

theorem map_fst_picks (pool : List α) : (picks pool).map Prod.fst = pool := by
  induction pool with
  | nil => rfl
  | cons x pool ih => simpa [picks, Function.comp_def] using ih

theorem picks_map (f : α → β) (pool : List α) :
    picks (pool.map f) = (picks pool).map fun (x, rest) => (f x, rest.map f) := by
  induction pool with
  | nil => rfl
  | cons x pool ih => simp [picks, ih, Function.comp_def]

theorem perm_of_mem_picks {pool rest : List α} {x : α} (h : (x, rest) ∈ picks pool) :
    pool.Perm (x :: rest) := by
  induction pool generalizing rest with
  | nil => cases h
  | cons y pool ih =>
    simp only [picks, List.mem_cons, List.mem_map, Prod.mk.injEq, Prod.exists] at h
    obtain ⟨rfl, rfl⟩ | ⟨x', rest', picked, rfl, rfl⟩ := h
    · exact .refl _
    · exact ((ih picked).cons y).trans (.swap ..)

theorem sublist_of_mem_picks {pool rest : List α} {x : α} (h : (x, rest) ∈ picks pool) :
    rest.Sublist pool := by
  induction pool generalizing rest with
  | nil => cases h
  | cons y pool ih =>
    simp only [picks, List.mem_cons, List.mem_map, Prod.mk.injEq, Prod.exists] at h
    obtain ⟨rfl, rfl⟩ | ⟨x', rest', picked, rfl, rfl⟩ := h
    · exact List.sublist_cons_self ..
    · exact (ih picked).cons_cons y

theorem exists_mem_picks {pool : List α} {x : α} (h : x ∈ pool) :
    ∃ rest, (x, rest) ∈ picks pool := by
  rw [← map_fst_picks pool] at h
  obtain ⟨⟨_, rest⟩, picked, rfl⟩ := List.mem_map.mp h
  exact ⟨rest, picked⟩

/-- Every way to fill the next `gaps` gaps with exactly `forced` forced `×`, and otherwise cards
of the pool, no card twice. A gap without a card has a forced `×`. -/
def fillings : (gaps forced : Nat) → List α → List (List (Option α))
  | 0, 0, _ => [[]]
  | 0, _ + 1, _ => []
  | gaps + 1, 0, pool =>
    (picks pool).flatMap fun (card, rest) => (fillings gaps 0 rest).map (some card :: ·)
  | gaps + 1, forced + 1, pool =>
    (fillings gaps forced pool).map (none :: ·) ++
      (picks pool).flatMap fun (card, rest) =>
        (fillings gaps (forced + 1) rest).map (some card :: ·)

theorem fillings_map (f : α → β) (gaps forced : Nat) (pool : List α) :
    fillings gaps forced (pool.map f) =
      (fillings gaps forced pool).map (List.map (Option.map f)) := by
  induction gaps generalizing forced pool with
  | zero => cases forced <;> rfl
  | succ gaps ih =>
    cases forced <;>
      simp [fillings, picks_map, ih, List.flatMap_map, List.map_flatMap, Function.comp_def]

theorem cons_subperm_iff {pool xs : List α} {x : α} :
    (x :: xs).Subperm pool ↔ ∃ rest, (x, rest) ∈ picks pool ∧ xs.Subperm rest := by
  constructor
  · intro h
    obtain ⟨rest, picked⟩ := exists_mem_picks (h.subset List.mem_cons_self)
    refine ⟨rest, picked, ?_⟩
    rwa [(perm_of_mem_picks picked).subperm_left, List.subperm_cons] at h
  · rintro ⟨rest, picked, h⟩
    rwa [(perm_of_mem_picks picked).subperm_left, List.subperm_cons]

theorem cons_some_mem_fillings {gaps forced : Nat} {pool : List α} {x : α}
    {filling : List (Option α)} :
    some x :: filling ∈ fillings (gaps + 1) forced pool ↔
      ∃ rest, (x, rest) ∈ picks pool ∧ filling ∈ fillings gaps forced rest := by
  cases forced <;> simp [fillings]

theorem cons_none_mem_fillings {gaps forced : Nat} {pool : List α}
    {filling : List (Option α)} :
    none :: filling ∈ fillings (gaps + 1) forced pool ↔
      ∃ left, forced = left + 1 ∧ filling ∈ fillings gaps left pool := by
  cases forced <;> simp [fillings]

/-- A filling has a forced `×` or a card in every gap, and no card twice. -/
theorem mem_fillings {gaps forced : Nat} {pool : List α} {filling : List (Option α)} :
    filling ∈ fillings gaps forced pool ↔
      filling.length = gaps ∧ filling.countP Option.isNone = forced ∧
        filling.reduceOption.Subperm pool := by
  induction gaps generalizing forced pool filling with
  | zero => cases forced <;> simp +contextual [fillings, List.nil_subperm]
  | succ gaps ih =>
    rcases filling with _ | ⟨_ | x, filling⟩
    · cases forced <;> simp [fillings]
    · rw [cons_none_mem_fillings]
      simp only [ih, List.length_cons, Nat.succ_inj, List.reduceOption_cons_of_none]
      constructor
      · rintro ⟨left, rfl, len, count, held⟩
        exact ⟨len, by simp [count], held⟩
      · rintro ⟨len, count, held⟩
        exact ⟨filling.countP Option.isNone, by simp [← count], len, rfl, held⟩
    · rw [cons_some_mem_fillings, List.reduceOption_cons_of_some, cons_subperm_iff]
      simp only [ih, List.length_cons, Nat.succ_inj]
      constructor
      · rintro ⟨rest, picked, len, count, held⟩
        exact ⟨len, by simp [count], rest, picked, held⟩
      · rintro ⟨len, count, rest, picked, held⟩
        exact ⟨rest, picked, len, by simpa using count, held⟩

/-- A forced `×` comes before the cards, and the cards come in the order of the pool. -/
theorem pairwise_fillings {before : α → α → Prop} {gaps forced : Nat} {pool : List α}
    (sorted : pool.Pairwise before) :
    (fillings gaps forced pool).Pairwise (List.Lex (Option.lt before)) := by
  induction gaps generalizing forced pool with
  | zero => cases forced <;> simp [fillings]
  | succ gaps ih =>
    have cards (forced : Nat) : ((picks pool).flatMap fun (card, rest) =>
        (fillings gaps forced rest).map (some card :: ·)).Pairwise
          (List.Lex (Option.lt before)) := by
      rw [List.pairwise_flatMap]
      constructor
      · rintro ⟨card, rest⟩ picked
        exact List.pairwise_map.mpr ((ih (sorted.sublist (sublist_of_mem_picks picked))).imp .cons)
      · rw [← map_fst_picks pool, List.pairwise_map] at sorted
        refine sorted.imp fun lt a ha b hb => ?_
        obtain ⟨_, _, rfl⟩ := List.mem_map.mp ha
        obtain ⟨_, _, rfl⟩ := List.mem_map.mp hb
        exact .rel lt
    cases forced with
    | zero => exact cards 0
    | succ forced =>
      refine List.pairwise_append.mpr
        ⟨List.pairwise_map.mpr ((ih sorted).imp .cons), cards _, fun a ha b hb => ?_⟩
      obtain ⟨_, _, rfl⟩ := List.mem_map.mp ha
      obtain ⟨⟨card, rest⟩, _, inner⟩ := List.mem_flatMap.mp hb
      obtain ⟨_, _, rfl⟩ := List.mem_map.mp inner
      exact .rel trivial

/-! ## The choices of a space -/

/-- One way to arrange a hand: an ordering of its numbers, a root flag for each of them, and for
each gap a forced `×` (none) or the operator card at a place of the pool. -/
structure Choice (s : Space) where
  ordering : List CardValue
  roots : List Bool
  filling : List (Option (Fin s.pool.length))

namespace Choice

variable {s : Space}

def operators (c : Choice s) : List Operator :=
  c.filling.map fun card => (card.map s.pool.get).getD .multiply

def expression (c : Choice s) : Expression :=
  .ofParts (c.ordering.map CardValue.toFloat) c.roots c.operators

/-- All numbers in some order, exactly the roots and the forced `×` that are required, and in
every other gap an operator card, no card twice. -/
structure Legal (c : Choice s) : Prop where
  ordering : c.ordering.Perm s.numbers
  places : c.roots.length = s.numbers.length
  roots : c.roots.count true = s.roots
  gaps : c.filling.length = s.gaps
  multiplies : c.filling.countP Option.isNone = s.multiplies
  cards : c.filling.reduceOption.Nodup

/-- The lexicographic order of choices: first by the numbers, ranked by where they first appear,
then by the roots, a root before no root, then by the gaps, a forced `×` before the cards in held
order. -/
def Before (a b : Choice s) : Prop :=
  List.Lex (fun x y => s.numbers.idxOf x < s.numbers.idxOf y) a.ordering b.ordering ∨
    a.ordering = b.ordering ∧
      (List.Lex (· > ·) a.roots b.roots ∨
        a.roots = b.roots ∧ List.Lex (Option.lt (· < ·)) a.filling b.filling)

end Choice

def Space.choicesWith (s : Space) (ordering : List CardValue) : List (Choice s) :=
  (rootVectors s.numbers.length s.roots).flatMap fun roots =>
    (fillings s.gaps s.multiplies (List.finRange s.pool.length)).map fun filling =>
      ⟨ordering, roots, filling⟩

def Space.choices (s : Space) : List (Choice s) :=
  (orderings s.numbers.length (tally s.numbers)).flatMap s.choicesWith

variable {s : Space}

theorem Space.mem_choices {c : Choice s} : c ∈ s.choices ↔ c.Legal := by
  have cards {filling : List (Option (Fin s.pool.length))} :
      filling.reduceOption.Subperm (List.finRange s.pool.length) ↔
        filling.reduceOption.Nodup := by
    constructor
    · rintro ⟨held, perm, sub⟩
      exact perm.nodup_iff.mp ((List.nodup_finRange _).sublist sub)
    · exact fun h => List.subperm_of_subset h fun x _ => List.mem_finRange x
  obtain ⟨ordering, roots, filling⟩ := c
  simp only [choices, choicesWith, List.mem_flatMap, List.mem_map, Choice.mk.injEq]
  constructor
  · rintro ⟨_, ho, _, hr, _, hf, rfl, rfl, rfl⟩
    obtain ⟨gaps, multiplies, held⟩ := mem_fillings.mp hf
    obtain ⟨places, count⟩ := mem_rootVectors.mp hr
    exact ⟨mem_orderings_tally.mp ho, places, count, gaps, multiplies, cards.mp held⟩
  · intro h
    exact ⟨_, mem_orderings_tally.mpr h.ordering, _, mem_rootVectors.mpr ⟨h.places, h.roots⟩, _,
      mem_fillings.mpr ⟨h.gaps, h.multiplies, cards.mpr h.cards⟩, rfl, rfl, rfl⟩

theorem Space.pairwise_choices (s : Space) : s.choices.Pairwise Choice.Before := by
  rw [choices, List.pairwise_flatMap]
  constructor
  · intro ordering _
    rw [choicesWith, List.pairwise_flatMap]
    constructor
    · intro roots _
      refine List.pairwise_map.mpr ((pairwise_fillings (List.pairwise_lt_finRange _)).imp ?_)
      exact fun lt => .inr ⟨rfl, .inr ⟨rfl, lt⟩⟩
    · refine (pairwise_rootVectors _ _).imp fun lt a ha b hb => ?_
      obtain ⟨_, _, rfl⟩ := List.mem_map.mp ha
      obtain ⟨_, _, rfl⟩ := List.mem_map.mp hb
      exact .inr ⟨rfl, .inl lt⟩
  · have keys := pairwise_eraseDups s.numbers
    rw [← map_fst_tally] at keys
    refine (pairwise_orderings keys).imp fun lt a ha b hb => ?_
    obtain ⟨_, _, inner⟩ := List.mem_flatMap.mp ha
    obtain ⟨_, _, rfl⟩ := List.mem_map.mp inner
    obtain ⟨_, _, inner⟩ := List.mem_flatMap.mp hb
    obtain ⟨_, _, rfl⟩ := List.mem_map.mp inner
    exact .inl lt

instance asymm_optionLt {before : α → α → Prop} [Std.Asymm before] :
    Std.Asymm (Option.lt before) where
  asymm a b h h' := by
    cases a <;> cases b <;> simp only [Option.lt] at h h'
    exact Std.Asymm.asymm _ _ h h'

theorem not_lex_of_lex {before : α → α → Prop} [Std.Asymm before] {xs ys : List α}
    (h : List.Lex before xs ys) : ¬ List.Lex before ys xs :=
  Std.Asymm.asymm _ _ h

theorem not_lex_self {before : α → α → Prop} [Std.Asymm before] (xs : List α) :
    ¬ List.Lex before xs xs :=
  fun h => not_lex_of_lex h h

theorem Choice.Before.asymm {a b : Choice s} (h : a.Before b) : ¬ b.Before a := by
  have : Std.Asymm fun x y => s.numbers.idxOf x < s.numbers.idxOf y := ⟨fun _ _ => Nat.lt_asymm⟩
  rcases h with h | ⟨ordering, h | ⟨roots, h⟩⟩ <;>
    rintro (h' | ⟨ordering', h' | ⟨roots', h'⟩⟩)
  · exact not_lex_of_lex h h'
  · exact not_lex_self _ (ordering' ▸ h)
  · exact not_lex_self _ (ordering' ▸ h)
  · exact not_lex_self _ (ordering ▸ h')
  · exact not_lex_of_lex h h'
  · exact not_lex_self _ (roots' ▸ h)
  · exact not_lex_self _ (ordering ▸ h')
  · exact not_lex_self _ (roots ▸ h')
  · exact not_lex_of_lex h h'

/-- The legal choices in their order are one list only. -/
theorem Space.eq_choices_iff {cs : List (Choice s)} :
    cs = s.choices ↔ (∀ c, c ∈ cs ↔ c.Legal) ∧ cs.Pairwise Choice.Before := by
  constructor
  · rintro rfl
    exact ⟨fun c => mem_choices, s.pairwise_choices⟩
  · rintro ⟨mem, sorted⟩
    have nodup {cs : List (Choice s)} (sorted : cs.Pairwise Choice.Before) : cs.Nodup :=
      sorted.imp fun h eq => by subst eq; exact h.asymm h
    have perm : cs.Perm s.choices := by
      refine (List.perm_ext_iff_of_nodup (nodup sorted) (nodup s.pairwise_choices)).mpr ?_
      exact fun c => (mem c).trans mem_choices.symm
    exact perm.eq_of_pairwise (fun a b _ _ h h' => absurd h' h.asymm) sorted s.pairwise_choices

end NumberDuel.Search
