import NumberDuel.Proofs.Deck.Drawing

/-!
# No card is lost

A deck is built anew on demand, and by itself when a card is drawn from an empty pile. Whatever the
order of the calls, the cards drawn since the latest build and the pile are one full deck, so a
pile that is drawn to its end has given every card once. A draw finds a card unless a full deck has
none.
-/

namespace NumberDuel.Deck

/-! ## A full deck -/

def copies (deck : Deck) : Face → Nat
  | .number _ => deck.copiesPerValue.toNat
  | .operator _ => 0
  | .special .multiply => deck.multiplyCards.toNat
  | .special .squareRoot => deck.rootCards.toNat

theorem count_fullFaces (deck : Deck) (face : Face) :
    deck.fullFaces.count face = deck.copies face := by
  rw [List.count]
  cases face with
  | number value =>
    have once : CardValue.all.countP (fun v => Face.number v == .number value) = 1 := by
      revert value
      decide
    rw [countP_fullFaces, once]
    simp [copies]
  | operator op =>
    have none : CardValue.all.countP (fun v => Face.number v == .operator op) = 0 := by simp
    rw [countP_fullFaces, none]
    simp [copies]
  | special mark =>
    rw [countP_fullFaces_special]
    cases mark <;> rfl

theorem fullFaces_ne_nil {deck : Deck} (some_card : 0 < deck.copiesPerValue ∨
    0 < deck.multiplyCards ∨ 0 < deck.rootCards) : deck.fullFaces ≠ [] := by
  intro empty
  have none (face : Face) : deck.copies face = 0 := by
    rw [← count_fullFaces, empty, List.count_nil]
  have numbers := none (.number 0)
  have multiplies := none (.special .multiply)
  have roots := none (.special .squareRoot)
  simp only [copies] at numbers multiplies roots
  omega

/-! ## Calls -/

inductive Call where
  | build
  | draw

/-- What happens to a deck: it is built, or a card is drawn. -/
inductive Happening where
  | built
  | drawn (face : Face)
  deriving DecidableEq, Repr

/-- What happens in one call, and the deck after it. An empty pile is built anew before a card is
drawn; the call fails where even this brings no card. -/
def call (deck : Deck) : Call → Option (List Happening × Deck)
  | .build => some ([.built], deck.build)
  | .draw =>
    deck.draw?.map fun (face, rest) =>
      (if deck.pile.isEmpty then [.built, .drawn face] else [.drawn face], rest)

def run (deck : Deck) : List Call → Option (List Happening × Deck)
  | [] => some ([], deck)
  | c :: calls => do
    let (first, deck) ← deck.call c
    let (more, deck) ← deck.run calls
    return (first ++ more, deck)

def sinceBuild (past : List Happening) : List Face :=
  past.foldl (fun faces happening =>
    match happening with
    | .built => []
    | .drawn face => faces ++ [face]) []

@[simp] theorem sinceBuild_built (past : List Happening) : sinceBuild (past ++ [.built]) = [] := by
  simp [sinceBuild]

@[simp] theorem sinceBuild_drawn (past : List Happening) (face : Face) :
    sinceBuild (past ++ [.drawn face]) = sinceBuild past ++ [face] := by
  simp [sinceBuild]

/-! ## The invariant -/

/-- The cards drawn since the latest build, if there was one, are what the pile lacks. -/
structure Whole (faces : List Face) (past : List Happening) (deck : Deck) : Prop where
  full : deck.fullFaces = faces
  split : .built ∈ past → (sinceBuild past ++ deck.pile.map (·.face)).Perm faces

variable {deck rest : Deck} {faces : List Face} {past : List Happening} {face : Face}

theorem Whole.build (h : Whole faces past deck) : Whole faces (past ++ [.built]) deck.build := by
  refine ⟨h.full, fun _ => ?_⟩
  have shuffled := (isShuffle_build deck).map (·.face)
  rw [List.map_map, Function.comp_def, List.map_id'] at shuffled
  rw [sinceBuild_built, List.nil_append, ← h.full]
  exact shuffled

/-- A card leaves the pile for those that are drawn. -/
theorem Whole.draw {card : PileCard} {after : List PileCard} (h : Whole faces past deck)
    (pile : deck.pile = card :: after) :
    Whole faces (past ++ [.drawn card.face]) { deck with pile := after } := by
  refine ⟨h.full, fun built => ?_⟩
  have before : .built ∈ past := by simpa using built
  have split := h.split before
  rw [pile, List.map_cons] at split
  rw [sinceBuild_drawn, List.append_assoc]
  exact split

/-- A call on a deck that has cards succeeds, and builds the deck if it had no pile. -/
theorem Whole.call (h : Whole faces past deck) (nonempty : faces ≠ []) (c : Call) :
    ∃ steps rest, deck.call c = some (steps, rest) ∧ Whole faces (past ++ steps) rest ∧
      (deck.pile = [] → .built ∈ steps) := by
  cases c with
  | build => exact ⟨_, _, rfl, h.build, fun _ => List.mem_singleton_self _⟩
  | draw =>
    cases pile : deck.pile with
    | cons card after =>
      refine ⟨[.drawn card.face], { deck with pile := after }, ?_, h.draw pile, nofun⟩
      simp [Deck.call, draw?_of_pile pile, pile]
    | nil =>
      have fresh := h.build
      have some_card : deck.build.pile ≠ [] := build_pile_ne_nil (h.full ▸ nonempty)
      obtain ⟨card, after, top⟩ := List.exists_cons_of_ne_nil some_card
      refine ⟨[.built, .drawn card.face], { deck.build with pile := after }, ?_, ?_,
        fun _ => List.mem_cons_self⟩
      · simp [Deck.call, draw?, ready, pile, top]
      · simpa using fresh.draw top

theorem Whole.run (h : Whole faces past deck) (nonempty : faces ≠ []) (calls : List Call) :
    ∃ steps rest, deck.run calls = some (steps, rest) ∧ Whole faces (past ++ steps) rest ∧
      (deck.pile = [] → calls ≠ [] → .built ∈ steps) := by
  induction calls generalizing deck past with
  | nil => exact ⟨[], deck, rfl, by simpa using h, fun _ none => absurd rfl none⟩
  | cons c calls ih =>
    obtain ⟨first, next, called, whole, built⟩ := h.call nonempty c
    obtain ⟨more, rest, ran, whole', -⟩ := ih whole
    refine ⟨first ++ more, rest, ?_, ?_, fun empty _ => List.mem_append_left _ (built empty)⟩
    · simp [Deck.run, called, ran]
    · rwa [← List.append_assoc]

/-- As long as a full deck has a card, no build and no draw fails, and after every run of them the
cards drawn since the latest build, an automatic one included, are with the pile one full deck. So
they are all of its cards, in some order, where the pile is at its end. A new deck, which has no
pile yet, is built by the first call. -/
theorem whole_of_run (deck : Deck) (some_card : 0 < deck.copiesPerValue ∨
    0 < deck.multiplyCards ∨ 0 < deck.rootCards) (calls : List Call) :
    ∃ steps rest, deck.run calls = some (steps, rest) ∧
      (deck.pile = [] → calls ≠ [] → .built ∈ steps) ∧
      (.built ∈ steps →
        (∀ face, (sinceBuild steps ++ rest.pile.map (·.face)).count face = deck.copies face) ∧
        (rest.pile = [] → (sinceBuild steps).Perm deck.fullFaces)) := by
  have start : Whole deck.fullFaces [] deck := ⟨rfl, nofun⟩
  obtain ⟨steps, rest, ran, whole, built⟩ := start.run (fullFaces_ne_nil some_card) calls
  rw [List.nil_append] at whole
  refine ⟨steps, rest, ran, built, fun latest => ⟨fun face => ?_, fun empty => ?_⟩⟩
  · rw [(whole.split latest).count_eq, count_fullFaces]
  · have split := whole.split latest
    rwa [empty, List.map_nil, List.append_nil] at split

/-- Thirteen draws from a new deck of twelve cards: the last one builds it a second time. -/
theorem whole_of_run_twelve :
    let deck : Deck :=
      { copiesPerValue := 1, multiplyCards := 1, rootCards := 0, random := .ofSeed 7 }
    (0 < deck.copiesPerValue ∨ 0 < deck.multiplyCards ∨ 0 < deck.rootCards) ∧
      ∃ steps rest, deck.run (List.replicate 13 .draw) = some (steps, rest) ∧
        .built ∈ steps ∧
        (sinceBuild steps ++ rest.pile.map (·.face)).count (.number 3) = 1 ∧
        (sinceBuild steps ++ rest.pile.map (·.face)).count (.special .multiply) = 1 := by
  intro deck
  have some_card : 0 < deck.copiesPerValue ∨ 0 < deck.multiplyCards ∨ 0 < deck.rootCards :=
    .inl (by decide)
  obtain ⟨steps, rest, ran, first, whole⟩ :=
    whole_of_run deck some_card (List.replicate 13 .draw)
  have built := first rfl (by decide)
  obtain ⟨counts, -⟩ := whole built
  exact ⟨some_card, steps, rest, ran, built, counts _, counts _⟩

end NumberDuel.Deck
