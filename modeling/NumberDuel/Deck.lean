import NumberDuel.Card
import NumberDuel.Random.Draw

/-!
# The deck

Both hands are dealt from one deck: some copies of each number and the special cards of a round,
in random order. Cards are drawn from the top, and an empty deck is replaced by a fresh one.
A drawn card is never consumed.
-/

namespace NumberDuel

structure PileCard where
  face : Face
  consumed : Bool := false
  deriving DecidableEq, Repr

def PileCard.describe (card : PileCard) : String := card.face.describe card.consumed

/-- What a deck is made of, its random source, and its pile from the top down. -/
structure Deck where
  copiesPerValue : Int := 4
  multiplyCards : Int := 2
  rootCards : Int := 2
  random : Random.Twister
  pile : List PileCard := []

namespace Deck

/-- The faces of a full deck in their first order; a negative count means none. -/
def fullFaces (deck : Deck) : List Face :=
  CardValue.all.flatMap (fun v => List.replicate deck.copiesPerValue.toNat (.number v)) ++
    List.replicate deck.multiplyCards.toNat (.special .multiply) ++
    List.replicate deck.rootCards.toNat (.special .squareRoot)

def shuffle (deck : Deck) : Deck :=
  let (bottomUp, random) := deck.random.shuffle deck.pile.reverse
  { deck with pile := bottomUp.reverse, random := random }

def build (deck : Deck) : Deck :=
  { deck with pile := (deck.fullFaces.map fun face => { face := face : PileCard }).reverse }.shuffle

/-- The deck a card is drawn from: a fresh one when the pile is empty. -/
def ready (deck : Deck) : Deck := if deck.pile.isEmpty then deck.build else deck

/-- Draws the top card, unless even a fresh deck is empty. -/
def draw? (deck : Deck) : Option (Face × Deck) :=
  match deck.ready.pile with
  | [] => none
  | card :: rest => some (card.face, { deck.ready with pile := rest })

/-- A number at random, with no card of the pile. -/
def drawRandomNumber (deck : Deck) : CardValue × Deck :=
  let (i, random) := deck.random.below (maxCardValue + 1)
  (.ofInt i, { deck with random := random })

def drawRandomNumbers : (count : Nat) → Deck → List CardValue × Deck
  | 0, deck => ([], deck)
  | count + 1, deck =>
    let (value, deck) := deck.drawRandomNumber
    let (rest, deck) := drawRandomNumbers count deck
    (value :: rest, deck)

def countSpecial (deck : Deck) (mark : Special) : Nat :=
  deck.pile.countP (·.face == .special mark)

/-- The cards of the pile from the bottom up. -/
def bottomUp (deck : Deck) : List PileCard := deck.pile.reverse

def setCards (deck : Deck) (cards : List PileCard) : Deck := { deck with pile := cards.reverse }

/-- Marks the card at a place, counted from the bottom, as consumed. -/
def consume (deck : Deck) (place : Nat) : Deck :=
  deck.setCards (deck.bottomUp.modify place fun card => { card with consumed := true })

/-- Cards drawn in a row: the faces in drawing order, the deck behind them, and what stopped the
drawing early, if anything did. -/
structure Drawn where
  faces : List Face
  deck : Deck
  stopped : Option Error

def drawCards : (count : Nat) → Deck → Drawn
  | 0, deck => ⟨[], deck, none⟩
  | count + 1, deck =>
    match deck.draw? with
    | none => ⟨[], deck.ready, some .emptyDeck⟩
    | some (face, deck) =>
      let rest := drawCards count deck
      ⟨face :: rest.faces, rest.deck, rest.stopped⟩

def showsNumber (card : PileCard) : Bool := card.face.kind == .number

def drawFromPile (deck : Deck) : List Face × Deck × Bool :=
  let passed := deck.pile.takeWhile fun card => !showsNumber card
  match deck.pile.dropWhile fun card => !showsNumber card with
  | [] => (passed.map (·.face), { deck with pile := [] }, false)
  | card :: rest => (passed.map (·.face) ++ [card.face], { deck with pile := rest }, true)

/-- Draws down to and including the next number card, into a fresh deck if need be. Where a fresh
deck holds no number, no later one does. -/
def drawToNumber (deck : Deck) : Drawn :=
  let (faces, deck, found) := deck.drawFromPile
  if found then ⟨faces, deck, none⟩
  else
    let fresh := deck.build
    if fresh.pile.isEmpty then ⟨faces, fresh, some .emptyDeck⟩
    else
      let (more, deck, found) := fresh.drawFromPile
      ⟨faces ++ more, deck, if found then none else some .endlessDeal⟩

def drawNumbers : (count : Nat) → Deck → Drawn
  | 0, deck => ⟨[], deck, none⟩
  | count + 1, deck =>
    let first := deck.drawToNumber
    match first.stopped with
    | some _ => first
    | none =>
      let rest := drawNumbers count first.deck
      ⟨first.faces ++ rest.faces, rest.deck, rest.stopped⟩

/-- Draws `slots` cards, and then on until `numbers` of all cards drawn are numbers. -/
def drawSlots (deck : Deck) (slots numbers : Int) : Drawn :=
  let first := drawCards slots.toNat deck
  match first.stopped with
  | some _ => first
  | none =>
    let missing := (numbers - first.faces.countP (·.kind == .number)).toNat
    let rest := drawNumbers missing first.deck
    ⟨first.faces ++ rest.faces, rest.deck, rest.stopped⟩

end Deck

end NumberDuel
