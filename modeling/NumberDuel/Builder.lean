import NumberDuel.Expression
import NumberDuel.Hand

/-!
# Building an expression card by card

A player picks cards of a hand in turn: a number, an operator or forced `×`, a number, and so on.
A root waits for the number that follows it. Each card is used once, and an operator is taken
only while a number is left to follow it. Each method checks first and then changes the builder
step by step; that a refused pick changes nothing is a theorem.
-/

namespace NumberDuel

/-- An expression in the making. The consumed cards are marked for every hand on the table. -/
structure Builder where
  hand : Option Hand := none
  expression : Expression := {}
  used : CardSet := {}
  pendingRoot : Option (Copy Special) := none
  consumed : CardSet := {}

inductive Refusal where
  | noCard
  | noHand
  | notHeld
  | alreadyUsed
  | operatorExpected
  | numberExpected
  | noNumberAfterOperator
  | multiplyBeforeNumber
  | noNumberAfterMultiply
  | rootAlreadyPending
  | rootOutOfTurn
  | noNumberForRoot
  deriving DecidableEq, Repr

def Refusal.message : Refusal → String
  | .noCard => "No card selected."
  | .noHand => "No hand has been dealt."
  | .notHeld => "That card is not in your hand."
  | .alreadyUsed => "That card has already been used."
  | .operatorExpected => "Pick an operator card now."
  | .numberExpected => "Pick a number card now."
  | .noNumberAfterOperator => "No numbers left to follow an operator. Submit when ready."
  | .multiplyBeforeNumber => "Place a number before using ×."
  | .noNumberAfterMultiply => "No numbers left, so × cannot be used."
  | .rootAlreadyPending => "A √ is already waiting for a number."
  | .rootOutOfTurn => "Use √ when it is time to pick a number."
  | .noNumberForRoot => "No numbers left, so √ cannot be used."

structure PickReport where
  accepted : Bool
  message : String
  deriving DecidableEq, Repr

namespace Builder

/-- Starts over: every card goes back, and the special cards of the hand are fresh again. -/
def reset (b : Builder) : Builder :=
  { b with
    expression := {}
    used := {}
    pendingRoot := none
    consumed :=
      match b.hand with
      | some hand => b.consumed.eraseAll hand.specials
      | none => b.consumed }

def setHand (b : Builder) (hand : Option Hand) : Builder := { b with hand := hand }.reset

def ofHand (hand : Hand) : Builder := ({} : Builder).setHand (some hand)

/-- Whether a card was picked since the last reset. -/
def isUsed {α : Type} (b : Builder) (card : Copy α) : Bool := b.used.has card

def hasUnusedNumbers (b : Builder) : Bool :=
  match b.hand with
  | some hand => hand.numbers.any fun card => !b.isUsed card
  | none => false

/-- All numbers are placed and the expression does not end on an operator. -/
def isFinished (b : Builder) : Bool :=
  !b.expression.isEmpty && !b.hasUnusedNumbers && !b.expression.expectsNumber

def specialsDone (b : Builder) : Bool :=
  match b.hand with
  | some hand => !b.expression.isEmpty && hand.specials.all b.consumed.has
  | none => false

/-- The expression is finished, but special cards are left. -/
def needsReminder (b : Builder) : Bool := b.isFinished && !b.specialsDone

def status (b : Builder) : String :=
  if !b.isFinished then ""
  else if !b.specialsDone then
    "Every √ and × card you were dealt must be used before submitting."
  else "Expression complete. Submit it when you are ready."

def refuse (b : Builder) (r : Refusal) : Builder × PickReport := (b, ⟨false, r.message⟩)

def accept (b : Builder) (message : String) : Builder × PickReport := (b, ⟨true, message⟩)

def markUsed {α : Type} (b : Builder) (card : Copy α) : Builder :=
  { b with used := b.used.insert card }

def consume (b : Builder) (card : Copy Special) : Builder :=
  { b with consumed := b.consumed.insert card }

def addNumber (b : Builder) (value : Float) (rooted : Bool) : Builder :=
  { b with expression := b.expression.addNumber value rooted }

def addConnective (b : Builder) (op : Operator) : Builder :=
  { b with expression := b.expression.addConnective op }

/-- The waiting root got its number. -/
def takeRoot (b : Builder) : Builder :=
  match b.pendingRoot with
  | some root => { (b.consume root).markUsed root with pendingRoot := none }
  | none => b

def playNumber (b : Builder) (card : Copy CardValue) : Builder × PickReport :=
  if !b.expression.expectsNumber then b.refuse .operatorExpected
  else
    let b := b.addNumber card.face.toFloat b.pendingRoot.isSome
    let b := b.markUsed card
    let b := b.takeRoot
    if !b.hasUnusedNumbers then b.accept b.status
    else b.accept "Pick an operator card."

def wantsNumber (b : Builder) : Bool := b.expression.isEmpty || b.expression.expectsNumber

def playOperator (b : Builder) (card : Copy Operator) : Builder × PickReport :=
  if b.wantsNumber then b.refuse .numberExpected
  else if !b.hasUnusedNumbers then b.refuse .noNumberAfterOperator
  else
    let b := b.addConnective card.face
    let b := b.markUsed card
    b.accept "Pick a number card."

def playMultiply (b : Builder) (card : Copy Special) : Builder × PickReport :=
  if b.wantsNumber then b.refuse .multiplyBeforeNumber
  else if !b.hasUnusedNumbers then b.refuse .noNumberAfterMultiply
  else
    let b := b.addConnective .multiply
    let b := b.consume card
    let b := b.markUsed card
    b.accept "Pick a number card."

/-- Lets a root wait for the next number. -/
def playRoot (b : Builder) (card : Copy Special) : Builder × PickReport :=
  if b.pendingRoot.isSome then b.refuse .rootAlreadyPending
  else if !b.expression.expectsNumber then b.refuse .rootOutOfTurn
  else if !b.hasUnusedNumbers then b.refuse .noNumberForRoot
  else
    let b := { b with pendingRoot := some card }
    b.accept "The next number you pick gets the √."

def play (b : Builder) (card : Card) : Builder × PickReport :=
  match card.face with
  | .number value => b.playNumber ⟨card.serial, value⟩
  | .operator op => b.playOperator ⟨card.serial, op⟩
  | .special .multiply => b.playMultiply ⟨card.serial, .multiply⟩
  | .special .squareRoot => b.playRoot ⟨card.serial, .squareRoot⟩

/-- Plays a card, or nothing, if it can be played at all. -/
def pick (b : Builder) (card : Option Card) : Builder × PickReport :=
  match card, b.hand with
  | none, _ => b.refuse .noCard
  | some _, none => b.refuse .noHand
  | some card, some hand =>
    if !hand.holds card then b.refuse .notHeld
    else if b.isUsed card then b.refuse .alreadyUsed
    else b.play card

def pickAll (b : Builder) (cards : List Card) : Builder :=
  cards.foldl (fun b card => (b.pick (some card)).1) b

end Builder

end NumberDuel
