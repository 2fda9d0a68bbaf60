import NumberDuel.Page.Session

/-!
# The play tab

The player bets, builds an expression from the cards of the hand, and submits it against the other
side's strategy. The tab shows one of three states: the match is over, a round can be dealt, or a
round is open.
-/

namespace NumberDuel.Page

def tableMetrics (g : Game) : List Element :=
  [.metric "Your credits" ("$" ++ toString g.playerCredits),
    .metric "AI credits" ("$" ++ toString g.aiCredits),
    .metric "Round" (toString (g.roundNumber + if g.dealt then 1 else 0))]

def overElement (g : Game) : Element :=
  match g.winner with
  | some .player => .text .success "🏆 You won the match!"
  | some .ai => .text .error "💀 The AI won the match"
  | _ => .text .info "The match ended level"

def overPart (s : Session) (g : Game) (pressed : Option Button) : Part :=
  let elements := [overElement g, .button .newMatch "New match" false]
  if pressed = some .newMatch then ⟨s.begin.1, elements, .again⟩ else ⟨s, elements, .next⟩

def betBounds (g : Game) : Bounds :=
  { least := g.config.minBet
    most := max g.config.minBet (min g.config.maxBet g.playerCredits) }

def firstAdvice : String := "Pick a number card."

def Play.deal (p : Play) (bet : Int) : Play × Except Error Unit :=
  match p.game.deal none (some bet) with
  | (game, .error e) => ({ p with game := game }, .error e)
  | (game, .ok ()) =>
    ({ p with
        game := game
        builder := p.builder.setHand (some game.playerHand)
        lastResult := none
        message := firstAdvice }, .ok ())

/-- What is wrong with an end of a slider, if anything: an input has to be able to hold it. -/
def sliderEndError? (which : SliderEnd) (bound : Int) : Option Error :=
  if bound < Bounds.ofInputs.least then some (.sliderEndTooLow which bound)
  else if Bounds.ofInputs.most < bound then some (.sliderEndTooHigh which bound)
  else none

/-- What is wrong with the bounds of a slider, if anything: it needs room between them. -/
def sliderError? (b : Bounds) : Option Error :=
  if b.least = b.most then some (.sliderBoundsEqual b.least)
  else sliderEndError? .least b.least <|> sliderEndError? .most b.most

def bettingPart (s : Session) (p : Play) (pressed : Option Button) : Part :=
  let bounds := betBounds p.game
  match sliderError? bounds with
  | some e => ⟨s, [], .stop e⟩
  | none =>
    let bet := s.inputs.betWithin bounds
    let elements := [.integer .bet bet (some bounds), .button .deal "Deal round" false]
    if pressed = some .deal then
      match p.deal bet with
      | (p, .ok ()) => ⟨{ s with play := some p }, elements, .again⟩
      | (p, .error e) => ⟨{ s with play := some p }, elements, .stop e⟩
    else ⟨s, elements, .next⟩

def cardLabel (face : Face) : String :=
  match face with
  | .special mark => "[" ++ mark.symbol ++ "]"
  | _ => face.text

def cardButtons (p : Play) : List Element :=
  p.game.playerHand.cards.zipIdx.map fun (card, place) =>
    .button (.card p.game.roundNumber place) (cardLabel card.face) (p.builder.isUsed card)

def Play.pick (p : Play) (place : Nat) : Play :=
  let (builder, report) := p.builder.pick p.game.playerHand.cards[place]?
  { p with builder := builder, message := report.message }

def Play.reset (p : Play) : Play := { p with builder := p.builder.reset, message := firstAdvice }

def Play.submit (p : Play) : Play × Except Error Unit :=
  let aiHand := p.game.aiHand.text
  match p.game.play p.ai p.game.aiHand with
  | (game, .error e) => ({ p with game := game }, .error e)
  | (game, .ok theirs) =>
    match game.score p.builder.expression theirs with
    | (game, .error e) => ({ p with game := game }, .error e)
    | (game, .ok result) =>
      ({ p with
          game := game.settle result
          lastResult := some (result, aiHand)
          message := "" }, .ok ())

def roundHead (p : Play) : List Element :=
  [.text .markdown ("### Target: " ++ (p.game.target.map toString).getD "None" ++ "  |  Bet: $" ++
      toString p.game.bet),
    .text .code (if p.builder.expression.text.isEmpty then " " else p.builder.expression.text)] ++
    if p.message.isEmpty then [] else [.text .caption p.message]

/-- The place of the card whose button was pressed, if the button is still there. -/
def pressedPlace? (p : Play) (pressed : Option Button) : Option Nat :=
  match pressed with
  | some (.card round place) =>
    if round = p.game.roundNumber ∧ place < p.game.playerHand.cards.length then some place
    else none
  | _ => none

/-- The tab of an open round. The page starts over where a pressed button stands. -/
def roundPart (s : Session) (p : Play) (pressed : Option Button) : Part :=
  let put (p : Play) : Session := { s with play := some p }
  let cards := roundHead p ++ cardButtons p
  let withReset := cards ++ [.button .reset "Reset expression" false]
  let whole := withReset ++ [.button .submit "Submit" (!p.builder.isFinished)]
  match pressedPlace? p pressed with
  | some place => ⟨put (p.pick place), cards, .again⟩
  | none =>
    match pressed with
    | some .reset => ⟨put p.reset, withReset, .again⟩
    | some .submit =>
      match p.submit with
      | (p, .ok ()) => ⟨put p, whole, .again⟩
      | (p, .error e) => ⟨put p, whole, .stop e⟩
    | _ => ⟨s, whole, .next⟩

def resultKind (r : RoundResult) : TextKind :=
  match r.winner with
  | .player => .success
  | .ai => .error
  | _ => .info

def lastElements (p : Play) : List Element :=
  match p.lastResult with
  | none => []
  | some (result, aiHand) =>
    [.text .divider "---", .text (resultKind result) result.summary,
      .text .caption ("AI hand: " ++ aiHand), .text .text result.detail]

/-- The play tab. What the match notes goes to the session. -/
def playTab (s : Session) (pressed : Option Button) : Part :=
  let (s, p) := s.current
  let part :=
    if p.game.isOver then overPart s p.game pressed
    else if !p.game.dealt then bettingPart s p pressed
    else roundPart s p pressed
  let last := if part.flow = .next then lastElements p else []
  { session := part.session.gather
    elements := tableMetrics p.game ++ part.elements ++ last
    flow := part.flow }

end NumberDuel.Page
