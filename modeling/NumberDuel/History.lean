import NumberDuel.Datum

/-!
# Match history

A history is the list of the events of a match in the order they happened. An event carries the
state of a counter as a stamp, and a record of what happened. The summary counts over the results.
-/

namespace NumberDuel

structure Event where
  round : Int
  kind : String
  data : List (String × Datum)
  stamp : Nat

/-- What happened in a match, under the name of its preset. -/
structure History where
  preset : String := "standard"
  events : List Event := []
  /-- The stamp of the next event. -/
  counter : Nat := 0

namespace History

def roundStart : String := "round_start"

def roundResult : String := "round_result"

def matchEnd : String := "match_end"

def add (h : History) (round : Int) (kind : String) (data : List (String × Datum)) : History :=
  { h with
    events := h.events ++ [⟨round, kind, data, h.counter⟩]
    counter := h.counter + 1 }

def addRoundStart (h : History) (round target bet : Int) (playerHand aiHand : String) : History :=
  h.add round roundStart
    [("target", .whole target), ("bet", .whole bet),
      ("player_hand", .text playerHand), ("ai_hand", .text aiHand)]

def addRoundResult (h : History) (round : Int) (result : List (String × Datum)) : History :=
  h.add round roundResult result

def addMatchEnd (h : History) (round : Int) (winner : Option String)
    (playerCredits aiCredits : Int) : History :=
  h.add round matchEnd
    [("winner", winner.elim .null .text), ("player_credits", .whole playerCredits),
      ("ai_credits", .whole aiCredits)]

def ofKind (h : History) (kind : String) : List Event := h.events.filter (·.kind == kind)

structure Summary where
  roundsPlayed : Nat
  playerWins : Nat
  aiWins : Nat
  draws : Nat
  invalidRounds : Nat
  exactHits : Nat
  matchWinner : Datum

def wonBy (winner : String) (e : Event) : Bool := (Datum.get e.data "winner").isText winner

def isExactHit (e : Event) : Bool :=
  (Datum.get e.data "player_distance").isZero || (Datum.get e.data "ai_distance").isZero

def summary (h : History) : Summary :=
  let results := h.ofKind roundResult
  { roundsPlayed := results.length
    playerWins := results.countP (wonBy "PLAYER")
    aiWins := results.countP (wonBy "AI")
    draws := results.countP (wonBy "DRAW")
    invalidRounds := results.countP (wonBy "INVALID")
    exactHits := results.countP isExactHit
    matchWinner :=
      match (h.ofKind matchEnd).head? with
      | some e => Datum.get e.data "winner"
      | none => .null }

end History

end NumberDuel
