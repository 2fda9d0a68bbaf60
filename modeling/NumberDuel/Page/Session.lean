import NumberDuel.Builder
import NumberDuel.Page.Element
import NumberDuel.Report.Match

/-!
# A session on the page

A session keeps the values of the inputs, the match that is played on the page, the seed that the
next match gets, and the notes of all that happened. An input that is missing from a complete run
of the page starts again from its default, and so does the bet when its bounds change. A run that
starts over or is stopped by an error counts for neither.
-/

namespace NumberDuel.Page

/-- The bounds of the bet among these elements, the least of which is its default. -/
def shownBounds? (shown : List Element) : Option Bounds :=
  shown.findSome? fun
    | .integer .bet _ bounds => bounds
    | _ => none

/-- The values of the inputs. The bet is kept with the bounds it was chosen under. -/
structure Inputs where
  preset : String := "standard"
  numbers : String := "4, 5, 10"
  target : Int := 20
  operators : List String := ["+", "-", "÷"]
  multiplies : Int := 0
  roots : Int := 0
  bet : Option (Bounds × Int) := none
  games : Int := 50
  deriving DecidableEq, Repr

namespace Inputs

def forget (i : Inputs) : Field → Inputs
  | .preset => { i with preset := ({} : Inputs).preset }
  | .numbers => { i with numbers := ({} : Inputs).numbers }
  | .target => { i with target := ({} : Inputs).target }
  | .operators => { i with operators := ({} : Inputs).operators }
  | .multiplies => { i with multiplies := ({} : Inputs).multiplies }
  | .roots => { i with roots := ({} : Inputs).roots }
  | .bet => { i with bet := none }
  | .games => { i with games := ({} : Inputs).games }

def setNumber (i : Inputs) (bet : Bounds) (field : Field) (n : Int) : Inputs :=
  match field with
  | .target => { i with target := n }
  | .multiplies => { i with multiplies := n }
  | .roots => { i with roots := n }
  | .bet => { i with bet := some (bet, n) }
  | .games => { i with games := n }
  | .preset | .numbers | .operators => i

/-- Sets an input that holds a whole number; one out of its bounds goes back to its default. -/
def setWithin (i : Inputs) (bet : Bounds) (field : Field) (n : Int) : Inputs :=
  match field.bounds? bet with
  | some bounds => if bounds.contain n then i.setNumber bet field n else i.forget field
  | none => i

/-- Sets an input, where the value is of its kind; `bet` are the bounds of the bet on the page. Of
a double only the whole part counts. -/
def set (i : Inputs) (bet : Bounds) : Field → Datum → Inputs
  | field, .null => if field.mayBeEmpty then i.forget field else i
  | .preset, .text key => { i with preset := key }
  | .numbers, .text s => { i with numbers := s }
  | .operators, .list items =>
    { i with operators := items.filterMap fun item =>
        match item with
        | .text symbol => some symbol
        | _ => none }
  | field, .whole n => i.setWithin bet field n
  | field, .double x => (truncate? x).elim i (i.setWithin bet field)
  | _, _ => i

/-- Brings every input back to its default that is not among these elements, and the bet also
where its bounds have changed. -/
def keepShown (i : Inputs) (shown : List Element) : Inputs :=
  let i := (Field.all.filter fun f => !shown.any fun e => e.field? == some f).foldl forget i
  match i.bet with
  | some (chosenUnder, _) => if shownBounds? shown = some chosenUnder then i else i.forget .bet
  | none => i

def betWithin (i : Inputs) (bounds : Bounds) : Int :=
  match i.bet with
  | some (chosenUnder, bet) => if chosenUnder = bounds then bet else bounds.least
  | none => bounds.least

end Inputs

structure Play where
  preset : String
  game : Game
  ai : Strategy
  builder : Builder := {}
  lastResult : Option (RoundResult × String) := none
  message : String := ""

/-- A session: the presets it knows, the next seed, its inputs, its match, if it has begun, and
what happened so far. -/
structure Session where
  presets : List (String × Preset)
  nextSeed : Int
  inputs : Inputs := {}
  play : Option Play := none
  notes : Array Note := #[]

namespace Session

def preset (s : Session) : Preset := (s.presets.lookup s.inputs.preset).getD .standard

def keep (s : Session) (notes : List Note) : Session :=
  { s with notes := s.notes ++ notes.toArray }

def gather (s : Session) : Session :=
  match s.play with
  | none => s
  | some play =>
    let (notes, game) := play.game.takeNotes
    { s with play := some { play with game := game } }.keep notes

def begin (s : Session) : Session × Play :=
  let preset := s.preset
  let play : Play :=
    { preset := s.inputs.preset
      game := Game.start preset.config s.nextSeed s.inputs.preset
      ai := preset.ai }
  ({ s with nextSeed := s.nextSeed + 1, play := some play }, play)

/-- The match of the selected preset: a new one when the preset has changed. -/
def current (s : Session) : Session × Play :=
  match s.play with
  | some play => if play.preset = s.inputs.preset then (s, play) else s.begin
  | none => s.begin

end Session

/-- How a run of the page goes on behind one of its parts. -/
inductive Flow where
  | next
  | again
  | stop (e : Error)
  deriving DecidableEq, Repr

structure Part where
  session : Session
  elements : List Element
  flow : Flow := .next

end NumberDuel.Page
