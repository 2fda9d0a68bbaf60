import NumberDuel.Datum

/-!
# What is on the page

The page is a list of texts, figures, buttons, inputs and charts in reading order. An input is
known by its field, a button by what it does.
-/

namespace NumberDuel.Page

inductive TextKind where
  | title
  | header
  | subheader
  | markdown
  | caption
  | code
  | text
  | success
  | error
  | info
  | warning
  | divider
  | exception
  deriving DecidableEq, Repr

def TextKind.key : TextKind → String
  | title => "title"
  | header => "header"
  | subheader => "subheader"
  | markdown => "markdown"
  | caption => "caption"
  | code => "code"
  | text => "text"
  | success => "success"
  | error => "error"
  | info => "info"
  | warning => "warning"
  | divider => "divider"
  | exception => "exception"

structure Bounds where
  least : Int
  most : Int
  deriving DecidableEq, Repr

namespace Bounds

def contain (b : Bounds) (n : Int) : Bool := b.least ≤ n && n ≤ b.most

/-- What an input can hold: the whole numbers that no double confuses with a neighbour. -/
def ofInputs : Bounds := ⟨-(Nat.pow 2 53 - 1), Nat.pow 2 53 - 1⟩

def ofSpecials : Bounds := ⟨0, 3⟩

def ofGames : Bounds := ⟨10, 300⟩

end Bounds

inductive Field where
  | preset
  | numbers
  | target
  | operators
  | multiplies
  | roots
  | bet
  | games
  deriving DecidableEq, Repr

namespace Field

def all : List Field := [preset, numbers, target, operators, multiplies, roots, bet, games]

def kind : Field → String
  | preset => "selectbox"
  | numbers => "text_input"
  | target | multiplies | roots => "number_input"
  | operators => "multiselect"
  | bet | games => "slider"

def label : Field → String
  | preset => "Preset"
  | numbers => "Number cards (comma separated, 0-10)"
  | target => "Target"
  | operators => "Operator cards"
  | multiplies => "Forced × cards"
  | roots => "√ cards"
  | bet => "Bet"
  | games => "Number of matches"

def named? (kind label : String) : Option Field :=
  all.find? fun f => f.kind == kind && f.label == label

/-- Whether an input may be emptied, which brings its default back. -/
def mayBeEmpty : Field → Bool
  | preset | numbers | target | multiplies | roots => true
  | operators | bet | games => false

/-- The bounds of an input that holds a whole number, where the bet has the bounds `bet`. -/
def bounds? (bet : Bounds) : Field → Option Bounds
  | target => some .ofInputs
  | multiplies | roots => some .ofSpecials
  | Field.bet => some bet
  | games => some .ofGames
  | preset | numbers | operators => none

end Field

/-- The buttons of the page. The button of a card belongs to a round. -/
inductive Button where
  | solve
  | newMatch
  | deal
  | card (round : Int) (place : Nat)
  | reset
  | submit
  | simulate
  deriving DecidableEq, Repr

inductive Element where
  | text (kind : TextKind) (body : String)
  | metric (label body : String)
  | button (button : Button) (label : String) (disabled : Bool)
  | integer (field : Field) (value : Int) (bounds : Option Bounds)
  | line (field : Field) (value : String)
  | several (field : Field) (values options : List String)
  | choice (field : Field) (chosen : String) (options : List String)
  | chart (index : List Int) (columns : List (String × List Int))
  deriving DecidableEq, Repr

namespace Element

def field? : Element → Option Field
  | integer field _ _ | line field _ | several field _ _ | choice field _ _ => some field
  | _ => none

def data : Element → List Datum
  | text kind body => [.text kind.key, .text body]
  | metric label body => [.text "metric", .text label, .text body]
  | button _ label disabled => [.text "button", .text label, .flag disabled]
  | integer field value bounds =>
    [.text field.kind, .text field.label, .whole value,
      Datum.optional (fun b => .whole b.least) bounds,
      Datum.optional (fun b => .whole b.most) bounds]
  | line field value => [.text field.kind, .text field.label, .text value]
  | several field values options =>
    [.text field.kind, .text field.label, Datum.texts values, Datum.texts options]
  | choice field chosen options =>
    [.text field.kind, .text field.label, .text chosen, Datum.texts options]
  | chart index columns =>
    [.text "bar_chart", Datum.wholes index,
      .record (columns.map fun (name, values) => (name, Datum.wholes values))]

end Element

end NumberDuel.Page
