import NumberDuel.Report.Comparison
import NumberDuel.Text.Integer

/-!
# The command line

The command compares the strategies, or tells one match in detail. Options may be shortened as
long as they stay unambiguous, and a value stands behind its option, either as the next argument
or after an equals sign. Of an option that is given twice, the last value counts.
-/

namespace NumberDuel.CommandLine

inductive Flag where
  | runs
  | seed
  | detailed
  | verbose
  | help
  deriving DecidableEq, Repr

def spellings : List (String × Flag) :=
  [("-h", .help), ("--help", .help), ("--runs", .runs), ("--seed", .seed),
    ("--detailed", .detailed), ("--verbose", .verbose)]

inductive Token where
  /-- An option, maybe with a value attached to it. -/
  | flag (option : Flag) (attached : Option String)
  /-- The mark after which every argument is a value. -/
  | separator
  | value (text : String)
  /-- It looks like an option and is none. -/
  | stranger
  /-- It shortens more than one option. -/
  | ambiguous
  deriving DecidableEq, Repr

def isDigitRow (s : List Char) : Bool := s.all fun c => (Text.digitValue? c).isSome

def withoutLineEnd (s : List Char) : List Char :=
  if s.getLast? = some '\n' then s.dropLast else s

def looksNegative (s : List Char) : Bool :=
  match withoutLineEnd s with
  | '-' :: body =>
    match body.span (· != '.') with
    | (whole, []) => !whole.isEmpty && isDigitRow whole
    | (whole, _ :: fraction) => !fraction.isEmpty && isDigitRow whole && isDigitRow fraction
  | _ => false

/-- The short spelling of help with a text attached. Short options may stand in one row, and help
is the only one: a row of it asks for help, and anything else stays attached. -/
def shortHelp (attached : String) : Token :=
  if !attached.isEmpty && attached.toList.all (· == 'h') then .flag .help none
  else .flag .help (some attached)

def withAttached (spelling : String) (option : Flag) (attached : String) : Token :=
  if spelling == "-h" then shortHelp attached else .flag option (some attached)

/-- What a shortened spelling may mean: with two dashes every option that begins so, with one dash
the short spelling with the rest attached. -/
def shortened (name : String) (attached : Option String) (whole : String) : List Token :=
  if name.startsWith "--" then
    (spellings.filter fun (spelling, _) => spelling.startsWith name).map fun (_, option) =>
      .flag option attached
  else
    match whole.toList with
    | '-' :: 'h' :: rest => [shortHelp (String.ofList rest)]
    | _ => []

def divide (s : String) : String × Option String :=
  match s.toList.span (· != '=') with
  | (_, []) => (s, none)
  | (name, _ :: value) => (String.ofList name, some (String.ofList value))

def classify (s : String) : Token :=
  if s == "--" then .separator
  else if !s.startsWith "-" || s == "-" then .value s
  else
    match spellings.lookup s with
    | some option => .flag option none
    | none =>
      let (name, attached) := divide s
      match attached, spellings.lookup name with
      | some text, some option => withAttached name option text
      | _, _ =>
        match shortened name attached s with
        | [token] => token
        | _ :: _ :: _ => .ambiguous
        | [] =>
          if looksNegative s.toList || s.toList.contains ' ' then .value s else .stranger

/-- What the arguments are; all of them are values behind a separator. -/
def tokens : List String → List Token
  | [] => []
  | s :: rest =>
    match classify s with
    | .separator => .separator :: rest.map .value
    | token => token :: tokens rest

structure Options where
  runs : Int := 100
  seed : Option Int := none
  detailed : Option String := none
  verbose : Bool := false
  deriving DecidableEq, Repr

inductive Request where
  | run (options : Options)
  | help
  | refused
  deriving DecidableEq, Repr

/-- Sets an option to a value. A separator in place of a name is no name. -/
def Options.set? (o : Options) (option : Flag) (value : String) : Option Options :=
  match option with
  | .runs => (Text.readInteger? value).map fun n => { o with runs := n }
  | .seed => (Text.readInteger? value).map fun n => { o with seed := some n }
  | .detailed => some { o with detailed := some (if value == "--" then "" else value) }
  | .verbose | .help => none

/-- Understands the arguments from left to right. Values without an option are refused, but only
once everything else is understood. -/
def understand (o : Options) (strays : Bool) : List Token → Request
  | [] => if strays then .refused else .run o
  | .flag .help none :: _ => .help
  | .flag .help (some _) :: _ => .refused
  | .flag .verbose none :: rest => understand { o with verbose := true } strays rest
  | .flag option (some value) :: rest =>
    match o.set? option value with
    | some o => understand o strays rest
    | none => .refused
  | .flag option none :: .value value :: rest =>
    match o.set? option value with
    | some o => understand o strays rest
    | none => .refused
  | .flag _ none :: _ => .refused
  | .ambiguous :: _ => .refused
  | .separator :: rest | .value _ :: rest | .stranger :: rest => understand o true rest

def request (args : List String) : Request :=
  let all := tokens args
  if all.contains .ambiguous then .refused else understand {} false all

def compare (runs seed : Int) (time : Float) : Printed Unit :=
  discard (Comparison.compare runs seed time)

/-- What a run prints, and how it ends; `seed` stands in where the arguments give none, and `time`
is what the matches of a strategy took. An empty name asks for the comparison too. -/
def run (o : Options) (seed : Int) (time : Float) : Printed Unit :=
  let seed := o.seed.getD seed
  match o.detailed with
  | some name => if name.isEmpty then compare o.runs seed time else Narration.tell name seed
  | none => compare o.runs seed time

end NumberDuel.CommandLine
