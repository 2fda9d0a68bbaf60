/-!
# Recorded data

The data of a history event is a record of named values, which may be nested.
-/

namespace NumberDuel

/-- A recorded value. -/
inductive Datum where
  | null
  | flag (value : Bool)
  | whole (value : Int)
  | double (value : Float)
  | text (value : String)
  | list (items : List Datum)
  | record (fields : List (String × Datum))
  deriving Inhabited

namespace Datum

def count (n : Nat) : Datum := .whole n

def texts (items : List String) : Datum := .list (items.map .text)

def wholes (items : List Int) : Datum := .list (items.map .whole)

def floats (items : List Float) : Datum := .list (items.map .double)

def optional {α : Type} (f : α → Datum) (x : Option α) : Datum := x.elim .null f

def field? (fields : List (String × Datum)) (name : String) : Option Datum :=
  fields.lookup name

def get (fields : List (String × Datum)) (name : String) : Datum :=
  (field? fields name).getD null

def toInt : Datum → Int
  | whole value => value
  | _ => 0

def toFloat? : Datum → Option Float
  | double value => some value
  | _ => none

def toText : Datum → String
  | text value => value
  | _ => ""

def isText (s : String) : Datum → Bool
  | text value => value == s
  | _ => false

/-- Whether a value counts as zero: either zero of the doubles does, and so does a flag that is
not set. -/
def isZero : Datum → Bool
  | whole value => value == 0
  | double value => value == 0
  | flag value => !value
  | _ => false

end Datum

end NumberDuel
