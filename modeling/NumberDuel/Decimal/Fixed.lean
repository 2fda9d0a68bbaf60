import NumberDuel.Decimal.Dyadic

/-!
# Decimals with fixed places

A double is rounded at its exact value, a half to the even neighbour, and written with as many
places as asked for. Columns are filled with blanks on one side.
-/

namespace NumberDuel.Decimal

def sign (negative : Bool) : String := if negative then "-" else ""

def padZeros (width n : Nat) : String :=
  let digits := Nat.toDigits 10 n
  String.ofList (List.replicate (width - digits.length) '0' ++ digits)

def units (places n : Nat) : String :=
  if places = 0 then toString n
  else toString (n / Nat.pow 10 places) ++ "." ++ padZeros places (n % Nat.pow 10 places)

def infinity (negative : Bool) : String := sign negative ++ "inf"

def undefined : String := "nan"

/-- A double with `places` digits behind the point. The sign of a zero is kept. -/
def fixed (places : Nat) (x : Float) : String :=
  match Reading.ofFloat x with
  | .notANumber => undefined
  | .infinite negative => infinity negative
  | .finite d => sign d.negative ++ units places (d.roundedTo places)

def dropTrailing (c : Char) (s : String) : String :=
  String.ofList (s.toList.reverse.dropWhile (· == c)).reverse

def alignRight (width : Nat) (s : String) : String :=
  String.ofList (List.replicate (width - s.length) ' ') ++ s

def alignLeft (width : Nat) (s : String) : String :=
  s ++ String.ofList (List.replicate (width - s.length) ' ')

end NumberDuel.Decimal
