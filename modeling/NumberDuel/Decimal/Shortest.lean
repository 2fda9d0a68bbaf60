import NumberDuel.Decimal.Fixed

/-!
# The shortest decimal that reads back

A double stands for all reals that round to it: an interval around its exact value, with both
ends when the significand is even. `shortest` takes the coarsest decimal grid that has a point
in this interval, and of its points there the one nearest to the value.
-/

namespace NumberDuel.Decimal

/-- `digits * 10 ^ exponent`. -/
structure Scientific where
  digits : Nat
  exponent : Int
  deriving DecidableEq, Repr

/-- The interval that rounds to a double, on a common denominator: the value is
`value / scale`, the lower end `low / scale` and the upper end `high / scale`. -/
structure Neighbourhood where
  low : Nat
  value : Nat
  high : Nat
  scale : Nat
  closed : Bool
  deriving Repr

/-- The neighbourhood of `significand * 2 ^ exponent`. Below a power of two the next double is
only half as far away. -/
def Neighbourhood.ofDyadic (d : Dyadic) : Neighbourhood :=
  let atPower := decide (d.significand = Nat.pow 2 52 ∧ -1074 < d.exponent)
  let up := Nat.pow 2 d.exponent.toNat
  { low := (4 * d.significand - (if atPower then 1 else 2)) * up
    value := 4 * d.significand * up
    high := (4 * d.significand + 2) * up
    scale := 4 * d.denominator
    closed := d.significand % 2 = 0 }

def Neighbourhood.holds (r : Neighbourhood) (n : Nat) (exponent : Int) : Bool :=
  let point := n * Nat.pow 10 exponent.toNat * r.scale
  let grid := Nat.pow 10 (-exponent).toNat
  if r.closed then r.low * grid ≤ point && point ≤ r.high * grid
  else r.low * grid < point && point < r.high * grid

/-- The exponent of the leading digit of `num / den`, both positive. -/
def leadingExponent (num den : Nat) : Int :=
  let guess : Int := (Nat.toDigits 10 num).length - (Nat.toDigits 10 den).length
  if den * Nat.pow 10 guess.toNat ≤ num * Nat.pow 10 (-guess).toNat then guess else guess - 1

/-- The best point with at most `fuel` more digits than `width` on the grids from `width` on. -/
def shortestFrom (r : Neighbourhood) (leading : Int) : (fuel width : Nat) → Scientific
  | 0, width => ⟨0, leading - width⟩
  | fuel + 1, width =>
    let exponent := leading - (width - 1 : Nat)
    let num := r.value * Nat.pow 10 (-exponent).toNat
    let den := r.scale * Nat.pow 10 exponent.toNat
    let below := num / den
    let nearest := roundQuotient num den
    let other := if nearest = below then below + 1 else below
    if r.holds nearest exponent then ⟨nearest, exponent⟩
    else if r.holds other exponent then ⟨other, exponent⟩
    else shortestFrom r leading fuel (width + 1)

/-- The shortest decimal of a positive double; seventeen digits always suffice. -/
def shortest (d : Dyadic) : Scientific :=
  let r := Neighbourhood.ofDyadic d
  shortestFrom r (leadingExponent r.value r.scale) 17 1

/-- Digits without zeros at their end, and how many were dropped. -/
def dropTrailingZeros (digits : List Char) : List Char :=
  (digits.reverse.dropWhile (· == '0')).reverse

def exponentText (e : Int) : String :=
  "e" ++ (if e < 0 then "-" else "+") ++ padZeros 2 e.natAbs

def pointed : List Char → String
  | [] => ""
  | [c] => String.ofList [c]
  | c :: rest => String.ofList (c :: '.' :: rest)

/-- Positional text of a digit row whose first digit has the exponent `leading`. -/
def positional (row : List Char) (leading : Int) : String :=
  if leading < 0 then
    "0." ++ String.ofList (List.replicate (-leading - 1).toNat '0' ++ row)
  else
    let whole := leading.toNat + 1
    if row.length ≤ whole then
      String.ofList (row ++ List.replicate (whole - row.length) '0')
    else String.ofList (row.take whole) ++ "." ++ String.ofList (row.drop whole)

/-- The fewest digits that read back: positional from `10 ^ (-4)` up to below `10 ^ 16`, with
one place kept for a whole number, and with an exponent elsewhere. -/
def exact (x : Float) : String :=
  match Reading.ofFloat x with
  | .notANumber => undefined
  | .infinite negative => infinity negative
  | .finite d =>
    if d.significand = 0 then sign d.negative ++ "0.0"
    else
      let best := shortest d
      let all := Nat.toDigits 10 best.digits
      let row := dropTrailingZeros all
      let leading := best.exponent + (all.length - 1 : Nat)
      let text :=
        if -4 ≤ leading ∧ leading < 16 then
          let body := positional row leading
          if body.contains '.' then body else body ++ ".0"
        else pointed row ++ exponentText leading
      sign d.negative ++ text

/-- At most six digits, without zeros at the end of the fraction: positional from `10 ^ (-4)` up
to below `10 ^ 6`, and with an exponent elsewhere. -/
def general (x : Float) : String :=
  match Reading.ofFloat x with
  | .notANumber => undefined
  | .infinite negative => infinity negative
  | .finite d =>
    if d.significand = 0 then sign d.negative ++ "0"
    else
      let guess := leadingExponent d.numerator d.denominator
      let exponent := guess - 5
      let rounded := roundQuotient (d.numerator * Nat.pow 10 (-exponent).toNat)
        (d.denominator * Nat.pow 10 exponent.toNat)
      let all := Nat.toDigits 10 rounded
      let leading := exponent + (all.length - 1 : Nat)
      let row := dropTrailingZeros all
      let text := if -4 ≤ leading ∧ leading < 6 then positional row leading
        else pointed row ++ exponentText leading
      sign d.negative ++ text

end NumberDuel.Decimal
