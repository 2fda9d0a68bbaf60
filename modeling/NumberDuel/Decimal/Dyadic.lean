/-!
# Doubles as exact numbers

A finite double is a sign, a whole significand and a power of two, so that every question about
its decimal text or its nearest whole number is one about natural numbers. `roundQuotient`
rounds a quotient of natural numbers to the nearest one, a half to the even neighbour.
-/

namespace NumberDuel

/-- A finite double: `significand * 2 ^ exponent`, with the sign kept for a zero too. -/
structure Dyadic where
  negative : Bool
  significand : Nat
  exponent : Int
  deriving DecidableEq, Repr

/-- What the bits of a double mean. -/
inductive Reading where
  | finite (value : Dyadic)
  | infinite (negative : Bool)
  | notANumber
  deriving DecidableEq, Repr

/-- Reads the sign, the exponent field and the fraction of a double. -/
def Reading.ofFloat (x : Float) : Reading :=
  let bits := x.toBits.toNat
  let negative := decide (Nat.pow 2 63 ≤ bits)
  let field : Nat := bits / Nat.pow 2 52 % Nat.pow 2 11
  let fraction : Nat := bits % Nat.pow 2 52
  if field = 2047 then
    if fraction = 0 then .infinite negative else .notANumber
  else if field = 0 then .finite ⟨negative, fraction, -1074⟩
  else .finite ⟨negative, fraction + Nat.pow 2 52, (field : Int) - 1075⟩

/-- The natural number nearest to `num / den`; a half goes to the even neighbour. -/
def roundQuotient (num den : Nat) : Nat :=
  let q := num / den
  let r := num % den
  if 2 * r < den then q
  else if den < 2 * r then q + 1
  else if q % 2 = 0 then q else q + 1

namespace Dyadic

def numerator (d : Dyadic) : Nat := d.significand * Nat.pow 2 d.exponent.toNat

def denominator (d : Dyadic) : Nat := Nat.pow 2 (-d.exponent).toNat

/-- The magnitude counted in units of `10 ^ (-places)`, to the nearest unit. -/
def roundedTo (d : Dyadic) (places : Nat) : Nat :=
  roundQuotient (d.numerator * Nat.pow 10 places) d.denominator

def signed (d : Dyadic) (n : Nat) : Int := if d.negative then -n else n

/-- The nearest whole number, a half to the even one. -/
def round (d : Dyadic) : Int := d.signed (d.roundedTo 0)

def truncate (d : Dyadic) : Int := d.signed (d.numerator / d.denominator)

end Dyadic

def roundHalfEven? (x : Float) : Option Int :=
  match Reading.ofFloat x with
  | .finite d => some d.round
  | _ => none

def truncate? (x : Float) : Option Int :=
  match Reading.ofFloat x with
  | .finite d => some d.truncate
  | _ => none

/-- The double nearest to a whole number, unless it lies beyond the largest one. -/
def doubleOfInt? (n : Int) : Option Float :=
  let x := Float.ofInt n
  if x.isInf then none else some x

/-- Two doubles agree: they are equal, or both finite and no farther apart than `margin` or a
billionth of the larger one. -/
def isClose (margin a b : Float) : Bool :=
  if a == b then true
  else if a.isInf || b.isInf then false
  else
    let gap := (b - a).abs
    gap ≤ (1e-9 * b).abs || gap ≤ (1e-9 * a).abs || gap ≤ margin

end NumberDuel
