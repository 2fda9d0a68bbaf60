/-!
# Whole numbers read from text

A whole number is one optional sign and decimal digits of any script, with blanks around it and
single underscores between digits. Everything else is refused, and so is a number of more digits
than `maxDigits`.
-/

namespace NumberDuel.Text

/-- The code points of the digit zero in each script; the digits one to nine follow each. -/
def digitZeros : List Nat := [
  0x30, 0x660, 0x6f0, 0x7c0, 0x966, 0x9e6, 0xa66, 0xae6, 0xb66, 0xbe6, 0xc66, 0xce6, 0xd66,
  0xde6, 0xe50, 0xed0, 0xf20, 0x1040, 0x1090, 0x17e0, 0x1810, 0x1946, 0x19d0, 0x1a80, 0x1a90,
  0x1b50, 0x1bb0, 0x1c40, 0x1c50, 0xa620, 0xa8d0, 0xa900, 0xa9d0, 0xa9f0, 0xaa50, 0xabf0, 0xff10,
  0x104a0, 0x10d30, 0x11066, 0x110f0, 0x11136, 0x111d0, 0x112f0, 0x11450, 0x114d0, 0x11650,
  0x116c0, 0x11730, 0x118e0, 0x11950, 0x11c50, 0x11d50, 0x11da0, 0x16a60, 0x16ac0, 0x16b50,
  0x1d7ce, 0x1d7d8, 0x1d7e2, 0x1d7ec, 0x1d7f6, 0x1e140, 0x1e2f0, 0x1e950, 0x1fbf0]

def digitValue? (c : Char) : Option Nat :=
  (digitZeros.find? fun first => first ≤ c.toNat && c.toNat ≤ first + 9).map (c.toNat - ·)

/-- A blank that may surround a whole number. -/
def isBlank (c : Char) : Bool :=
  let n := c.toNat
  (9 ≤ n && n ≤ 13) || n == 0x20 || n == 0x85 || n == 0xa0 || n == 0x1680 ||
    (0x2000 ≤ n && n ≤ 0x200a) || n == 0x2028 || n == 0x2029 || n == 0x202f || n == 0x205f ||
    n == 0x3000

def maxDigits : Nat := 4300

/-- The values of a digit row, most significant first. An underscore stands only between two
digits, so the row neither starts nor ends with one. -/
def digitRow? : List Char → Option (List Nat)
  | [] => none
  | [c] => (digitValue? c).map ([·])
  | c :: '_' :: rest => do
    let d ← digitValue? c
    return d :: (← digitRow? rest)
  | c :: rest => do
    let d ← digitValue? c
    return d :: (← digitRow? rest)

def ofDigits (row : List Nat) : Nat := row.foldl (fun n d => 10 * n + d) 0

def trimBlanks (s : List Char) : List Char :=
  ((s.dropWhile isBlank).reverse.dropWhile isBlank).reverse

def readInteger? (s : String) : Option Int :=
  let unsigned (body : List Char) : Option Int := do
    let row ← digitRow? body
    if row.length ≤ maxDigits then some (ofDigits row) else none
  match trimBlanks s.toList with
  | '+' :: body => unsigned body
  | '-' :: body => (unsigned body).map (- ·)
  | body => unsigned body

end NumberDuel.Text
