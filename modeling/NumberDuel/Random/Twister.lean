/-!
# A random source

The Mersenne twister: 624 words of state, renewed all at once, and a tempered word for each draw.
The seed is a whole number; the 32-bit words of its magnitude, least significant first, are mixed
into the state.
-/

namespace NumberDuel.Random

def stateSize : Nat := 624

/-- How far ahead the word lies that is mixed into each renewed one. -/
def middle : Nat := 397

/-- A random source: its words, and how many of them are drawn. -/
structure Twister where
  words : Vector UInt32 stateSize
  drawn : Nat
  deriving Repr

namespace Twister

/-- The word at an index, counted round the state. -/
def wordAt (words : Vector UInt32 stateSize) (i : Nat) : UInt32 :=
  words.get ⟨i % stateSize, Nat.mod_lt i (by decide)⟩

def setWord (words : Vector UInt32 stateSize) (i : Nat) (w : UInt32) : Vector UInt32 stateSize :=
  words.set (i % stateSize) w (Nat.mod_lt i (by decide))

def folded (words : Vector UInt32 stateSize) (i : Nat) : UInt32 :=
  let before := wordAt words (i + (stateSize - 1))
  before ^^^ (before >>> 30)

def spread (seed : UInt32) : Vector UInt32 stateSize :=
  (List.range (stateSize - 1)).foldl (fun words k =>
      let i := k + 1
      setWord words i (1812433253 * folded words i + UInt32.ofNat i))
    ((Vector.replicate stateSize 0).set 0 seed (by decide))

def seedWordsFrom : (fuel n : Nat) → List UInt32
  | 0, _ => []
  | fuel + 1, n =>
    if n = 0 then [] else UInt32.ofNat n :: seedWordsFrom fuel (n / Nat.pow 2 32)

def seedWords (n : Nat) : List UInt32 :=
  if n = 0 then [0] else seedWordsFrom (n.log2 / 32 + 1) n

/-- The next place in the state; the first word follows the last and takes its value along. -/
def stepPlace (words : Vector UInt32 stateSize) (i : Nat) : Vector UInt32 stateSize × Nat :=
  if i + 1 < stateSize then (words, i + 1)
  else (setWord words 0 (wordAt words (stateSize - 1)), 1)

/-- Mixes the seed words in, for `steps` steps from place `i` and seed word `j`. -/
def mixSeed (key : Array UInt32) :
    (steps : Nat) → Vector UInt32 stateSize → (i j : Nat) → Vector UInt32 stateSize × Nat
  | 0, words, i, _ => (words, i)
  | steps + 1, words, i, j =>
    let w := (wordAt words i ^^^ (folded words i * 1664525)) + key.getD j 0 + UInt32.ofNat j
    let (words, i) := stepPlace (setWord words i w) i
    mixSeed key steps words i (if j + 1 < key.size then j + 1 else 0)

def mixPlaces : (steps : Nat) → Vector UInt32 stateSize → (i : Nat) → Vector UInt32 stateSize
  | 0, words, _ => words
  | steps + 1, words, i =>
    let w := (wordAt words i ^^^ (folded words i * 1566083941)) - UInt32.ofNat i
    let (words, i) := stepPlace (setWord words i w) i
    mixPlaces steps words i

def ofSeed (seed : Int) : Twister :=
  let key := (seedWords seed.natAbs).toArray
  let (words, i) := mixSeed key (max stateSize key.size) (spread 19650218) 1 0
  let words := mixPlaces (stateSize - 1) words i
  { words := words.set 0 0x80000000 (by decide), drawn := stateSize }

def renew (words : Vector UInt32 stateSize) : Vector UInt32 stateSize :=
  (List.range stateSize).foldl (fun words i =>
      let y := (wordAt words i &&& 0x80000000) ||| (wordAt words (i + 1) &&& 0x7fffffff)
      let twist : UInt32 := if y &&& 1 = 0 then 0 else 0x9908b0df
      setWord words i (wordAt words (i + middle) ^^^ (y >>> 1) ^^^ twist))
    words

def temper (w : UInt32) : UInt32 :=
  let w := w ^^^ (w >>> 11)
  let w := w ^^^ ((w <<< 7) &&& 0x9d2c5680)
  let w := w ^^^ ((w <<< 15) &&& 0xefc60000)
  w ^^^ (w >>> 18)

def next (t : Twister) : UInt32 × Twister :=
  let t := if t.drawn < stateSize then t else { words := renew t.words, drawn := 0 }
  (temper (wordAt t.words t.drawn), { t with drawn := t.drawn + 1 })

/-- Draws a number of `bits` bits: whole words from the least significant one on, and of the last
word its upper bits. -/
def bits (t : Twister) (bits : Nat) : Nat × Twister :=
  let rec go : (whole : Nat) → (place : Nat) → Twister → Nat × Twister
    | 0, place, t =>
      if bits % 32 = 0 then (0, t)
      else
        let (w, t) := t.next
        (w.toNat / Nat.pow 2 (32 - bits % 32) * Nat.pow 2 place, t)
    | whole + 1, place, t =>
      let (w, t) := t.next
      let (rest, t) := go whole (place + 32) t
      (w.toNat * Nat.pow 2 place + rest, t)
  go (bits / 32) 0 t

end Twister

end NumberDuel.Random
