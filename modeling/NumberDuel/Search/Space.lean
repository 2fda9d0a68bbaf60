import NumberDuel.Expression
import NumberDuel.Hand

/-!
# The search space of a hand

An arrangement of a hand is a distinct ordering of its numbers, a choice of the numbers that get
the required roots, and a filling of the gaps: the forced `×` and, in every other gap, an enabled
operator card, no card twice. The three walks below visit the orderings, the root vectors and the
fillings depth first and hand each finished choice to a visitor that carries a state of its own.
A walk keeps one trail: it takes what it places out of the stock, recurses, and undoes both before
its next turn. Branches that cannot be completed are cut at once.
-/

namespace NumberDuel.Search

variable {τ α σ : Type}

/-- The lists that a walk changes in place, and what the visitor has made of the choices so far. -/
structure Trail (τ α σ : Type) where
  stock : τ
  placed : List α
  state : σ

namespace Trail

def restock (t : Trail τ α σ) (stock : τ) : Trail τ α σ := { t with stock }

def push (t : Trail τ α σ) (x : α) : Trail τ α σ := { t with placed := t.placed ++ [x] }

def pop (t : Trail τ α σ) : Trail τ α σ := { t with placed := t.placed.dropLast }

def finish (t : Trail τ α σ) (visit : List α → σ → σ) : Trail τ α σ :=
  { t with state := visit t.placed t.state }

/-- Places the element at a place of the stock, goes on, and takes both steps back. -/
def tryAt (t : Trail (List α) α σ) (i : Nat) (go : Trail (List α) α σ → Trail (List α) α σ) :
    Trail (List α) α σ :=
  match t.stock[i]? with
  | none => t
  | some x =>
    let t := go ((t.restock (t.stock.eraseIdx i)).push x)
    t.pop.restock (t.stock.insertIdx i x)

end Trail

section Orderings

variable [BEq α]

/-- The distinct elements in the order they first appear, each with its multiplicity. -/
def tally (xs : List α) : List (α × Nat) := xs.eraseDups.map fun x => (x, xs.count x)

def supply (stock : List (α × Nat)) (x : α) : Nat := (stock.lookup x).getD 0

def takeOne (stock : List (α × Nat)) (x : α) : List (α × Nat) :=
  stock.map fun (y, n) => if y == x then (y, n - 1) else (y, n)

def putBack (stock : List (α × Nat)) (x : α) : List (α × Nat) :=
  stock.map fun (y, n) => if y == x then (y, n + 1) else (y, n)

/-- Visits every distinct way to fill `slots` more places from the stock. -/
def walkOrderings (visit : List α → σ → σ) :
    (slots : Nat) → Trail (List (α × Nat)) α σ → Trail (List (α × Nat)) α σ
  | 0, t => t.finish visit
  | slots + 1, t =>
    (t.stock.map Prod.fst).foldl (fun t x =>
      if supply t.stock x = 0 then t
      else
        let t := walkOrderings visit slots ((t.restock (takeOne t.stock x)).push x)
        t.pop.restock (putBack t.stock x)) t

end Orderings

/-- Visits every way to flag the next `places` numbers so that `required` in all are flagged, a
flag before no flag at each place. -/
def walkRoots (visit : List Bool → σ → σ) (required : Nat) :
    (places : Nat) → Trail Unit Bool σ → Trail Unit Bool σ
  | 0, t => if t.placed.count true = required then t.finish visit else t
  | places + 1, t =>
    let missing := required - t.placed.count true
    let most := min 1 missing
    let least := missing - places
    -- No turn if `most < least`: the places left cannot take the roots that are missing.
    (List.range' least (most + 1 - least)).reverse.foldl (fun t roots =>
      (walkRoots visit required places (t.push (0 < roots))).pop) t

/-- Visits every way to fill the next `gaps` gaps with exactly `forced` forced `×` and otherwise
cards of the pool; a forced `×` comes before the cards at each gap. -/
def walkGaps (visit : List Operator → σ → σ) :
    (gaps forced : Nat) → Trail (List Operator) Operator σ → Trail (List Operator) Operator σ
  | 0, 0, t => t.finish visit
  | 0, _ + 1, t => t
  | gaps + 1, forced, t =>
    if gaps + 1 < forced then t
    else
      let t := match forced with
        | 0 => t
        | forced + 1 => (walkGaps visit gaps forced (t.push .multiply)).pop
      (List.range t.stock.length).foldl (fun t i => t.tryAt i (walkGaps visit gaps forced)) t

structure Space where
  numbers : List CardValue
  roots : Nat
  multiplies : Nat
  pool : List Operator
  deriving DecidableEq, Repr

/-- Why a hand has no arrangement that is worth a walk. -/
inductive Infeasible where
  | noNumbers
  | tooManyMultiplies
  | tooFewOperators
  deriving DecidableEq, Repr

namespace Space

def ofHand (hand : Hand) : Space where
  numbers := hand.numberValues
  roots := hand.rootCount
  multiplies := hand.multiplyCount
  pool := hand.operatorPool

def gaps (s : Space) : Nat := s.numbers.length - 1

def infeasible? (s : Space) : Option Infeasible :=
  if s.numbers.isEmpty then some .noNumbers
  else if s.gaps < s.multiplies then some .tooManyMultiplies
  else if s.pool.length < s.gaps - s.multiplies then some .tooFewOperators
  else none

/-- Visits every arrangement; `ordering` is called once for each ordering of the numbers. Each stage
starts from lists of its own. -/
def walk (s : Space) (ordering : σ → σ) (visit : Expression → σ → σ) (state : σ) : σ :=
  match s.infeasible? with
  | some _ => state
  | none =>
    (walkOrderings (fun numbers state =>
      let values := numbers.map CardValue.toFloat
      (walkRoots (fun roots state =>
        (walkGaps (fun operators => visit (.ofParts values roots operators))
          s.gaps s.multiplies ⟨s.pool, [], state⟩).state)
        s.roots numbers.length ⟨(), [], ordering state⟩).state)
      s.numbers.length ⟨tally s.numbers, [], state⟩).state

def arrangements (s : Space) : List Expression :=
  (s.walk id (fun e found => e :: found) []).reverse

end Space

end NumberDuel.Search
