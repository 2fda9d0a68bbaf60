import NumberDuel.Random.Twister

/-!
# Drawing numbers, elements and orders

A number below `n` is drawn by rejection: as many bits as `n` has, again and again until the
number is small enough. At least every second number is, so the bound on the attempts is never
felt; it only makes the result small in every case.
-/

namespace NumberDuel.Random

namespace Twister

def bitLength (n : Nat) : Nat := if n = 0 then 0 else n.log2 + 1

/-- The bound on the attempts for one number. -/
def attempts : Nat := 4096

def belowWithin (n : Nat) : (attempts : Nat) → Twister → Nat × Twister
  | 0, t =>
    let (r, t) := t.bits (bitLength n)
    (r % n, t)
  | attempts + 1, t =>
    let (r, t) := t.bits (bitLength n)
    if r < n then (r, t) else belowWithin n attempts t

def below (t : Twister) (n : Nat) : Nat × Twister := belowWithin n attempts t

/-- A number below `n`, from at most this many attempts, is below `n`. -/
theorem belowWithin_lt {n : Nat} (h : 0 < n) (k : Nat) (t : Twister) :
    (belowWithin n k t).1 < n := by
  induction k generalizing t with
  | zero => exact Nat.mod_lt _ h
  | succ k ih =>
    simp only [belowWithin]
    split
    · assumption
    · exact ih _

/-- A number that is drawn below `n` is below `n`. -/
theorem below_lt {n : Nat} (h : 0 < n) (t : Twister) : (t.below n).1 < n :=
  belowWithin_lt h attempts t

def choose? {α : Type} (t : Twister) (items : List α) : Option α × Twister :=
  match items with
  | [] => (none, t)
  | x :: rest =>
    let (i, t) := t.below (rest.length + 1)
    (some ((x :: rest)[i]?.getD x), t)

/-- What is chosen is one of the elements. -/
theorem mem_of_choose? {α : Type} {t : Twister} {items : List α} {x : α}
    (h : (t.choose? items).1 = some x) : x ∈ items := by
  cases items with
  | nil => simp [choose?] at h
  | cons y rest =>
    have hx : ((y :: rest)[(t.below (rest.length + 1)).1]?).getD y = x := by
      simpa [choose?] using h
    rw [List.getElem?_eq_getElem (below_lt (Nat.succ_pos rest.length) t)] at hx
    exact hx ▸ List.getElem_mem _

/-- Exchanges the last of the first `k` elements with one of them, then goes on with the first
`k - 1`. -/
def shuffleFrom {α : Type} : (k : Nat) → Twister → Array α → Array α × Twister
  | 0, t, items => (items, t)
  | 1, t, items => (items, t)
  | k + 2, t, items =>
    let (j, t) := t.below (k + 2)
    shuffleFrom (k + 1) t (items.swapIfInBounds (k + 1) j)

theorem swapIfInBounds_perm {α : Type} (items : Array α) (i j : Nat) :
    (items.swapIfInBounds i j).toList.Perm items.toList := by
  rw [Array.swapIfInBounds]
  split
  · split
    · exact (Array.swap_perm _ _).toList
    · exact .refl _
  · exact .refl _

/-- Exchanging elements loses none and doubles none. -/
theorem shuffleFrom_perm {α : Type} (k : Nat) (t : Twister) (items : Array α) :
    (shuffleFrom k t items).1.toList.Perm items.toList := by
  fun_induction shuffleFrom k t items with
  | case1 => exact .refl _
  | case2 => exact .refl _
  | case3 k t items j t' h ih => exact ih.trans (swapIfInBounds_perm items (k + 1) j)

def shuffle {α : Type} (t : Twister) (items : List α) : List α × Twister :=
  let (shuffled, t) := shuffleFrom items.length t items.toArray
  (shuffled.toList, t)

/-- A random order is an order of the same elements. -/
theorem shuffle_perm {α : Type} (t : Twister) (items : List α) :
    (t.shuffle items).1.Perm items :=
  shuffleFrom_perm items.length t items.toArray

end Twister

end NumberDuel.Random
