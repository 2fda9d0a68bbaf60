import Mathlib.Logic.Relation
import NumberDuel.Proofs.Evaluation.Precedence

/-!
# The two stacks of the evaluator

With precedence a row is evaluated by three loops: one reads the row, one makes room for the next
connective, and one empties the stacks at the end. `Moment` is what the evaluator holds between two
turns of a loop, `Step` is one turn, and `ends_start_iff` says that the turns come to what
`withPrecedence` returns; `steps_scan` finds the stacks of `scan` among the moments. At every moment
there is one operand more than connectives pending, and each pending connective binds tighter than
those below it. So what the evaluator takes from its stacks is always there, and of the four
operators no more than two are ever pending.
-/

namespace NumberDuel

variable {α ω : Type}

namespace Calculus

/-! ## Turns of the loops -/

inductive Stage (ω α : Type) where
  /-- The row is read: what is left of it. -/
  | reading (rest : List (ω × α))
  /-- Room is made for `op`, which is pushed with the number behind it. -/
  | settling (op : ω) (number : α) (rest : List (ω × α))
  /-- The row is read to its end, and what is pending is applied. -/
  | draining

/-- What the evaluator holds between two turns of a loop; the stacks have their top first. -/
structure Moment (ω α : Type) where
  stage : Stage ω α
  operands : List α
  pending : List ω

def Moment.start (first : α) (row : List (ω × α)) : Moment ω α := ⟨.reading row, [first], []⟩

def reduces (c : Calculus ω α) (m : Moment ω α) : Bool :=
  match m.stage, m.pending with
  | .settling op _ _, top :: _ => c.precedence op ≤ c.precedence top
  | .draining, _ :: _ => true
  | _, _ => false

/-- One turn of the loop that is running, or the change to another one. -/
inductive Step (c : Calculus ω α) : Moment ω α → Moment ω α → Prop
  | read {op number rest operands pending} :
      Step c ⟨.reading ((op, number) :: rest), operands, pending⟩
        ⟨.settling op number rest, operands, pending⟩
  | reduce {stage operands pending operands' pending'}
      (busy : c.reduces ⟨stage, operands, pending⟩ = true)
      (applied : c.reduce operands pending = .ok (operands', pending')) :
      Step c ⟨stage, operands, pending⟩ ⟨stage, operands', pending'⟩
  | push {op number rest operands pending}
      (room : c.reduces ⟨.settling op number rest, operands, pending⟩ = false) :
      Step c ⟨.settling op number rest, operands, pending⟩
        ⟨.reading rest, number :: operands, op :: pending⟩
  | close {operands pending} :
      Step c ⟨.reading [], operands, pending⟩ ⟨.draining, operands, pending⟩

/-- How the turns from a moment on come to an end: nothing is pending any more, or a connective
cannot be applied. -/
inductive Ends (c : Calculus ω α) : Moment ω α → Except Failure α → Prop
  | drained {operands} : Ends c ⟨.draining, operands, []⟩ (single operands)
  | failed {stage operands pending failure} (busy : c.reduces ⟨stage, operands, pending⟩ = true)
      (stopped : c.reduce operands pending = .error failure) :
      Ends c ⟨stage, operands, pending⟩ (.error failure)
  | step {m n outcome} (turn : Step c m n) (later : Ends c n outcome) : Ends c m outcome

/-! ## Where the turns lead -/

variable {c : Calculus ω α} {m n : Moment ω α} {outcome : Except Failure α}

/-- Only a pending connective with two operands can be applied. -/
theorem reduce_eq_ok {operands operands' : List α} {pending pending' : List ω}
    (applied : c.reduce operands pending = .ok (operands', pending')) :
    ∃ op x y z below, operands = y :: x :: below ∧ pending = op :: pending' ∧
      operands' = z :: below ∧ c.apply x op y = .ok z := by
  obtain _ | ⟨op, pending⟩ := pending
  · simp only [reduce] at applied
    split at applied <;> cases applied
  obtain _ | ⟨y, _ | ⟨x, below⟩⟩ := operands
  · cases applied
  · cases applied
  cases value : c.apply x op y with
  | error failure => simp [reduce, combineTop, value, Except.map] at applied
  | ok z =>
    simp only [reduce, combineTop, value, Except.map, Except.ok.injEq, Prod.mk.injEq] at applied
    obtain ⟨rfl, rfl⟩ := applied
    exact ⟨op, x, y, z, below, rfl, rfl, rfl, value⟩

/-- To settle is to reduce for as long as what is on top binds as tight. -/
theorem settle_eq_reduce {level : Nat} {op : ω} (tight : level ≤ c.precedence op)
    (operands : List α) (pending : List ω) :
    c.settle level operands (op :: pending) =
      (c.reduce operands (op :: pending) >>= fun (operands, pending) =>
        c.settle level operands pending) := by
  simp only [settle, tight, if_true, reduce]
  cases c.combineTop op operands <;> rfl

def remaining (c : Calculus ω α) (m : Moment ω α) : Except Failure α :=
  match m.stage with
  | .reading rest => c.finish m.operands m.pending rest
  | .settling op number rest =>
    c.settle (c.precedence op) m.operands m.pending >>= fun (operands, pending) =>
      c.finish (number :: operands) (op :: pending) rest
  | .draining => c.settle 0 m.operands m.pending >>= fun (operands, _) => single operands

/-- To apply what is on top is the next thing that remains to be done. -/
theorem remaining_of_reduces {stage : Stage ω α} {operands : List α} {pending : List ω}
    (busy : c.reduces ⟨stage, operands, pending⟩ = true) :
    c.remaining ⟨stage, operands, pending⟩ =
      (c.reduce operands pending >>= fun (operands, pending) =>
        c.remaining ⟨stage, operands, pending⟩) := by
  obtain _ | ⟨top, pending⟩ := pending
  · cases stage <;> cases busy
  cases stage with
  | reading rest => cases busy
  | settling op number rest =>
    have tight : c.precedence op ≤ c.precedence top := of_decide_eq_true busy
    simp only [remaining, settle_eq_reduce tight, bind_assoc]
  | draining => simp only [remaining, settle_eq_reduce (Nat.zero_le _), bind_assoc]

/-- Where room is made, nothing is settled. -/
theorem settle_of_not_reduces {op : ω} {number : α} {rest : List (ω × α)} {operands : List α}
    {pending : List ω} (room : c.reduces ⟨.settling op number rest, operands, pending⟩ = false) :
    c.settle (c.precedence op) operands pending = .ok (operands, pending) := by
  obtain _ | ⟨top, pending⟩ := pending
  · rfl
  · exact settle_of_lt c (Nat.lt_of_not_le (of_decide_eq_false room)) ..

theorem Step.remaining_eq (turn : Step c m n) : c.remaining m = c.remaining n := by
  cases turn with
  | read => exact finish_cons ..
  | reduce busy applied =>
    rw [remaining_of_reduces busy, applied]
    rfl
  | push room =>
    simp only [remaining, settle_of_not_reduces room]
    rfl
  | close => exact finish_nil ..

theorem Ends.remaining_eq (ends : Ends c m outcome) : c.remaining m = outcome := by
  induction ends with
  | drained => rfl
  | failed busy stopped =>
    rw [remaining_of_reduces busy, stopped]
    rfl
  | step turn _ ih => exact turn.remaining_eq.trans ih

/-- A bound on the turns that are left: an entry of the row is read, pushed and applied. -/
def Moment.turnsLeft (m : Moment ω α) : Nat :=
  match m.stage with
  | .reading rest => 3 * rest.length + m.pending.length + 1
  | .settling _ _ rest => 3 * rest.length + m.pending.length + 3
  | .draining => m.pending.length

theorem Step.turnsLeft_lt (turn : Step c m n) : n.turnsLeft < m.turnsLeft := by
  cases turn with
  | @reduce stage _ _ _ _ _ applied =>
    obtain ⟨op, _, _, _, _, -, rfl, -, -⟩ := reduce_eq_ok applied
    cases stage <;> simp [Moment.turnsLeft]
  | read | push | close =>
    simp only [Moment.turnsLeft, List.length_cons, List.length_nil]
    omega

theorem exists_ends (c : Calculus ω α) (m : Moment ω α) : ∃ outcome, Ends c m outcome := by
  induction turns : m.turnsLeft using Nat.strongRecOn generalizing m with
  | ind turns ih =>
    subst turns
    have after {n : Moment ω α} (turn : Step c m n) : ∃ outcome, Ends c m outcome := by
      obtain ⟨outcome, later⟩ := ih _ turn.turnsLeft_lt n rfl
      exact ⟨outcome, .step turn later⟩
    obtain ⟨stage, operands, pending⟩ := m
    cases busy : c.reduces ⟨stage, operands, pending⟩ with
    | true =>
      cases applied : c.reduce operands pending with
      | error failure => exact ⟨_, .failed busy applied⟩
      | ok held => exact after (.reduce busy applied)
    | false =>
      match stage, pending with
      | .reading [], _ => exact after .close
      | .reading ((_, _) :: _), _ => exact after .read
      | .settling .., _ => exact after (.push busy)
      | .draining, [] => exact ⟨_, .drained⟩
      | .draining, _ :: _ => cases busy

/-- The turns from a moment on end in one way. -/
theorem ends_iff : Ends c m outcome ↔ c.remaining m = outcome := by
  refine ⟨Ends.remaining_eq, ?_⟩
  rintro rfl
  obtain ⟨outcome, ends⟩ := exists_ends c m
  rwa [ends.remaining_eq]

/-- The turns of the loops come to the value with precedence, or to the reason to have none. -/
theorem ends_start_iff {first : α} {rest : List α} {connectives : List ω} :
    Ends c (.start first (connectives.zip rest)) outcome ↔
      c.withPrecedence (first :: rest) connectives = outcome :=
  ends_iff

/-! ## The turns of a whole loop -/

/-- To settle takes turns until the next one would push. -/
theorem steps_settle {op : ω} (number : α) (rest : List (ω × α)) {operands operands' : List α}
    {pending pending' : List ω}
    (settled : c.settle (c.precedence op) operands pending = .ok (operands', pending')) :
    Relation.ReflTransGen (Step c) ⟨.settling op number rest, operands, pending⟩
        ⟨.settling op number rest, operands', pending'⟩ ∧
      c.reduces ⟨.settling op number rest, operands', pending'⟩ = false := by
  induction pending generalizing operands with
  | nil =>
    cases settled
    exact ⟨.refl, rfl⟩
  | cons top pending ih =>
    by_cases tight : c.precedence op ≤ c.precedence top
    · cases applied : c.reduce operands (top :: pending) with
      | error failure =>
        rw [settle_eq_reduce tight, applied] at settled
        cases settled
      | ok held =>
        obtain ⟨_, _, _, _, _, -, tail, -, -⟩ := reduce_eq_ok applied
        rw [settle_eq_reduce tight, applied] at settled
        obtain ⟨left, below⟩ := held
        obtain ⟨-, rfl⟩ := List.cons.inj tail
        obtain ⟨turns, room⟩ := ih settled
        have busy : c.reduces ⟨.settling op number rest, operands, top :: pending⟩ = true :=
          decide_eq_true tight
        exact ⟨.head (.reduce busy applied) turns, room⟩
    · rw [settle_of_lt c (Nat.lt_of_not_le tight)] at settled
      cases settled
      exact ⟨.refl, decide_eq_false tight⟩

/-- The stacks that `scan` makes of the front of a row are those before the rest of it is read. -/
theorem steps_scan {row rest : List (ω × α)} {operands operands' : List α}
    {pending pending' : List ω}
    (scanned : c.scan row operands pending = .ok (operands', pending')) :
    Relation.ReflTransGen (Step c) ⟨.reading (row ++ rest), operands, pending⟩
      ⟨.reading rest, operands', pending'⟩ := by
  induction row generalizing operands pending with
  | nil =>
    cases scanned
    exact .refl
  | cons entry row ih =>
    obtain ⟨op, number⟩ := entry
    cases settled : c.settle (c.precedence op) operands pending with
    | error failure =>
      rw [scan, settled] at scanned
      cases scanned
    | ok held =>
      rw [scan, settled] at scanned
      obtain ⟨turns, room⟩ := steps_settle number (row ++ rest) settled
      exact .head .read (turns.trans (.head (.push room) (ih scanned)))

/-! ## What every turn keeps -/

/-- The shape of the stacks at every moment. -/
structure Layered (c : Calculus ω α) (m : Moment ω α) : Prop where
  /-- There is an operand more than connectives pending. -/
  depth : m.operands.length = m.pending.length + 1
  /-- A connective above another one binds tighter. -/
  tighter : m.pending.Pairwise fun above below => c.precedence below < c.precedence above

theorem layered_start (c : Calculus ω α) (first : α) (row : List (ω × α)) :
    Layered c (.start first row) := ⟨rfl, .nil⟩

/-- Where nothing has to be applied first, the next connective binds tighter than all pending
ones. -/
theorem Layered.lt_of_not_reduces {op : ω} {number : α} {rest : List (ω × α)} {operands : List α}
    {pending : List ω} (h : Layered c ⟨.settling op number rest, operands, pending⟩)
    (room : c.reduces ⟨.settling op number rest, operands, pending⟩ = false) :
    ∀ below ∈ pending, c.precedence below < c.precedence op := by
  obtain _ | ⟨top, pending⟩ := pending
  · nofun
  have loose : c.precedence top < c.precedence op := Nat.lt_of_not_le (of_decide_eq_false room)
  have lower := (List.pairwise_cons.mp h.tighter).1
  exact List.forall_mem_cons.mpr ⟨loose, fun below mem => Nat.lt_trans (lower below mem) loose⟩

theorem Layered.step (h : Layered c m) (turn : Step c m n) : Layered c n := by
  obtain ⟨depth, tighter⟩ := h
  cases turn with
  | read | close => exact ⟨depth, tighter⟩
  | push room =>
    refine ⟨congrArg Nat.succ depth, List.pairwise_cons.mpr ⟨?_, tighter⟩⟩
    exact Layered.lt_of_not_reduces ⟨depth, tighter⟩ room
  | reduce _ applied =>
    obtain ⟨op, x, y, z, below, rfl, rfl, rfl, -⟩ := reduce_eq_ok applied
    exact ⟨Nat.succ.inj depth, tighter.of_cons⟩

theorem Layered.steps (h : Layered c m) (turns : Relation.ReflTransGen (Step c) m n) :
    Layered c n := by
  induction turns with
  | refl => exact h
  | tail _ turn ih => exact ih.step turn

/-- A connective is never applied without its two operands. -/
theorem Layered.two_le (h : Layered c m) (busy : c.reduces m = true) : 2 ≤ m.operands.length := by
  obtain ⟨stage, operands, _ | ⟨top, pending⟩⟩ := m
  · cases stage <;> cases busy
  · have depth := h.depth
    simp only [List.length_cons] at depth ⊢
    omega

/-- Numbers and connectives without a partner are not read. -/
theorem withPrecedence_take (c : Calculus ω α) (first : α) (rest : List α)
    (connectives : List ω) :
    let count := min (first :: rest).length (connectives.length + 1)
    c.withPrecedence ((first :: rest).take count) (connectives.take (count - 1)) =
      c.withPrecedence (first :: rest) connectives := by
  intro count
  have count_eq : count = min connectives.length rest.length + 1 := by
    simp only [count, List.length_cons]
    omega
  rw [count_eq, Nat.add_sub_cancel, List.take_succ_cons, withPrecedence_cons,
    withPrecedence_cons, ← List.zip_eq_zip_take_min]

end Calculus

/-! ## The four operators -/

theorem Operator.precedence_pos (op : Operator) : 0 < op.precedence := by
  cases op <;> decide

/-- Two operators at most can stand above each other, a factor above a sign. -/
theorem length_le_two_of_tighter {pending : List Operator}
    (tighter : pending.Pairwise fun above below => below.precedence < above.precedence) :
    pending.length ≤ 2 := by
  match pending, tighter with
  | [], _ => exact Nat.zero_le 2
  | [_], _ => exact Nat.le_succ 1
  | [_, _], _ => exact Nat.le_refl 2
  | first :: second :: third :: pending, tighter =>
    obtain ⟨above, tighter⟩ := List.pairwise_cons.mp tighter
    have upper := above second (by simp)
    have lower := (List.pairwise_cons.mp tighter).1 third (by simp)
    have := first.precedence_le_two
    have := third.precedence_pos
    omega

namespace Arithmetic

open Calculus (Moment Step Ends Layered)

/-- What holds of the stacks between any two turns of the loops. -/
structure Disciplined (a : Arithmetic α) (m : Moment Operator α) : Prop where
  depth : m.operands.length = m.pending.length + 1
  tighter : m.pending.Pairwise fun above below => below.precedence < above.precedence
  pending_le : m.pending.length ≤ 2
  operands_le : m.operands.length ≤ 3
  /-- No operator is applied without its two operands. -/
  reduces_only : a.calculus.reduces m = true → 2 ≤ m.operands.length
  /-- One operand is left at the end. -/
  one_left : m.stage = .draining → m.pending = [] → ∃ value, m.operands = [value]

theorem disciplined_of_layered {a : Arithmetic α} {m : Moment Operator α}
    (h : Layered a.calculus m) : a.Disciplined m := by
  have few := length_le_two_of_tighter h.tighter
  have depth := h.depth
  exact {
    depth := depth
    tighter := h.tighter
    pending_le := few
    operands_le := by omega
    reduces_only := h.two_le
    one_left := fun _ drained => List.length_eq_one_iff.mp (by simpa [drained] using depth) }

theorem withPrecedence_error (a : Arithmetic α) {first : α} {rest : List α}
    {operators : List Operator} {failure : Failure}
    (h : a.calculus.withPrecedence (first :: rest) operators = .error failure) :
    failure = .divisionByZero := by
  rw [Calculus.withPrecedence_cons, (finish_eq a _ _).1] at h
  exact rowValue_error a h

/-- On any numbers and any operators, as many as they are, the stacks keep their shape at every
turn of the loops; the stacks that `scan` makes of the front of the row are met on the way. The
turns end in what `withPrecedence` returns and in nothing else, which is no failure but that of a
division, and depends only on the numbers and operators with a partner. -/
theorem stacks_disciplined (a : Arithmetic α) (first : α) (rest : List α)
    (operators : List Operator) :
    let start : Moment Operator α := .start first (operators.zip rest)
    let value := a.calculus.withPrecedence (first :: rest) operators
    let count := min (first :: rest).length (operators.length + 1)
    (∀ m, Relation.ReflTransGen (Step a.calculus) start m → a.Disciplined m) ∧
      (∀ front after operands pending, operators.zip rest = front ++ after →
        a.calculus.scan front [first] [] = .ok (operands, pending) →
        Relation.ReflTransGen (Step a.calculus) start ⟨.reading after, operands, pending⟩) ∧
      (∀ outcome, Ends a.calculus start outcome ↔ value = outcome) ∧
      (∀ failure, value = .error failure → failure = .divisionByZero) ∧
      a.calculus.withPrecedence ((first :: rest).take count) (operators.take (count - 1)) =
        value := by
  intro start value count
  refine ⟨fun m turns => ?_, fun front after operands pending row scanned => ?_,
    fun outcome => Calculus.ends_start_iff, fun failure => ?_, ?_⟩
  · exact disciplined_of_layered ((Calculus.layered_start _ first _).steps turns)
  · simp only [start, Moment.start, row]
    exact Calculus.steps_scan scanned
  · exact withPrecedence_error a
  · exact Calculus.withPrecedence_take ..

end Arithmetic

end NumberDuel
