import NumberDuel.Note

/-!
# Printing on the way to a result

A `Printed` value holds what was printed on the way to a result, what was noted for the log, and
the result or why there is none. Steps are joined in order: the first error ends the row, and what
was printed and noted up to it stays. Main statement: joining is lawful, so that steps may be
grouped at will.
-/

namespace NumberDuel

/-- Text and notes on the way to a result. -/
structure Printed (α : Type) where
  output : String
  result : Except Error α
  notes : List Note := []

namespace Printed

variable {α β : Type}

def ofExcept (result : Except Error α) : Printed α := ⟨"", result, []⟩

def fail (e : Error) : Printed α := ofExcept (.error e)

def say (text : String) : Printed Unit := ⟨text, .ok (), []⟩

def note (n : Note) : Printed Unit := ⟨"", .ok (), [n]⟩

def follow (x : Printed α) (f : α → Printed β) : Printed β :=
  match x.result with
  | .error e => ⟨x.output, .error e, x.notes⟩
  | .ok a =>
    let y := f a
    ⟨x.output ++ y.output, y.result, x.notes ++ y.notes⟩

instance : Monad Printed where
  pure a := ofExcept (.ok a)
  bind := follow

instance : MonadLift (Except Error) Printed := ⟨ofExcept⟩

theorem pure_follow (a : α) (f : α → Printed β) : (pure a : Printed α).follow f = f a := by
  simp [pure, ofExcept, follow]

theorem follow_pure (x : Printed α) : x.follow pure = x := by
  obtain ⟨output, result, notes⟩ := x
  cases result <;> simp [pure, ofExcept, follow]

theorem follow_assoc {γ : Type} (x : Printed α) (f : α → Printed β) (g : β → Printed γ) :
    (x.follow f).follow g = x.follow fun a => (f a).follow g := by
  obtain ⟨output, result, notes⟩ := x
  cases result with
  | error e => rfl
  | ok a =>
    cases h : (f a).result <;> simp [follow, h, String.append_assoc, List.append_assoc]

instance : LawfulMonad Printed :=
  LawfulMonad.mk' Printed follow_pure pure_follow follow_assoc

end Printed

end NumberDuel
