import NumberDuel.Proofs.Builder.Run

/-!
# Refused picks

A pick is refused exactly for the reasons of `Refuses`, and leaves the whole builder as it was; so
it may be left out of any row of calls. An accepted pick does exactly one `Deed`.
-/

namespace NumberDuel.Builder

/-! ## Calls -/

/-- What is asked of a builder from outside: to take up a hand or none, or a move. -/
inductive Call where
  | setHand (hand : Option Hand)
  | move (m : Move)

def call (b : Builder) : Call → Builder
  | .setHand hand => b.setHand hand
  | .move m => b.move m

def after (b : Builder) (calls : List Call) : Builder := calls.foldl call b

/-! ## Deeds -/

/-- What an accepted pick does. -/
inductive Deed where
  | term (t : Term Float)
  | connective (op : Operator)
  | root (card : Copy Special)

namespace Deed

def terms : Deed → List (Term Float)
  | term t => [t]
  | connective _ | root _ => []

def connectives : Deed → List Operator
  | connective op => [op]
  | term _ | root _ => []

end Deed

/-- A step from one builder to another does this deed, and no other one: it appends a term, or an
operator, or lets a root wait. -/
structure Did (b b' : Builder) (deed : Deed) : Prop where
  hand : b'.hand = b.hand
  terms : b'.expression.terms = b.expression.terms ++ deed.terms
  connectives : b'.expression.connectives = b.expression.connectives ++ deed.connectives
  root : ∀ card, b.pendingRoot = none ∧ b'.pendingRoot = some card ↔ deed = .root card

section

variable {b b' : Builder} {deed deed' : Deed} {card : Option Card} {r : Refusal}

/-- No step does two deeds. -/
theorem Did.unique (h : Did b b' deed) (h' : Did b b' deed') : deed = deed' := by
  -- both deeds append the same, and each kind but the root appends something
  have terms := List.append_cancel_left (h.terms.symm.trans h'.terms)
  have connectives := List.append_cancel_left (h.connectives.symm.trans h'.connectives)
  cases deed with
  | term t => cases deed' <;> simp_all [Deed.terms]
  | connective op => cases deed' <;> simp_all [Deed.connectives]
  | root card => exact ((h'.root card).mp ((h.root card).mpr rfl)).symm

/-- To leave everything as it was is no deed. -/
theorem Did.changes (h : Did b b' deed) : b' ≠ b := by
  rintro rfl
  cases deed with
  | term t => simpa [Deed.terms] using h.terms
  | connective op => simpa [Deed.connectives] using h.connectives
  | root card =>
    obtain ⟨bare, waits⟩ := (h.root card).mpr rfl
    simp [bare] at waits

/-- An accepted card does one deed. -/
theorem Accepts.exists_did {n : Nat} {face : Face} (h : Accepts b n face b') :
    ∃ deed, Did b b' deed := by
  cases h with
  | @number value turn bare =>
    exact ⟨.term ⟨value.toFloat, false⟩, rfl, rfl, (List.append_nil _).symm, by simp [bare]⟩
  | @rooted value root turn waits =>
    exact ⟨.term ⟨value.toFloat, true⟩, rfl, rfl, (List.append_nil _).symm, by simp⟩
  | @operator op turn left =>
    exact ⟨.connective op, rfl, (List.append_nil _).symm, rfl, by simp +contextual⟩
  | multiply turn left =>
    exact ⟨.connective .multiply, rfl, (List.append_nil _).symm, rfl, by simp +contextual⟩
  | squareRoot bare turn left =>
    exact ⟨.root ⟨n, .squareRoot⟩, rfl, (List.append_nil _).symm, (List.append_nil _).symm,
      by simp [bare]⟩

/-- A pick that is not refused is accepted and does one deed. -/
theorem exists_did_of_not_refused (free : ∀ r, ¬ b.Refuses card r) :
    (b.pick card).2.accepted = true ∧ ∃ deed, Did b (b.pick card).1 deed := by
  rcases b.pick_cases card with ⟨r, refuses, -⟩ | ⟨c, -, ⟨-, -, -, accepts⟩, accepted⟩
  · exact absurd refuses (free r)
  · exact ⟨accepted, accepts.exists_did⟩

/-- Exactly the refused picks are not accepted, and they leave everything as it was. -/
theorem not_accepted_iff_refuses :
    (b.pick card).2.accepted = false ↔
      ∃ r, b.Refuses card r ∧ b.pick card = (b, ⟨false, r.message⟩) := by
  constructor
  · intro not_accepted
    by_contra other
    have free : ∀ r, ¬ b.Refuses card r := fun r refuses =>
      other ⟨r, refuses, pick_of_refuses refuses⟩
    simp [(exists_did_of_not_refused free).1] at not_accepted
  · rintro ⟨r, -, same⟩
    rw [same]

/-- Exactly the accepted picks do something, and they do one thing. -/
theorem accepted_iff_did :
    (b.pick card).2.accepted = true ↔ ∃! deed, Did b (b.pick card).1 deed := by
  constructor
  · intro accepted
    have free : ∀ r, ¬ b.Refuses card r := by
      intro r refuses
      simp [pick_of_refuses refuses] at accepted
    obtain ⟨-, deed, did⟩ := exists_did_of_not_refused free
    exact ⟨deed, did, fun _ other => other.unique did⟩
  · rintro ⟨deed, did, -⟩
    by_contra not_accepted
    obtain ⟨r, -, same⟩ := not_accepted_iff_refuses.mp (Bool.eq_false_of_not_eq_true not_accepted)
    exact did.changes (congrArg Prod.fst same)

/-- Whatever was called before: a pick is not accepted if and only if one of the listed reasons
speaks against it, and then its message is told and the whole builder stays as it was; and it is
accepted if and only if exactly one thing happens, that a term is appended, or an operator, or
that a root becomes pending. -/
theorem refused_or_did_one (b : Builder) (calls : List Call) (card : Option Card) :
    let before := b.after calls
    ((before.pick card).2.accepted = false ↔
      ∃ r, before.Refuses card r ∧ before.pick card = (before, ⟨false, r.message⟩)) ∧
    ((before.pick card).2.accepted = true ↔ ∃! deed, Did before (before.pick card).1 deed) :=
  ⟨not_accepted_iff_refuses, accepted_iff_did⟩

end

/-! ## Rows of calls -/

def isRefused (b : Builder) : Call → Bool
  | .move (.pick card) => !(b.pick card).2.accepted
  | .setHand _ | .move .reset => false

def effective (b : Builder) : List Call → List Call
  | [] => []
  | c :: calls =>
    if b.isRefused c then b.effective calls else c :: (b.call c).effective calls

theorem call_of_isRefused {b : Builder} {c : Call} (refused : b.isRefused c = true) :
    b.call c = b := by
  match c with
  | .setHand _ | .move .reset => cases refused
  | .move (.pick card) =>
    obtain ⟨r, -, same⟩ := not_accepted_iff_refuses.mp (by simpa [isRefused] using refused)
    exact congrArg Prod.fst same

theorem after_cons (b : Builder) (c : Call) (calls : List Call) :
    b.after (c :: calls) = (b.call c).after calls := rfl

/-- Refused picks may be left out of any row of calls. -/
theorem after_effective (b : Builder) (calls : List Call) :
    b.after (b.effective calls) = b.after calls := by
  induction calls generalizing b with
  | nil => rfl
  | cons c calls ih =>
    rw [effective]
    split
    next refused => rw [ih, after_cons, call_of_isRefused refused]
    next => rw [after_cons, after_cons, ih]

/-- A row of picks writes what its deeds write, one for each pick that is not refused. -/
theorem exists_deeds (b : Builder) (cards : List (Option Card)) :
    let calls := cards.map fun card => Call.move (.pick card)
    ∃ deeds : List Deed, deeds.length = (b.effective calls).length ∧
      (b.after calls).expression.terms = b.expression.terms ++ deeds.flatMap Deed.terms ∧
      (b.after calls).expression.connectives =
        b.expression.connectives ++ deeds.flatMap Deed.connectives := by
  induction cards generalizing b with
  | nil => exact ⟨[], rfl, (List.append_nil _).symm, (List.append_nil _).symm⟩
  | cons card cards ih =>
    obtain ⟨deeds, length, terms, connectives⟩ := ih (b.call (.move (.pick card)))
    simp only [List.map_cons, after_cons, effective]
    split
    next refused =>
      rw [call_of_isRefused refused] at length terms connectives ⊢
      exact ⟨deeds, length, terms, connectives⟩
    next accepted =>
      obtain ⟨deed, did, -⟩ := accepted_iff_did.mp (by simpa [isRefused] using accepted)
      refine ⟨deed :: deeds, by rw [List.length_cons, List.length_cons, length], ?_, ?_⟩
      · rw [terms, List.flatMap_cons, ← List.append_assoc, ← did.terms]
        rfl
      · rw [connectives, List.flatMap_cons, ← List.append_assoc, ← did.connectives]
        rfl

end NumberDuel.Builder
