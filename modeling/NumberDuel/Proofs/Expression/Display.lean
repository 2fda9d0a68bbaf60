import NumberDuel.Game.Round
import NumberDuel.Proofs.Double.Exact
import NumberDuel.Proofs.Expression.NumberText
import NumberDuel.Proofs.Text.Words

/-!
# The text of an expression

An expression is shown as a row of words, terms and operators in turn. No number has a blank in its
text, so the words are read back from the blanks; a `-` that is a word by itself is an operator, and
one in front of digits is a sign. A root is told by its first character. What is left is the text of
the numbers: whole numbers are told apart by it, so an expression of whole numbers is known from its
text, and from the text that a result keeps of it.
-/

namespace NumberDuel

variable {x y : Float}

/-! ## The words -/

theorem isWord_formatNumber (finite : x.isFinite = true) : Text.IsWord (formatNumber x) := by
  obtain ⟨numeral, -, text, canonical, -⟩ := exists_numeral finite
  intro blank
  rw [text] at blank
  rcases canonical.mem_text blank with h | h | h <;> cases h

theorem Term.isWord_text {t : Term Float} (finite : t.value.isFinite = true) :
    Text.IsWord t.text := by
  have number := isWord_formatNumber finite
  unfold Text.IsWord at number ⊢
  rw [Term.text, String.toList_append, List.mem_append, not_or]
  refine ⟨?_, number⟩
  split <;> decide

theorem isWord_symbol (op : Operator) : Text.IsWord op.symbol := by
  cases op <;> decide

/-- The root of a term and the text of its number are read back. -/
theorem Term.text_eq_iff {s t : Term Float} (hs : s.value.isFinite = true)
    (ht : t.value.isFinite = true) :
    s.text = t.text ↔ s.rooted = t.rooted ∧ formatNumber s.value = formatNumber t.value := by
  have no_root {x : Float} (finite : x.isFinite = true) : '√' ∉ (formatNumber x).toList := by
    obtain ⟨numeral, -, text, canonical, -⟩ := exists_numeral finite
    intro root
    rw [text] at root
    rcases canonical.mem_text root with h | h | h <;> cases h
  have root (t : Term Float) (finite : t.value.isFinite = true) :
      '√' ∈ t.text.toList ↔ t.rooted = true := by
    rw [Term.text, String.toList_append, List.mem_append]
    cases t.rooted <;> simp [no_root finite]
  constructor
  · intro same
    have rooted : s.rooted = t.rooted := by
      rw [Bool.eq_iff_iff, ← root s hs, ← root t ht, same]
    rw [Term.text, Term.text, rooted, String.append_right_inj] at same
    exact ⟨rooted, same⟩
  · rintro ⟨rooted, number⟩
    rw [Term.text, Term.text, rooted, number]

namespace Formula

variable {ω α : Type} {term : Term α → String} {connective : ω → String}
  {terms terms' : List (Term α)} {ops ops' : List ω}

theorem forall_mem_interleave {P : String → Prop} (hterm : ∀ t ∈ terms, P (term t))
    (hconnective : ∀ op, P (connective op)) :
    ∀ w ∈ interleave term connective terms ops, P w := by
  induction terms generalizing ops with
  | nil => nofun
  | cons t terms ih =>
    obtain ⟨here, later⟩ := List.forall_mem_cons.mp hterm
    obtain _ | ⟨op, ops⟩ := ops
    · exact List.forall_mem_cons.mpr ⟨here, ih later⟩
    · exact List.forall_mem_cons.mpr
        ⟨here, List.forall_mem_cons.mpr ⟨hconnective op, ih later⟩⟩

/-- Terms and connectives are told apart by their places. -/
theorem interleave_eq_iff (complete : ops.length + 1 = terms.length)
    (complete' : ops'.length + 1 = terms'.length) :
    interleave term connective terms ops = interleave term connective terms' ops' ↔
      terms.map term = terms'.map term ∧ ops.map connective = ops'.map connective := by
  induction ops generalizing terms terms' ops' with
  | nil =>
    obtain ⟨t, rfl⟩ := List.length_eq_one_iff.mp complete.symm
    obtain _ | ⟨op', ops'⟩ := ops'
    · obtain ⟨t', rfl⟩ := List.length_eq_one_iff.mp complete'.symm
      simp [interleave]
    · obtain _ | ⟨t', terms'⟩ := terms' <;> simp [interleave]
  | cons op ops ih =>
    obtain _ | ⟨t, terms⟩ := terms
    · cases complete
    obtain _ | ⟨op', ops'⟩ := ops'
    · obtain ⟨t', rfl⟩ := List.length_eq_one_iff.mp complete'.symm
      simp [interleave]
    · obtain _ | ⟨t', terms'⟩ := terms'
      · cases complete'
      have rest := ih (Nat.succ.inj complete) (Nat.succ.inj complete')
      simp only [interleave, List.cons.injEq, List.map_cons, rest]
      tauto

theorem length_of_isComplete {e : Formula ω α} (complete : e.isComplete = true) :
    e.connectives.length + 1 = e.terms.length := by
  simp only [isComplete, Bool.and_eq_true, beq_iff_eq] at complete
  exact complete.2

end Formula

namespace Expression

variable {e e' : Expression}

def words (e : Expression) : List String :=
  Formula.interleave Term.text Operator.symbol e.terms e.connectives

theorem text_eq_iff_words_eq (complete : e.isComplete = true) (complete' : e'.isComplete = true)
    (finite : ∀ t ∈ e.terms, t.value.isFinite = true)
    (finite' : ∀ t ∈ e'.terms, t.value.isFinite = true) :
    e.text = e'.text ↔ e.words = e'.words := by
  have some {e : Expression} (complete : e.isComplete = true) : e.words ≠ [] := by
    obtain ⟨_ | ⟨t, terms⟩, ops⟩ := e
    · cases complete
    · cases ops <;> exact List.cons_ne_nil _ _
  have isWord {e : Expression} (finite : ∀ t ∈ e.terms, t.value.isFinite = true) :
      ∀ w ∈ e.words, Text.IsWord w :=
    Formula.forall_mem_interleave (fun t mem => Term.isWord_text (finite t mem)) isWord_symbol
  refine ⟨fun same => ?_, congrArg _⟩
  exact Text.intercalate_inj (isWord finite) (isWord finite') (some complete) (some complete') same

end Expression

/-! ## Whole numbers -/

theorem Double.IsWhole.isFinite (h : Double.IsWhole x) : x.isFinite = true := by
  obtain ⟨d, reading, -⟩ := h
  exact Reading.isFinite_iff.mpr ⟨d, reading⟩

/-- Whole numbers are nearest to the same hundredth only if they are equal. -/
theorem formatNumber_eq_iff_of_isWhole (hx : Double.IsWhole x) (hy : Double.IsWhole y) :
    formatNumber x = formatNumber y ↔ (x == y) = true := by
  have itself {x : Float} {d : Dyadic} {k : ℤ} (reading : Reading.ofFloat x = .finite d)
      (value : d.value = k) : InHundredths x (k * 100) :=
    ⟨d, reading, isNearest_of_lt (by rw [value]; norm_num)⟩
  rw [formatNumber_eq_iff hx.isFinite hy.isFinite]
  obtain ⟨d, reading, k, value⟩ := hx
  obtain ⟨d', reading', k', value'⟩ := hy
  rw [Double.beq_iff_value reading reading', value, value', Int.cast_inj]
  constructor
  · rintro ⟨n, hn, hn'⟩
    have := (itself reading value).eq hn
    have := (itself reading' value').eq hn'
    omega
  · rintro rfl
    exact ⟨_, itself reading value, itself reading' value'⟩

namespace Expression

variable {e e' : Expression}

theorem map_text_eq_iff {terms terms' : List (Term Float)}
    (whole : ∀ t ∈ terms, Double.IsWhole t.value)
    (whole' : ∀ t ∈ terms', Double.IsWhole t.value) :
    terms.map Term.text = terms'.map Term.text ↔ terms.length = terms'.length ∧
      ((terms.zip terms').all fun (s, t) => s.value == t.value && s.rooted == t.rooted) = true := by
  induction terms generalizing terms' with
  | nil => cases terms' <;> simp
  | cons s terms ih =>
    obtain _ | ⟨t, terms'⟩ := terms'
    · simp
    obtain ⟨hs, whole⟩ := List.forall_mem_cons.mp whole
    obtain ⟨ht, whole'⟩ := List.forall_mem_cons.mp whole'
    have head := Term.text_eq_iff hs.isFinite ht.isFinite
    rw [formatNumber_eq_iff_of_isWhole hs ht] at head
    simp only [List.map_cons, List.cons.injEq, head, ih whole whole', List.length_cons,
      Nat.add_right_cancel_iff, List.zip_cons_cons, List.all_cons, Bool.and_eq_true, beq_iff_eq]
    tauto

/-- Complete expressions of whole numbers are shown alike if and only if they are equal. -/
theorem text_eq_iff (complete : e.isComplete = true) (complete' : e'.isComplete = true)
    (whole : ∀ t ∈ e.terms, Double.IsWhole t.value)
    (whole' : ∀ t ∈ e'.terms, Double.IsWhole t.value) :
    e.text = e'.text ↔ e.equal e' = true := by
  rw [text_eq_iff_words_eq complete complete' (fun t mem => (whole t mem).isFinite)
    fun t mem => (whole' t mem).isFinite, words, words,
    Formula.interleave_eq_iff (Formula.length_of_isComplete complete)
      (Formula.length_of_isComplete complete'),
    map_text_eq_iff whole whole', List.map_inj_right fun _ _ => (Operator.symbol_injective ·),
    equal]
  simp only [Bool.and_eq_true, beq_iff_eq]
  tauto

/-! ## Expressions of cards -/

theorem isWhole_of_cards (cards : ∀ t ∈ e.terms, ∃ v : CardValue, t.value = v.toFloat) :
    ∀ t ∈ e.terms, Double.IsWhole t.value := by
  have whole : ∀ v : CardValue, Double.IsWhole v.toFloat := by decide +kernel
  intro t mem
  obtain ⟨v, value⟩ := cards t mem
  exact value ▸ whole v

/-- Cards have no zero with a sign: expressions of cards that are equal are the same. -/
theorem eq_of_equal_of_cards (cards : ∀ t ∈ e.terms, ∃ v : CardValue, t.value = v.toFloat)
    (cards' : ∀ t ∈ e'.terms, ∃ v : CardValue, t.value = v.toFloat)
    (same : e.equal e' = true) : e = e' := by
  have apart : ∀ v w : CardValue, (v.toFloat == w.toFloat) = true → v = w := by decide +kernel
  obtain ⟨terms, ops⟩ := e
  obtain ⟨terms', ops'⟩ := e'
  simp only [equal, Bool.and_eq_true, beq_iff_eq, List.all_eq_true] at same
  obtain ⟨⟨rfl, length⟩, agree⟩ := same
  congr 1
  refine List.ext_getElem length fun i hi hi' => ?_
  have inside : i < (terms.zip terms').length := by simp [hi, hi']
  have pair := agree _ (List.getElem_mem inside)
  rw [List.getElem_zip] at pair
  obtain ⟨value, rooted⟩ := pair
  obtain ⟨v, hv⟩ := cards _ (List.getElem_mem hi)
  obtain ⟨w, hw⟩ := cards' _ (List.getElem_mem hi')
  rw [hv, hw] at value
  obtain rfl := apart v w value
  cases hs : terms[i]
  cases ht : terms'[i]
  simp_all

/-- What is made of cards is known from its text. -/
theorem text_eq_iff_of_cards (complete : e.isComplete = true) (complete' : e'.isComplete = true)
    (cards : ∀ t ∈ e.terms, ∃ v : CardValue, t.value = v.toFloat)
    (cards' : ∀ t ∈ e'.terms, ∃ v : CardValue, t.value = v.toFloat) :
    e.text = e'.text ↔ e = e' :=
  ⟨fun same => eq_of_equal_of_cards cards cards'
    ((text_eq_iff complete complete' (isWhole_of_cards cards) (isWhole_of_cards cards')).mp same),
    congrArg text⟩

/-! ## What is kept of a submission -/

theorem expression_of_success {j : Judgement} (success : j.evaluation.success = true) :
    (SideResult.of e j).expression = e.text := by
  simp [SideResult.of, success]

theorem get_expression_record (r : RoundResult) :
    Datum.get r.record "player_expression" = .text r.player.expression ∧
      Datum.get r.record "ai_expression" = .text r.ai.expression := ⟨rfl, rfl⟩

/-- The text of a complete expression of whole numbers tells which expression it is; and so does
the text that the result of a round, and the record of it in the history, keeps of a submission that
has a value. -/
theorem text_identifies (complete : e.isComplete = true) (complete' : e'.isComplete = true)
    (whole : ∀ t ∈ e.terms, Double.IsWhole t.value)
    (whole' : ∀ t ∈ e'.terms, Double.IsWhole t.value) :
    (e.text = e'.text ↔ e.equal e' = true) ∧
      ∀ (r r' : RoundResult) (j j' : Judgement),
        j.evaluation.success = true → j'.evaluation.success = true →
        (r.player = .of e j → r'.player = .of e' j' →
          (Datum.get r.record "player_expression" = Datum.get r'.record "player_expression" ↔
            e.equal e' = true)) ∧
        (r.ai = .of e j → r'.ai = .of e' j' →
          (Datum.get r.record "ai_expression" = Datum.get r'.record "ai_expression" ↔
            e.equal e' = true)) := by
  have same := text_eq_iff complete complete' whole whole'
  refine ⟨same, fun r r' j j' success success' => ⟨fun mine mine' => ?_, fun theirs theirs' => ?_⟩⟩
  · rw [(get_expression_record r).1, (get_expression_record r').1, Datum.text.injEq, mine, mine',
      expression_of_success success, expression_of_success success', same]
  · rw [(get_expression_record r).2, (get_expression_record r').2, Datum.text.injEq, theirs,
      theirs', expression_of_success success, expression_of_success success', same]

/-- A `-` before a negative number, and a zero of either sign: one text for equal expressions. -/
theorem text_identifies_signs :
    let e := Expression.ofParts [0, -10] [false, true] [.subtract]
    let e' := Expression.ofParts [-0, -10] [false, true] [.subtract]
    e.isComplete = true ∧ e'.isComplete = true ∧ (∀ t ∈ e.terms, Double.IsWhole t.value) ∧
      (∀ t ∈ e'.terms, Double.IsWhole t.value) ∧ e.text = "0 - √-10" ∧
      (e.text = e'.text ↔ e.equal e' = true) ∧ e.equal e' = true := by
  intro e e'
  have whole : ∀ t ∈ e.terms, Double.IsWhole t.value := by decide +kernel
  have whole' : ∀ t ∈ e'.terms, Double.IsWhole t.value := by decide +kernel
  exact ⟨rfl, rfl, whole, whole', by decide +kernel, (text_identifies rfl rfl whole whole').1,
    by decide +kernel⟩

end Expression

end NumberDuel
