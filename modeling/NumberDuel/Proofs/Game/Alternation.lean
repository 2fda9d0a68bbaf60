import NumberDuel.Proofs.Game.Match
import NumberDuel.Proofs.Game.Recording

/-!
# Rounds in turn

A dealt round waits to be settled, and `dealt` tells whether one does. Scoring looks at this flag,
dealing and settling do not. So the history tells of rounds that are dealt and settled in turn only
if whoever makes the calls keeps to it: no deal while a round is open, no settlement while none is.
-/

namespace NumberDuel

/-! ## Alternating marks -/

namespace History

def marks (h : History) : List String :=
  (h.events.map (·.kind)).filter fun kind => kind == roundStart || kind == roundResult

@[simp]
theorem marks_addRoundStart (h : History) (round target bet : Int) (playerHand aiHand : String) :
    (h.addRoundStart round target bet playerHand aiHand).marks = h.marks ++ [roundStart] := by
  simp [marks, addRoundStart, add]

@[simp]
theorem marks_addRoundResult (h : History) (round : Int) (result : List (String × Datum)) :
    (h.addRoundResult round result).marks = h.marks ++ [roundResult] := by
  simp [marks, addRoundResult, add]

@[simp]
theorem marks_addMatchEnd (h : History) (round : Int) (winner : Option String)
    (playerCredits aiCredits : Int) :
    (h.addMatchEnd round winner playerCredits aiCredits).marks = h.marks := by
  simp [marks, addMatchEnd, add, matchEnd, roundStart, roundResult]

/-- The kind that stands at this place where rounds are opened and closed in turn. -/
def markAt (i : Nat) : String := if i % 2 = 0 then roundStart else roundResult

theorem markAt_eq_roundStart {i : Nat} : markAt i = roundStart ↔ i % 2 = 0 := by
  unfold markAt
  split <;> simp_all [roundStart, roundResult]

theorem markAt_eq_roundResult {i : Nat} : markAt i = roundResult ↔ i % 2 = 1 := by
  unfold markAt
  split <;> simp_all [roundStart, roundResult]

/-- Rounds are opened and closed in turn, an opening first. -/
def Alternates (marks : List String) : Prop := marks = (List.range marks.length).map markAt

theorem alternates_append_singleton {marks : List String} {mark : String} :
    Alternates (marks ++ [mark]) ↔ Alternates marks ∧ mark = markAt marks.length := by
  unfold Alternates
  rw [List.length_append, List.length_singleton, List.range_succ, List.map_append,
    List.map_singleton]
  constructor
  · intro h
    obtain ⟨front, last⟩ := List.append_inj' h rfl
    exact ⟨front, List.singleton_inj.mp last⟩
  · rintro ⟨front, rfl⟩
    exact congrArg (· ++ _) front

theorem Alternates.of_prefix {front marks : List String} (h : Alternates marks)
    (before : front <+: marks) : Alternates front := by
  unfold Alternates at h ⊢
  rw [List.prefix_iff_eq_take.mp before, h, ← List.map_take, List.take_range]
  simp

end History

namespace Game

/-! ## Calls in any order -/

/-- A match, and the results it was scored to so far. Any of them can be settled at any time. -/
structure Table where
  game : Game
  scored : List RoundResult := []

/-- A call on a match; a result is settled by its place among those scored so far. -/
inductive Call where
  | deal (target bet : Option Int)
  | score (player ai : Expression)
  | settle (i : Nat)

namespace Table

def start (config : GameConfig) (seed : Int) (preset : String) : Table where
  game := Game.start config seed preset

def call (t : Table) : Call → Table
  | .deal target bet => { t with game := (t.game.deal target bet).1 }
  | .score player ai =>
    match t.game.score player ai with
    | (game, .ok result) => ⟨game, t.scored ++ [result]⟩
    | (game, .error _) => { t with game := game }
  | .settle i =>
    match t.scored[i]? with
    | some result => { t with game := t.game.settle result }
    | none => t

def run (t : Table) (calls : List Call) : Table := calls.foldl call t

def marks (t : Table) : List String := t.game.history.marks

/-- Whether a call keeps to the flag: no deal replaces an open round, and a result is settled only
while a round is open. -/
def Fits (t : Table) : Call → Prop
  | .deal target bet => (t.game.deal target bet).2 = .ok () → t.game.dealt = false
  | .score _ _ => True
  | .settle i => i < t.scored.length → t.game.dealt = true

def InTurn (t : Table) : List Call → Prop
  | [] => True
  | c :: calls => t.Fits c ∧ (t.call c).InTurn calls

/-! ## What a call records -/

/-- What a call can do to the marks and the flag. -/
inductive Effect (t : Table) (c : Call) : Prop
  | idle (fits : t.Fits c) (dealt : (t.call c).game.dealt = t.game.dealt)
      (marks : (t.call c).marks = t.marks)
  | opens (fits : t.Fits c ↔ t.game.dealt = false) (dealt : (t.call c).game.dealt = true)
      (marks : (t.call c).marks = t.marks ++ [History.roundStart])
  | closes (fits : t.Fits c ↔ t.game.dealt = true) (dealt : (t.call c).game.dealt = false)
      (marks : (t.call c).marks = t.marks ++ [History.roundResult])

theorem dealt_settle (g : Game) (r : RoundResult) : (g.settle r).dealt = false := by
  obtain ⟨history, kept, eq⟩ := g.settle_eq r
  rw [eq]

theorem marks_settle (g : Game) (r : RoundResult) :
    (g.settle r).history.marks = g.history.marks ++ [History.roundResult] := by
  rw [history_settle]
  split <;> simp

variable {config : GameConfig} {t : Table} {c : Call}

theorem effect (t : Table) (c : Call) : Effect t c := by
  cases c with
  | deal target bet =>
    have recorded := recorded_deal t.game target bet
    generalize outcome : t.game.deal target bet = dealt at recorded
    cases recorded with
    | opened dealt aimed recorded =>
      refine .opens ?_ ?_ ?_
      · simp [Fits, outcome]
      · simpa [call, outcome] using dealt
      · simp [marks, call, outcome, recorded]
    | failed dealt recorded =>
      refine .idle ?_ ?_ ?_
      · simp [Fits, outcome]
      · simpa [call, outcome] using dealt
      · simp [marks, call, outcome, recorded]
  | score player ai =>
    obtain ⟨kept, eq⟩ := t.game.score_eq player ai
    have same : (t.call (.score player ai)).game = { t.game with notes := kept } := by
      cases scored : t.game.scored player ai <;> simp only [call, eq, scored]
    exact .idle trivial (by rw [same]) (by rw [marks, same, marks])
  | settle i =>
    cases found : t.scored[i]? with
    | none =>
      have absent := List.getElem?_eq_none_iff.mp found
      have same : t.call (.settle i) = t := by rw [call, found]
      exact .idle (fun present => absurd present (not_lt.mpr absent)) (by rw [same]) (by rw [same])
    | some r =>
      obtain ⟨present, -⟩ := List.getElem?_eq_some_iff.mp found
      have settled : t.call (.settle i) = { t with game := t.game.settle r } := by rw [call, found]
      refine .closes ⟨fun fits => fits present, fun opened _ => opened⟩ ?_ ?_
      · rw [settled]
        exact dealt_settle t.game r
      · rw [settled]
        exact marks_settle t.game r

theorem marks_prefix_run (t : Table) (calls : List Call) : t.marks <+: (t.run calls).marks := by
  induction calls generalizing t with
  | nil => exact List.prefix_rfl
  | cons c calls ih =>
    refine List.IsPrefix.trans ?_ (ih (t.call c))
    cases effect t c with
    | idle _ _ marks => rw [marks]
    | opens _ _ marks | closes _ _ marks =>
      rw [marks]
      exact List.prefix_append ..

/-! ## The order of the marks -/

/-- The marks are in order so far, and the flag tells which one comes next. -/
structure Orderly (t : Table) : Prop where
  alternates : History.Alternates t.marks
  opened : t.game.dealt = true ↔ t.marks.length % 2 = 1

theorem orderly_start (config : GameConfig) (seed : Int) (preset : String) :
    Orderly (start config seed preset) := by
  obtain ⟨chooser, random, eq⟩ := start_eq config seed preset
  rw [start, eq]
  exact ⟨rfl, by simp [marks, History.marks]⟩

/-- The marks stay in order exactly if the call fits. -/
theorem Orderly.alternates_call_iff (h : Orderly t) :
    History.Alternates (t.call c).marks ↔ t.Fits c := by
  cases effect t c with
  | idle fits _ marks => simp [marks, h.alternates, fits]
  | opens fits _ marks =>
    rw [marks, History.alternates_append_singleton, fits, ← Bool.not_eq_true, h.opened, eq_comm,
      History.markAt_eq_roundStart]
    simp [h.alternates]
  | closes fits _ marks =>
    rw [marks, History.alternates_append_singleton, fits, h.opened, eq_comm,
      History.markAt_eq_roundResult]
    simp [h.alternates]

theorem Orderly.call (h : Orderly t) (fits : t.Fits c) : Orderly (t.call c) := by
  refine ⟨h.alternates_call_iff.mpr fits, ?_⟩
  have opened := h.opened
  cases effect t c with
  | idle _ dealt marks => rw [dealt, marks, opened]
  | opens closed dealt marks =>
    rw [closed.mp fits] at opened
    simp only [dealt, marks, List.length_append, List.length_singleton]
    grind
  | closes waits dealt marks =>
    rw [waits.mp fits] at opened
    simp only [dealt, marks, List.length_append, List.length_singleton]
    grind

theorem Orderly.alternates_run_iff (h : Orderly t) (calls : List Call) :
    History.Alternates (t.run calls).marks ↔ t.InTurn calls := by
  induction calls generalizing t with
  | nil => exact iff_of_true h.alternates trivial
  | cons c calls ih =>
    constructor
    · intro alternates
      have fits := h.alternates_call_iff.mp
        (alternates.of_prefix (marks_prefix_run (t.call c) calls))
      exact ⟨fits, (ih (h.call fits)).mp alternates⟩
    · rintro ⟨fits, rest⟩
      exact (ih (h.call fits)).mpr rest

/-- Whatever is called in whatever order, the rounds of a match are opened and settled in turn
exactly if no deal came through while a round was open, and no result was settled while none was. -/
theorem alternates_iff_inTurn (config : GameConfig) (seed : Int) (preset : String)
    (calls : List Call) :
    History.Alternates ((start config seed preset).run calls).marks ↔
      (start config seed preset).InTurn calls :=
  (orderly_start config seed preset).alternates_run_iff calls

/-- In a match by fair rules a result can be settled twice, the second time out of turn. -/
theorem not_inTurn_twice (fair : config.Fair) (rules : t.game.config = config)
    (deck : t.game.deck.OfRules config) (going : t.game.isOver = false) (fresh : t.scored = []) :
    ¬ t.InTurn [.deal none none, .score {} {}, .settle 0, .settle 0] := by
  subst rules
  rintro ⟨-, -, -, again, -⟩
  obtain ⟨dealt, dealt_eq, ready⟩ :=
    (deals_deal going fair.targets none).exists_ready fair deck
  obtain ⟨target, -, aimed⟩ := ready.target
  obtain ⟨r, scored⟩ : ∃ r, dealt.scored {} {} = .ok r :=
    ⟨_, scored_of_judged ready.opened aimed rfl rfl⟩
  obtain ⟨kept, score_eq⟩ := dealt.score_eq {} {}
  simp [Fits, call, fresh, dealt_eq, score_eq, scored, dealt_settle] at again

/-- Nothing keeps a result from being settled again, and then two settlements follow one deal. -/
theorem not_alternates :
    ¬ ∀ (config : GameConfig) (seed : Int) (preset : String) (calls : List Call),
      History.Alternates ((start config seed preset).run calls).marks := by
  intro alternates
  have fair : GameConfig.hard.Fair :=
    @Preset.fair_of_mem_builtIn "hard" Preset.hard (by decide)
  have twice := alternates .hard 7 "hard" [.deal none none, .score {} {}, .settle 0, .settle 0]
  have going : (Game.start .hard 7 "hard").isOver = false :=
    isOver_start (by decide) (by decide) 7 "hard"
  exact not_inTurn_twice fair (config_start .hard 7 "hard") (ofRules_start .hard 7 "hard") going rfl
    (((orderly_start .hard 7 "hard").alternates_run_iff _).mp twice)

end Table

end Game

end NumberDuel
