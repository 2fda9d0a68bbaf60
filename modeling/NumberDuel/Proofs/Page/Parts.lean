import NumberDuel.Page.Basic
import NumberDuel.Proofs.Page.Turn
import NumberDuel.Proofs.Report.Agreement

/-!
# One run of the page

The solver and the simulation leave the match on the page alone, and so do the head and the foot of
the page. So a run of the page leads the match through the turn of the play tab, or through none
if the solver stops it. What stops a run is never that a match refuses a call, and submitting is
offered only on an open round whose expression is finished.
-/

namespace NumberDuel.Page

variable {s : Session} {pressed : Option Button} {part : Part} {e : Error}

/-! ## Elements -/

/-- Neither the report of an error nor a button to submit with. -/
def Element.isPlain : Element → Bool
  | .text .exception _ => false
  | .button .submit _ false => false
  | _ => true

/-- Plain, or the report of an error other than a refused call. -/
def Element.Harmless (el : Element) : Prop :=
  el.isPlain = true ∨ ∃ e : Error, el = .text .exception e.message ∧ e.isRefusal = false

/-- A part that leaves the match alone. -/
structure Aside (s : Session) (part : Part) : Prop where
  play : part.session.play = s.play
  inputs : part.session.inputs = s.inputs
  harmless : ∀ el ∈ part.elements, el.Harmless
  flow : part.flow ≠ .again
  stopped : ∀ e, part.flow = .stop e → e.isRefusal = false

theorem harmless_of_all {elements : List Element} (plain : elements.all Element.isPlain = true) :
    ∀ el ∈ elements, el.Harmless :=
  fun el shown => .inl (List.all_eq_true.mp plain el shown)

theorem plain_sidebar (s : Session) : (sidebar s).all Element.isPlain = true := rfl

theorem plain_solutionElements (solution : Solution) :
    (solutionElements solution).all Element.isPlain = true := by
  unfold solutionElements
  split
  · rfl
  · split <;> rfl

theorem isRefusal_of_solve {hand : Hand} {target : Int}
    (failed : Solution.solve hand target = .error e) : e.isRefusal = false := by
  rcases bind_error failed with played | ⟨x, -, judged⟩
  · change Strategy.smart.play hand target = .error e at played
    obtain ⟨rfl, -⟩ := Strategy.play_error played
    rfl
  · unfold Solution.ofExpression at judged
    dsimp only at judged
    split at judged
    · cases judged
    split at judged
    · cases judged
      rfl
    · cases judged

theorem aside_solvedPart (s : Session) (hand : Hand) : Aside s (solvedPart s hand) := by
  have inputs : (solverInputs s.inputs).all Element.isPlain = true := rfl
  unfold solvedPart
  dsimp only
  split
  · next solution _ =>
    refine ⟨rfl, rfl, harmless_of_all ?_, nofun, nofun⟩
    rw [List.all_append, plain_solutionElements, Bool.and_true]
    exact inputs
  · next failed =>
    refine ⟨rfl, rfl, harmless_of_all inputs, nofun, ?_⟩
    rintro _ ⟨⟩
    exact isRefusal_of_solve failed

theorem aside_solverTab (s : Session) (pressed : Option Button) :
    Aside s (solverTab s pressed) := by
  have inputs : (solverInputs s.inputs).all Element.isPlain = true := rfl
  unfold solverTab
  dsimp only
  split
  · split
    · refine ⟨rfl, rfl, harmless_of_all ?_, nofun, nofun⟩
      rw [List.all_append, inputs]
      rfl
    · exact ⟨rfl, rfl, harmless_of_all inputs, nofun, nofun⟩
    · exact aside_solvedPart s _
  · exact ⟨rfl, rfl, harmless_of_all inputs, nofun, nofun⟩

/-! ## The simulation -/

theorem isRefusal_of_ofPreset {preset : Preset} {name : String} {playerOverride : Option Strategy}
    {seed : Int}
    (failed : (MatchReport.ofPreset preset name playerOverride seed).result = .error e) :
    e.isRefusal = false := by
  rw [MatchReport.result_ofPreset] at failed
  rcases simulated : Game.simulate preset.config
    { preset.players with player := playerOverride.getD preset.player } seed name none with
    ⟨g, e' | ⟨⟩⟩ <;> rw [simulated] at failed <;> cases failed
  exact (Game.simulate_error simulated).isRefusal

theorem isRefusal_of_simulateMatches {preset : Preset} {name : String} {left : Nat} {seed : Int}
    (failed : (simulateMatches preset name left seed).2.result = .error e) :
    e.isRefusal = false := by
  induction left generalizing seed with
  | zero => cases failed
  | succ left ih =>
    unfold simulateMatches at failed
    dsimp only at failed
    split at failed
    · next e' stopped =>
      rw [Printed.result_map, stopped] at failed
      cases failed
      exact isRefusal_of_ofPreset stopped
    · next played =>
      rw [Printed.result_bind, played] at failed
      rcases bind_error failed with never | ⟨report, -, others⟩
      · cases never
      rw [Printed.result_bind] at others
      rcases bind_error others with rest | ⟨_, -, never⟩
      · exact ih rest
      · cases never

theorem isRefusal_of_batchOf {runs : Int} {preset : String} {reports : List MatchReport}
    (failed : batchOf runs preset reports = .error e) : e.isRefusal = false := by
  have mean (d : Distances) (side : List Int) (far : d.mean side = .error e) :
      e.isRefusal = false := by
    unfold Distances.mean at far
    split at far
    · cases far
    split at far
    · cases far
    split at far
    · cases far
    · cases far
      rfl
  rcases bind_error failed with player | ⟨_, -, failed⟩
  · exact mean _ _ player
  rcases bind_error failed with ai | ⟨_, -, never⟩
  · exact mean _ _ ai
  · cases never

theorem plain_resultElements (b : BatchReport) :
    (resultElements b).all Element.isPlain = true := by
  have wins : (winsElement b).isPlain = true := by
    unfold winsElement
    dsimp only
    split
    · rfl
    split <;> rfl
  simp only [resultElements, List.all_cons, wins]
  rfl

theorem batchElements_spec (runs : Int) (preset : String) (reports : List MatchReport) :
    (batchElements runs preset reports).1.all Element.isPlain = true ∧
      (batchElements runs preset reports).2 ≠ .again ∧
      ∀ e, (batchElements runs preset reports).2 = .stop e → e.isRefusal = false := by
  unfold batchElements
  dsimp only
  split
  · next failed =>
    refine ⟨rfl, nofun, ?_⟩
    rintro _ ⟨⟩
    exact isRefusal_of_batchOf failed
  · next b _ =>
    have results := plain_resultElements b
    split
    · refine ⟨?_, nofun, nofun⟩
      have chart (d : Distances) : (distanceChart d).all Element.isPlain = true := by
        unfold distanceChart
        dsimp only
        split <;> rfl
      simp only [List.all_append, results, chart]
      rfl
    · refine ⟨results, nofun, ?_⟩
      rintro _ ⟨⟩
      rfl

theorem aside_simulationTab (s : Session) (pressed : Option Button) :
    Aside s (simulationTab s pressed) := by
  unfold simulationTab
  dsimp only
  split
  · split
    · next failed =>
      refine ⟨rfl, rfl, harmless_of_all rfl, nofun, ?_⟩
      rintro _ ⟨⟩
      exact isRefusal_of_simulateMatches failed
    · next reports _ =>
      obtain ⟨plain, flow, stopped⟩ :=
        batchElements_spec s.inputs.games s.inputs.preset reports
      refine ⟨rfl, rfl, harmless_of_all ?_, flow, stopped⟩
      rw [List.all_append]
      exact Bool.and_eq_true_iff.mpr ⟨rfl, plain⟩
  · exact ⟨rfl, rfl, harmless_of_all rfl, nofun, nofun⟩

/-! ## The play tab -/

theorem plain_cardButtons (p : Play) : (cardButtons p).all Element.isPlain = true := by
  simp [cardButtons, Element.isPlain]

theorem plain_roundHead (p : Play) : (roundHead p).all Element.isPlain = true := by
  have message : (if p.message.isEmpty then [] else [Element.text .caption p.message]).all
      Element.isPlain = true := by
    split <;> rfl
  rw [roundHead, List.all_append, message]
  rfl

theorem plain_lastElements (p : Play) : (lastElements p).all Element.isPlain = true := by
  have kind (r : RoundResult) (body : String) :
      (Element.text (resultKind r) body).isPlain = true := by
    unfold resultKind
    split <;> rfl
  unfold lastElements
  split
  · rfl
  · simp only [List.all_cons, kind]
    rfl

/-- What the play tab shows of a match: submitting is offered only where the expression of an open
round is finished. -/
def Play.Offers (p : Play) (el : Element) : Prop :=
  el.isPlain = true ∨
    (∃ label, el = .button .submit label false) ∧ p.game.dealt = true ∧ p.builder.isFinished = true

theorem offers_of_all {p : Play} {elements : List Element}
    (plain : elements.all Element.isPlain = true) : ∀ el ∈ elements, p.Offers el :=
  fun el shown => .inl (List.all_eq_true.mp plain el shown)

theorem offers_overPart (s : Session) (p : Play) (pressed : Option Button) :
    ∀ el ∈ (overPart s p.game pressed).elements, p.Offers el := by
  have plain :
      [overElement p.game, .button .newMatch "New match" false].all Element.isPlain = true := by
    unfold overElement
    split <;> rfl
  unfold overPart
  dsimp only
  split <;> exact offers_of_all plain

theorem offers_bettingPart (s : Session) (p : Play) (pressed : Option Button) :
    ∀ el ∈ (bettingPart s p pressed).elements, p.Offers el := by
  unfold bettingPart
  dsimp only
  split
  · nofun
  split
  · split <;> exact offers_of_all rfl
  · exact offers_of_all rfl

theorem offers_roundPart (s : Session) (p : Play) (opened : p.game.dealt = true)
    (pressed : Option Button) : ∀ el ∈ (roundPart s p pressed).elements, p.Offers el := by
  have cards : (roundHead p ++ cardButtons p).all Element.isPlain = true := by
    rw [List.all_append, plain_roundHead, plain_cardButtons]
    rfl
  have withReset : (roundHead p ++ cardButtons p ++
      [Element.button .reset "Reset expression" false]).all Element.isPlain = true := by
    rw [List.all_append, cards]
    rfl
  have whole : ∀ el ∈ roundHead p ++ cardButtons p ++
      [Element.button .reset "Reset expression" false] ++
      [Element.button .submit "Submit" (!p.builder.isFinished)], p.Offers el := by
    intro el shown
    rcases List.mem_append.mp shown with before | last
    · exact offers_of_all withReset el before
    · obtain rfl := List.mem_singleton.mp last
      cases finished : p.builder.isFinished with
      | true => exact .inr ⟨⟨_, rfl⟩, opened, finished⟩
      | false => exact .inl rfl
  unfold roundPart
  dsimp only
  split
  · exact offers_of_all cards
  split
  · exact offers_of_all withReset
  · split <;> exact whole
  · exact whole

theorem offers_playTab (s : Session) (pressed : Option Button) :
    ∀ el ∈ (playTab s pressed).elements, s.current.2.Offers el := by
  rw [playTab]
  generalize s.current = current
  obtain ⟨s', p⟩ := current
  intro el shown
  rcases List.mem_append.mp shown with front | last
  · rcases List.mem_append.mp front with metrics | part
    · exact offers_of_all rfl el metrics
    · cases ended : p.game.isOver with
      | true =>
        simp only [ended] at part
        exact offers_overPart s' p pressed el part
      | false =>
        cases opened : p.game.dealt with
        | false =>
          simp only [ended, opened] at part
          exact offers_bettingPart s' p pressed el part
        | true =>
          simp only [ended, opened] at part
          exact offers_roundPart s' p opened pressed el part
  · exact offers_of_all (plain_lastElements p) el (List.mem_ite_nil_right.mp last).2

/-! ## All parts -/

theorem harmless_exception (counts : e.isRefusal = false) :
    Element.Harmless (.text .exception e.message) := .inr ⟨e, rfl, counts⟩

/-- The elements of one part before those of another. -/
theorem Aside.before {rest : Part} (first : Aside s part) (later : Aside part.session rest) :
    Aside s { rest with elements := part.elements ++ rest.elements } where
  play := later.play.trans first.play
  inputs := later.inputs.trans first.inputs
  harmless el shown := (List.mem_append.mp shown).elim (first.harmless el) (later.harmless el)
  flow := later.flow
  stopped := later.stopped

/-- Behind a part that leaves the match alone come the others, unless it stops the run. -/
theorem runParts_aside_cons {tab : Session → Option Button → Part}
    (tabs : List (Session → Option Button → Part)) (first : Aside s (tab s pressed)) :
    Aside s (runParts s pressed (tab :: tabs)) ∨
      runParts s pressed (tab :: tabs) =
        { runParts (tab s pressed).session pressed tabs with
          elements := (tab s pressed).elements ++
            (runParts (tab s pressed).session pressed tabs).elements } := by
  rw [runParts]
  dsimp only
  split
  · exact .inr rfl
  · next again => exact absurd again first.flow
  · next e stop =>
    refine .inl ⟨first.play, first.inputs, fun el shown => ?_, first.flow, first.stopped⟩
    rcases List.mem_append.mp shown with before | last
    · exact first.harmless el before
    · obtain rfl := List.mem_singleton.mp last
      exact harmless_exception (first.stopped e stop)

/-- Parts that leave the match alone do so together. -/
theorem aside_runParts {tabs : List (Session → Option Button → Part)}
    (aside : ∀ tab ∈ tabs, ∀ s pressed, Aside s (tab s pressed)) (s : Session)
    (pressed : Option Button) : Aside s (runParts s pressed tabs) := by
  induction tabs generalizing s with
  | nil => exact ⟨rfl, rfl, nofun, nofun, nofun⟩
  | cons tab tabs ih =>
    obtain ⟨here, later⟩ := List.forall_mem_cons.mp aside
    rcases runParts_aside_cons tabs (here s pressed) with stopped | goes_on
    · exact stopped
    · rw [goes_on]
      exact (here s pressed).before (ih later _)

/-- What parts of the page do to the match of a session: nothing, or one turn of the match that the
play tab shows. -/
inductive Led (s : Session) (pressed : Option Button) (part : Part) : Prop
  | aside (aside : Aside s part)
  | turned {base : Session} {p' : Play} {flow : Flow} (samePlay : base.play = s.play)
      (sameInputs : base.inputs = s.inputs) (turn : Turn base.current.2 pressed p' flow)
      (own : p'.preset = s.inputs.preset) (play : part.session.play = some p'.tidy)
      (inputs : part.session.inputs = s.inputs) (again : flow = .again → part.flow = .again)
      (shown : ∀ el ∈ part.elements, el.Harmless ∨ base.current.2.Offers el)

theorem led_aside_cons {tab : Session → Option Button → Part}
    {tabs : List (Session → Option Button → Part)} (first : Aside s (tab s pressed))
    (rest : Led (tab s pressed).session pressed (runParts (tab s pressed).session pressed tabs)) :
    Led s pressed (runParts s pressed (tab :: tabs)) := by
  rcases runParts_aside_cons tabs first with stopped | goes_on
  · exact .aside stopped
  rw [goes_on]
  cases rest with
  | aside rest => exact .aside (first.before rest)
  | turned samePlay sameInputs turn own play inputs again shown =>
    refine .turned (samePlay.trans first.play) (sameInputs.trans first.inputs) turn
      (own.trans (congrArg _ first.inputs)) play (inputs.trans first.inputs) again fun el here => ?_
    rcases List.mem_append.mp here with before | later
    · exact .inl (first.harmless el before)
    · exact shown el later

theorem led_playTab_cons {tabs : List (Session → Option Button → Part)}
    (sound : ∀ p, s.play = some p → p.Sound)
    (rest : Aside (playTab s pressed).session
      (runParts (playTab s pressed).session pressed tabs)) :
    Led s pressed (runParts s pressed (playTab :: tabs)) := by
  obtain ⟨p', turn, own, play, inputs⟩ := playTab_turn s pressed
  have offers := offers_playTab s pressed
  unfold runParts
  dsimp only
  split
  · next next =>
    refine .turned rfl rfl turn own (rest.play.trans play) (rest.inputs.trans inputs) ?_
      fun el here => ?_
    · intro again
      cases next.symm.trans again
    · rcases List.mem_append.mp here with before | later
      · exact .inr (offers el before)
      · exact .inl (rest.harmless el later)
  · next again =>
    exact .turned rfl rfl turn own play inputs (fun _ => again) fun el here => .inr (offers el here)
  · next e stop =>
    refine .turned rfl rfl turn own play inputs (fun again => again) fun el here => ?_
    rcases List.mem_append.mp here with before | last
    · exact .inr (offers el before)
    · obtain rfl := List.mem_singleton.mp last
      exact .inl (harmless_exception (turn.isRefusal (sound_current sound) stop))

theorem led_runParts (sound : ∀ p, s.play = some p → p.Sound) (pressed : Option Button) :
    Led s pressed (runParts s pressed
      [fun s _ => ⟨s, heading, .next⟩, solverTab, playTab, simulationTab,
        fun s _ => ⟨s, footer, .next⟩]) := by
  have head (s : Session) : Aside s ⟨s, heading, .next⟩ :=
    ⟨rfl, rfl, harmless_of_all rfl, nofun, nofun⟩
  have foot (s : Session) : Aside s ⟨s, footer, .next⟩ :=
    ⟨rfl, rfl, harmless_of_all rfl, nofun, nofun⟩
  refine led_aside_cons (head s) (led_aside_cons (aside_solverTab s pressed) ?_)
  have play : (solverTab s pressed).session.play = s.play := (aside_solverTab s pressed).play
  refine led_playTab_cons (fun p here => sound p (play.symm.trans here)) ?_
  refine aside_runParts (fun tab listed s pressed => ?_) _ pressed
  rcases List.mem_cons.mp listed with rfl | last
  · exact aside_simulationTab s pressed
  · obtain rfl := List.mem_singleton.mp last
    exact foot s

end NumberDuel.Page
