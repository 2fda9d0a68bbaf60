import NumberDuel.Proofs.Game.Ending
import NumberDuel.Proofs.Page.Parts

/-!
# Playing on the page

Whatever a player presses and sets, in whatever order, the page drives the match as it has to be
driven: each round is dealt once and settled once, the builder is on the hand of the open round, and
nothing is scored that leaves a number card out.
-/

namespace NumberDuel

/-! ## The wording of a refused call -/

theorem ne_of_take {s t : String} (n : Nat) (apart : s.toList.take n ≠ t.toList.take n) : s ≠ t :=
  fun same => apart (same ▸ rfl)

theorem head_quote (s rest more : String) :
    (Text.quote s ++ rest ++ more).toList.head? = some '\x27' ∨
      (Text.quote s ++ rest ++ more).toList.head? = some '\x22' := by
  simp only [Text.quote, Text.quoteMark, String.toList_append, String.toList_ofList]
  split <;> simp

/-- No other error is worded like a refused call. -/
theorem Error.message_ne {e : Error} (counts : e.isRefusal = false) :
    e.message ≠ Error.matchOver.message ∧ e.message ≠ Error.noOpenRound.message := by
  change e.message ≠ "The match is over" ∧ e.message ≠ "No round has been dealt"
  cases e with
  | matchOver | noOpenRound => cases counts
  | unknownWord vocabulary text =>
    -- the word may be any text at all, but it is quoted
    change Text.quote text ++ " is not a valid " ++ vocabulary.label ≠ _ ∧
      Text.quote text ++ " is not a valid " ++ vocabulary.label ≠ _
    have head := head_quote text " is not a valid " vocabulary.label
    constructor <;> intro same <;> rw [same] at head <;> simp at head
  | sliderEndTooLow which bound | sliderEndTooHigh which bound =>
    delta message
    constructor <;> refine ne_of_take 5 ?_ <;> cases which <;> simp [SliderEnd.label]
  | sliderBoundsEqual | unknownPreset =>
    delta message
    constructor <;> exact ne_of_take 5 (by simp)
  | _ =>
    delta message
    simp

namespace Page

variable {s : Session} {pressed : Option Button} {w w' : Window} {p : Play}

/-! ## The selected preset -/

theorem preset_forget (i : Inputs) {field : Field} (other : field ≠ .preset) :
    (i.forget field).preset = i.preset := by
  cases field <;> first | rfl | exact absurd rfl other

theorem preset_foldl_forget {fields : List Field} (others : ∀ field ∈ fields, field ≠ .preset)
    (i : Inputs) : (fields.foldl Inputs.forget i).preset = i.preset := by
  induction fields generalizing i with
  | nil => rfl
  | cons field fields ih =>
    obtain ⟨here, later⟩ := List.forall_mem_cons.mp others
    exact (ih later _).trans (preset_forget i here)

/-- The preset is always shown, so no run of the page forgets which one is selected. -/
theorem preset_inputsAfter (part : Part) :
    (inputsAfter part).preset = part.session.inputs.preset := by
  unfold inputsAfter
  split
  · have shown (field : Field) (dropped : field ∈ Field.all.filter fun f =>
        !(sidebar part.session ++ part.elements).any fun e => e.field? == some f) :
        field ≠ .preset := by
      rintro rfl
      have hidden := (List.mem_filter.mp dropped).2
      simp [sidebar, Element.field?] at hidden
    have kept := preset_foldl_forget shown part.session.inputs
    unfold Inputs.keepShown
    dsimp only
    split
    · split
      · exact kept
      · exact (preset_forget _ (by decide)).trans kept
    · exact kept
  · rfl

/-! ## One run -/

/-- What holds of the page and its match between the interactions. -/
structure Window.Sound (w : Window) : Prop where
  play : ∀ p, w.session.play = some p → p.Sound
  submit : ∀ label, Element.button .submit label false ∈ w.elements →
    ∃ p, w.session.play = some p ∧ p.preset = w.session.inputs.preset ∧ p.game.dealt = true ∧
      p.builder.isFinished = true
  exception : ∀ body, Element.text .exception body ∈ w.elements →
    ∃ e : Error, body = e.message ∧ e.isRefusal = false

/-- One run of the page leads its match, and keeps the selected preset. -/
theorem led_runOnce (sound : ∀ p, s.play = some p → p.Sound) (pressed : Option Button) :
    ∃ part, Led s pressed part ∧ (runOnce s pressed).session.play = part.session.play ∧
      (runOnce s pressed).session.inputs.preset = s.inputs.preset ∧
      (runOnce s pressed).elements = part.elements ∧ (runOnce s pressed).flow = part.flow := by
  have led := led_runParts sound pressed
  refine ⟨_, led, rfl, (preset_inputsAfter _).trans ?_, rfl, rfl⟩
  cases led with
  | aside aside => exact congrArg _ aside.inputs
  | turned _ _ _ _ _ inputs => exact congrArg _ inputs

theorem sound_runOnce (sound : ∀ p, s.play = some p → p.Sound) (pressed : Option Button) :
    ∀ p, (runOnce s pressed).session.play = some p → p.Sound := by
  obtain ⟨part, led, play, -⟩ := led_runOnce sound pressed
  intro p here
  rw [play] at here
  cases led with
  | aside aside => exact sound p (aside.play.symm.trans here)
  | turned samePlay _ turn _ play =>
    obtain rfl := Option.some.inj (play.symm.trans here)
    exact (turn.sound (sound_current fun p same => sound p (samePlay.symm.trans same))).tidy

theorem Element.not_harmless_submit (label : String) :
    ¬ Element.Harmless (.button .submit label false) := by
  rintro (plain | ⟨e, same, -⟩)
  · cases plain
  · cases same

theorem Element.Harmless.exists_error {body : String}
    (h : Element.Harmless (.text .exception body)) :
    ∃ e : Error, body = e.message ∧ e.isRefusal = false := by
  rcases h with plain | ⟨e, same, counts⟩
  · cases plain
  · cases same
    exact ⟨e, rfl, counts⟩

theorem Play.Offers.of_submit {label : String} (h : p.Offers (.button .submit label false)) :
    p.game.dealt = true ∧ p.builder.isFinished = true := by
  rcases h with plain | ⟨-, open_finished⟩
  · cases plain
  · exact open_finished

theorem Play.not_offers_exception (p : Play) (body : String) :
    ¬ p.Offers (.text .exception body) := by
  rintro (plain | ⟨⟨label, same⟩, -⟩)
  · cases plain
  · cases same

/-- What is shown after a run is offered by the match as it then is, unless the page starts over. -/
theorem offers_shown (sound : ∀ p, s.play = some p → p.Sound)
    (quiet : pressed = none ∨ (runOnce s pressed).flow ≠ .again) :
    ∀ el ∈ sidebar (runOnce s pressed).session ++ (runOnce s pressed).elements, el.Harmless ∨
      ∃ p, (runOnce s pressed).session.play = some p ∧
        p.preset = (runOnce s pressed).session.inputs.preset ∧ p.Offers el := by
  obtain ⟨part, led, play, preset, elements, flow_eq⟩ := led_runOnce sound pressed
  intro el shown
  rcases List.mem_append.mp shown with side | main
  · exact .inl (harmless_of_all (plain_sidebar _) el side)
  rw [elements] at main
  cases led with
  | aside aside => exact .inl (aside.harmless el main)
  | @turned base p' flow _ _ turn own play' _ again offers =>
    -- the elements show the match before the turn, and the session holds the one behind it
    have stays : flow ≠ .again := by
      rcases quiet with rfl | stays
      · exact turn.of_none.2
      · exact fun starts => stays (flow_eq.trans (again starts))
    obtain ⟨builder, dealt⟩ := turn.steady stays
    refine (offers el main).imp_right fun offered =>
      ⟨p'.tidy, play.trans play', own.trans preset.symm, ?_⟩
    unfold Play.Offers at offered ⊢
    rw [← dealt, ← builder] at offered
    exact offered

theorem sound_shown (sound : ∀ p, s.play = some p → p.Sound)
    (quiet : pressed = none ∨ (runOnce s pressed).flow ≠ .again) :
    Window.Sound ⟨(runOnce s pressed).session,
      ⟨sidebar (runOnce s pressed).session, (runOnce s pressed).elements⟩⟩ where
  play := sound_runOnce sound pressed
  submit label shown := by
    rcases offers_shown sound quiet _ shown with harmless | ⟨p, here, own, offers⟩
    · exact absurd harmless (Element.not_harmless_submit label)
    · exact ⟨p, here, own, offers.of_submit⟩
  exception body shown := by
    rcases offers_shown sound quiet _ shown with harmless | ⟨p, -, -, offers⟩
    · exact harmless.exists_error
    · exact absurd offers (p.not_offers_exception body)

theorem sound_run (sound : ∀ p, s.play = some p → p.Sound) (pressed : Option Button) :
    (run s pressed).Sound := by
  unfold run
  dsimp only
  split
  · exact sound_shown (sound_runOnce sound pressed) (.inl rfl)
  · next shown => exact sound_shown sound (.inr shown)

/-! ## What a run scores -/

theorem results_runOnce (sound : ∀ p, s.play = some p → p.Sound)
    (finished : pressed = some .submit → ∀ p, s.play = some p → p.preset = s.inputs.preset →
      p.game.dealt = true → p.builder.isFinished = true) :
    ∀ p', (runOnce s pressed).session.play = some p' →
      p'.game.results = [] ∨ ∃ p, s.play = some p ∧ Scores p p'.game.results := by
  obtain ⟨part, led, play, -⟩ := led_runOnce sound pressed
  intro p' here
  rw [play] at here
  cases led with
  | aside aside => exact .inr ⟨p', aside.play.symm.trans here, .kept⟩
  | @turned base p'' _ samePlay sameInputs turn _ play =>
    obtain rfl := Option.some.inj (play.symm.trans here)
    have base_sound := sound_current fun p same => sound p (samePlay.symm.trans same)
    rcases current_cases base with ⟨p, same, own, current⟩ | ⟨-, current⟩
    · rw [current] at turn base_sound
      have here := samePlay.symm.trans same
      have placed (submits : pressed = some .submit) (opened : p.game.dealt = true) :
          p.builder.isFinished = true :=
        finished submits p here (own.trans (congrArg _ sameInputs)) opened
      exact (turn.scores base_sound placed).imp_right fun scores => ⟨p, here, scores⟩
    · -- a match that has just begun has no open round to score
      rw [current] at turn base_sound
      exact .inl (turn.results_of_fresh base_sound (fresh_begin base))

/-- Where the page starts over, the second run leaves the results alone. -/
theorem results_runOnce_none (sound : ∀ p, s.play = some p → p.Sound) :
    ∀ p', (runOnce s none).session.play = some p' →
      p'.game.results = [] ∨ ∃ p, s.play = some p ∧ p'.game.results = p.game.results := by
  obtain ⟨part, led, play, -⟩ := led_runOnce sound none
  intro p' here
  rw [play] at here
  cases led with
  | aside aside => exact .inr ⟨p', aside.play.symm.trans here, rfl⟩
  | @turned base p'' _ samePlay _ turn _ play =>
    obtain rfl := Option.some.inj (play.symm.trans here)
    obtain ⟨same, -⟩ := turn.of_none
    rcases current_cases base with ⟨p, here, -, current⟩ | ⟨-, current⟩
    · rw [current] at same
      exact .inr ⟨p, samePlay.symm.trans here, congrArg (fun p => p.game.results) same⟩
    · have fresh := fresh_begin base
      rw [← current, ← same] at fresh
      exact .inl fresh.closed.2

theorem results_run (sound : ∀ p, s.play = some p → p.Sound)
    (finished : pressed = some .submit → ∀ p, s.play = some p → p.preset = s.inputs.preset →
      p.game.dealt = true → p.builder.isFinished = true) :
    ∀ p', (run s pressed).session.play = some p' →
      p'.game.results = [] ∨ ∃ p, s.play = some p ∧ Scores p p'.game.results := by
  have first := results_runOnce sound finished
  unfold run
  dsimp only
  split
  · intro p' here
    rcases results_runOnce_none (sound_runOnce sound pressed) p' here with none | ⟨p'', mid, same⟩
    · exact .inl none
    · rw [same]
      exact first p'' mid
  · exact first

/-! ## Dealing -/

/-- Without a pressed button a run leaves the round as it is. -/
theorem dealt_runOnce_none (sound : ∀ p, s.play = some p → p.Sound) (here : s.play = some p)
    (own : p.preset = s.inputs.preset) :
    ∃ p', (runOnce s none).session.play = some p' ∧ p'.game.dealt = p.game.dealt := by
  obtain ⟨part, led, play, -⟩ := led_runOnce sound none
  cases led with
  | aside aside => exact ⟨p, play.trans (aside.play.trans here), rfl⟩
  | @turned base p' _ samePlay sameInputs turn _ play' =>
    rcases current_cases base with ⟨p'', here', -, current⟩ | ⟨others, -⟩
    · obtain rfl := Option.some.inj (here.symm.trans (samePlay.symm.trans here'))
      rw [current] at turn
      obtain ⟨rfl, -⟩ := turn.of_none
      exact ⟨p'.tidy, play.trans play', rfl⟩
    · exact absurd (own.trans (congrArg _ sameInputs.symm)) (others p (samePlay.trans here))

theorem runOnce_deal (again : (playTab s (some .deal)).flow = .again) :
    (runOnce s (some .deal)).session = (playTab s (some .deal)).session ∧
      (runOnce s (some .deal)).flow = .again := by
  have solver : solverTab s (some .deal) = ⟨s, solverInputs s.inputs, .next⟩ := rfl
  simp only [runOnce, runParts, solver, again, inputsAfter, and_self]

/-- Where the match goes on and its deal succeeds, pressing the button opens a round. -/
theorem dealt_run_deal (sound : p.Sound) (here : s.play = some p)
    (own : p.preset = s.inputs.preset) (going : p.game.isOver = false)
    (closed : p.game.dealt = false) (slider : sliderError? (betBounds p.game) = none) {g : Game}
    (deals : p.game.deal none (some (s.inputs.betWithin (betBounds p.game))) = (g, .ok ())) :
    ∃ p', (run s (some .deal)).session.play = some p' ∧ p'.game.dealt = true := by
  let p' : Play :=
    { p with
      game := g
      builder := p.builder.setHand (some g.playerHand)
      lastResult := none
      message := firstAdvice }
  have dealt : p.deal (s.inputs.betWithin (betBounds p.game)) = (p', .ok ()) := by
    simp only [Play.deal, deals, p']
  obtain ⟨again, play, inputs⟩ := playTab_deal here own going closed slider dealt
  obtain ⟨session, flow⟩ := runOnce_deal again
  have sound' : ∀ p, (runOnce s (some .deal)).session.play = some p → p.Sound :=
    sound_runOnce (fun p same => Option.some.inj (here.symm.trans same) ▸ sound) _
  rw [← session] at play inputs
  obtain ⟨p'', shown, opened⟩ :=
    dealt_runOnce_none sound' play (own.trans (congrArg Inputs.preset inputs.symm))
  refine ⟨p'', ?_, opened.trans ?_⟩
  · simp only [run, flow, if_true, shown]
  · obtain ⟨-, _, _, _, _, -, rfl⟩ := Game.deal_ok deals
    rfl

/-! ## Interactions -/

/-- What a player may do: press an enabled button, set an input, or load the page again. -/
inductive Step (w : Window) : Window → Prop
  | press (which : Button → String → Bool) : Step w (w.press which).1
  | set (kind label : String) (value : Datum) : Step w (w.set kind label value).1
  | rerun : Step w w.rerun

inductive Reached (presets : List (String × Preset)) : Window → Prop
  | opened (seed : Int) : Reached presets (.ofSeed presets seed)
  | step {w w' : Window} (reached : Reached presets w) (step : Step w w') : Reached presets w'

theorem press_cases (w : Window) (which : Button → String → Bool) :
    (w.press which).1 = w ∨ ∃ button label, Element.button button label false ∈ w.elements ∧
      (w.press which).1 = run w.session (some button) := by
  unfold Window.press
  dsimp only
  split
  · exact .inl rfl
  · exact .inl rfl
  · next button found =>
    obtain ⟨el, shown, is_button⟩ := List.exists_of_findSome?_eq_some found
    split at is_button
    · next label disabled =>
      split at is_button
      · cases is_button
        exact .inr ⟨_, label, shown, rfl⟩
      · cases is_button
    · cases is_button

theorem set_cases (w : Window) (kind label : String) (value : Datum) :
    (w.set kind label value).1 = w ∨ ∃ inputs,
      (w.set kind label value).1 = run { w.session with inputs := inputs } none := by
  unfold Window.set
  split
  · exact .inl rfl
  · exact .inr ⟨_, rfl⟩

theorem Window.Sound.step (h : w.Sound) (step : Step w w') : w'.Sound := by
  cases step with
  | press which =>
    rcases press_cases w which with same | ⟨button, label, -, ran⟩
    · rw [same]
      exact h
    · rw [ran]
      exact sound_run h.play _
  | set kind label value =>
    rcases set_cases w kind label value with same | ⟨inputs, ran⟩
    · rw [same]
      exact h
    · rw [ran]
      refine sound_run ?_ none
      exact h.play
  | rerun => exact sound_run h.play none

theorem Reached.sound {presets : List (String × Preset)} (h : Reached presets w) : w.Sound := by
  induction h with
  | opened seed => exact sound_run (by simp) none
  | step reached step ih => exact ih.step step

theorem Window.Sound.results (h : w.Sound) (step : Step w w') :
    ∀ p', w'.session.play = some p' →
      p'.game.results = [] ∨ ∃ p, w.session.play = some p ∧ Scores p p'.game.results := by
  cases step with
  | press which =>
    rcases press_cases w which with same | ⟨button, label, shown, ran⟩
    · rw [same]
      exact fun p' here => .inr ⟨p', here, .kept⟩
    · rw [ran]
      refine results_run h.play ?_
      rintro ⟨⟩ p here - -
      obtain ⟨p', here', -, -, finished⟩ := h.submit label shown
      obtain rfl := Option.some.inj (here.symm.trans here')
      exact finished
  | set kind label value =>
    rcases set_cases w kind label value with same | ⟨inputs, ran⟩
    · rw [same]
      exact fun p' here => .inr ⟨p', here, .kept⟩
    · rw [ran]
      refine results_run ?_ nofun
      exact h.play
  | rerun => exact results_run h.play nofun

/-! ## The page in step with its match -/

/-- The page is in step with its match: the match refused no call, its rounds were dealt and settled
in turn, the builder is on the hand of the open round, and submitting is offered only where an
expression places every number card of that hand. -/
structure Window.InStep (w : Window) : Prop where
  unrefused : ∀ body, Element.text .exception body ∈ w.elements →
    body ≠ Error.matchOver.message ∧ body ≠ Error.noOpenRound.message
  in_turn : ∀ p, w.session.play = some p → History.Alternates p.game.history.marks
  opened : ∀ p, w.session.play = some p →
    (p.game.dealt = true ↔ p.game.history.marks.length % 2 = 1)
  on_hand : ∀ p, w.session.play = some p → p.game.dealt = true →
    p.builder.hand = some p.game.playerHand
  submittable : ∀ label, Element.button .submit label false ∈ w.elements →
    ∃ p, w.session.play = some p ∧ p.preset = w.session.inputs.preset ∧ p.game.dealt = true ∧
      PlacesAll p.game.playerHand p.builder.expression

theorem Window.Sound.inStep (h : w.Sound) : w.InStep where
  unrefused body shown := by
    obtain ⟨e, rfl, counts⟩ := h.exception body shown
    exact Error.message_ne counts
  in_turn p here := (h.play p here).orderly.alternates
  opened p here := (h.play p here).orderly.opened
  on_hand p here opened := by
    obtain ⟨log, built⟩ := (h.play p here).built opened
    exact built.on_hand
  submittable label shown := by
    obtain ⟨p, here, own, opened, finished⟩ := h.submit label shown
    have sound := h.play p here
    obtain ⟨log, built⟩ := sound.built opened
    exact ⟨p, here, own, opened, placesAll_of_finished built (sound.distinct opened) finished⟩

/-- Whatever a player presses and sets, in whatever order, the page stays in step with its match,
and a round is scored only for an expression that places every number card of the hand. -/
theorem in_step_of_reached {presets : List (String × Preset)} (reached : Reached presets w) :
    w.InStep ∧ ∀ w', Step w w' → ∀ p', w'.session.play = some p' →
      p'.game.results = [] ∨ ∃ p, w.session.play = some p ∧ Scores p p'.game.results :=
  ⟨reached.sound.inStep, fun _ step => reached.sound.results step⟩

/-- A page on which the first round was dealt. -/
theorem in_step_of_reached_deal :
    Reached Preset.builtIn ((Window.ofSeed Preset.builtIn 7).click "Deal round").1 ∧
      (∃ p, ((Window.ofSeed Preset.builtIn 7).click "Deal round").1.session.play = some p ∧
        p.game.dealt = true) ∧
      ((Window.ofSeed Preset.builtIn 7).click "Deal round").1.InStep ∧
      ∀ w', Step ((Window.ofSeed Preset.builtIn 7).click "Deal round").1 w' →
        ∀ p', w'.session.play = some p' → p'.game.results = [] ∨
          ∃ p, ((Window.ofSeed Preset.builtIn 7).click "Deal round").1.session.play = some p ∧
            Scores p p'.game.results := by
  have reached : Reached Preset.builtIn ((Window.ofSeed Preset.builtIn 7).click "Deal round").1 :=
    .step (.opened 7) (.press fun _ label => label == "Deal round")
  refine ⟨reached, ?_, in_step_of_reached reached⟩
  have opened : Reached Preset.builtIn (Window.ofSeed Preset.builtIn 7) := .opened 7
  let p := (Session.begin { presets := Preset.builtIn, nextSeed := 7 }).2.tidy
  have here : (Window.ofSeed Preset.builtIn 7).session.play = some p := rfl
  have aims : p.game.targetsFor none ≠ [] := by decide
  obtain ⟨-, g, -, deals⟩ := Game.exists_deal_ok (g := p.game) (by decide)
    (Game.ofRules_start .standard 7 "standard") rfl aims
    (some ((Window.ofSeed Preset.builtIn 7).session.inputs.betWithin (betBounds p.game)))
  exact dealt_run_deal (opened.sound.play p here) here rfl rfl rfl rfl deals

end Page

end NumberDuel
