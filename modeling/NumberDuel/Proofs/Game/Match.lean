import NumberDuel.Preset
import NumberDuel.Proofs.Game.Round

/-!
# No round is void

Every round of a match by fair rules counts, in whatever order the cards come and whichever
targets are chosen, and the rules of the built-in presets are fair. A match that is simulated from
a seed is one of these matches, and no error ends it early.
-/

namespace NumberDuel

/-- The presets differ in stakes, targets and special cards only. -/
theorem Preset.fair_of_mem_builtIn {key : String} {p : Preset}
    (built_in : (key, p) ∈ Preset.builtIn) : p.config.Fair := by
  have near : ∀ target ∈ p.config.targetValues,
      ∃ aim, doubleOfInt? target = some aim ∧ Double.Below 950 aim := by
    have all : ∀ entry ∈ Preset.builtIn, ∀ target ∈ entry.2.config.targetValues,
        (doubleOfInt? target).any fun aim => Double.Below 950 aim := by
      decide +kernel
    intro target ht
    have := all _ built_in target ht
    simpa [Option.any_eq_true] using this
  simp only [Preset.builtIn, List.mem_cons, Prod.mk.injEq, List.not_mem_nil, or_false] at built_in
  rcases built_in with ⟨-, rfl⟩ | ⟨-, rfl⟩ | ⟨-, rfl⟩ | ⟨-, rfl⟩ | ⟨-, rfl⟩ | ⟨-, rfl⟩ <;>
    exact ⟨by decide, by decide, by decide, by decide, by decide, by decide, by decide, by decide,
      near⟩

namespace Game

variable {config : GameConfig} {players : Players} {g g' : Game}

/-- The states between the rounds of a match, over all that shuffling and choosing can bring. -/
inductive Between (config : GameConfig) (players : Players) : Game → Prop
  | start (seed : Int) (preset : String) : Between config players (start config seed preset)
  | round {g g' : Game} {bet : Option Int} {outcome : Game × Except Error Unit} {r : RoundResult}
      (between : Between config players g) (going : g.isOver = false)
      (deals : Deals g bet outcome) (played : playDealt players outcome = (g', .ok r)) :
      Between config players g'

structure Steady (config : GameConfig) (g : Game) : Prop where
  rules : g.config = config
  deck : g.deck.OfRules config
  counts : ∀ r ∈ g.results, r.Counts

theorem steady_start (config : GameConfig) (seed : Int) (preset : String) :
    Steady config (start config seed preset) := by
  obtain ⟨chooser, random, eq⟩ := start_eq config seed preset
  rw [eq]
  exact ⟨rfl, ⟨rfl, rfl, rfl⟩, by simp⟩

theorem Steady.settle (h : Steady config g) {r : RoundResult} (counts : r.Counts) :
    Steady config (g.settle r) := by
  obtain ⟨history, kept, eq⟩ := g.settle_eq r
  rw [eq]
  refine ⟨h.rules, h.deck, fun r' hr' => ?_⟩
  rcases List.mem_append.mp hr' with earlier | last
  · exact h.counts r' earlier
  · exact List.mem_singleton.mp last ▸ counts

/-- A round by fair rules counts, whatever the deal comes to. -/
theorem Steady.exists_round (fair : config.Fair) (h : Steady config g) {bet : Option Int}
    {outcome : Game × Except Error Unit} (deals : Deals g bet outcome) (players : Players) :
    ∃ dealt target mine theirs r g', outcome = (dealt, .ok ()) ∧ dealt.target = some target ∧
      Submits players.player dealt.playerHand target mine ∧
      Submits players.ai dealt.aiHand target theirs ∧
      dealt.scored mine theirs = .ok r ∧ playDealt players outcome = (g', .ok r) ∧
      r.Counts ∧ Steady config g' := by
  obtain ⟨rules, deck, counts⟩ := h
  subst rules
  obtain ⟨dealt, rfl, ready⟩ := deals.exists_ready fair deck
  obtain ⟨target, offered, aimed⟩ := ready.target
  obtain ⟨aim, converts, near⟩ := fair.near target offered
  obtain ⟨mine, theirs, r, kept, mine_submits, theirs_submits, scored, counted, played⟩ :=
    exists_playDealt ready.opened aimed converts near ready.player ready.ai players
  have steady : Steady g.config { dealt with notes := kept } :=
    ⟨ready.config, ready.deck, fun r' hr' => counts r' (ready.results ▸ hr')⟩
  exact ⟨dealt, target, mine, theirs, r, _, rfl, aimed, mine_submits, theirs_submits, scored,
    played, counted, steady.settle counted⟩

/-- Between the rounds of every match by fair rules all results count. -/
theorem Between.steady (fair : config.Fair) (h : Between config players g) : Steady config g := by
  induction h with
  | start seed preset => exact steady_start config seed preset
  | round between going deals played ih =>
    obtain ⟨-, -, -, -, r, g', -, -, -, -, -, played', -, steady⟩ :=
      ih.exists_round fair deals players
    cases played.symm.trans played'
    exact steady

/-- Rounds from a seed go on without an error. -/
theorem Between.exists_playRounds (fair : config.Fair) (h : Between config players g)
    (bet : Option Int) (rounds : Nat) :
    ∃ g', playRounds players bet rounds g = (g', .ok ()) ∧ Between config players g' := by
  induction rounds generalizing g with
  | zero => exact ⟨g, rfl, h⟩
  | succ rounds ih =>
    cases going : g.isOver with
    | true => exact ⟨g, by simp [playRounds, going], h⟩
    | false =>
      have steady := h.steady fair
      have deals := deals_deal going (steady.rules ▸ fair.targets) bet
      obtain ⟨-, -, -, -, r, g', -, -, -, -, -, played, -, -⟩ :=
        steady.exists_round fair deals players
      obtain ⟨last, rest, between⟩ := ih (Between.round h going deals played)
      refine ⟨last, ?_, between⟩
      simp [playRounds, going, playRound_eq, played, rest]

/-- In every round of every match by the rules of a built-in preset, whatever the shuffle brings
and whichever target is chosen, both strategies submit an expression that keeps the rules and has a
value, and the round is not void. Matches from a seed are such matches. -/
theorem no_round_void {key : String} {p : Preset} (built_in : (key, p) ∈ Preset.builtIn)
    (players : Players) :
    (∀ g, Between p.config players g →
      (∀ r ∈ g.results, r.player.error = "" ∧ r.ai.error = "" ∧ r.winner ≠ .invalid) ∧
      (g.isOver = false → ∀ bet outcome, Deals g bet outcome →
        ∃ dealt target mine theirs r g', outcome = (dealt, .ok ()) ∧
          dealt.target = some target ∧ Submits players.player dealt.playerHand target mine ∧
          Submits players.ai dealt.aiHand target theirs ∧ dealt.scored mine theirs = .ok r ∧
          playDealt players outcome = (g', .ok r) ∧
          r.player.error = "" ∧ r.ai.error = "" ∧ r.winner ≠ .invalid)) ∧
    ∀ seed name bet, ∃ g, simulate p.config players seed name bet = (g, .ok ()) ∧
      Between p.config players g := by
  have fair := Preset.fair_of_mem_builtIn built_in
  refine ⟨fun g between => ⟨fun r hr => ?_, fun _ bet outcome deals => ?_⟩,
    fun seed name bet => (Between.start seed name).exists_playRounds fair bet _⟩
  · obtain ⟨player, ai, winner⟩ := (between.steady fair).counts r hr
    exact ⟨player, ai, winner⟩
  · obtain ⟨dealt, target, mine, theirs, r, g', eq, aimed, mine_submits, theirs_submits, scored,
      played, counts, -⟩ := (between.steady fair).exists_round fair deals players
    exact ⟨dealt, target, mine, theirs, r, g', eq, aimed, mine_submits, theirs_submits, scored,
      played, counts.player, counts.ai, counts.winner⟩

/-- The searching side against itself, for high stakes. -/
theorem no_round_void_hard :
    ("hard", Preset.hard) ∈ Preset.builtIn ∧
      ∃ g, simulate Preset.hard.config ⟨.smart, .smart⟩ 7 "hard" (some 10) = (g, .ok ()) ∧
        ∀ r ∈ g.results, r.player.error = "" ∧ r.ai.error = "" ∧ r.winner ≠ .invalid := by
  have built_in : ("hard", Preset.hard) ∈ Preset.builtIn := by decide
  obtain ⟨rounds, matches_⟩ := no_round_void built_in ⟨.smart, .smart⟩
  obtain ⟨g, played, between⟩ := matches_ 7 "hard" (some 10)
  exact ⟨built_in, g, played, (rounds g between).1⟩

end Game

end NumberDuel
