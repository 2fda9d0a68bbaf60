import NumberDuel.Page.Simulation
import NumberDuel.Page.Solver
import NumberDuel.Page.Table

/-!
# The page

The page is run once when a session opens, and again in full whenever an input changes or a button
is pressed. A pressed button counts in one run only. Where a part asks to start over, the page is
run again at once with no button pressed, and only the second run is shown.
-/

namespace NumberDuel.Page

def sidebar (s : Session) : List Element :=
  let preset := s.preset
  [.text .header "Settings",
    .choice .preset s.inputs.preset (s.presets.map fun (_, p) => p.name),
    .text .markdown ("*" ++ preset.description ++ "*"),
    .text .markdown ("**Player:** " ++ preset.player.key ++ " | **AI:** " ++ preset.ai.key)]

def heading : List Element :=
  [.text .title "🧮 Math High-Low", .text .markdown "*Build the expression closest to the target*"]

def footer : List Element :=
  [.text .divider "---", .text .markdown "*Built with the highlow_sim engine*"]

/-- The parts of the page from here on, as long as nothing stops them. -/
def runParts (s : Session) (pressed : Option Button) :
    List (Session → Option Button → Part) → Part
  | [] => ⟨s, [], .next⟩
  | tab :: tabs =>
    let part := tab s pressed
    match part.flow with
    | .next =>
      let rest := runParts part.session pressed tabs
      { rest with elements := part.elements ++ rest.elements }
    | .again => part
    | .stop e => { part with elements := part.elements ++ [.text .exception e.message] }

/-- The inputs behind a run. Those that a complete run did not show fall back to their defaults; a
run that starts over or was stopped by an error leaves them all. -/
def inputsAfter (part : Part) : Inputs :=
  match part.flow with
  | .next => part.session.inputs.keepShown (sidebar part.session ++ part.elements)
  | _ => part.session.inputs

def runOnce (s : Session) (pressed : Option Button) : Part :=
  let part := runParts s pressed
    [fun s _ => ⟨s, heading, .next⟩, solverTab, playTab, simulationTab,
      fun s _ => ⟨s, footer, .next⟩]
  { part with session.inputs := inputsAfter part }

structure View where
  sidebar : List Element
  main : List Element
  deriving DecidableEq, Repr

/-- A session with what is shown of it. -/
structure Window where
  session : Session
  view : View

def run (s : Session) (pressed : Option Button) : Window :=
  let first := runOnce s pressed
  let last := if first.flow = .again then runOnce first.session none else first
  { session := last.session
    view := { sidebar := sidebar last.session, main := last.elements } }

inductive Reply where
  | done
  | absent
  | disabled
  deriving DecidableEq, Repr

namespace Window

def ofSeed (presets : List (String × Preset)) (seed : Int) : Window :=
  run { presets := presets, nextSeed := seed } none

def elements (w : Window) : List Element := w.view.sidebar ++ w.view.main

def rerun (w : Window) : Window := run w.session none

/-- Presses the first button for which `which` holds. -/
def press (w : Window) (which : Button → String → Bool) : Window × Reply :=
  let found := w.elements.findSome? fun
    | .button button label disabled =>
      if which button label then some (button, disabled) else none
    | _ => none
  match found with
  | none => (w, .absent)
  | some (_, true) => (w, .disabled)
  | some (button, false) => (run w.session (some button), .done)

def click (w : Window) (label : String) : Window × Reply := w.press fun _ l => l == label

def clickCard (w : Window) (place : Int) : Window × Reply :=
  w.press fun
    | .card _ i, _ => (i : Int) == place
    | _, _ => false

def set (w : Window) (kind label : String) (value : Datum) : Window × Reply :=
  match (Field.named? kind label).filter fun f => w.elements.any fun e => e.field? == some f with
  | none => (w, .absent)
  | some field =>
    let bounds := (shownBounds? w.elements).getD ⟨0, 0⟩
    (run { w.session with inputs := w.session.inputs.set bounds field value } none, .done)

/-- Changes the match of the session without a run of the page. -/
def change (w : Window) (f : Game → Game) : Window :=
  { w with session.play := w.session.play.map fun p => { p with game := f p.game } }

end Window

end NumberDuel.Page
