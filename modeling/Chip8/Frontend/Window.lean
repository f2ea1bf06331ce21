import Chip8.Frontend.Buzzer
import Chip8.Frontend.Display
import Chip8.Frontend.Keyboard
import Chip8.Pacing.Runner

/-!
# The window

A window joins a runner to a display, a buzzer and a keyboard, and is driven by
events.  Two clocks call it at regular intervals, one for cycles and one for
timer ticks; in stepping mode the space bar takes the place of the first.  The
first fault of the program, and the escape key, close the window, which stops
both clocks and deletes the player of the buzzer.  The runner keeps its buzzer
all the same.
-/

namespace Chip8

inductive Clock where
  | cycles | timers
  deriving DecidableEq, Repr

structure Window where
  display : Display
  runner : Runner Amount Float
  keypad : Keypad := .released
  buzzer : Buzzer := {}
  /-- Whether the window has been closed, and the player deleted with it. -/
  closed : Bool := false
  stepping : Bool
  error : Option Fault := none
  schedule : List (Clock × Float)
  threshold : Log.Level

namespace Window

structure Settings where
  scale : Int := 1
  cycleRate : Amount := .integer 600
  timerRate : Amount := .integer 60
  debug : Bool := false

inductive Event where
  | press (symbol : KeySymbol)
  | release (symbol : KeySymbol)
  | draw
  /-- A clock calls so many times, each time with the same elapsed time. -/
  | tick (clock : Clock) (elapsed : Amount) (times : Nat)
  | close

/-- What an event leads to: the window after it, device calls, log entries, and
the number of clocks that ran. -/
structure Reaction where
  window : Window
  calls : List DeviceCall := []
  entries : List Log.Entry := []
  result : Except RunError Nat := .ok 0

inductive OpenError where
  | display (e : Display.Error)
  /-- A clock has no interval for its rate. -/
  | clock (e : AmountError)
  deriving DecidableEq, Repr

def OpenError.message : OpenError → String
  | display e => e.message
  | clock e => e.message

def caption : String := "CHIP-8 Emulator"

def interval (rate : Amount) : Except AmountError Float :=
  (Amount.real 1).div rate

def clocks (s : Settings) : Except AmountError (List (Clock × Float)) := do
  let cycles ←
    if s.debug then pure []
    else pure [(Clock.cycles, ← interval s.cycleRate)]
  let timers ← interval s.timerRate
  return cycles ++ [(.timers, timers)]

/-- A window for a machine, with room for a picture of so many bytes. -/
def open? (room : Int) (m : Machine) (s : Settings) :
    Except OpenError (Window × List DeviceCall) := do
  let blank ← (Display.new? room s.scale).mapError .display
  let (display, calls) ← (blank.paint m.screen).mapError .display
  let schedule ← (clocks s).mapError .clock
  let window : Window :=
    { display
      runner := .start m s.cycleRate s.timerRate
      stepping := s.debug
      schedule
      threshold := if s.debug then .debug else .info }
  return (window,
    [.openWindow display.width display.height caption false false,
     .queueSound] ++ calls)

/-- Closes the window; the player is deleted the first time. -/
def close (w : Window) : Window × List DeviceCall :=
  ({ w with schedule := [], closed := true },
    (if w.closed then [] else [.deletePlayer]) ++ [.closeWindow])

/-- Forwards frames to the display and the tone to the buzzer. -/
def forward (w : Window) (activity : Activity) :
    Window × List DeviceCall × List Log.Entry :=
  let (display, frameCalls) := w.display.presentAll activity.frames
  let (buzzer, toneCalls, toneEntries) := w.buzzer.updateAll activity.tones
  ({ w with display, buzzer }, frameCalls ++ toneCalls,
    activity.entries ++ toneEntries)

/-- Takes over the outcome of a call to the runner; a fault ends the session. -/
def accept {α : Type} (w : Window) (turn : Turn Amount Float α) : Reaction :=
  let (w, calls, entries) :=
    { w with runner := turn.runner }.forward turn.activity
  match turn.result with
  | .ok _ => { window := w, calls, entries }
  | .error (.cycle (.fault f)) =>
      let (w, closing) := { w with error := some f }.close
      { window := w, calls := calls ++ closing, entries }
  | .error e => { window := w, calls, entries, result := .error e }

def pulse (w : Window) (elapsed : Amount) : Clock → Reaction
  | .cycles => w.accept (w.runner.runCycles elapsed (some w.keypad.flags))
  | .timers => w.accept (w.runner.runTimers elapsed)

/-- Calls by a clock up to the first that fails. -/
def pulses (w : Window) (clock : Clock) (elapsed : Amount) : Nat → Reaction
  | 0 => { window := w, result := .ok 1 }
  | times + 1 =>
      let first := w.pulse elapsed clock
      match first.result with
      | .error _ => first
      | .ok _ =>
          let rest := first.window.pulses clock elapsed times
          { rest with
            calls := first.calls ++ rest.calls
            entries := first.entries ++ rest.entries }

def scheduled (w : Window) (clock : Clock) : Bool :=
  w.schedule.any fun (c, _) => c == clock

/-- One step by hand, reported together with the registers. -/
def stepByHand (w : Window) : Reaction :=
  let r := w.accept (w.runner.step (some w.keypad.flags))
  match r.result with
  | .error _ => r
  | .ok _ =>
      { r with
        entries := r.entries
          ++ [⟨.info, .window, r.window.runner.machine.summary⟩] }

def toggleDebug (w : Window) : Reaction :=
  if w.threshold = .debug then
    { window := { w with threshold := .info }
      entries := [⟨.info, .window, "Debug logging off"⟩] }
  else
    { window := { w with threshold := .debug }
      entries := [⟨.info, .window, "Debug logging on"⟩] }

variable [Keyboard]

def press (w : Window) (symbol : KeySymbol) : Reaction :=
  if symbol = .escape then
    let (w, calls) := w.close
    { window := w, calls }
  else
    match symbol.key? with
    | some key => { window := { w with keypad := w.keypad.press key } }
    | none =>
        if symbol = .f1 then w.toggleDebug
        else if symbol = .space ∧ w.stepping then w.stepByHand
        else { window := w }

def react (w : Window) : Event → Reaction
  | .press symbol => w.press symbol
  | .release symbol =>
      match symbol.key? with
      | some key => { window := { w with keypad := w.keypad.release key } }
      | none => { window := w }
  | .draw => { window := w, calls := .clearWindow :: Display.draw }
  | .tick clock elapsed times =>
      if w.scheduled clock then w.pulses clock elapsed times
      else { window := w }
  | .close =>
      let (w, calls) := w.close
      { window := w, calls }

/-- The reaction to an event, with the entries that the window keeps. -/
def handle (w : Window) (event : Event) : Reaction :=
  let r := w.react event
  { r with entries := Log.atLeast r.window.threshold r.entries }

end Window

end Chip8
