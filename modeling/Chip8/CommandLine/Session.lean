import Chip8.CommandLine.Files
import Chip8.CommandLine.Parse
import Chip8.Frontend.Window
import Chip8.Listing

/-!
# Sessions

A start of the program either ends at once, with help, a message or a listing,
or opens a window and is then driven by events until it is ended.  What it
writes, and the code with which it exits, follow from the arguments, the file
they name and the events.
-/

namespace Chip8.CommandLine

structure Ending where
  exitCode : Nat
  output : String := ""
  errors : String := ""
  threshold : Log.Level
  deriving DecidableEq, Repr

structure Session where
  window : Window
  entries : List Log.Entry

/-- Failures for which the program has no message of its own. -/
inductive Crash where
  | nullInPath
  | noScale
  | noSpeed
  | window (e : Window.OpenError)
  deriving DecidableEq, Repr

def Crash.message : Crash → String
  | nullInPath => "embedded null byte"
  | noScale => "can't multiply sequence by non-int of type 'list'"
  | noSpeed => "unsupported operand type(s) for /: 'float' and 'list'"
  | window e => e.message

inductive Start where
  | ended (e : Ending)
  /-- A window has opened, with these device calls. -/
  | opened (s : Session) (calls : List DeviceCall)

def lines (entries : List Log.Entry) : String :=
  String.join (entries.map fun e => e.line ++ "\n")

def Stop.ending : Stop → Ending
  | help => { exitCode := 0, output := helpText, threshold := .warning }
  | misuse e =>
      { exitCode := 2
        errors := usage ++ "chip8: error: " ++ e.message ++ "\n"
        threshold := .warning }

namespace Settings

def threshold (s : Settings) : Log.Level := if s.debug then .debug else .info

def loading (s : Settings) : Log.Entry :=
  ⟨.info, .processor, "Loading ROM: " ++ s.program⟩

def cannotLoad (s : Settings) (reason : String) : Log.Entry :=
  ⟨.error, .program, "Cannot load ROM " ++ s.program ++ ": " ++ reason⟩

def window (s : Settings) (scale speed : Int) : Window.Settings where
  scale
  cycleRate := .integer speed
  timerRate := .integer timerSpeed
  debug := s.debug

end Settings

/-- Reads files by their normalized paths. -/
abbrev Reader := String → Except FileError (List Byte)

def failed (s : Settings) (entries : List Log.Entry) : Start :=
  .ended { exitCode := 1, errors := lines entries, threshold := s.threshold }

def inspect (s : Settings) (program : List Byte) : Start :=
  .ended
    { exitCode := 0
      output := listing Memory.programStart program ++ "\n"
      threshold := s.threshold }

/-- A window for a machine.  The speed is only needed where a clock drives the
cycles, and is looked at last. -/
def windowFor (room : Int) (machine : Machine) (s : Settings) :
    Except Crash (Window × List DeviceCall) :=
  match s.scale with
  | none => .error .noScale
  | some scale =>
      match Window.open? room machine
          (s.window scale (s.speed.getD timerSpeed)) with
      | .error e => .error (.window e)
      | .ok opened =>
          if s.speed.isNone && !s.debug then .error .noSpeed else .ok opened

def openWindow (room : Int) (random : RandomBytes) (s : Settings)
    (program : List Byte) : Except Crash Start :=
  match Machine.boot random program with
  | .error e => .ok (failed s [s.loading, s.cannotLoad e.message])
  | .ok machine =>
      match windowFor room machine s with
      | .error crash => .error crash
      | .ok (window, calls) => .ok (.opened ⟨window, [s.loading]⟩ calls)

/-- A start of the program where files are read by `reader` and there is room
for a picture of so many bytes. -/
def start (room : Int) (random : RandomBytes) (reader : Reader)
    (arguments : List String) : Except Crash Start :=
  match parse arguments with
  | .error stop => .ok (.ended stop.ending)
  | .ok s =>
      let path := Path.normalize s.program
      if path.contains (Char.ofNat 0) then .error .nullInPath
      else
        match reader path with
        | .error e =>
            .ok (failed s ((if s.inspect then [] else [s.loading])
              ++ [s.cannotLoad (e.message path)]))
        | .ok program =>
            if s.inspect then .ok (inspect s program)
            else openWindow room random s program

namespace Session

def handle [Keyboard] (s : Session) (event : Window.Event) :
    Session × Window.Reaction :=
  let r := s.window.handle event
  (⟨r.window, s.entries ++ r.entries⟩, r)

/-- The program ends in failure if a fault closed the window. -/
def finish (s : Session) : Ending :=
  match s.window.error with
  | none =>
      { exitCode := 0, errors := lines s.entries
        threshold := s.window.threshold }
  | some f =>
      { exitCode := 1
        errors := lines (s.entries
          ++ [⟨.error, .program, "Emulation stopped: " ++ f.message⟩])
        threshold := s.window.threshold }

end Session

end Chip8.CommandLine
