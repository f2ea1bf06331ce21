/-!
# Log entries

What the parts of the system report while they run.  An entry is kept when its
level reaches the threshold of whoever listens.
-/

namespace Chip8.Log

inductive Level where
  | debug | info | warning | error
  deriving DecidableEq, Repr

def Level.name : Level → String
  | debug => "DEBUG"
  | info => "INFO"
  | warning => "WARNING"
  | error => "ERROR"

def Level.severity : Level → Nat
  | debug => 10
  | info => 20
  | warning => 30
  | error => 40

def Level.ofName? (name : String) : Option Level :=
  [debug, info, warning, error].find? (·.name == name)

inductive Source where
  | program | processor | runner | sound | window
  deriving DecidableEq, Repr

def Source.name : Source → String
  | program => "chip8"
  | processor => "chip8.cpu"
  | runner => "chip8.driver"
  | sound => "chip8.audio"
  | window => "chip8.window"

structure Entry where
  level : Level
  source : Source
  message : String
  deriving DecidableEq, Repr

def atLeast (threshold : Level) (entries : List Entry) : List Entry :=
  entries.filter fun e => threshold.severity ≤ e.level.severity

def Entry.line (e : Entry) : String :=
  "[" ++ e.level.name ++ "] " ++ e.source.name ++ ": " ++ e.message

end Chip8.Log
