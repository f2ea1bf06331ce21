import Chip8.CommandLine.Argument

/-!
# Reading the command line

Options are carried out from left to right, so the first one that fails decides
the message, and a request for help ends the reading.  One argument names the
program; arguments left over are reported last.
-/

namespace Chip8.CommandLine

inductive Use where
  | bare (flag : Flag)
  | valued (flag : Flag) (value : String)
  deriving DecidableEq, Repr

structure Reading where
  uses : List Use := []
  /-- The option at the end that waits for the next argument as its value. -/
  waiting : Option Flag := none
  deriving DecidableEq, Repr

namespace Reading

def first (flag : Flag) (r : Reading) : Reading :=
  { r with uses := .bare flag :: r.uses }

def last (flag : Flag) : Reading :=
  if flag.takesValue then { waiting := some flag } else { uses := [.bare flag] }

def withValue (flag : Flag) (value : List Char) : Reading :=
  { uses := [.valued flag (String.ofList value)] }

/-- A short option and the text attached to it: its value, or further short
options, the last of which may have a value. -/
def ofLetters (flag : Flag) : List Char → Except UsageError Reading
  | [] => .ok (last flag)
  | c :: rest =>
      if flag.takesValue then .ok (withValue flag (c :: rest))
      else
        match Flag.ofLetter? c with
        | some next => (ofLetters next rest).map (first flag)
        | none => .error (.superfluousValue flag (String.ofList (c :: rest)))

def ofOption (flag : Flag) (long : Bool) :
    Option (List Char) → Except UsageError Reading
  | none => .ok (last flag)
  | some text =>
      if flag.takesValue then .ok (withValue flag text)
      else if long || text.isEmpty then
        .error (.superfluousValue flag (String.ofList text))
      else ofLetters flag text

end Reading

inductive Stop where
  | help
  | misuse (e : UsageError)
  deriving DecidableEq, Repr

structure Progress where
  settings : Settings := { program := "" }
  named : Bool := false
  leftOver : List String := []

namespace Progress

/-- A positive integer.  A `--` stands for no value, also where it is attached
to its option. -/
def positive (flag : Flag) (value : String) : Except Stop (Option Int) :=
  if value = "--" then .ok none
  else
    match Text.integer? value with
    | none => .error (.misuse (.notInteger flag value))
    | some n =>
        if 0 < n then .ok (some n)
        else .error (.misuse (.notPositive flag value))

def apply (p : Progress) : Use → Except Stop Progress
  | .bare .help => .error .help
  | .bare .debug => .ok { p with settings.debug := true }
  | .bare .inspect => .ok { p with settings.inspect := true }
  | .valued .scale value => do
      return { p with settings.scale := ← positive .scale value }
  | .valued .speed value => do
      return { p with settings.speed := ← positive .speed value }
  | _ => .ok p

def leave (p : Progress) (texts : List String) : Progress :=
  { p with leftOver := p.leftOver ++ texts }

def name (p : Progress) (text : String) : Progress :=
  { p with settings.program := text, named := true }

def rawText : Argument → String
  | .plain text | .unknown text => text
  | .separator | .option _ _ _ => "--"

/-- Carries out a reading, whose waiting option is satisfied by a plain argument
that follows; answers also what still has to be read. -/
def carryOut (p : Progress) (r : Reading) (rest : List Argument) :
    Except Stop Progress :=
  match r.waiting, rest with
  | some flag, .plain value :: _ =>
      (r.uses ++ [Use.valued flag value]).foldlM apply p
  | some flag, _ => .error (.misuse (.missingValue flag))
  | none, _ => r.uses.foldlM apply p

/-- Reads the arguments from left to right.  A `--` next to the argument that
names the program is dropped, any other is left over. -/
def scan (p : Progress) : List Argument → Except Stop Progress
  | [] => .ok p
  | .plain text :: .separator :: rest =>
      if p.named then .ok (p.leave (text :: "--" :: rest.map rawText))
      else .ok ((p.name text).leave (rest.map rawText))
  | .plain text :: rest =>
      (if p.named then p.leave [text] else p.name text).scan rest
  | .unknown text :: rest => (p.leave [text]).scan rest
  | .separator :: .plain text :: rest =>
      if p.named then .ok (p.leave ("--" :: text :: rest.map rawText))
      else .ok ((p.name text).leave (rest.map rawText))
  | .separator :: rest => .ok (p.leave ("--" :: rest.map rawText))
  | .option flag long attached :: rest =>
      match Reading.ofOption flag long attached with
      | .error e => .error (.misuse e)
      | .ok r =>
          match p.carryOut r rest with
          | .error stop => .error stop
          | .ok next =>
              match r.waiting, rest with
              | some _, _ :: rest => next.scan rest
              | _, rest => next.scan rest

end Progress

def parse (arguments : List String) : Except Stop Settings :=
  match Argument.classifyAll arguments with
  | .error e => .error (.misuse e)
  | .ok arguments =>
      match Progress.scan {} arguments with
      | .error stop => .error stop
      | .ok p =>
          if !p.named then .error (.misuse .missingProgram)
          else if p.leftOver.isEmpty then .ok p.settings
          else .error (.misuse (.unrecognized p.leftOver))

end Chip8.CommandLine
