import Chip8.CommandLine.Options
import Chip8.Text.Numeral
import Chip8.Text.Quoted

/-!
# Arguments

Before anything is done each argument is classified by itself.  Long options
may be shortened to any unambiguous beginning.  Text may be attached to an
option: to any behind an equals sign, to a short one also right behind its
letter.  Negative numbers, and texts with a space, are no options.  After the
first `--` every argument is plain.
-/

namespace Chip8.CommandLine

inductive UsageError where
  | ambiguous (argument : String) (candidates : List String)
  | missingValue (flag : Flag)
  /-- A value was attached to an option that takes none. -/
  | superfluousValue (flag : Flag) (value : String)
  | notInteger (flag : Flag) (value : String)
  | notPositive (flag : Flag) (value : String)
  | missingProgram
  | unrecognized (arguments : List String)
  deriving DecidableEq, Repr

namespace UsageError

private def about (flag : Flag) (problem : String) : String :=
  "argument " ++ flag.label ++ ": " ++ problem

def message : UsageError → String
  | ambiguous argument candidates =>
      "ambiguous option: " ++ argument ++ " could match "
        ++ ", ".intercalate candidates
  | missingValue flag => about flag "expected one argument"
  | superfluousValue flag value =>
      about flag ("ignored explicit argument " ++ Text.quoted value)
  | notInteger flag value =>
      about flag ("invalid positive_int value: " ++ Text.quoted value)
  | notPositive flag value =>
      about flag ("must be a positive integer, got " ++ value)
  | missingProgram => "the following arguments are required: rom"
  | unrecognized arguments =>
      "unrecognized arguments: " ++ " ".intercalate arguments

end UsageError

inductive Argument where
  | plain (text : String)
  /-- The first `--`. -/
  | separator
  /-- An option in its long or short form, and the text attached to it. -/
  | option (flag : Flag) (long : Bool) (attached : Option (List Char))
  | unknown (text : String)
  deriving DecidableEq, Repr

namespace Argument

/-- The text before the first equals sign, and the text after it if any. -/
def splitEquals : List Char → List Char × Option (List Char)
  | [] => ([], none)
  | '=' :: rest => ([], some rest)
  | c :: rest =>
      let (before, after) := splitEquals rest
      (c :: before, after)

/-- Digits with at most one point, behind a dash; a line break may follow. -/
def isNegativeNumber : List Char → Bool
  | '-' :: rest =>
      let body := if rest.getLast? = some '\n' then rest.dropLast else rest
      let fraction := body.dropWhile Text.isDecimalDigit
      match fraction with
      | [] => !body.isEmpty
      | '.' :: rest => !rest.isEmpty && rest.all Text.isDecimalDigit
      | _ => false
  | _ => false

def candidates (beginning : List Char) : List (String × Flag) :=
  Flag.spellings.filter fun (text, _) => beginning.isPrefixOf text.toList

/-- An argument that begins with a dash and spells no option in full. -/
def classifyOther (text : String) : Argument :=
  if isNegativeNumber text.toList || text.toList.contains ' ' then .plain text
  else .unknown text

/-- A long option, cut short or not, or an argument that is none. -/
def classifyLong (text : String) : Except UsageError Argument :=
  let (beginning, value) := splitEquals text.toList
  match candidates beginning with
  | [] => .ok (classifyOther text)
  | [(_, flag)] => .ok (.option flag true value)
  | several => .error (.ambiguous text (several.map (·.1)))

def classify (text : String) : Except UsageError Argument :=
  match text.toList with
  | '-' :: c :: rest =>
      let (beginning, value) := splitEquals text.toList
      match Flag.ofSpelling? (String.ofList beginning) with
      | some flag => .ok (.option flag (c == '-') value)
      | none =>
          if c = '-' then classifyLong text
          else
            match Flag.ofLetter? c with
            | some flag => .ok (.option flag false (some rest))
            | none => .ok (classifyOther text)
  | _ => .ok (.plain text)

def classifyAll : List String → Except UsageError (List Argument)
  | [] => .ok []
  | "--" :: rest => .ok (.separator :: rest.map .plain)
  | text :: rest =>
      match classify text with
      | .error e => .error e
      | .ok argument => (classifyAll rest).map (argument :: ·)

end Argument

end Chip8.CommandLine
