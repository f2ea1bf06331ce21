import Chip8.Text.Quoted
import Chip8.Text.Radix

/-!
# Files

Paths are brought into a plain form before they are used and named in messages.
How files are read is left open, but for the failures that have a number.
-/

namespace Chip8.CommandLine

inductive FileError where
  | notFound
  | notDirectory
  | isDirectory
  /-- Another failure, by its number and description. -/
  | other (number : Nat) (description : String)
  deriving DecidableEq, Repr

namespace FileError

def number : FileError → Nat
  | notFound => 2
  | notDirectory => 20
  | isDirectory => 21
  | other number _ => number

def description : FileError → String
  | notFound => "No such file or directory"
  | notDirectory => "Not a directory"
  | isDirectory => "Is a directory"
  | other _ description => description

def message (e : FileError) (path : String) : String :=
  "[Errno " ++ decimal e.number ++ "] " ++ e.description ++ ": "
    ++ Text.quoted path

end FileError

namespace Path

def split : List Char → List (List Char)
  | [] => [[]]
  | '/' :: rest => [] :: split rest
  | c :: rest =>
      match split rest with
      | part :: parts => (c :: part) :: parts
      | [] => [[c]]

/-- The parts that lead anywhere: none that is empty or a single dot. -/
def components (path : String) : List String :=
  ((split path.toList).filter fun part => !part.isEmpty && part != ['.']).map
    String.ofList

/-- One slash for an absolute path, but two slashes stay two. -/
def root (path : String) : String :=
  match path.toList with
  | '/' :: '/' :: '/' :: _ => "/"
  | '/' :: '/' :: _ => "//"
  | '/' :: _ => "/"
  | _ => ""

def normalize (path : String) : String :=
  let plain := root path ++ "/".intercalate (components path)
  if plain.isEmpty then "." else plain

end Path

end Chip8.CommandLine
