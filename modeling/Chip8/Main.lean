import Chip8.CommandLine.Session

/-!
# The program

Without a native window no events arrive, so a session that opens one ends as
soon as it has started.  Its picture takes no memory.
-/

namespace Chip8.CommandLine

def fileError : IO.Error → FileError
  | .noFileOrDirectory .. => .notFound
  | .inappropriateType _ code _ =>
      if code = 21 then .isDirectory else .notDirectory
  | .permissionDenied .. => .other 13 "Permission denied"
  | e => .other 0 (toString e)

/-- What the file at a path holds; only the named file is looked at. -/
def readFile (path : String) : IO (Except FileError (List Byte)) := do
  match ← (IO.FS.readBinFile path).toBaseIO with
  | .ok data => return .ok data.toList
  | .error e => return .error (fileError e)

/-- A script of random bytes that depends on the seed alone. -/
def seeded (seed : Nat) : RandomBytes where
  script k := UInt8.ofNat (mixHash (hash seed) (hash k)).toNat

def execute (arguments : List String) : IO UInt32 := do
  let contents ←
    match parse arguments with
    | .ok s => readFile (Path.normalize s.program)
    | .error _ => pure (.error .notFound)
  let seed ← IO.rand 0 0xFFFFFFFF
  let ending :=
    match start Position.limit (seeded seed) (fun _ => contents) arguments with
    | .ok (.ended e) => e
    | .ok (.opened s _) => s.finish
    | .error crash =>
        { exitCode := 1, errors := crash.message ++ "\n"
          threshold := .warning }
  (← IO.getStdout).putStr ending.output
  (← IO.getStderr).putStr ending.errors
  return ending.exitCode.toUInt32

end Chip8.CommandLine

def main (arguments : List String) : IO UInt32 :=
  Chip8.CommandLine.execute arguments
