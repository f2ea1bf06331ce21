/-!
# Command line options

The options with their spellings, the settings they lead to, and the texts that
describe them.
-/

namespace Chip8.CommandLine

inductive Flag where
  | help | debug | inspect | scale | speed
  deriving DecidableEq, Repr

structure Settings where
  program : String
  debug : Bool := false
  inspect : Bool := false
  /-- Pixels to a side of a cell, absent if the option came without a value. -/
  scale : Option Int := some 10
  /-- Instructions per second, absent if the option came without a value. -/
  speed : Option Int := some 600
  deriving DecidableEq, Repr

def timerSpeed : Int := 60

namespace Flag

def spellings : List (String × Flag) :=
  [("-h", help), ("--help", help), ("-d", debug), ("--debug", debug),
   ("-i", inspect), ("--inspect", inspect), ("-s", scale),
   ("--scale", scale), ("--cpu-hz", speed)]

def takesValue : Flag → Bool
  | scale | speed => true
  | help | debug | inspect => false

def label (flag : Flag) : String :=
  "/".intercalate ((spellings.filter (·.2 == flag)).map (·.1))

def ofSpelling? (text : String) : Option Flag := spellings.lookup text

def ofLetter? (c : Char) : Option Flag :=
  ofSpelling? (String.ofList ['-', c])

end Flag

def usage : String :=
  "usage: chip8 [-h] [-d] [-i] [-s SCALE] [--cpu-hz CPU_HZ] rom\n"

def helpText : String := usage ++
"
CHIP-8 Emulator

positional arguments:
  rom                   ROM file to load

options:
  -h, --help            show this help message and exit
  -d, --debug           debug mode: verbose logging, step with Space
  -i, --inspect         print the ROM's instructions and exit
  -s SCALE, --scale SCALE
                        pixel scale factor (default: 10)
  --cpu-hz CPU_HZ       instructions per second (default: 600)
"

end Chip8.CommandLine
