import Chip8.Machine.CallStack
import Chip8.Machine.Keypad
import Chip8.Machine.Memory
import Chip8.Machine.RandomBytes
import Chip8.Machine.Registers
import Chip8.Machine.Screen
import Chip8.Machine.Timers

/-!
# Machine states

The program counter is an integer: a jump may leave it outside memory, which
is noticed when the next instruction is fetched.
-/

namespace Chip8

structure Machine where
  memory : Memory := .initial
  registers : Registers := {}
  stack : CallStack := {}
  screen : Screen := {}
  timers : Timers := {}
  keypad : Keypad := {}
  pc : Int := Memory.programStart
  /-- The word fetched last, zero after a fetch outside memory. -/
  word : Word := 0
  /-- The register that waits for a key, while one does. -/
  awaiting : Option Register := none
  random : RandomBytes

namespace Machine

def initial (random : RandomBytes) : Machine := { random }

def load (m : Machine) (program : List Byte) : Except LoadError Machine :=
  match m.memory.load program with
  | .ok memory => .ok { m with memory }
  | .error e => .error e

def loadInts (m : Machine) (data : List Int) : Except LoadError Machine :=
  match m.memory.loadInts data with
  | .ok memory => .ok { m with memory }
  | .error e => .error e

def boot (random : RandomBytes) (program : List Byte) :
    Except LoadError Machine :=
  (initial random).load program

def tick (m : Machine) : Machine := { m with timers := m.timers.tick }

def ticks (m : Machine) (n : Nat) : Machine :=
  { m with timers := m.timers.ticks n }

def sounding (m : Machine) : Bool := m.timers.sounding

def v (m : Machine) (x : Register) : Byte := m.registers.get x

/-- The index register as an address. -/
def index (m : Machine) : Int := m.registers.index.toNat

def summary (m : Machine) : String :=
  "PC:" ++ hex 3 m.pc ++ " OP:" ++ hex 4 m.word.toNat
    ++ " SP:" ++ decimal m.stack.depth.val
    ++ " DT:" ++ hex 2 m.timers.delay ++ " ST:" ++ hex 2 m.timers.sound
    ++ " " ++ m.registers.text

end Machine

end Chip8
