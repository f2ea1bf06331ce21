import Chip8.Instruction.Word

/-!
# Random bytes

A script fixes the byte of every draw, and a counter says how many have been
taken from it.
-/

namespace Chip8

structure RandomBytes where
  script : Nat → Byte
  drawn : Nat := 0

namespace RandomBytes

/-- Repeats the given bytes for ever; no bytes stand for a single zero. -/
def repeating (bytes : Array Byte) : RandomBytes :=
  { script := fun k => bytes.getD (k % bytes.size) 0 }

def next (r : RandomBytes) : Byte × RandomBytes :=
  (r.script r.drawn, { r with drawn := r.drawn + 1 })

end RandomBytes

end Chip8
