/-!
# Timers

Two counters that ticks bring down to zero.  Sound is on while the sound timer
is positive.
-/

namespace Chip8

structure Timers where
  delay : Int := 0
  sound : Int := 0
  deriving DecidableEq, Repr

namespace Timers

def countDown (value : Int) : Int := if 0 < value then value - 1 else value

def tick (t : Timers) : Timers := ⟨countDown t.delay, countDown t.sound⟩

def ticks (t : Timers) : Nat → Timers
  | 0 => t
  | n + 1 => t.tick.ticks n

def sounding (t : Timers) : Bool := decide (0 < t.sound)

end Timers

end Chip8
