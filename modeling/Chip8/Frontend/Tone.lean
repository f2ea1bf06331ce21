import Chip8.Amount

/-!
# The tone

A square wave that is up for the first half of each period.  Its period is a
whole number of samples, which is only looked for when there are samples.  The
length of the wave in bytes is counted in thirty-two bits.
-/

namespace Chip8

structure Tone where
  rate : Amount
  samples : List Int
  seconds : Float

namespace Tone

def peak : Int := 32767

/-- The number above those of thirty-two bits. -/
def wrap : Int := 0x100000000

def sampleCount (duration rate : Amount) : Except AmountError Nat := do
  let bytes ← (← (Amount.integer 2).mul rate).mul duration
  match bytes with
  | .integer n => return (n % wrap / 2).toNat
  | .real x => return ((← truncate x) % wrap / 2).toNat

/-- Sample `k` of a wave that is up for `high` samples of each `period`. -/
def sample (period high : Int) (k : Nat) : Int :=
  if (k : Int).fmod period < high then peak else -peak

def wave (frequency rate : Amount) (count : Nat) :
    Except AmountError (List Int) := do
  if count = 0 then return []
  let period ← truncate (← rate.div frequency)
  if period = 0 then throw .realModulusZero
  let high ← truncate (50.0 * Float.ofInt period / 100)
  return (List.range count).map (sample period high)

/-- A tone.  How long it takes is found out last, and where there are samples as
a quotient of doubles. -/
def square (duration frequency rate : Amount) : Except AmountError Tone := do
  let count ← sampleCount duration rate
  let samples ← wave frequency rate count
  let bytes : Amount :=
    if count = 0 then .integer 0 else .real (Float.ofNat (2 * count))
  let seconds ← bytes.div (← (Amount.integer 2).mul rate)
  return { rate, samples, seconds }

def defaultDuration : Amount := .real 0.5

def defaultFrequency : Amount := .integer 440

def defaultRate : Amount := .integer 44100

end Tone

end Chip8
