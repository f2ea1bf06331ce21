/-!
# Amounts

A number is kept as it was given: an integer of any size, or a double.  Two
integers are multiplied exactly; as soon as a double takes part, the other
operand is rounded to one.
-/

namespace Chip8

inductive Amount where
  | integer (value : Int)
  | real (value : Float)

inductive AmountError where
  /-- An integer beyond the range of doubles. -/
  | integerTooLarge
  /-- A quotient of integers beyond the range of doubles. -/
  | quotientTooLarge
  | divisionByZero
  | realDivisionByZero
  | realModulusZero
  | infiniteToInteger
  | nanToInteger
  deriving DecidableEq, Repr

def AmountError.message : AmountError → String
  | integerTooLarge => "int too large to convert to float"
  | quotientTooLarge => "integer division result too large for a float"
  | divisionByZero => "division by zero"
  | realDivisionByZero => "float division by zero"
  | realModulusZero => "float modulo"
  | infiniteToInteger => "cannot convert float infinity to integer"
  | nanToInteger => "cannot convert float NaN to integer"

/-- The leading bit of a significand, above the fifty-two bits of the fraction
that a double spells out. -/
def hiddenBit : Nat := 0x10000000000000

/-- The integer part of a double, read from its bits. -/
def truncate (x : Float) : Except AmountError Int :=
  let bits := x.toBits.toNat
  let exponent := bits / hiddenBit % 2048
  let fraction := bits % hiddenBit
  if exponent = 2047 then
    .error (if fraction = 0 then .infiniteToInteger else .nanToInteger)
  else
    let significand := if exponent = 0 then fraction else hiddenBit + fraction
    let magnitude : Nat :=
      (significand <<< (exponent - 1075)) >>> (1075 - exponent)
    .ok (if bits / hiddenBit < 2048 then magnitude else -magnitude)

namespace Amount

def toFloat : Amount → Except AmountError Float
  | integer n =>
      let x := Float.ofInt n
      if x.isFinite then .ok x else .error .integerTooLarge
  | real x => .ok x

def mul : Amount → Amount → Except AmountError Amount
  | integer a, integer b => .ok (integer (a * b))
  | a, b => do return real ((← a.toFloat) * (← b.toFloat))

/-- The quotient of positive integers, rounded once.  Numerator and denominator
are brought to sixty-six bits of quotient, the last of which records whether a
remainder was dropped. -/
def quotient (n d : Nat) : Float :=
  let shift : Int := 66 + d.log2 - n.log2
  let n := n <<< shift.toNat
  let d := d <<< (-shift).toNat
  let q := if n % d = 0 then n / d else n / d ||| 1
  (Float.ofNat q).scaleB (-shift)

def div : Amount → Amount → Except AmountError Float
  | integer _, integer 0 => .error .divisionByZero
  | integer a, integer b =>
      if a = 0 then .ok 0
      else
        let q := quotient a.natAbs b.natAbs
        if q.isFinite then .ok (if (a < 0) = (b < 0) then q else -q)
        else .error .quotientTooLarge
  | a, b => do
      let a ← a.toFloat
      let b ← b.toFloat
      if b == 0 then .error .realDivisionByZero else return a / b

end Amount

theorem exists_of_bind_ok {ε α β : Type} {x : Except ε α}
    {f : α → Except ε β} {b : β} (h : x >>= f = .ok b) :
    ∃ a, x = .ok a ∧ f a = .ok b := by
  cases x with
  | error e => cases h
  | ok a => exact ⟨a, rfl, h⟩

end Chip8
