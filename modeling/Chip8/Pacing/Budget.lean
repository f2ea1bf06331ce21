import Chip8.Amount

/-!
# Time budgets

Elapsed time at a given rate accrues in a budget, from which whole counts are
taken; the remainder stays for the next time.  A slack of a millionth lets a
count that falls short of a whole by rounding be taken at once, and then leaves
the budget a little below zero.

`Pacing τ β` says how times and rates of type `τ` are counted in budgets of
type `β`.  It is instantiated by amounts in double precision and by exact
rational numbers.
-/

namespace Chip8

class Pacing (τ : Type) (β : outParam Type) where
  empty : β
  /-- The budget after some time at some rate. -/
  accrue (budget : β) (elapsed rate : τ) : Except AmountError β
  /-- The whole count in a budget, with slack, rounded toward zero. -/
  whole (budget : β) : Except AmountError Int
  /-- The budget without a count that has been taken from it. -/
  spend (budget : β) (count : Int) : β

/-- Accrues and takes the whole count.  Time that has accrued stays in the
budget if no count can be taken. -/
def Pacing.withdraw {τ β : Type} [Pacing τ β] (budget : β)
    (elapsed rate : τ) : β × Except AmountError Int :=
  match accrue budget elapsed rate with
  | .error e => (budget, .error e)
  | .ok budget =>
      match whole τ budget with
      | .error e => (budget, .error e)
      | .ok count => (spend τ budget count, .ok count)

instance : Pacing Amount Float where
  empty := 0
  accrue budget elapsed rate := do
    let earned ← (← elapsed.mul rate).toFloat
    return budget + earned
  whole budget := truncate (budget + 1e-6)
  spend budget count := budget - Float.ofInt count

def slack : Rat := 1 / 1000000

def integerPart (q : Rat) : Int := if 0 ≤ q then q.floor else q.ceil

instance : Pacing Rat Rat where
  empty := 0
  accrue budget elapsed rate := .ok (budget + elapsed * rate)
  whole budget := .ok (integerPart (budget + slack))
  spend budget count := budget - count

end Chip8
