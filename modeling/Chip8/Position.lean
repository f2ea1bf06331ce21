/-!
# Positions counted from either end

A position from zero counts from the start of a sequence, and a negative one
from its end, where `-1` is the last element.
-/

namespace Chip8

inductive Position.Error where
  /-- The sequence has no such element. -/
  | outside
  /-- The number needs more than sixty-four bits. -/
  | oversized
  deriving DecidableEq, Repr

namespace Position

/-- The first number above those of sixty-four bits with a sign. -/
def limit : Int := 0x8000000000000000

def resolve (size : Nat) (position : Int) : Except Error (Fin size) :=
  if h : 0 ≤ position ∧ position < size then
    .ok ⟨position.toNat, by omega⟩
  else if h : position < 0 ∧ -size ≤ position then
    .ok ⟨(position + size).toNat, by omega⟩
  else if -limit ≤ position ∧ position < limit then .error .outside
  else .error .oversized

/-- A bound of a half-open range, cut to the length of the sequence. -/
def clip (size : Nat) (bound : Int) : Nat :=
  if bound < 0 then (bound + size).toNat else min bound.toNat size

/-- The elements of the range from `start` to before `stop`. -/
def slice {α : Type} (elements : List α) (start stop : Int) : List α :=
  let start := clip elements.length start
  (elements.drop start).take (clip elements.length stop - start)

namespace Error

def message : Error → String
  | outside => "list index out of range"
  | oversized => "cannot fit 'int' into an index-sized integer"

def assignmentMessage : Error → String
  | outside => "list assignment index out of range"
  | oversized => "cannot fit 'int' into an index-sized integer"

end Error

end Position

end Chip8
