import Chip8.Nibble
import Chip8.Position
import Chip8.Text.Radix

/-!
# The keypad

Sixteen keys named by hexadecimal digits, each down or up.  On a keyboard they
take the four left columns of the digit row and the three rows below it.
-/

namespace Chip8

abbrev Key := Nibble

structure Keypad where
  down : Vector Bool 16 := Vector.replicate 16 false
  deriving DecidableEq

namespace Keypad

/-- The keyboard's characters in reading order, with the keys they stand for. -/
def layout : List (Char × Key) :=
  [('1', 0x1), ('2', 0x2), ('3', 0x3), ('4', 0xC),
   ('Q', 0x4), ('W', 0x5), ('E', 0x6), ('R', 0xD),
   ('A', 0x7), ('S', 0x8), ('D', 0x9), ('F', 0xE),
   ('Z', 0xA), ('X', 0x0), ('C', 0xB), ('V', 0xF)]

def released : Keypad := {}

def isDown (k : Keypad) (key : Key) : Bool := k.down[key]

def set (k : Keypad) (key : Key) (down : Bool) : Keypad :=
  ⟨k.down.set key down⟩

def press (k : Keypad) (key : Key) : Keypad := k.set key true

def release (k : Keypad) (key : Key) : Keypad := k.set key false

/-- One flag a key; no other number of flags describes a keypad. -/
def ofFlags? (flags : List Bool) : Option Keypad :=
  if h : flags.toArray.size = 16 then some ⟨⟨flags.toArray, h⟩⟩ else none

def flags (k : Keypad) : List Bool := k.down.toList

@[simp] theorem length_flags (k : Keypad) : k.flags.length = 16 := by
  simp [flags]

@[simp] theorem ofFlags?_flags (k : Keypad) : ofFlags? k.flags = some k := by
  simp [ofFlags?, flags, Vector.toList]

theorem flags_of_ofFlags? {l : List Bool} {k : Keypad}
    (h : ofFlags? l = some k) : k.flags = l := by
  unfold ofFlags? at h
  split at h
  · cases h
    simp [flags, Vector.toList]
  · cases h

theorem isSome_ofFlags? (l : List Bool) :
    (ofFlags? l).isSome = decide (l.length = 16) := by
  by_cases h : l.length = 16 <;> simp [ofFlags?, h]

@[simp] theorem isDown_set_self (k : Keypad) (key : Key) (down : Bool) :
    (k.set key down).isDown key = down := by
  simp [isDown, set]

theorem isDown_set_of_ne (k : Keypad) {a b : Key} (down : Bool) (h : a ≠ b) :
    (k.set a down).isDown b = k.isDown b := by
  have : a.val ≠ b.val := fun e => h (Fin.ext e)
  simp [isDown, set, this]

/-- The keypad with the keys at the given positions down, or the first position
that names no key. -/
def ofPositions (positions : List Int) : Except Int Keypad :=
  positions.foldlM (fun k p =>
    match Position.resolve 16 p with
    | .ok key => .ok (k.press key)
    | .error _ => .error p) released

/-- The keys that are down, in ascending order. -/
def pressed (k : Keypad) : List Key := (List.finRange 16).filter k.isDown

@[simp] theorem mem_pressed (k : Keypad) (key : Key) :
    key ∈ k.pressed ↔ k.isDown key = true := by
  simp [pressed]

def firstPressed? (k : Keypad) : Option Key := k.pressed.head?

def text (k : Keypad) : String :=
  " ".intercalate (layout.map fun (name, key) =>
    String.ofList [name, ':', if k.isDown key then '1' else '0'])

end Keypad

end Chip8
