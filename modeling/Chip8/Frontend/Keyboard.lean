import Chip8.Machine.Keypad

/-!
# The keyboard

Keys of the keyboard have names and are reported by codes.  A window knows the
escape key, F1, the space bar and the keys of the keypad's layout, which stand
for the keys of the keypad.
-/

namespace Chip8

structure KeySymbol where
  code : Nat
  deriving DecidableEq, Repr

/-- The codes of keys by the names of the keys. -/
class Keyboard where
  named : String → KeySymbol

namespace KeySymbol

/-- A letter is named by itself, a digit with an underscore before it. -/
def charName (c : Char) : String :=
  String.ofList (if c.isDigit then ['_', c] else [c])

variable [Keyboard]

def escape : KeySymbol := Keyboard.named "ESCAPE"

def f1 : KeySymbol := Keyboard.named "F1"

def space : KeySymbol := Keyboard.named "SPACE"

def ofChar (c : Char) : KeySymbol := Keyboard.named (charName c)

/-- The keyboard's keys for the keypad with their names, in the order of the
layout. -/
def keymap : List (String × KeySymbol × Key) :=
  Keypad.layout.map fun (c, key) => (charName c, ofChar c, key)

def key? (symbol : KeySymbol) : Option Key :=
  (keymap.map (·.2)).lookup symbol

end KeySymbol

end Chip8
