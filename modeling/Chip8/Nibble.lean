/-!
# Nibbles

Four bits.  Registers, keys and the digits that have glyphs are numbered by
nibbles, and a word is made of four of them.
-/

namespace Chip8

abbrev Nibble := Fin 16

/-- Numerals stand for nibbles. -/
instance Nibble.neZero : @NeZero Nat Zero.ofOfNat0 16 := ⟨Nat.succ_ne_zero 15⟩

/-- The low four bits, in two's complement for negative integers. -/
def Nibble.ofInt (value : Int) : Nibble := Fin.ofNat 16 (value % 16).toNat

@[simp] theorem Nibble.val_ofInt (value : Int) :
    (Nibble.ofInt value).val = (value % 16).toNat := by
  simp [Nibble.ofInt]
  omega

end Chip8
