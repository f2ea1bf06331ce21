/-!
# Integers in positional notation

Digits are written most significant first, letters in upper case.  A field of a
given width is filled with zeros on the left; the sign of a negative number
stands before the zeros and takes up one place of the width.
-/

namespace Chip8.Radix

/-- The digit for a value below thirty-six. -/
def digitChar (d : Nat) : Char :=
  if d < 10 then Char.ofNat (48 + d) else Char.ofNat (55 + d)

def digits (base n : Nat) : List Char :=
  if _h : 2 ≤ base ∧ base ≤ n then
    digits base (n / base) ++ [digitChar (n % base)]
  else [digitChar n]
termination_by n
decreasing_by exact Nat.div_lt_self (by omega) (by omega)

/-- Digits with leading zeros up to `width` places, the sign counted as one. -/
def padded (base width : Nat) : Int → List Char
  | .ofNat n => (digits base n).leftpad width '0'
  | .negSucc n => '-' :: (digits base (n + 1)).leftpad (width - 1) '0'

end Chip8.Radix

namespace Chip8

/-- Upper-case hexadecimal in at least `width` places. -/
def hex (width : Nat) (value : Int) : String :=
  String.ofList (Radix.padded 16 width value)

def decimal (value : Int) : String :=
  String.ofList (Radix.padded 10 1 value)

@[simp] theorem toList_hex (width : Nat) (value : Int) :
    (hex width value).toList = Radix.padded 16 width value := by
  simp [hex]

@[simp] theorem toList_decimal (value : Int) :
    (decimal value).toList = Radix.padded 10 1 value := by
  simp [decimal]

end Chip8
