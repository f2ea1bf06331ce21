import Chip8.Nibble

/-!
# Instruction words

An instruction is one big-endian word of four nibbles,

    group   x       y       n
    15..12  11..8   7..4    3..0

with the byte `kk` made of `y` and `n`, and the address `nnn` of `x`, `y` and
`n`.  Integers of any size are read as the word of their low sixteen bits.
-/

namespace Chip8

abbrev Word := UInt16

abbrev Byte := UInt8

abbrev Register := Nibble

/-- A twelve-bit address, as jumps and calls carry it. -/
abbrev Address := Fin 4096

namespace Word

/-- The low sixteen bits, in two's complement for negative integers. -/
def ofInt (value : Int) : Word := UInt16.ofNat (value % 65536).toNat

def ofBytes (high low : Byte) : Word :=
  UInt16.ofNat (high.toNat * 256 + low.toNat)

def high (w : Word) : Byte := UInt8.ofNat (w.toNat / 256)

def low (w : Word) : Byte := UInt8.ofNat w.toNat

def group (w : Word) : Nibble := Fin.ofNat 16 (w.toNat / 4096)

def x (w : Word) : Register := Fin.ofNat 16 (w.toNat / 256)

def y (w : Word) : Register := Fin.ofNat 16 (w.toNat / 16)

def n (w : Word) : Nibble := Fin.ofNat 16 w.toNat

def kk (w : Word) : Byte := w.low

def nnn (w : Word) : Address := Fin.ofNat 4096 w.toNat

@[simp] theorem toNat_ofInt (value : Int) :
    (ofInt value).toNat = (value % 65536).toNat := by
  simp [ofInt]
  omega

@[simp] theorem toNat_ofBytes (high low : Byte) :
    (ofBytes high low).toNat = high.toNat * 256 + low.toNat := by
  have := high.toNat_lt
  have := low.toNat_lt
  simp [ofBytes]
  omega

@[simp] theorem ofBytes_high_low (w : Word) : ofBytes w.high w.low = w := by
  have := w.toNat_lt
  apply UInt16.toNat.inj
  simp [high, low]
  omega

@[simp] theorem high_ofBytes (high low : Byte) :
    (ofBytes high low).high = high := by
  have := high.toNat_lt
  have := low.toNat_lt
  apply UInt8.toNat.inj
  simp [Word.high]
  omega

@[simp] theorem low_ofBytes (high low : Byte) :
    (ofBytes high low).low = low := by
  apply UInt8.toNat.inj
  simp [Word.low]

end Word

/-- The low eight bits, in two's complement for negative integers. -/
def Byte.ofInt (value : Int) : Byte := UInt8.ofNat (value % 256).toNat

/-- The same numbers as bytes, if each of them is one. -/
def Byte.ofInts? : List Int → Option (List Byte)
  | [] => some []
  | value :: rest =>
      if 0 ≤ value ∧ value < 256 then
        (Byte.ofInts? rest).map (UInt8.ofNat value.toNat :: ·)
      else none

/-- The big-endian bytes of a list of words. -/
def assemble (words : List Word) : List Byte :=
  words.flatMap fun w => [w.high, w.low]

end Chip8
