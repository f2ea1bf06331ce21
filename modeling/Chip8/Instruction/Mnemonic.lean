import Chip8.Instruction.Decode
import Chip8.Text.Radix

/-!
# Assembly text

Each operation has one template, filled in from the fields of a word.  Fields
are integers here: a template writes whatever it is given, in range or not.
-/

namespace Chip8

structure Fields where
  word : Int := 0
  x : Int := 0
  y : Int := 0
  n : Int := 0
  kk : Int := 0
  nnn : Int := 0
  deriving DecidableEq, Repr

def Operands.fields (f : Operands) : Fields :=
  ⟨f.word.toNat, f.x.val, f.y.val, f.n.val, f.kk.toNat, f.nnn.val⟩

namespace Op

private def register (number : Int) : String := "V" ++ hex 1 number

private def byte (value : Int) : String := "0x" ++ hex 2 value

private def address (value : Int) : String := "0x" ++ hex 3 value

@[simp] theorem toList_register (number : Int) :
    (register number).toList = 'V' :: Radix.padded 16 1 number := by
  simp [register]

@[simp] theorem toList_byte (value : Int) :
    (byte value).toList = '0' :: 'x' :: Radix.padded 16 2 value := by
  simp [byte]

@[simp] theorem toList_address (value : Int) :
    (address value).toList = '0' :: 'x' :: Radix.padded 16 3 value := by
  simp [address]

private def pair (name : String) (f : Fields) : String :=
  name ++ " " ++ register f.x ++ ", " ++ register f.y

private def immediate (name : String) (f : Fields) : String :=
  name ++ " " ++ register f.x ++ ", " ++ byte f.kk

@[simp] theorem toList_pair (name : String) (f : Fields) :
    (pair name f).toList =
      name.toList ++ ' ' :: 'V' :: (Radix.padded 16 1 f.x ++
        ',' :: ' ' :: 'V' :: Radix.padded 16 1 f.y) := by
  simp [pair]

@[simp] theorem toList_immediate (name : String) (f : Fields) :
    (immediate name f).toList =
      name.toList ++ ' ' :: 'V' :: (Radix.padded 16 1 f.x ++
        ',' :: ' ' :: '0' :: 'x' :: Radix.padded 16 2 f.kk) := by
  simp [immediate]

def text (f : Fields) : Op → String
  | sys => "SYS " ++ address f.nnn
  | clear => "CLS"
  | ret => "RET"
  | jump => "JP " ++ address f.nnn
  | call => "CALL " ++ address f.nnn
  | jumpOffset => "JP V0, " ++ address f.nnn
  | skipEqByte => immediate "SE" f
  | skipNeByte => immediate "SNE" f
  | skipEq => pair "SE" f
  | skipNe => pair "SNE" f
  | skipKey => "SKP " ++ register f.x
  | skipNoKey => "SKNP " ++ register f.x
  | setByte => immediate "LD" f
  | addByte => immediate "ADD" f
  | copy => pair "LD" f
  | or => pair "OR" f
  | and => pair "AND" f
  | xor => pair "XOR" f
  | add => pair "ADD" f
  | sub => pair "SUB" f
  | shiftRight => "SHR " ++ register f.x
  | subFrom => pair "SUBN" f
  | shiftLeft => "SHL " ++ register f.x
  | setIndex => "LD I, " ++ address f.nnn
  | addIndex => "ADD I, " ++ register f.x
  | glyph => "LD F, " ++ register f.x
  | digits => "LD B, " ++ register f.x
  | store => "LD [I], " ++ register f.x
  | load => "LD " ++ register f.x ++ ", [I]"
  | draw => pair "DRW" f ++ ", " ++ decimal f.n
  | readDelay => "LD " ++ register f.x ++ ", DT"
  | setDelay => "LD DT, " ++ register f.x
  | setSound => "LD ST, " ++ register f.x
  | random => immediate "RND" f
  | waitKey => "LD " ++ register f.x ++ ", K"
  | unknown => "UNKNOWN 0x" ++ hex 4 f.word

end Op

def Decoded.text (d : Decoded) : String := d.op.text d.fields

end Chip8
