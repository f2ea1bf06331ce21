import Chip8.Instruction.Op
import Chip8.Instruction.Word

/-!
# Instructions

An instruction is an operation together with the operands it uses, and no
others: the shifts take one register, although their words have room for two.
The operands are taken from the fields of a word.
-/

namespace Chip8

inductive Instruction where
  | sys (nnn : Address)
  | clear
  | ret
  | jump (nnn : Address)
  | call (nnn : Address)
  | jumpOffset (nnn : Address)
  | skipEqByte (x : Register) (kk : Byte)
  | skipNeByte (x : Register) (kk : Byte)
  | skipEq (x y : Register)
  | skipNe (x y : Register)
  | skipKey (x : Register)
  | skipNoKey (x : Register)
  | setByte (x : Register) (kk : Byte)
  | addByte (x : Register) (kk : Byte)
  | copy (x y : Register)
  | or (x y : Register)
  | and (x y : Register)
  | xor (x y : Register)
  | add (x y : Register)
  | sub (x y : Register)
  | shiftRight (x : Register)
  | subFrom (x y : Register)
  | shiftLeft (x : Register)
  | setIndex (nnn : Address)
  | addIndex (x : Register)
  | glyph (x : Register)
  | digits (x : Register)
  | store (x : Register)
  | load (x : Register)
  | draw (x y : Register) (n : Nibble)
  | readDelay (x : Register)
  | setDelay (x : Register)
  | setSound (x : Register)
  | random (x : Register) (kk : Byte)
  | waitKey (x : Register)
  | unknown (word : Word)
  deriving DecidableEq, Repr

namespace Instruction

def op : Instruction → Op
  | sys _ => .sys
  | clear => .clear
  | ret => .ret
  | jump _ => .jump
  | call _ => .call
  | jumpOffset _ => .jumpOffset
  | skipEqByte _ _ => .skipEqByte
  | skipNeByte _ _ => .skipNeByte
  | skipEq _ _ => .skipEq
  | skipNe _ _ => .skipNe
  | skipKey _ => .skipKey
  | skipNoKey _ => .skipNoKey
  | setByte _ _ => .setByte
  | addByte _ _ => .addByte
  | copy _ _ => .copy
  | or _ _ => .or
  | and _ _ => .and
  | xor _ _ => .xor
  | add _ _ => .add
  | sub _ _ => .sub
  | shiftRight _ => .shiftRight
  | subFrom _ _ => .subFrom
  | shiftLeft _ => .shiftLeft
  | setIndex _ => .setIndex
  | addIndex _ => .addIndex
  | glyph _ => .glyph
  | digits _ => .digits
  | store _ => .store
  | load _ => .load
  | draw _ _ _ => .draw
  | readDelay _ => .readDelay
  | setDelay _ => .setDelay
  | setSound _ => .setSound
  | random _ _ => .random
  | waitKey _ => .waitKey
  | unknown _ => .unknown

end Instruction

/-- All fields of a word, and the word itself. -/
structure Operands where
  word : Word
  x : Register
  y : Register
  n : Nibble
  kk : Byte
  nnn : Address
  deriving DecidableEq, Repr

namespace Word

def operands (w : Word) : Operands := ⟨w, w.x, w.y, w.n, w.kk, w.nnn⟩

variable (w : Word)

@[simp] theorem word_operands : w.operands.word = w := rfl

@[simp] theorem x_operands : w.operands.x = w.x := rfl

@[simp] theorem y_operands : w.operands.y = w.y := rfl

@[simp] theorem n_operands : w.operands.n = w.n := rfl

@[simp] theorem kk_operands : w.operands.kk = w.kk := rfl

@[simp] theorem nnn_operands : w.operands.nnn = w.nnn := rfl

end Word

/-- The operation with the operands it uses. -/
def Op.instruction (f : Operands) : Op → Instruction
  | sys => .sys f.nnn
  | clear => .clear
  | ret => .ret
  | jump => .jump f.nnn
  | call => .call f.nnn
  | jumpOffset => .jumpOffset f.nnn
  | skipEqByte => .skipEqByte f.x f.kk
  | skipNeByte => .skipNeByte f.x f.kk
  | skipEq => .skipEq f.x f.y
  | skipNe => .skipNe f.x f.y
  | skipKey => .skipKey f.x
  | skipNoKey => .skipNoKey f.x
  | setByte => .setByte f.x f.kk
  | addByte => .addByte f.x f.kk
  | copy => .copy f.x f.y
  | or => .or f.x f.y
  | and => .and f.x f.y
  | xor => .xor f.x f.y
  | add => .add f.x f.y
  | sub => .sub f.x f.y
  | shiftRight => .shiftRight f.x
  | subFrom => .subFrom f.x f.y
  | shiftLeft => .shiftLeft f.x
  | setIndex => .setIndex f.nnn
  | addIndex => .addIndex f.x
  | glyph => .glyph f.x
  | digits => .digits f.x
  | store => .store f.x
  | load => .load f.x
  | draw => .draw f.x f.y f.n
  | readDelay => .readDelay f.x
  | setDelay => .setDelay f.x
  | setSound => .setSound f.x
  | random => .random f.x f.kk
  | waitKey => .waitKey f.x
  | unknown => .unknown f.word

@[simp] theorem Op.op_instruction (op : Op) (f : Operands) :
    (op.instruction f).op = op := by
  cases op <;> rfl

end Chip8
