import Chip8.Instruction.Basic

/-!
# Decoding

A pattern fixes some bits of a word and leaves the others to operands.  Words
are decoded by the first pattern of a table that they match.  In the table of
the instruction set only `sys` overlaps other patterns, those of `clear` and
`ret`, which therefore come before it.  What a word is decoded to keeps all
fields of the word, whatever its operation uses.
-/

namespace Chip8

structure Pattern where
  mask : Word
  bits : Word
  op : Op
  deriving DecidableEq, Repr

def Pattern.Matches (p : Pattern) (w : Word) : Prop := w &&& p.mask = p.bits

instance (p : Pattern) (w : Word) : Decidable (p.Matches w) :=
  inferInstanceAs (Decidable (_ = _))

def patterns : List Pattern :=
  [⟨0xFFFF, 0x00E0, .clear⟩,
   ⟨0xFFFF, 0x00EE, .ret⟩,
   ⟨0xF000, 0x0000, .sys⟩,
   ⟨0xF000, 0x1000, .jump⟩,
   ⟨0xF000, 0x2000, .call⟩,
   ⟨0xF000, 0x3000, .skipEqByte⟩,
   ⟨0xF000, 0x4000, .skipNeByte⟩,
   ⟨0xF00F, 0x5000, .skipEq⟩,
   ⟨0xF000, 0x6000, .setByte⟩,
   ⟨0xF000, 0x7000, .addByte⟩,
   ⟨0xF00F, 0x8000, .copy⟩,
   ⟨0xF00F, 0x8001, .or⟩,
   ⟨0xF00F, 0x8002, .and⟩,
   ⟨0xF00F, 0x8003, .xor⟩,
   ⟨0xF00F, 0x8004, .add⟩,
   ⟨0xF00F, 0x8005, .sub⟩,
   ⟨0xF00F, 0x8006, .shiftRight⟩,
   ⟨0xF00F, 0x8007, .subFrom⟩,
   ⟨0xF00F, 0x800E, .shiftLeft⟩,
   ⟨0xF00F, 0x9000, .skipNe⟩,
   ⟨0xF000, 0xA000, .setIndex⟩,
   ⟨0xF000, 0xB000, .jumpOffset⟩,
   ⟨0xF000, 0xC000, .random⟩,
   ⟨0xF000, 0xD000, .draw⟩,
   ⟨0xF0FF, 0xE09E, .skipKey⟩,
   ⟨0xF0FF, 0xE0A1, .skipNoKey⟩,
   ⟨0xF0FF, 0xF007, .readDelay⟩,
   ⟨0xF0FF, 0xF00A, .waitKey⟩,
   ⟨0xF0FF, 0xF015, .setDelay⟩,
   ⟨0xF0FF, 0xF018, .setSound⟩,
   ⟨0xF0FF, 0xF01E, .addIndex⟩,
   ⟨0xF0FF, 0xF029, .glyph⟩,
   ⟨0xF0FF, 0xF033, .digits⟩,
   ⟨0xF0FF, 0xF055, .store⟩,
   ⟨0xF0FF, 0xF065, .load⟩]

/-- The operation of the first pattern in `table` that the word matches. -/
def classify (table : List Pattern) (w : Word) : Op :=
  match table.find? (fun p => decide (p.Matches w)) with
  | some p => p.op
  | none => .unknown

/-- What a word is decoded to. -/
structure Decoded extends Operands where
  op : Op
  deriving DecidableEq, Repr

namespace Decoded

def instruction (d : Decoded) : Instruction := d.op.instruction d.toOperands

/-- The instruction is what is executed. -/
instance : Coe Decoded Instruction := ⟨instruction⟩

@[simp] theorem op_instruction (d : Decoded) : d.instruction.op = d.op :=
  Op.op_instruction _ _

end Decoded

def decodeWith (table : List Pattern) (w : Word) : Decoded :=
  { w.operands with op := classify table w }

/-- Every word decodes; one that matches no pattern is `unknown`. -/
def decode (w : Word) : Decoded := decodeWith patterns w

@[simp] theorem op_decodeWith (table : List Pattern) (w : Word) :
    (decodeWith table w).op = classify table w :=
  rfl

end Chip8
