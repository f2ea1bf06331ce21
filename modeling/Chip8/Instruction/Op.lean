/-!
# Operations

The thirty-five operations of the instruction set, and `unknown` for a word
that matches none of them.  `Op.all` lists them by subject: control flow,
conditional skips, immediate and register arithmetic, the index register and
memory, display, timers, and the rest.
-/

namespace Chip8

inductive Op where
  | sys | clear | ret | jump | call | jumpOffset
  | skipEqByte | skipNeByte | skipEq | skipNe | skipKey | skipNoKey
  | setByte | addByte
  | copy | or | and | xor | add | sub | shiftRight | subFrom | shiftLeft
  | setIndex | addIndex | glyph | digits | store | load
  | draw
  | readDelay | setDelay | setSound
  | random | waitKey | unknown
  deriving DecidableEq, Repr

namespace Op

def all : List Op :=
  [sys, clear, ret, jump, call, jumpOffset,
   skipEqByte, skipNeByte, skipEq, skipNe, skipKey, skipNoKey,
   setByte, addByte,
   copy, or, and, xor, add, sub, shiftRight, subFrom, shiftLeft,
   setIndex, addIndex, glyph, digits, store, load,
   draw,
   readDelay, setDelay, setSound,
   random, waitKey, unknown]

/-- The mnemonic with its operand classes, as one identifier. -/
def name : Op → String
  | sys => "SYS"
  | clear => "CLS"
  | ret => "RET"
  | jump => "JP"
  | call => "CALL"
  | jumpOffset => "JP_V0"
  | skipEqByte => "SE_VX_KK"
  | skipNeByte => "SNE_VX_KK"
  | skipEq => "SE_VX_VY"
  | skipNe => "SNE_VX_VY"
  | skipKey => "SKP"
  | skipNoKey => "SKNP"
  | setByte => "LD_VX_KK"
  | addByte => "ADD_VX_KK"
  | copy => "LD_VX_VY"
  | or => "OR"
  | and => "AND"
  | xor => "XOR"
  | add => "ADD"
  | sub => "SUB"
  | shiftRight => "SHR"
  | subFrom => "SUBN"
  | shiftLeft => "SHL"
  | setIndex => "LD_I"
  | addIndex => "ADD_I_VX"
  | glyph => "LD_F_VX"
  | digits => "LD_B_VX"
  | store => "LD_I_VX"
  | load => "LD_VX_I"
  | draw => "DRW"
  | readDelay => "LD_VX_DT"
  | setDelay => "LD_DT_VX"
  | setSound => "LD_ST_VX"
  | random => "RND"
  | waitKey => "LD_VX_K"
  | unknown => "UNKNOWN"

def ofName? (name : String) : Option Op := all.find? (·.name == name)

theorem mem_all (op : Op) : op ∈ all := by cases op <;> decide

end Op

end Chip8
