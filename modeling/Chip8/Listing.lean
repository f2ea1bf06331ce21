import Chip8.Instruction.Mnemonic

/-!
# Listings

A program is read word by word from an origin, which may be any integer.  A
byte left over at the end is listed as data.
-/

namespace Chip8

inductive Item where
  | word (w : Word)
  | data (b : Byte)
  deriving DecidableEq, Repr

structure Entry where
  address : Int
  item : Item
  deriving DecidableEq, Repr

namespace Item

def word? : Item → Option Word
  | word w => some w
  | data _ => none

def text : Item → String
  | word w => (decode w).text
  | data b => "DB 0x" ++ hex 2 b.toNat

/-- The bytes in hexadecimal, in a column of four places. -/
def bytesColumn : Item → String
  | word w => hex 4 w.toNat
  | data b => hex 2 b.toNat ++ "  "

end Item

def disassemble (origin : Int) : List Byte → List Entry
  | [] => []
  | [b] => [⟨origin, .data b⟩]
  | high :: low :: rest =>
      ⟨origin, .word (Word.ofBytes high low)⟩ :: disassemble (origin + 2) rest

def Entry.line (e : Entry) : String :=
  hex 3 e.address ++ ": " ++ e.item.bytesColumn ++ "  " ++ e.item.text

def listing (origin : Int) (program : List Byte) : String :=
  "\n".intercalate ((disassemble origin program).map Entry.line)

end Chip8
