import Chip8.Instruction.Mnemonic
import Chip8.Log
import Chip8.Machine.Execute

/-!
# The trace of a run

The entry that the processor logs for a completed instruction follows from the
instruction and the machine before and after it.  A skip whose condition fails
is not reported.
-/

namespace Chip8

namespace Trace

private def reg (x : Register) : String := "V" ++ hex 1 x.val

private def byte (b : Byte) : String := "0x" ++ hex 2 b.toNat

private def address (a : Int) : String := "0x" ++ hex 3 a

private def bit (b : Bool) : String := if b then "1" else "0"

private def skip (condition : String) : String :=
  "Skip next instruction: " ++ condition

private def logic (name : String) (x y : Register) (after : Machine) : String :=
  reg x ++ " = " ++ reg x ++ " " ++ name ++ " " ++ reg y ++ " -> "
    ++ byte (after.v x)

private def difference (x : Register) (minuend subtrahend : Byte)
    (after : Machine) : String :=
  "Set " ++ reg x ++ " = " ++ byte minuend ++ " - " ++ byte subtrahend ++ ": "
    ++ byte (after.v x) ++ ", NOT borrow=" ++ bit (subtrahend ≤ minuend)

def describe (before after : Machine) : Instruction → String
  | .sys nnn => "SYS " ++ address nnn.val ++ " ignored"
  | .clear => "Clear the display"
  | .ret => "Return to " ++ address after.pc
  | .jump nnn => "Jump to address " ++ address nnn.val
  | .call nnn => "Call subroutine at " ++ address nnn.val
  | .jumpOffset nnn =>
      "Jump to address V0 + " ++ address nnn.val ++ " = " ++ address after.pc
  | .skipEqByte x kk => skip (reg x ++ " == " ++ byte kk)
  | .skipNeByte x kk => skip (reg x ++ " != " ++ byte kk)
  | .skipEq x y => skip (reg x ++ " == " ++ reg y)
  | .skipNe x y => skip (reg x ++ " != " ++ reg y)
  | .skipKey x => skip ("key " ++ hex 1 (before.keyOf x).val ++ " pressed")
  | .skipNoKey x =>
      skip ("key " ++ hex 1 (before.keyOf x).val ++ " not pressed")
  | .setByte x kk => "Set " ++ reg x ++ " = " ++ byte kk
  | .addByte x kk =>
      "Add " ++ byte kk ++ " to " ++ reg x ++ ": " ++ byte (after.v x)
  | .copy x y =>
      "Copy " ++ reg y ++ " into " ++ reg x ++ ": " ++ byte (after.v x)
  | .or x y => logic "OR" x y after
  | .and x y => logic "AND" x y after
  | .xor x y => logic "XOR" x y after
  | .add x y =>
      "Add " ++ reg y ++ " to " ++ reg x ++ ": " ++ byte (after.v x)
        ++ ", carry=" ++ bit (0xFF < (before.v x).toNat + (before.v y).toNat)
  | .sub x y => difference x (before.v x) (before.v y) after
  | .shiftRight x =>
      "Shift " ++ reg x ++ " right by 1: " ++ byte (after.v x)
        ++ ", least significant bit=" ++ bit (before.v x % 2 == 1)
  | .subFrom x y => difference x (before.v y) (before.v x) after
  | .shiftLeft x =>
      "Shift " ++ reg x ++ " left by 1: " ++ byte (after.v x)
        ++ ", most significant bit=" ++ bit (0x80 ≤ before.v x)
  | .setIndex nnn => "Set I = " ++ address nnn.val
  | .addIndex x => "Add " ++ reg x ++ " to I: " ++ address after.index
  | .glyph x =>
      "Set I = glyph " ++ hex 1 (before.keyOf x).val ++ " at "
        ++ address after.index
  | .digits x =>
      "Store BCD of " ++ reg x ++ " (" ++ decimal (before.v x).toNat ++ ") at "
        ++ address before.index
  | .store x => "Store V0.." ++ reg x ++ " at " ++ address before.index
  | .load x => "Load V0.." ++ reg x ++ " from " ++ address before.index
  | .draw x y _ =>
      let (left, top) := before.drawOrigin x y
      "Drew sprite at (" ++ decimal left ++ ", " ++ decimal top
        ++ "), collision=" ++ decimal after.registers.flag.toNat
  | .readDelay x =>
      "Set " ++ reg x ++ " = delay timer (" ++ decimal before.timers.delay
        ++ ")"
  | .setDelay x =>
      "Set delay timer = " ++ reg x ++ " (" ++ decimal after.timers.delay
        ++ ")"
  | .setSound x =>
      "Set sound timer = " ++ reg x ++ " (" ++ decimal after.timers.sound
        ++ ")"
  | .random x kk =>
      "Set " ++ reg x ++ " = random_byte & " ++ byte kk ++ " -> "
        ++ byte (after.v x)
  | .waitKey x => "Waiting for key into " ++ reg x
  | .unknown word =>
      "Unknown opcode: " ++ hex 4 word.toNat ++ " at " ++ address (before.pc - 2)

def level : Instruction → Log.Level
  | .unknown _ => .warning
  | _ => .debug

def conditional : Instruction → Bool
  | .skipEqByte _ _ | .skipNeByte _ _ | .skipEq _ _ | .skipNe _ _
  | .skipKey _ | .skipNoKey _ => true
  | _ => false

def entry (before after : Machine) (i : Instruction) : Option Log.Entry :=
  if conditional i && before.pc == after.pc then none
  else some ⟨level i, .processor, describe before after i⟩

def resumed (key : Key) (x : Register) : Log.Entry :=
  ⟨.debug, .processor, "Key " ++ hex 1 key.val ++ " pressed, stored in "
    ++ reg x ++ ", resuming"⟩

end Trace

end Chip8
