import Chip8.Instruction.Basic
import Chip8.Machine.State

/-!
# Executing one instruction

`execute` runs on a machine whose program counter is already past the
instruction.  An instruction that fails part of the way leaves what it had
done before it failed.
-/

namespace Chip8

/-- Why an instruction of a running program cannot be completed. -/
inductive Trap where
  | stackOverflow
  | stackUnderflow
  | outsideMemory (e : Memory.Outside)
  deriving DecidableEq, Repr

def Trap.message : Trap → String
  | stackOverflow => "Stack overflow on CALL (depth 16)"
  | stackUnderflow => "Stack underflow on RET"
  | outsideMemory e => e.message

inductive StepError where
  | outOfBounds (pc : Int)
  | trap (t : Trap)
  | unrepresentable (value : Int)
  deriving DecidableEq, Repr

abbrev Outcome := Machine × Except StepError Unit

namespace Machine

def done (m : Machine) : Outcome := (m, .ok ())

def fail (m : Machine) (e : StepError) : Outcome := (m, .error e)

/-- Ends a run of memory accesses, the first failure of which is a trap. -/
def finish (m : Machine) : Except Memory.Outside Unit → Outcome
  | .ok () => m.done
  | .error e => m.fail (.trap (.outsideMemory e))

def setV (m : Machine) (x : Register) (value : Byte) : Machine :=
  { m with registers := m.registers.set x value }

/-- Sets VF and then Vx: an instruction on VF leaves its result there. -/
def setFlagged (m : Machine) (x : Register) (value : Byte) (flag : Bool) :
    Machine :=
  { m with registers := (m.registers.setFlag flag).set x value }

def setIndex (m : Machine) (value : Word) : Machine :=
  { m with registers := { m.registers with index := value } }

def skipIf (m : Machine) (condition : Bool) : Machine :=
  if condition then { m with pc := m.pc + 2 } else m

/-- The key named by the low four bits of Vx. -/
def keyOf (m : Machine) (x : Register) : Key := Nibble.ofInt (m.v x).toNat

def call (m : Machine) (target : Address) : Outcome :=
  match m.stack.push m.pc with
  | .ok stack => { m with stack, pc := target.val }.done
  | .error .full => m.fail (.trap .stackOverflow)
  | .error (.unrepresentable value) => m.fail (.unrepresentable value)

def ret (m : Machine) : Outcome :=
  match m.stack.pop? with
  | some (address, stack) => { m with stack, pc := address.toNat }.done
  | none => m.fail (.trap .stackUnderflow)

/-- The cell at which a sprite of Vx and Vy starts. -/
def drawOrigin (m : Machine) (x y : Register) : Nat × Nat :=
  ((m.v x).toNat % 64, (m.v y).toNat % 32)

/-- Draws the rows that memory holds from I on, up to `n` of them. -/
def draw (m : Machine) (x y : Register) (n : Nat) : Outcome :=
  let origin := m.drawOrigin x y
  let run := m.memory.readRun m.index n
  let drawn := m.screen.draw origin.1 origin.2 run.1
  { m with
    screen := drawn.1
    registers := m.registers.setFlag drawn.2 }.finish run.2

def store (m : Machine) (bytes : List Byte) : Outcome :=
  let run := m.memory.writeRun m.index bytes
  { m with memory := run.1 }.finish run.2

def loadRegisters (m : Machine) (x : Register) : Outcome :=
  let run := m.memory.readRun m.index (x.val + 1)
  { m with registers := m.registers.fill run.1 }.finish run.2

def decimalDigits (b : Byte) : List Byte := [b / 100, b / 10 % 10, b % 10]

def execute (m : Machine) : Instruction → Outcome
  | .sys _ => m.done
  | .clear => { m with screen := .blank }.done
  | .ret => m.ret
  | .jump nnn => { m with pc := nnn.val }.done
  | .call nnn => m.call nnn
  | .jumpOffset nnn => { m with pc := nnn.val + (m.v 0).toNat }.done
  | .skipEqByte x kk => (m.skipIf (m.v x == kk)).done
  | .skipNeByte x kk => (m.skipIf (m.v x != kk)).done
  | .skipEq x y => (m.skipIf (m.v x == m.v y)).done
  | .skipNe x y => (m.skipIf (m.v x != m.v y)).done
  | .skipKey x => (m.skipIf (m.keypad.isDown (m.keyOf x))).done
  | .skipNoKey x => (m.skipIf (!m.keypad.isDown (m.keyOf x))).done
  | .setByte x kk => (m.setV x kk).done
  | .addByte x kk => (m.setV x (m.v x + kk)).done
  | .copy x y => (m.setV x (m.v y)).done
  | .or x y => (m.setV x (m.v x ||| m.v y)).done
  | .and x y => (m.setV x (m.v x &&& m.v y)).done
  | .xor x y => (m.setV x (m.v x ^^^ m.v y)).done
  | .add x y =>
      (m.setFlagged x (m.v x + m.v y)
        (0xFF < (m.v x).toNat + (m.v y).toNat)).done
  | .sub x y => (m.setFlagged x (m.v x - m.v y) (m.v y ≤ m.v x)).done
  | .shiftRight x => (m.setFlagged x (m.v x >>> 1) (m.v x % 2 == 1)).done
  | .subFrom x y => (m.setFlagged x (m.v y - m.v x) (m.v x ≤ m.v y)).done
  | .shiftLeft x => (m.setFlagged x (m.v x <<< 1) (0x80 ≤ m.v x)).done
  | .setIndex nnn => (m.setIndex (UInt16.ofNat nnn.val)).done
  | .addIndex x => (m.setIndex (m.registers.index + (m.v x).toUInt16)).done
  | .glyph x =>
      (m.setIndex (UInt16.ofNat (Memory.glyphAddress (m.v x).toNat))).done
  | .digits x => m.store (decimalDigits (m.v x))
  | .store x => m.store (m.registers.upTo x)
  | .load x => m.loadRegisters x
  | .draw x y n => m.draw x y n.val
  | .readDelay x => (m.setV x (Byte.ofInt m.timers.delay)).done
  | .setDelay x =>
      { m with timers := { m.timers with delay := (m.v x).toNat } }.done
  | .setSound x =>
      { m with timers := { m.timers with sound := (m.v x).toNat } }.done
  | .random x kk =>
      let (b, random) := m.random.next
      ({ m with random }.setV x (b &&& kk)).done
  | .waitKey x => { m with awaiting := some x }.done
  | .unknown _ => m.done

end Machine

/-- Whether an instruction, once completed, has changed the screen. -/
def Instruction.redraws : Instruction → Bool
  | clear | draw _ _ _ => true
  | _ => false

end Chip8
