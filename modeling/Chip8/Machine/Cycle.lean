import Chip8.Machine.Trace

/-!
# Cycles

A cycle fetches, decodes and executes one instruction, or, while a register
waits for a key, looks for one.  Timers do not run with cycles.
-/

namespace Chip8

/-- The end of a program by a failing instruction, or, without a cause, by a
program counter outside memory. -/
structure Fault where
  pc : Int
  word : Word
  cause : Option Trap
  deriving DecidableEq, Repr

namespace Fault

def reason (f : Fault) : String :=
  match f.cause with
  | some t => t.message
  | none => "PC out of bounds: 0x" ++ hex 3 f.pc

def message (f : Fault) : String :=
  "Fault at PC=0x" ++ hex 3 f.pc ++ " opcode=" ++ hex 4 f.word.toNat ++ ": "
    ++ f.reason

end Fault

/-- A completed instruction and what was logged about it. -/
structure Executed where
  decoded : Decoded
  entry : Option Log.Entry

structure Output where
  updated : Bool
  screen : Screen
  sounding : Bool
  entry : Option Log.Entry

inductive CycleError where
  | snapshot (size : Nat)
  | fault (f : Fault)
  | unrepresentable (value : Int)
  deriving DecidableEq, Repr

/-- One flag for each key, in order. -/
abbrev Snapshot := List Bool

namespace Machine

/-- The word at the program counter, with room for the next word behind it. -/
def fetch? (m : Machine) : Option Word :=
  if h : 0 ≤ m.pc ∧ m.pc < 4094 then
    some (Word.ofBytes m.memory.bytes[m.pc.toNat]
      m.memory.bytes[m.pc.toNat + 1])
  else none

/-- The machine about to execute a fetched word. -/
def advance (m : Machine) (w : Word) : Machine :=
  { m with word := w, pc := m.pc + 2 }

def step (m : Machine) : Machine × Except StepError Executed :=
  match m.fetch? with
  | none => ({ m with word := 0 }, .error (.outOfBounds m.pc))
  | some w =>
      let before := m.advance w
      match before.execute (decode w) with
      | (after, .ok ()) =>
          (after, .ok ⟨decode w, Trace.entry before after (decode w)⟩)
      | (after, .error e) => (after, .error e)

def output (m : Machine) (updated : Bool) (entry : Option Log.Entry) : Output :=
  ⟨updated, m.screen, m.sounding, entry⟩

/-- Gives the register that waits the lowest key that is down, if any is. -/
def resume (m : Machine) (x : Register) : Machine × Output :=
  match m.keypad.firstPressed? with
  | none => (m, m.output false none)
  | some key =>
      let m := { m.setV x (UInt8.ofNat key.val) with awaiting := none }
      (m, m.output false (some (Trace.resumed key x)))

/-- A cycle with the keypad that the machine has. -/
def run (m : Machine) : Machine × Except CycleError Output :=
  match m.awaiting with
  | some x =>
      let (m, out) := m.resume x
      (m, .ok out)
  | none =>
      match m.step with
      | (after, .ok done) =>
          let redraws := done.decoded.instruction.redraws
          (after, .ok (after.output redraws done.entry))
      | (after, .error (.outOfBounds pc)) =>
          (after, .error (.fault ⟨pc, after.word, none⟩))
      | (after, .error (.trap t)) =>
          (after, .error (.fault ⟨m.pc, after.word, some t⟩))
      | (after, .error (.unrepresentable value)) =>
          (after, .error (.unrepresentable value))

/-- Replaces the keypad by a snapshot of sixteen flags, if there is one. -/
def observe (m : Machine) : Option Snapshot → Except CycleError Machine
  | none => .ok m
  | some flags =>
      match Keypad.ofFlags? flags with
      | some keypad => .ok { m with keypad }
      | none => .error (.snapshot flags.length)

def cycle (m : Machine) (keys : Option Snapshot) :
    Machine × Except CycleError Output :=
  match m.observe keys with
  | .ok m => m.run
  | .error e => (m, .error e)

/-- A batch of cycles: the machine after it, the output of each completed
cycle, and the error that ended it early. -/
structure Batch where
  machine : Machine
  outputs : List Output
  error : Option CycleError

def cyclesAfter (keys : Option Snapshot) (outputs : List Output) :
    Nat → Machine → Batch
  | 0, m => ⟨m, outputs.reverse, none⟩
  | n + 1, m =>
      match m.cycle keys with
      | (m, .ok out) => cyclesAfter keys (out :: outputs) n m
      | (m, .error e) => ⟨m, outputs.reverse, some e⟩

/-- Up to `n` cycles with the same snapshot, the first error being the last. -/
def cycles (m : Machine) (keys : Option Snapshot) (n : Nat) : Batch :=
  cyclesAfter keys [] n m

end Machine

end Chip8
