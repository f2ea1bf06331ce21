import Chip8.Instruction.Word
import Chip8.Position
import Chip8.Text.Radix

/-!
# Memory

4096 bytes: the glyphs of the hexadecimal digits from address 0, five bytes
each, then room that is left zero, and from `0x200` on the program.  Addresses
are integers, and an access outside memory is an error that changes nothing.
-/

namespace Chip8

structure Memory where
  bytes : Vector Byte 4096
  deriving DecidableEq

structure Memory.Outside where
  address : Int
  deriving DecidableEq, Repr

def Memory.Outside.message (e : Memory.Outside) : String :=
  "Memory address out of range: 0x" ++ hex 1 e.address

inductive LoadError where
  | notBytes
  | tooLarge (size : Nat)
  deriving DecidableEq, Repr

namespace Memory

def size : Nat := 4096

def programStart : Nat := 0x200

def capacity : Nat := size - programStart

def glyphSize : Nat := 5

def font : List Byte :=
  [0xF0, 0x90, 0x90, 0x90, 0xF0,
   0x20, 0x60, 0x20, 0x20, 0x70,
   0xF0, 0x10, 0xF0, 0x80, 0xF0,
   0xF0, 0x10, 0xF0, 0x10, 0xF0,
   0x90, 0x90, 0xF0, 0x10, 0x10,
   0xF0, 0x80, 0xF0, 0x10, 0xF0,
   0xF0, 0x80, 0xF0, 0x90, 0xF0,
   0xF0, 0x10, 0x20, 0x40, 0x40,
   0xF0, 0x90, 0xF0, 0x90, 0xF0,
   0xF0, 0x90, 0xF0, 0x10, 0xF0,
   0xF0, 0x90, 0xF0, 0x90, 0x90,
   0xE0, 0x90, 0xE0, 0x90, 0xE0,
   0xF0, 0x80, 0x80, 0x80, 0xF0,
   0xE0, 0x90, 0x90, 0x90, 0xE0,
   0xF0, 0x80, 0xF0, 0x80, 0xF0,
   0xF0, 0x80, 0xF0, 0x80, 0x80]

/-- The address of the glyph for the low four bits of `digit`. -/
def glyphAddress (digit : Int) : Nat := (Nibble.ofInt digit).val * glyphSize

def initial : Memory := ⟨Vector.ofFn fun a => font.getD a.val 0⟩

def read (m : Memory) (address : Int) : Except Outside Byte :=
  if h : 0 ≤ address ∧ address < 4096 then
    .ok m.bytes[address.toNat]
  else .error ⟨address⟩

def write (m : Memory) (address : Int) (value : Byte) :
    Except Outside Memory :=
  if h : 0 ≤ address ∧ address < 4096 then
    .ok ⟨m.bytes.set address.toNat value (by omega)⟩
  else .error ⟨address⟩

theorem read_eq_ok (m : Memory) {a : Int} (h : 0 ≤ a ∧ a < 4096) :
    m.read a = .ok m.bytes[a.toNat] := by
  simp [read, h]

theorem read_eq_error_iff (m : Memory) (a : Int) (e : Outside) :
    m.read a = .error e ↔ ¬ (0 ≤ a ∧ a < 4096) ∧ e = ⟨a⟩ := by
  unfold read
  split <;> simp_all [eq_comm]

theorem write_eq_ok (m : Memory) {a : Int} (b : Byte)
    (h : 0 ≤ a ∧ a < 4096) :
    m.write a b = .ok ⟨m.bytes.set a.toNat b⟩ := by
  simp [write, h]

theorem write_eq_error_iff (m : Memory) (a : Int) (b : Byte) (e : Outside) :
    m.write a b = .error e ↔ ¬ (0 ≤ a ∧ a < 4096) ∧ e = ⟨a⟩ := by
  unfold write
  split <;> simp_all [eq_comm]

/-- The word at an address, both of whose bytes must lie in memory. -/
def readWord (m : Memory) (address : Int) : Except Outside Word := do
  let high ← m.read address
  let low ← m.read (address + 1)
  return Word.ofBytes high low

/--
Reads `count` bytes from `address` on.  A run that leaves memory gives the
bytes before its end, and the first address outside.
-/
def readRun (m : Memory) (address : Int) :
    Nat → List Byte × Except Outside Unit
  | 0 => ([], .ok ())
  | count + 1 =>
      match m.read address with
      | .error e => ([], .error e)
      | .ok b =>
          let (rest, result) := m.readRun (address + 1) count
          (b :: rest, result)

/-- Writes bytes from `address` on; what comes before an error is kept. -/
def writeRun (m : Memory) (address : Int) :
    List Byte → Memory × Except Outside Unit
  | [] => (m, .ok ())
  | b :: rest =>
      match m.write address b with
      | .error e => (m, .error e)
      | .ok m => m.writeRun (address + 1) rest

/-- Copies a program to `programStart` and leaves all other bytes alone. -/
def load (m : Memory) (program : List Byte) : Except LoadError Memory :=
  if program.length ≤ capacity then
    let data := program.toArray
    .ok ⟨Vector.ofFn fun ⟨a, _⟩ =>
      if a < programStart then m.bytes[a]
      else data.getD (a - programStart) m.bytes[a]⟩
  else .error (.tooLarge program.length)

def loadInts (m : Memory) (data : List Int) : Except LoadError Memory :=
  match Byte.ofInts? data with
  | some program => m.load program
  | none => .error .notBytes

/-- The addresses from `address` on at which two runs of bytes differ, in groups
of neighbours, with the bytes of the second. -/
def differences (address : Nat) : List Byte → List Byte → List (Nat × List Byte)
  | a :: before, b :: after =>
      let rest := differences (address + 1) before after
      if a = b then rest
      else
        match rest with
        | (next, bytes) :: others =>
            if next = address + 1 then (address, b :: bytes) :: others
            else (address, [b]) :: rest
        | [] => [(address, [b])]
  | _, _ => []

def changes (before after : Memory) : List (Nat × List Byte) :=
  differences 0 before.bytes.toList after.bytes.toList

/-- The bytes from `start` to before `stop`, as positions from either end. -/
def dump (m : Memory) (start stop : Int) : List Byte :=
  Position.slice m.bytes.toList start stop

end Memory

def LoadError.message : LoadError → String
  | notBytes => "bytes must be in range(0, 256)"
  | tooLarge size =>
      "ROM is " ++ decimal size ++ " bytes, user space holds at most "
        ++ decimal Memory.capacity

end Chip8
