import Chip8.Instruction.Word
import Chip8.Text.Radix

/-!
# Registers

Sixteen byte registers V0 to VF and the index register I of sixteen bits.  VF
also holds the flag of the instructions that set one.
-/

namespace Chip8

structure Registers where
  v : Vector Byte 16 := Vector.replicate 16 0
  index : Word := 0
  deriving DecidableEq

namespace Registers

def flagRegister : Register := 15

def get (r : Registers) (x : Register) : Byte := r.v[x]

def set (r : Registers) (x : Register) (value : Byte) : Registers :=
  { r with v := r.v.set x value }

def flag (r : Registers) : Byte := r.get flagRegister

def setFlag (r : Registers) (raised : Bool) : Registers :=
  r.set flagRegister (if raised then 1 else 0)

@[simp] theorem get_set_self (r : Registers) (x : Register) (b : Byte) :
    (r.set x b).get x = b := by
  simp [get, set]

theorem get_set_of_ne (r : Registers) {x y : Register} (b : Byte)
    (h : x ≠ y) : (r.set x b).get y = r.get y := by
  have : x.val ≠ y.val := fun e => h (Fin.ext e)
  simp [get, set, this]

@[simp] theorem index_set (r : Registers) (x : Register) (b : Byte) :
    (r.set x b).index = r.index := rfl

/-- Replaces V0, V1, … by the given bytes, as many as there are. -/
def fill (r : Registers) (bytes : List Byte) : Registers :=
  { r with v := Vector.ofFn fun x => bytes.getD x.val r.v[x] }

def upTo (r : Registers) (x : Register) : List Byte :=
  r.v.toList.take (x.val + 1)

def text (r : Registers) : String :=
  let cell (x : Register) : String :=
    "V" ++ hex 1 x.val ++ ":" ++ hex 2 (r.get x).toNat
  " ".intercalate ((List.finRange 16).map cell)
    ++ " I:" ++ hex 3 r.index.toNat

end Registers

end Chip8
