import Chip8.Instruction.Word
import Chip8.Position
import Chip8.Text.Radix

/-!
# The screen

64 columns and 32 rows of cells, lit or not, stored row after row from the top
left.  A sprite is a column of bytes, one byte a row with its high bit on the
left; drawing flips the cells under its set bits and wraps round at the edges.
-/

namespace Chip8

structure Screen where
  cells : Vector Bool 2048 := Vector.replicate 2048 false
  deriving DecidableEq

structure Screen.Outside where
  index : Int
  deriving DecidableEq, Repr

def Screen.Outside.message (e : Screen.Outside) : String :=
  "Framebuffer index out of range: " ++ decimal e.index

namespace Screen

def width : Nat := 64

def height : Nat := 32

def size : Nat := width * height

def blank : Screen := {}

def get (s : Screen) (index : Int) : Except Outside Bool :=
  if h : 0 ≤ index ∧ index < 2048 then
    .ok s.cells[index.toNat]
  else .error ⟨index⟩

def set (s : Screen) (index : Int) (lit : Bool) : Except Outside Screen :=
  if h : 0 ≤ index ∧ index < 2048 then
    .ok ⟨s.cells.set index.toNat lit (by omega)⟩
  else .error ⟨index⟩

theorem get_eq_ok (s : Screen) {i : Int} (h : 0 ≤ i ∧ i < 2048) :
    s.get i = .ok s.cells[i.toNat] := by
  simp [get, h]

theorem get_eq_error (s : Screen) {i : Int} (h : ¬ (0 ≤ i ∧ i < 2048)) :
    s.get i = .error ⟨i⟩ := by
  simp [get, h]

theorem set_eq_ok (s : Screen) {i : Int} (lit : Bool)
    (h : 0 ≤ i ∧ i < 2048) : s.set i lit = .ok ⟨s.cells.set i.toNat lit⟩ := by
  simp [set, h]

theorem set_eq_error (s : Screen) {i : Int} (lit : Bool)
    (h : ¬ (0 ≤ i ∧ i < 2048)) : s.set i lit = .error ⟨i⟩ := by
  simp [set, h]

/-- The number of the cell in column `x` and row `y`, wrapped round. -/
def cellIndex (x y : Int) : Fin 2048 :=
  ⟨(y % 32).toNat * 64 + (x % 64).toNat, by omega⟩

def pixel (s : Screen) (x y : Int) : Bool := s.cells[cellIndex x y]

def snapshot (s : Screen) : List Bool := s.cells.toList

def bytes (s : Screen) : List Byte :=
  s.snapshot.map fun lit => if lit then 1 else 0

/-- The screen on which the cells whose bytes are not zero are lit, if there is
one byte for each cell. -/
def ofBytes? (bytes : List Byte) : Option Screen :=
  let cells := (bytes.map (· != 0)).toArray
  if h : cells.size = 2048 then some ⟨⟨cells, h⟩⟩ else none

@[simp] theorem length_snapshot (s : Screen) : s.snapshot.length = size := by
  simp [snapshot, size, width, height]

@[simp] theorem length_bytes (s : Screen) : s.bytes.length = size := by
  simp [bytes]

theorem isSome_ofBytes? (l : List Byte) :
    (ofBytes? l).isSome = decide (l.length = size) := by
  by_cases h : l.length = 2048 <;> simp [ofBytes?, size, width, height, h]

theorem snapshot_of_ofBytes? {l : List Byte} {s : Screen}
    (h : ofBytes? l = some s) : s.snapshot = l.map (· != 0) := by
  unfold ofBytes? at h
  simp only at h
  split at h
  · cases h
    simp [snapshot, Vector.toList]
  · cases h

@[simp] theorem ofBytes?_bytes (s : Screen) : ofBytes? s.bytes = some s := by
  have same : (s.bytes.map (· != 0)).toArray = s.cells.toArray := by
    rw [bytes, List.map_map,
      List.map_congr_left (g := id) (by intro lit _; cases lit <;> rfl),
      List.map_id]
    simp [snapshot, Vector.toList]
  simp only [ofBytes?, same, Vector.size_toArray, dite_true]

def row (s : Screen) (y : Fin 32) : List Bool :=
  (s.snapshot.drop (y.val * width)).take width

def rows (s : Screen) : List (List Bool) := (List.finRange 32).map s.row

def text (s : Screen) : String :=
  "\n".intercalate (s.rows.map fun cells =>
    String.ofList (cells.map fun lit => if lit then '#' else '.'))

def litCount (s : Screen) : Nat := s.snapshot.count true

/-- Flips one cell and tells whether it was lit. -/
def flip (s : Screen) (x y : Int) : Screen × Bool :=
  let i := cellIndex x y
  let lit := s.cells[i]
  (⟨s.cells.set i (!lit)⟩, lit)

theorem pixel_flip (s : Screen) (x y a b : Int) :
    (s.flip x y).1.pixel a b =
      (s.pixel a b != decide (cellIndex x y = cellIndex a b)) := by
  by_cases h : cellIndex x y = cellIndex a b
  · simp [flip, pixel, h]
  · have : (cellIndex x y).val ≠ (cellIndex a b).val := fun e => h (Fin.ext e)
    simp [flip, pixel, h, this]

/-- Flips the cells under the set bits among the low `count` bits of a byte,
the highest of them in column `x`. -/
def drawBits (s : Screen) (x y : Int) (b : Byte) : Nat → Screen × Bool
  | 0 => (s, false)
  | count + 1 =>
      let (s, hit) := if b.toNat.testBit count then s.flip x y else (s, false)
      let (s, hits) := s.drawBits (x + 1) y b count
      (s, hit || hits)

/-- Draws a sprite downwards from a cell; tells whether it put out a lit one. -/
def draw (s : Screen) (x y : Int) : List Byte → Screen × Bool
  | [] => (s, false)
  | b :: rest =>
      let (s, hit) := s.drawBits x y b 8
      let (s, hits) := s.draw x (y + 1) rest
      (s, hit || hits)

end Screen

end Chip8
