import Chip8.Frontend.Device
import Chip8.Instruction.Word
import Chip8.Machine.Screen

/-!
# The display

A picture shows every cell of a screen as a square of pixels.  Its rows are
counted from the bottom, those of a screen from the top.  Before the first
frame the pixels of a picture are transparent black.  How much memory there is
for a picture is left open.
-/

namespace Chip8

structure Pixel where
  red : Byte
  green : Byte
  blue : Byte
  alpha : Byte
  deriving DecidableEq, Repr

namespace Pixel

def transparent : Pixel := ⟨0, 0, 0, 0⟩

def black : Pixel := ⟨0, 0, 0, 255⟩

def white : Pixel := ⟨255, 255, 255, 255⟩

def ofCell (lit : Bool) : Pixel := if lit then white else black

def bytes (p : Pixel) : List Byte := [p.red, p.green, p.blue, p.alpha]

theorem length_bytes (p : Pixel) : p.bytes.length = 4 := rfl

end Pixel

structure Display where
  scale : Int
  shown : Option Screen := none
  deriving DecidableEq

inductive Display.Error where
  | notBytes
  | wrongSize (cells : Nat)
  /-- Cells of a negative size cannot be drawn. -/
  | negativeScale
  | unaddressable
  | outOfMemory
  deriving DecidableEq, Repr

def Display.Error.message : Display.Error → String
  | notBytes => "bytes must be in range(0, 256)"
  | wrongSize cells =>
      "cannot reshape array of size " ++ decimal cells ++ " into shape (32,64)"
  | negativeScale => "negative dimensions are not allowed"
  | unaddressable => "cannot fit 'int' into an index-sized integer"
  | outOfMemory => ""

namespace Display

/-- Every element as many times as given, in place. -/
def stretch {α : Type} (scale : Nat) (elements : List α) : List α :=
  elements.flatMap (List.replicate scale)

def enlarge (scale : Nat) (s : Screen) : List (List Pixel) :=
  stretch scale <|
    s.rows.reverse.map fun row => stretch scale (row.map Pixel.ofCell)

def width (d : Display) : Int := Screen.width * d.scale

def height (d : Display) : Int := Screen.height * d.scale

/-- The rows of the picture from the bottom up. -/
def picture (d : Display) : List (List Pixel) :=
  match d.shown with
  | some s => enlarge d.scale.toNat s
  | none =>
      List.replicate d.height.toNat
        (List.replicate d.width.toNat .transparent)

def byteCount (d : Display) : Int := d.width * d.height * 4

/-- The bytes of the picture, pixel after pixel and row after row. -/
def data (d : Display) : List Byte := d.picture.flatten.flatMap Pixel.bytes

/-- A display before its first frame, with room for so many bytes.  A negative
scale is only noticed when something is to be drawn. -/
def new? (room scale : Int) : Except Error Display :=
  let d : Display := { scale }
  if Position.limit ≤ d.byteCount then .error .unaddressable
  else if room < d.byteCount then .error .outOfMemory
  else .ok d

def paint (d : Display) (s : Screen) :
    Except Error (Display × List DeviceCall) :=
  if d.scale < 0 then .error .negativeScale
  else
    .ok ({ d with shown := some s },
      [.setPixels "RGBA" (d.width * 4) d.byteCount])

def render (d : Display) (frame : List Byte) :
    Except Error (Display × List DeviceCall) :=
  match Screen.ofBytes? frame with
  | some s => d.paint s
  | none => .error (.wrongSize frame.length)

def renderInts (d : Display) (frame : List Int) :
    Except Error (Display × List DeviceCall) :=
  match Byte.ofInts? frame with
  | some bytes => d.render bytes
  | none => .error .notBytes

/-- Shows a screen; nothing where the scale is negative. -/
def present (d : Display) (s : Screen) : Display × List DeviceCall :=
  match d.paint s with
  | .ok presented => presented
  | .error _ => (d, [])

theorem present_eq (d : Display) (s : Screen) (h : 0 ≤ d.scale) :
    d.present s = ({ d with shown := some s },
      [.setPixels "RGBA" (d.width * 4) d.byteCount]) := by
  simp [present, paint, Int.not_lt.mpr h]

def presentAll (d : Display) : List Screen → Display × List DeviceCall
  | [] => (d, [])
  | s :: rest =>
      let (d, calls) := d.present s
      let (d, more) := d.presentAll rest
      (d, calls ++ more)

def draw : List DeviceCall := [.showImage 0 0]

end Display

end Chip8
