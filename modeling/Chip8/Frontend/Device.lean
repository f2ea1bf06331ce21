/-!
# Device calls

What the front end asks of the native window, of the image shown in it and of
the sound player.
-/

namespace Chip8

inductive DeviceCall where
  | openWindow (width height : Int) (caption : String)
      (resizable vsync : Bool)
  | clearWindow
  | closeWindow
  | showImage (x y : Int)
  /-- New pixels for the image: their format, the bytes of a row, and of all. -/
  | setPixels (format : String) (pitch size : Int)
  | queueSound
  | play
  | pause
  | deletePlayer
  deriving DecidableEq, Repr

end Chip8
