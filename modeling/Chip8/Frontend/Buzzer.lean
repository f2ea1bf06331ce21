import Chip8.Frontend.Device
import Chip8.Log

/-!
# The buzzer

The buzzer plays its tone in a loop while sound is on.  The player hears only
of changes.
-/

namespace Chip8

structure Buzzer where
  playing : Bool := false
  deriving DecidableEq, Repr

namespace Buzzer

/-- The player loops the tone from the start. -/
def looping : Bool := true

def update (b : Buzzer) (sounding : Bool) :
    Buzzer × List DeviceCall × List Log.Entry :=
  match b.playing, sounding with
  | false, true => (⟨true⟩, [.play], [⟨.debug, .sound, "Beep on"⟩])
  | true, false => (⟨false⟩, [.pause], [⟨.debug, .sound, "Beep off"⟩])
  | _, _ => (b, [], [])

def updateAll (b : Buzzer) :
    List Bool → Buzzer × List DeviceCall × List Log.Entry
  | [] => (b, [], [])
  | sounding :: rest =>
      let (b, calls, entries) := b.update sounding
      let (b, moreCalls, moreEntries) := b.updateAll rest
      (b, calls ++ moreCalls, entries ++ moreEntries)

end Buzzer

end Chip8
