/-!
# Settings

The constants of the emulator and its window.
-/
namespace ChipEight.Settings

/-- Window pixels to a screen pixel, in each direction. -/
abbrev scale : Nat := 10
abbrev width : Nat := 64
abbrev height : Nat := 32
def windowWidth : Nat := width * scale
def windowHeight : Nat := height * scale

/-- Instructions a second, unless the command line says otherwise. -/
def cpuRate : Int := 500
def timerRate : Int := 60

/-- Seconds of tone that are repeated while the buzzer sounds. -/
def beepDuration : Float := 1.0
def beepFrequency : Int := 440
def beepVolume : Float := 0.1

/-- Whether an unknown opcode ends the emulation, or is passed over. -/
def haltOnUnknown : Bool := true

end ChipEight.Settings
