import ChipEight.Settings
import ChipEight.Turn

/-!
# The buzzer

A buzzer is a tone that a player of the host repeats while the gate is open. Once the player has
been deleted, opening or closing the gate fails and changes nothing.
-/
namespace ChipEight

structure Player where
  loop : Bool
  volume : Float

structure Buzzer where
  player : Option Player
  playing : Bool

namespace Buzzer

def beep (frequency : Int) : Tone := ⟨Settings.beepDuration, frequency⟩

def new (volume : Float) : Buzzer := ⟨some ⟨true, volume⟩, false⟩

def newRequests (frequency : Int) : List Request := [.newPlayer, .queue (beep frequency)]

def enable (b : Buzzer) : Turn Buzzer Unit :=
  match b.player with
  | none => ⟨.error (.noPlayer .play), b, [], []⟩
  | some _ => ⟨.ok (), { b with playing := true }, [.note "Sound plays!"], [.play]⟩

def disable (b : Buzzer) : Turn Buzzer Unit :=
  match b.player with
  | none => ⟨.error (.noPlayer .pause), b, [], []⟩
  | some _ => ⟨.ok (), { b with playing := false }, [.note "Sound stops"], [.pause]⟩

/-- Follow the sound timer. Only a change of the gate is passed on. -/
def update (b : Buzzer) (active : Bool) : Turn Buzzer Unit :=
  if active && !b.playing then b.enable
  else if !active && b.playing then b.disable
  else .quiet b ()

/-- Let go of the player, if it is still there. -/
def delete (b : Buzzer) : Turn Buzzer Unit :=
  match b.player with
  | none => .quiet b ()
  | some _ => ⟨.ok (), { b with player := none }, [], [.deletePlayer]⟩

/-- The player is let go once; a second request finds none. -/
@[simp] theorem delete_delete (b : Buzzer) : b.delete.state.delete = .quiet b.delete.state () := by
  cases h : b.player <;> simp [delete, Turn.quiet, h]

end Buzzer

end ChipEight
