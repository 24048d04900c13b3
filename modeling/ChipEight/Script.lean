import ChipEight.Window

/-!
# Events as text

Events are written as lines of words, for a host without a window. A timer event is one sixtieth
of a second long, a report one second.
-/
namespace ChipEight.Script

def words (line : String) : List String :=
  ((line.splitOn "\n").headD "").splitOn " "

def event? (line : String) : Option Event :=
  match words line with
  | ["cpu"] => some .cpu
  | ["step"] => some .step
  | ["timer"] => some (.timer (1.0 / 60.0))
  | ["bench"] => some (.bench 1.0)
  | ["press", key] => some (.press (Key.ofName key))
  | ["release", key] => some (.release (Key.ofName key))
  | ["draw"] => some .draw
  | ["close"] => some .close
  | _ => none

end ChipEight.Script
