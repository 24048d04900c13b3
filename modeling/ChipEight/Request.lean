/-!
# Requests to the host

The host owns the window, the image in it, the labels, the sound player and the clock; the
emulator only asks.
-/
namespace ChipEight

structure Tone where
  duration : Float
  frequency : Int

structure Label where
  text : String
  fontSize : Nat
  x : Nat
  y : Nat
  anchorX : String
  anchorY : String
  color : List Nat

/-- What the host calls at regular intervals. -/
inductive Task where
  | cpu | timer | bench
  deriving DecidableEq, Repr

inductive Request where
  | openWindow (width height : Nat) (caption : String) (resizable vsync : Bool)
  | clearWindow
  | closeWindow
  | newPlayer
  | queue (tone : Tone)
  | play
  | pause
  | deletePlayer
  | newImage (width height : Nat) (format : String) (data : List UInt8)
  /-- Replace the image. `pitch` is the number of bytes to a row. -/
  | setImage (format : String) (pitch : Nat) (data : List UInt8)
  | blit (x y : Nat)
  | newLabel (label : Label)
  | drawLabel (text : String)
  | schedule (task : Task) (interval : Float)
  | unschedule (task : Task)
  | runLoop

end ChipEight
