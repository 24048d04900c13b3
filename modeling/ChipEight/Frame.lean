import ChipEight.Display

/-!
# The picture of a screen

A picture has four bytes a pixel, the rows from the bottom up, every pixel repeated in both
directions.
-/
namespace ChipEight.Frame

def format : String := "RGBA"

/-- White for a pixel that is on and black for one that is off, both opaque. -/
def pixel (on : Bool) : List UInt8 :=
  let v : UInt8 := if on then 255 else 0
  [v, v, v, 255]

/-- Each element `n` times in a row. -/
def stretch {α : Type} (n : Nat) (xs : List α) : List α := xs.flatMap (List.replicate n)

/-- The rows of pixels, bottom row first, enlarged `scale` times. -/
def enlarge (scale : Nat) (rows : List (List Bool)) : List (List Bool) :=
  stretch scale (rows.reverse.map (stretch scale))

def bytes (rows : List (List Bool)) : List UInt8 := rows.flatMap fun row => row.flatMap pixel

def data {w h : Nat} (scale : Nat) (d : Display w h) : List UInt8 := bytes (enlarge scale d.rows)

theorem length_stretch {α : Type} (n : Nat) (xs : List α) :
    (stretch n xs).length = n * xs.length := by
  induction xs with
  | nil => simp [stretch]
  | cons x xs ih =>
    have e : stretch n (x :: xs) = List.replicate n x ++ stretch n xs := rfl
    rw [e, List.length_append, ih, List.length_replicate, List.length_cons, Nat.mul_succ]
    omega

end ChipEight.Frame
