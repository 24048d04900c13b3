import ChipEight.Double

/-!
# Sizes in binary units

A number of bytes is written in the largest unit of which there is at least one, each unit 1024
times the one before. Bytes are written without a point, other units with three figures and
always a point, and from 1000 units on with all their figures.
-/
namespace ChipEight.Text.BinarySize

def units : List String := ["bytes", "KiB", "MiB", "GiB", "TiB", "PiB", "EiB"]

/-- How often 1024 goes into a number of bytes. A number that would be written as 1024
of one unit goes to the next. -/
def order (n : Nat) : Nat :=
  let k := n.log2 / 10
  if Double.nearest n (1 <<< (10 * k)) = 1024 then k + 1 else k

/-- The place in the list of the unit in which a number of bytes is written. -/
def level (n : Nat) : Nat := if order n < units.length then order n else units.length - 1

/-- A quotient with two places after the point, or with fewer if it needs more than one
figure before the point. -/
def figures (num den : Nat) : String :=
  let hundredths := Double.nearest (100 * num) den
  let tenths := Double.nearest (10 * num) den
  if hundredths < 1000 then
    toString (hundredths / 100) ++ "." ++ toString (hundredths / 10 % 10) ++
      toString (hundredths % 10)
  else if tenths < 1000 then toString (tenths / 10) ++ "." ++ toString (tenths % 10)
  else toString (Double.nearest num den) ++ "."

/-- The amount is that of the nearest double. -/
def describe (n : Nat) : String :=
  let n := Double.rounded n
  let k := level n
  (if k = 0 then toString n else figures n (1 <<< (10 * k))) ++ " " ++ units.getD k ""

end ChipEight.Text.BinarySize
