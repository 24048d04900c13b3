/-!
# Exact facts about doubles

A finite double is a signed whole number times a power of two, read off its bits, so truncation
and rounding to one decimal place are done in whole numbers. A whole number has a double unless
it would round beyond the largest one.
-/
namespace ChipEight.Double

/-- What a double stands for: `finite s m q` is m · 2^q, negated if `s` is set. -/
inductive Value where
  | nan
  | infinite (negative : Bool)
  | finite (negative : Bool) (mantissa : Nat) (exponent : Int)
  deriving DecidableEq, Repr

/-- Split the 64 bits into sign, eleven bits of exponent and 52 of fraction. -/
def ofBits (bits : Nat) : Value :=
  let negative := (bits >>> 63) % 2 == 1
  let exponent : Nat := (bits >>> 52) % 2048
  let fraction := bits % 0x10000000000000
  if exponent = 2047 then
    if fraction = 0 then .infinite negative else .nan
  else if exponent = 0 then .finite negative fraction (-1074)
  else .finite negative (fraction + 0x10000000000000) ((exponent : Int) - 1075)

def value (x : Float) : Value := ofBits x.toBits.toNat

/-- The least whole number that rounds beyond the largest double. -/
def limit : Nat := (1 <<< 1024) - (1 <<< 970)

/-- The double nearest to a whole number, ties to even. -/
def ofInt? (n : Int) : Option Float :=
  if limit ≤ n.natAbs then none else some (Float.ofInt n)

def wholePart (m : Nat) : Int → Nat
  | .ofNat q => m <<< q
  | .negSucc q => m >>> (q + 1)

/-- The quotient to the nearest whole number; a half goes to the even neighbour. -/
def nearest (num den : Nat) : Nat :=
  let quotient := num / den
  let rest := 2 * (num % den)
  if rest < den then quotient
  else if den < rest then quotient + 1
  else quotient + quotient % 2

/-- The whole number of 53 significant bits nearest to a whole number. -/
def rounded (n : Nat) : Nat :=
  let extra := n.log2 - 52
  nearest n (1 <<< extra) <<< extra

def tenths (m : Nat) : Int → Nat
  | .ofNat q => (10 * m) <<< q
  | .negSucc q => nearest (10 * m) (1 <<< (q + 1))

def Value.oneDecimal : Value → String
  | .nan => "nan"
  | .infinite negative => (if negative then "-" else "") ++ "inf"
  | .finite negative m q =>
    let t := tenths m q
    (if negative then "-" else "") ++ toString (t / 10) ++ "." ++ toString (t % 10)

/-- One place after the point, from the exact value. The sign of a zero is kept. -/
def oneDecimal (x : Float) : String := (value x).oneDecimal

theorem nearest_le (num den : Nat) : nearest num den ≤ num / den + 1 := by
  simp only [nearest]
  split
  · omega
  · split <;> omega

theorem le_nearest (num den : Nat) : num / den ≤ nearest num den := by
  simp only [nearest]
  split
  · omega
  · split <;> omega

end ChipEight.Double
