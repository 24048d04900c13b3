import ChipEight.Double
import ChipEight.Fault

/-!
# The random source

The source of random bytes is a 32-bit xorshift generator. The same seed gives the same bytes.
Any whole number is a seed, taken modulo 2^32.
-/
namespace ChipEight

structure Xorshift where
  state : UInt32
  deriving DecidableEq, Repr

namespace Xorshift

def defaultSeed : Int := 4

def ofSeed (seed : Int) : Xorshift := ⟨UInt32.ofNat (seed % 0x100000000).toNat⟩

/-- One step of the state: shifts by 13 up, 17 down and 5 up, each added without carry. -/
def step (x : UInt32) : UInt32 :=
  let x := x ^^^ (x <<< 13)
  let x := x ^^^ (x >>> 17)
  x ^^^ (x <<< 5)

/-- The low byte of the next state, and that state. -/
def next (r : Xorshift) : UInt8 × Xorshift :=
  let s := step r.state
  (s.toUInt8, ⟨s⟩)

/-- The whole part of a count of milliseconds that is not negative. -/
def ofMilliseconds (ms : Double.Value) : Except Fault Xorshift :=
  match ms with
  | .nan => .error .clockNotNumber
  | .infinite _ => .error .clockInfinite
  | .finite _ m q => .ok (ofSeed (Double.wholePart m q))

/-- Seed from a clock reading in seconds, kept to milliseconds. -/
def ofClock (now : Float) : Except Fault Xorshift :=
  if now < 0.0 then .ok (ofSeed defaultSeed) else ofMilliseconds (Double.value (now * 1000.0))

def clockReport (now : Float) : List String :=
  if now < 0.0 then ["System time is before UNIX Epoch! RNG seed is static."] else []

@[simp] theorem step_zero : step 0 = 0 := by decide

end Xorshift

end ChipEight
