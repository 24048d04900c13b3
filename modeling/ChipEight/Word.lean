import ChipEight.Digit
import ChipEight.Text.Hexadecimal

/-!
# Instruction words

An instruction word is two bytes, the high one first, with the fields that the instructions read
from it. With the four digits written `gxyn`, `nn` is the low byte and `nnn` the low twelve bits.
-/
namespace ChipEight

structure Word where
  hi : UInt8
  lo : UInt8
  deriving DecidableEq, Repr

namespace Word

def opcode (w : Word) : Nat := w.hi.toNat * 256 + w.lo.toNat

/-- The first digit, which selects the family of the instruction. -/
def family (w : Word) : Digit := Digit.of (w.hi.toNat / 16)

/-- The first digit in its place, the second one cleared. -/
def group (w : Word) : Nat := 16 * w.family.val

def x (w : Word) : Digit := Digit.of w.hi.toNat
def y (w : Word) : Digit := Digit.of (w.lo.toNat / 16)
def n (w : Word) : Digit := Digit.of w.lo.toNat
def nn (w : Word) : UInt8 := w.lo
def nnn (w : Word) : Fin 4096 :=
  ⟨w.x.val * 256 + w.lo.toNat, by have := w.x.isLt; have := w.lo.toNat_lt; omega⟩

def hex (w : Word) : String := Text.Hexadecimal.padded 4 w.opcode

/-- The first digit and the low twelve bits make up the word. -/
theorem opcode_eq (w : Word) : w.opcode = w.family.val * 4096 + w.nnn.val := by
  have := w.hi.toNat_lt
  simp only [opcode, family, nnn, x, Digit.val_of]
  omega

end Word

end ChipEight
