import ChipEight.Word

/-!
# The instruction set

The instruction set as a type, and the decoder. Two families leave digits free:
the register comparisons `5xy_` and `9xy_` accept any last digit. Every word
outside the set, machine code calls `0nnn` included, decodes to nothing.
-/
namespace ChipEight

/-- What the arithmetic family `8xy_` does with a register pair. -/
inductive Alu where
  | copy | or | and | xor | add | sub | shr | rsub | shl
  deriving DecidableEq, Repr

def Alu.ofDigit? : Digit → Option Alu
  | 0x0 => some .copy
  | 0x1 => some .or
  | 0x2 => some .and
  | 0x3 => some .xor
  | 0x4 => some .add
  | 0x5 => some .sub
  | 0x6 => some .shr
  | 0x7 => some .rsub
  | 0xE => some .shl
  | _ => none

inductive Op where
  /-- Opcode 00E0: turn all pixels off. -/
  | clear
  /-- Opcode 00EE: return from a subroutine. -/
  | ret
  /-- Opcode 1nnn: go to an address. -/
  | jump (target : Fin 4096)
  /-- Opcode 2nnn: call a subroutine. -/
  | call (target : Fin 4096)
  /-- Opcode 3xnn: skip if the register holds the byte. -/
  | skipByte (x : Digit) (nn : UInt8)
  /-- Opcode 4xnn: skip unless the register holds the byte. -/
  | skipNotByte (x : Digit) (nn : UInt8)
  /-- Opcode 5xy_: skip if the registers agree. -/
  | skipSame (x y : Digit)
  /-- Opcode 6xnn: set a register. -/
  | setByte (x : Digit) (nn : UInt8)
  /-- Opcode 7xnn: add without touching the flag. -/
  | addByte (x : Digit) (nn : UInt8)
  /-- Opcode 8xy_: arithmetic on a register pair. -/
  | alu (f : Alu) (x y : Digit)
  /-- Opcode 9xy_: skip if the registers differ. -/
  | skipOther (x y : Digit)
  /-- Opcode Annn: set the address register. -/
  | setIndex (address : Fin 4096)
  /-- Opcode Bnnn: go to the address plus register 0. -/
  | jumpFrom (address : Fin 4096)
  /-- Opcode Cxnn: a random byte under a mask. -/
  | random (x : Digit) (mask : UInt8)
  /-- Opcode Dxyn: draw `n` rows of a sprite. -/
  | draw (x y n : Digit)
  /-- Opcode Ex9E: skip if the key named by the register is down. -/
  | skipKey (x : Digit)
  /-- Opcode ExA1: skip if the key named by the register is up. -/
  | skipNoKey (x : Digit)
  /-- Opcode Fx07: read the delay timer. -/
  | getDelay (x : Digit)
  /-- Opcode Fx0A: wait for a key. -/
  | waitKey (x : Digit)
  /-- Opcode Fx15: set the delay timer. -/
  | setDelay (x : Digit)
  /-- Opcode Fx18: set the sound timer. -/
  | setSound (x : Digit)
  /-- Opcode Fx1E: add to the address register. -/
  | addIndex (x : Digit)
  /-- Opcode Fx29: point at the glyph of a digit. -/
  | glyph (x : Digit)
  /-- Opcode Fx33: store three decimal digits. -/
  | decimal (x : Digit)
  /-- Opcode Fx55: store registers 0 to `x`. -/
  | store (x : Digit)
  /-- Opcode Fx65: load registers 0 to `x`. -/
  | load (x : Digit)
  deriving DecidableEq, Repr

namespace Op

def system? (w : Word) : Option Op :=
  if w.opcode = 0x00E0 then some .clear
  else if w.opcode = 0x00EE then some .ret
  else none

def keys? (w : Word) : Option Op :=
  if w.nn = 0x9E then some (.skipKey w.x)
  else if w.nn = 0xA1 then some (.skipNoKey w.x)
  else none

def devices? (w : Word) : Option Op :=
  if w.nn = 0x07 then some (.getDelay w.x)
  else if w.nn = 0x0A then some (.waitKey w.x)
  else if w.nn = 0x15 then some (.setDelay w.x)
  else if w.nn = 0x18 then some (.setSound w.x)
  else if w.nn = 0x1E then some (.addIndex w.x)
  else if w.nn = 0x29 then some (.glyph w.x)
  else if w.nn = 0x33 then some (.decimal w.x)
  else if w.nn = 0x55 then some (.store w.x)
  else if w.nn = 0x65 then some (.load w.x)
  else none

/-- The instruction a word stands for, by its first digit; the last case is digit F. -/
def decode (w : Word) : Option Op :=
  match w.family with
  | 0x0 => system? w
  | 0x1 => some (.jump w.nnn)
  | 0x2 => some (.call w.nnn)
  | 0x3 => some (.skipByte w.x w.nn)
  | 0x4 => some (.skipNotByte w.x w.nn)
  | 0x5 => some (.skipSame w.x w.y)
  | 0x6 => some (.setByte w.x w.nn)
  | 0x7 => some (.addByte w.x w.nn)
  | 0x8 => (Alu.ofDigit? w.n).map (.alu · w.x w.y)
  | 0x9 => some (.skipOther w.x w.y)
  | 0xA => some (.setIndex w.nnn)
  | 0xB => some (.jumpFrom w.nnn)
  | 0xC => some (.random w.x w.nn)
  | 0xD => some (.draw w.x w.y w.n)
  | 0xE => keys? w
  | _ => devices? w

end Op

end ChipEight
