import ChipEight.Bank

/-!
# Registers

Sixteen registers of one byte. Register F also receives the carry, the borrow and
the collision flag.
-/
namespace ChipEight

abbrev Registers := Bank UInt8

namespace Registers

def zero : Registers := Bank.fill 0

def flagRegister : Digit := Digit.of 15

def flag (r : Registers) (on : Bool) : Registers := r.put flagRegister (if on then 1 else 0)

def upTo (r : Registers) (x : Digit) : List UInt8 := r.toList.take (x.val + 1)

@[simp] theorem length_upTo (r : Registers) (x : Digit) : (r.upTo x).length = x.val + 1 := by
  have := x.isLt
  simp only [upTo, List.length_take, Bank.length_toList]
  omega

end Registers

end ChipEight
