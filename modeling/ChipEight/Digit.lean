/-!
# Hexadecimal digits

Hexadecimal digits number the registers and the keys, and an instruction word is made of four of
them.
-/
namespace ChipEight

abbrev Digit := Fin 16

/-- The last digit of a number. -/
def Digit.of (n : Nat) : Digit := ⟨n % 16, Nat.mod_lt n (by decide)⟩

@[simp] theorem Digit.val_of (n : Nat) : (Digit.of n).val = n % 16 := rfl

theorem Digit.val_of_lt {n : Nat} (h : n < 16) : (Digit.of n).val = n := Nat.mod_eq_of_lt h

@[simp] theorem Digit.of_val (d : Digit) : Digit.of d.val = d := Fin.ext (Digit.val_of_lt d.isLt)

end ChipEight
