import ChipEight.Axis
import ChipEight.Bank
import ChipEight.Fault

/-!
# The keypad

The keypad has sixteen keys, each up or down. A key is named by its number, or by a negative
number that counts from the last key.
-/
namespace ChipEight

abbrev Keypad := Bank Bool

namespace Keypad

def released : Keypad := Bank.fill false

def key (k : Int) : Except Fault Digit :=
  match Axis.index k with
  | .error f => .error f
  | .ok k =>
    match Axis.place 16 k with
    | some i => .ok i
    | none => .error (.noKey k)

def press (p : Keypad) (k : Int) : Except Fault Keypad := (key k).map (p.put · true)

def release (p : Keypad) (k : Int) : Except Fault Keypad := (key k).map (p.put · false)

def pressed (p : Keypad) (k : Int) : Except Fault Bool := (key k).map p.get

/-- The lowest key that is down. -/
def first (p : Keypad) : Option Digit := (List.finRange 16).find? p.get

theorem first_eq_none_iff (p : Keypad) : p.first = none ↔ ∀ k, p.get k = false := by
  simp [first, List.find?_eq_none]

/-- The first key is down, and every lower one is up. -/
theorem first_eq_some_iff (p : Keypad) (k : Digit) :
    p.first = some k ↔ p.get k = true ∧ ∀ j < k, p.get j = false := by
  simp only [first, List.find?_eq_some_iff_getElem, List.getElem_finRange, List.length_finRange,
    Bool.not_eq_true']
  apply and_congr_right
  intro _
  constructor
  · rintro ⟨i, hi, rfl, lower⟩ j hj
    exact lower j.val hj
  · intro lower
    exact ⟨k.val, k.isLt, rfl, fun j hj => lower ⟨j, Nat.lt_trans hj k.isLt⟩ hj⟩

@[simp] theorem key_fin (k : Digit) : key k.val = .ok k := by
  have hk := k.isLt
  have h : Axis.inWord k.val = true := Axis.inWord_iff.mpr (by omega)
  simp only [key, Axis.index_of_inWord h, Axis.place_fin]

/-- The sixteen keys can be pressed, released and asked for without a fault. -/
@[simp] theorem press_fin (p : Keypad) (k : Digit) : p.press k.val = .ok (p.put k true) := by
  simp only [press, key_fin, Except.map]

@[simp] theorem release_fin (p : Keypad) (k : Digit) : p.release k.val = .ok (p.put k false) := by
  simp only [release, key_fin, Except.map]

@[simp] theorem pressed_fin (p : Keypad) (k : Digit) : p.pressed k.val = .ok (p.get k) := by
  simp only [pressed, key_fin, Except.map]

end Keypad

end ChipEight
