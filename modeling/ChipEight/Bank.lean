import ChipEight.Digit

/-!
# Banks of sixteen cells

Sixteen cells, one for each hexadecimal digit: what the registers and the keypad
have in common.
-/
namespace ChipEight

structure Bank (α : Type) where
  cells : Vector α 16
  deriving DecidableEq

namespace Bank

variable {α : Type}

def fill (a : α) : Bank α := ⟨Vector.replicate 16 a⟩

def get (b : Bank α) (i : Digit) : α := b.cells[i]

def put (b : Bank α) (i : Digit) (a : α) : Bank α := ⟨b.cells.set i a⟩

def toList (b : Bank α) : List α := b.cells.toList

/-- Overlay consecutive cells from `i` on. -/
def overlay (b : Bank α) (i : Nat) : List α → Bank α
  | [] => b
  | a :: as => overlay ⟨b.cells.setIfInBounds i a⟩ (i + 1) as

@[simp] theorem get_fill (a : α) (i : Digit) : (fill a).get i = a := by simp [fill, get]

@[simp] theorem get_put_same (b : Bank α) (i : Digit) (a : α) : (b.put i a).get i = a := by
  simp [get, put]

theorem get_put_other (b : Bank α) {i j : Digit} (a : α) (h : j ≠ i) :
    (b.put i a).get j = b.get j := by
  have : i.val ≠ j.val := fun e => h (Fin.ext e.symm)
  simp [get, put, this]

theorem get_put (b : Bank α) (i j : Digit) (a : α) :
    (b.put i a).get j = if j = i then a else b.get j := by
  split
  next h => rw [h, get_put_same]
  next h => exact get_put_other b a h

@[simp] theorem put_put (b : Bank α) (i : Digit) (a c : α) : (b.put i a).put i c = b.put i c := by
  simp [put]

@[simp] theorem length_toList (b : Bank α) : b.toList.length = 16 := by simp [toList]

@[simp] theorem overlay_nil (b : Bank α) (i : Nat) : b.overlay i [] = b := rfl

@[simp] theorem overlay_cons (b : Bank α) (i : Nat) (a : α) (as : List α) :
    b.overlay i (a :: as) = overlay ⟨b.cells.setIfInBounds i a⟩ (i + 1) as := rfl

/-- After an overlay a cell is the one laid over it, if any, and otherwise the old one. -/
theorem get_overlay (b : Bank α) (i : Nat) (as : List α) (j : Digit) :
    (b.overlay i as).get j =
      if h : i ≤ j.val ∧ j.val - i < as.length then as[j.val - i] else b.get j := by
  induction as generalizing b i with
  | nil => simp
  | cons a as ih =>
    rw [overlay_cons, ih]
    by_cases h : i = j.val
    · rw [dif_neg (by omega), dif_pos ⟨Nat.le_of_eq h, by simp [h]⟩]
      simp [get, h]
    · by_cases h' : i + 1 ≤ j.val ∧ j.val - (i + 1) < as.length
      · have e : j.val - i = (j.val - (i + 1)) + 1 := by omega
        rw [dif_pos h', dif_pos ⟨by omega, by simp only [List.length_cons]; omega⟩]
        simp only [e, List.getElem_cons_succ]
      · rw [dif_neg h', dif_neg (by simp only [List.length_cons]; omega)]
        simp [get, h]

end Bank

end ChipEight
