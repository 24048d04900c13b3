import ChipEight.Fault

/-!
# Places along an axis

On an axis of a fixed size whole numbers from zero up count from the start, negative ones from
the end, and anything further out is no place. Only a number that fits in a machine word is
looked for on an axis at all.
-/
namespace ChipEight.Axis

def inWord : Int → Bool
  | .ofNat n => n < 0x8000000000000000
  | .negSucc n => n < 0x8000000000000000

def inUnsignedWord : Int → Bool
  | .ofNat n => n < 0x10000000000000000
  | .negSucc _ => false

/-- A number as an index. One that only an unsigned word holds is told apart from those
that no word holds. -/
def index (i : Int) : Except Fault Int :=
  if inWord i then .ok i
  else if inUnsignedWord i then .error .beyondWord
  else .error .notIndex

def place (size : Nat) (i : Int) : Option (Fin size) :=
  if h : 0 ≤ i ∧ i < size then some ⟨i.toNat, by omega⟩
  else if h : i < 0 ∧ -size ≤ i then some ⟨(i + size).toNat, by omega⟩
  else none

/-- The place is the number modulo the size. -/
theorem place_val {size : Nat} {i : Int} {p : Fin size} (h : place size i = some p) :
    (p.val : Int) = i % size := by
  unfold place at h
  split at h
  next hi =>
    cases h
    simp only [Int.toNat_of_nonneg hi.1]
    exact (Int.emod_eq_of_lt hi.1 hi.2).symm
  next =>
    split at h
    next hi =>
      cases h
      rw [← Int.add_emod_right, Int.emod_eq_of_lt (by omega) (by omega)]
      simp only [Int.toNat_of_nonneg (show 0 ≤ i + (size : Int) by omega)]
    next => cases h

/-- Further out than the size, on either side, there is no place. -/
theorem place_eq_none_iff {size : Nat} {i : Int} :
    place size i = none ↔ i < -size ∨ (size : Int) ≤ i := by
  unfold place
  split
  next => simp only [reduceCtorEq, false_iff]; omega
  next =>
    split
    next => simp only [reduceCtorEq, false_iff]; omega
    next => simp only [true_iff]; omega

theorem inWord_iff {i : Int} :
    inWord i = true ↔ -0x8000000000000000 ≤ i ∧ i < 0x8000000000000000 := by
  cases i with
  | ofNat n => simp only [inWord, decide_eq_true_eq, Int.ofNat_eq_natCast]; omega
  | negSucc n => simp only [inWord, decide_eq_true_eq]; omega

theorem inUnsignedWord_iff {i : Int} :
    inUnsignedWord i = true ↔ 0 ≤ i ∧ i < 0x10000000000000000 := by
  cases i with
  | ofNat n => simp only [inUnsignedWord, decide_eq_true_eq, Int.ofNat_eq_natCast]; omega
  | negSucc n => simp only [inUnsignedWord, Bool.false_eq_true, false_iff]; omega

theorem index_of_inWord {i : Int} (h : inWord i = true) : index i = .ok i := by
  simp only [index, h, ↓reduceIte]

/-- A place that counts from the start is found as it is. -/
@[simp] theorem place_fin {size : Nat} (p : Fin size) : place size p.val = some p := by
  have := p.isLt
  simp [place]

end ChipEight.Axis
