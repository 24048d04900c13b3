import Mathlib.Algebra.Ring.Nat
import Mathlib.Logic.Function.Iterate

/-!
# Words as polynomials

Words are vectors of bits. Exclusive or is their addition, and a map that respects it is linear,
so it is known from the 32 words with a single bit. Words serve as polynomials too, bit `i` for
the coefficient of the power `i`. A polynomial in a linear map is again a linear map, and where
some polynomial of degree 32 in the map vanishes, the product of two polynomials can be kept to
32 bits.
-/
namespace ChipEight.WordPolynomial

/-- Linear over the field of two elements. -/
def Linear (f : UInt32 → UInt32) : Prop := ∀ a b, f (a ^^^ b) = f a ^^^ f b

section Linear

variable {f g : UInt32 → UInt32}

theorem Linear.zero (hf : Linear f) : f 0 = 0 := by
  have h := hf 0 0
  rwa [UInt32.xor_self, UInt32.xor_self] at h

theorem Linear.iterate (hf : Linear f) (n : Nat) : Linear f^[n] := by
  intro a b
  induction n generalizing a b with
  | zero => rfl
  | succ n ih => rw [Function.iterate_succ_apply, hf, ih]; rfl

theorem Linear.comp (hf : Linear f) (hg : Linear g) : Linear (f ∘ g) := by
  intro a b
  rw [Function.comp_apply, hg, hf]
  rfl

theorem xor_xor_xor_comm (a b c d : UInt32) :
    (a ^^^ b) ^^^ (c ^^^ d) = (a ^^^ c) ^^^ (b ^^^ d) := by
  rw [UInt32.xor_assoc, UInt32.xor_assoc, ← UInt32.xor_assoc b, UInt32.xor_comm b c,
    UInt32.xor_assoc]

theorem linear_up (n : UInt32) : Linear fun x => x ^^^ (x <<< n) := by
  intro a b
  simp only [UInt32.shiftLeft_xor]
  rw [xor_xor_xor_comm]

theorem linear_down (n : UInt32) : Linear fun x => x ^^^ (x >>> n) := by
  intro a b
  simp only [UInt32.shiftRight_xor]
  rw [xor_xor_xor_comm]

/-- A linear map takes a multiple by a bit to the multiple of the image. -/
theorem Linear.scale (hf : Linear f) (c : Bool) (v : UInt32) :
    f (if c then v else 0) = if c then f v else 0 := by
  cases c
  · exact hf.zero
  · rfl

/-- The highest bit of a number and the rest of it. -/
theorem ofNat_two_pow_add {n r : Nat} (hr : r < 2 ^ n) :
    UInt32.ofNat (2 ^ n + r) = UInt32.ofNat (2 ^ n) ^^^ UInt32.ofNat r := by
  rw [← UInt32.ofNat_xor]
  congr 1
  apply Nat.eq_of_testBit_eq
  intro i
  rw [Nat.testBit_xor, Nat.testBit_two_pow]
  rcases Nat.lt_trichotomy i n with low | rfl | high
  · rw [Nat.testBit_two_pow_add_gt low, decide_eq_false (by omega), Bool.false_xor]
  · rw [Nat.testBit_two_pow_add_eq, decide_eq_true rfl, Bool.true_xor]
  · have hi : 2 ^ (n + 1) ≤ 2 ^ i := Nat.pow_le_pow_right (by decide) high
    have hs : 2 ^ n + r < 2 ^ i := by
      rw [Nat.pow_succ] at hi
      omega
    rw [Nat.testBit_lt_two_pow hs, Nat.testBit_lt_two_pow (by omega), decide_eq_false (by omega)]
    rfl

/-- Linear maps that agree on the words with a single bit are the same. -/
theorem Linear.ext (hf : Linear f) (hg : Linear g)
    (same : ∀ i < 32, f (UInt32.ofNat (2 ^ i)) = g (UInt32.ofNat (2 ^ i))) (v : UInt32) :
    f v = g v := by
  -- By the number of bits, with the highest one split off.
  have below (n : Nat) (hn : n ≤ 32) : ∀ x < 2 ^ n, f (UInt32.ofNat x) = g (UInt32.ofNat x) := by
    induction n with
    | zero =>
      intro x hx
      obtain rfl : x = 0 := Nat.lt_one_iff.mp hx
      exact hf.zero.trans hg.zero.symm
    | succ n ih =>
      intro x hx
      by_cases hl : x < 2 ^ n
      · exact ih (Nat.le_of_succ_le hn) x hl
      · obtain ⟨r, rfl⟩ := Nat.exists_eq_add_of_le (Nat.le_of_not_lt hl)
        have hr : r < 2 ^ n := by
          rw [Nat.pow_succ] at hx
          omega
        rw [ofNat_two_pow_add hr, hf, hg, same n hn, ih (Nat.le_of_succ_le hn) r hr]
  have hv := below 32 (Nat.le_refl _) v.toNat v.toNat_lt
  rwa [UInt32.ofNat_toNat] at hv

end Linear

/-- The `n` lowest coefficients of a polynomial in a map, applied to a word, from the innermost
bracket outwards. -/
def horner (f : UInt32 → UInt32) (v : UInt32) : Nat → Nat → UInt32
  | 0, _ => 0
  | n + 1, q => (if q.testBit 0 then v else 0) ^^^ f (horner f v n (q / 2))

def poly (f : UInt32 → UInt32) (q v : UInt32) : UInt32 := horner f v 32 q.toNat

section Horner

variable {f g φ : UInt32 → UInt32} {v : UInt32}

theorem scale_xor (a b : Bool) (v : UInt32) :
    (if (a ^^ b) then v else 0) = (if a then v else 0) ^^^ (if b then v else 0) := by
  cases a <;> cases b <;> simp

theorem horner_xor (hf : Linear f) (n p q : Nat) :
    horner f v n (p ^^^ q) = horner f v n p ^^^ horner f v n q := by
  induction n generalizing p q with
  | zero => simp [horner]
  | succ n ih =>
    rw [horner, horner, horner, Nat.testBit_xor, scale_xor, Nat.xor_div_two, ih, hf,
      xor_xor_xor_comm]

theorem horner_apply_xor (hf : Linear f) (n q : Nat) (a b : UInt32) :
    horner f (a ^^^ b) n q = horner f a n q ^^^ horner f b n q := by
  induction n generalizing q with
  | zero => simp [horner]
  | succ n ih =>
    rw [horner, horner, horner, ih, hf, ← xor_xor_xor_comm]
    cases q.testBit 0 <;> simp

/-- A linear map that carries one map over to another carries their polynomials over. -/
theorem map_horner (hφ : Linear φ) (carries : ∀ u, φ (f u) = g (φ u)) (n q : Nat) :
    φ (horner f v n q) = horner g (φ v) n q := by
  induction n generalizing q with
  | zero => exact hφ.zero
  | succ n ih => rw [horner, horner, hφ, hφ.scale, carries, ih]

theorem horner_zero (hf : Linear f) (n : Nat) : horner f v n 0 = 0 := by
  induction n with
  | zero => rfl
  | succ n ih => simp [horner, ih, hf.zero]

/-- The highest coefficient apart from the others. -/
theorem horner_succ (hf : Linear f) (n q : Nat) :
    horner f v (n + 1) q = horner f v n q ^^^ f^[n] (if q.testBit n then v else 0) := by
  induction n generalizing q with
  | zero => simp [horner, hf.zero]
  | succ n ih =>
    rw [horner, ih, hf, ← UInt32.xor_assoc, Nat.testBit_div_two,
      ← Function.iterate_succ_apply' f n, horner]

/-- Twice a polynomial is the indeterminate times it. -/
theorem horner_two_mul (n q : Nat) : horner f v (n + 1) (2 * q) = f (horner f v n q) := by
  simp [horner]

/-- Coefficients beyond those asked for do not count. -/
theorem horner_mod (n q : Nat) : horner f v n (q % 2 ^ n) = horner f v n q := by
  induction n generalizing q with
  | zero => rfl
  | succ n ih =>
    have half : q % 2 ^ (n + 1) / 2 = q / 2 % 2 ^ n := by
      rw [Nat.pow_succ, Nat.mul_comm, Nat.mod_mul_right_div_self]
    rw [horner, horner, half, ih]
    simp

end Horner

theorem linear_poly {f : UInt32 → UInt32} (hf : Linear f) (q : UInt32) : Linear (poly f q) :=
  fun a b => horner_apply_xor hf 32 q.toNat a b

theorem poly_xor {f : UInt32 → UInt32} (hf : Linear f) (p q v : UInt32) :
    poly f (p ^^^ q) v = poly f p v ^^^ poly f q v := by
  rw [poly, UInt32.toNat_xor, horner_xor hf]
  rfl

theorem poly_zero {f : UInt32 → UInt32} (hf : Linear f) (v : UInt32) : poly f 0 v = 0 :=
  horner_zero hf 32

theorem poly_one {f : UInt32 → UInt32} (hf : Linear f) (v : UInt32) : poly f 1 v = v := by
  change v ^^^ f (horner f v 31 0) = v
  rw [horner_zero hf, hf.zero, UInt32.xor_zero]

theorem poly_two {f : UInt32 → UInt32} (hf : Linear f) (v : UInt32) : poly f 2 v = f v := by
  change 0 ^^^ f (v ^^^ f (horner f v 30 0)) = f v
  rw [horner_zero hf, hf.zero, UInt32.xor_zero, UInt32.zero_xor]

/-- A linear map whose power 32 is a polynomial of lower degree in it. -/
structure Satisfies (f : UInt32 → UInt32) (taps : UInt32) : Prop where
  linear : Linear f
  relation : ∀ v, f^[32] v = poly f taps v

/-- A polynomial times the indeterminate, with the power 32 replaced by the taps. -/
def timesX (taps q : UInt32) : UInt32 :=
  (q <<< 1) ^^^ (if q.toNat.testBit 31 then taps else 0)

def times (taps a b : UInt32) : UInt32 := poly (timesX taps) a b

/-- The power `2 ^ k` of a polynomial. -/
def squares (taps : UInt32) : Nat → UInt32 → UInt32
  | 0, a => a
  | k + 1, a => squares taps k (times taps a a)

/-- The power `2 ^ k + 1` of a polynomial. -/
def climb (taps a : UInt32) (k : Nat) : UInt32 := times taps (squares taps k a) a

/-- One such power after the other. -/
def raise (taps : UInt32) (ks : List Nat) (a : UInt32) : UInt32 := ks.foldl (climb taps) a

/-- The power to which `raise` comes. -/
def degree (ks : List Nat) : Nat := (ks.map (2 ^ · + 1)).prod

theorem degree_cons (k : Nat) (ks : List Nat) : degree (k :: ks) = (2 ^ k + 1) * degree ks := by
  simp [degree]

theorem degree_pos (ks : List Nat) : 0 < degree ks := by
  induction ks with
  | nil => decide
  | cons k ks ih => rw [degree_cons]; exact Nat.mul_pos (Nat.succ_pos _) ih

namespace Satisfies

variable {f : UInt32 → UInt32} {taps : UInt32}

/-- Multiplying by the indeterminate applies the map once more. -/
theorem poly_timesX (hs : Satisfies f taps) (q v : UInt32) :
    poly f (timesX taps q) v = f (poly f q v) := by
  have low : poly f (q <<< 1) v = f (horner f v 31 q.toNat) := by
    have doubled : (q <<< 1).toNat = 2 * q.toNat % 2 ^ 32 := by
      rw [UInt32.toNat_shiftLeft]
      simp [Nat.shiftLeft_eq, Nat.mul_comm]
    rw [poly, doubled, horner_mod, horner_two_mul]
  have high : poly f q v =
      horner f v 31 q.toNat ^^^ f^[31] (if q.toNat.testBit 31 then v else 0) :=
    horner_succ hs.linear 31 q.toNat
  rw [timesX, poly_xor hs.linear, low, high, hs.linear]
  congr 1
  rw [← Function.iterate_succ_apply' f 31, hs.relation]
  cases q.toNat.testBit 31
  · exact (poly_zero hs.linear v).trans (linear_poly hs.linear taps).zero.symm
  · rfl

/-- The product of two polynomials is applied by applying one after the other. -/
theorem poly_times (hs : Satisfies f taps) (a b v : UInt32) :
    poly f (times taps a b) v = poly f a (poly f b v) :=
  map_horner (φ := fun u => poly f u v) (fun p q => poly_xor hs.linear p q v)
    (fun u => hs.poly_timesX u v) 32 a.toNat

theorem poly_squares (hs : Satisfies f taps) (k : Nat) (a v : UInt32) :
    poly f (squares taps k a) v = (poly f a)^[2 ^ k] v := by
  induction k generalizing a with
  | zero => rfl
  | succ k ih =>
    have twice : poly f (times taps a a) = (poly f a)^[2] := funext fun u => hs.poly_times a a u
    rw [squares, ih, twice, ← Function.iterate_mul, Nat.pow_succ, Nat.mul_comm]

theorem poly_climb (hs : Satisfies f taps) (a : UInt32) (k : Nat) :
    poly f (climb taps a k) = (poly f a)^[2 ^ k + 1] := by
  funext v
  rw [climb, hs.poly_times, hs.poly_squares, Function.iterate_succ_apply]

/-- One power after the other makes the product of the exponents. -/
theorem poly_raise (hs : Satisfies f taps) (ks : List Nat) (a : UInt32) :
    poly f (raise taps ks a) = (poly f a)^[degree ks] := by
  induction ks generalizing a with
  | nil => rfl
  | cons k ks ih =>
    have first : raise taps (k :: ks) a = raise taps ks (climb taps a k) := rfl
    rw [first, ih, hs.poly_climb, ← Function.iterate_mul, degree_cons]

/-- A polynomial with a power that is one maps nothing but zero to zero. -/
theorem eq_zero_of_poly (hs : Satisfies f taps) {ks : List Nat} {a v : UInt32}
    (unit : raise taps ks a = 1) (zero : poly f a v = 0) : v = 0 := by
  obtain ⟨n, hn⟩ := Nat.exists_eq_succ_of_ne_zero (Nat.ne_of_gt (degree_pos ks))
  calc v = poly f (raise taps ks a) v := by rw [unit, poly_one hs.linear]
    _ = (poly f a)^[n] (poly f a v) := by
      rw [hs.poly_raise, hn, Function.iterate_succ_apply]
    _ = 0 := by rw [zero, ((linear_poly hs.linear a).iterate n).zero]

end Satisfies

end ChipEight.WordPolynomial
