import Mathlib.Data.FinEnum
import Mathlib.Data.List.Prime
import Mathlib.Dynamics.PeriodicPts.Lemmas
import Mathlib.Tactic.NormNum
import Mathlib.Tactic.NormNum.Prime
import Mathlib.Tactic.Ring
import ChipEight.Proofs.WordPolynomial
import ChipEight.Xorshift

/-!
# The period of the random source

A step is linear on the words, and it satisfies an equation of degree 32, so its powers are
polynomials that fit in a word and can be computed by repeated squaring. The power 2^32 - 1 turns
out to be the identity. That number is the product of the five Fermat primes 2^k + 1; were the
period of some word shorter, one of them could be left out, but then the difference of that power
and the identity, which has an inverse, would send the word to zero. So the words other than zero
lie on one cycle.
-/
namespace ChipEight.Xorshift

open Function
open WordPolynomial

/-- The equation of a step: its power 32 is the sum of the powers with a bit here. -/
def taps : UInt32 := 0x3EC241

/-- The exponents of the Fermat primes, whose product is the number of words but zero. -/
def fermat : List Nat := [1, 2, 4, 8, 16]

theorem linear_step : Linear step := (linear_up 5).comp ((linear_down 17).comp (linear_up 13))

/-- The equation of a step, checked on the words with a single bit. -/
theorem step_satisfies : Satisfies step taps where
  linear := linear_step
  relation := by
    apply Linear.ext (linear_step.iterate 32) (linear_poly linear_step taps)
    decide +kernel

theorem degree_fermat : degree fermat = UInt32.size - 1 := by decide

/-- Leaving out a prime divides the power by it. -/
theorem degree_erase : ∀ k ∈ fermat, (2 ^ k + 1) * degree (fermat.erase k) = degree fermat := by
  decide

theorem fermat_prime : ∀ k ∈ fermat, (2 ^ k + 1).Prime := by
  simp only [fermat, List.forall_mem_cons]
  norm_num

/-- The indeterminate has the order that the number of words suggests. -/
theorem raise_fermat : raise taps fermat 2 = 1 := by decide +kernel

/-- Without one of the primes the power differs from one by an element with an inverse. -/
theorem raise_erase :
    ∀ k ∈ fermat, raise taps fermat (raise taps (fermat.erase k) 2 ^^^ 1) = 1 := by
  decide +kernel

theorem poly_raise_two (ks : List Nat) (v : UInt32) :
    poly step (raise taps ks 2) v = step^[degree ks] v := by
  have two : poly step 2 = step := funext (poly_two linear_step)
  rw [step_satisfies.poly_raise, two]

/-- Every word comes back after as many steps as there are words but zero. -/
theorem isPeriodicPt_step (v : UInt32) : IsPeriodicPt step (degree fermat) v := by
  change step^[degree fermat] v = v
  rw [← poly_raise_two, raise_fermat, poly_one linear_step]

/-- Nothing but zero comes back after a power in which a prime is left out. -/
theorem eq_zero_of_iterate_erase {k : Nat} (hk : k ∈ fermat) {v : UInt32}
    (back : step^[degree (fermat.erase k)] v = v) : v = 0 := by
  apply step_satisfies.eq_zero_of_poly (raise_erase k hk)
  rw [poly_xor linear_step, poly_one linear_step, poly_raise_two, back, UInt32.xor_self]

/-- A prime that divides the number of words but zero is one of the five. -/
theorem exists_of_dvd {p : Nat} (prime : p.Prime) (hp : p ∣ degree fermat) :
    ∃ k ∈ fermat, p = 2 ^ k + 1 := by
  obtain ⟨m, hm, hd⟩ := (Prime.dvd_prod_iff prime.prime).mp hp
  obtain ⟨k, hk, rfl⟩ := List.mem_map.mp hm
  exact ⟨k, hk, (Nat.prime_dvd_prime_iff_eq prime (fermat_prime k hk)).mp hd⟩

/-- No word but zero comes back sooner. -/
theorem minimalPeriod_step {v : UInt32} (hv : v ≠ 0) : minimalPeriod step v = degree fermat := by
  obtain ⟨c, hc⟩ := (isPeriodicPt_step v).minimalPeriod_dvd
  by_contra shorter
  -- Some prime is left over, so the period divides the power without that prime.
  have one : c ≠ 1 := by
    rintro rfl
    exact shorter (by rw [hc, Nat.mul_one])
  obtain ⟨p, prime, d, rfl⟩ := Nat.exists_prime_and_dvd one
  have hp : p ∣ degree fermat := ⟨minimalPeriod step v * d, by rw [hc]; ring⟩
  obtain ⟨k, hk, rfl⟩ := exists_of_dvd prime hp
  have left : minimalPeriod step v * d = degree (fermat.erase k) := by
    apply Nat.eq_of_mul_eq_mul_left prime.pos
    rw [degree_erase k hk, hc]
    ring
  have back : IsPeriodicPt step (degree (fermat.erase k)) v :=
    isPeriodicPt_iff_minimalPeriod_dvd.mpr ⟨d, left.symm⟩
  exact hv (eq_zero_of_iterate_erase hk back)

theorem step_bijective : Bijective step := by
  obtain ⟨n, hn⟩ := Nat.exists_eq_succ_of_ne_zero (degree_pos fermat).ne'
  have back (v : UInt32) : step^[n + 1] v = v := by
    have periodic := isPeriodicPt_step v
    rwa [hn] at periodic
  constructor
  · apply LeftInverse.injective (g := step^[n])
    intro v
    rw [← iterate_succ_apply, back]
  · apply RightInverse.surjective (g := step^[n])
    intro v
    rw [← iterate_succ_apply' step, back]

theorem iterate_step_ne_zero {v : UInt32} (hv : v ≠ 0) (n : Nat) : step^[n] v ≠ 0 := by
  intro zero
  apply hv
  apply step_bijective.injective.iterate n
  rw [zero, (linear_step.iterate n).zero]

theorem card_word : Fintype.card UInt32 = UInt32.size :=
  FinEnum.card_eq_fintypeCard.symm.trans FinEnum.card_UInt32

/-- The words on the way of a word before it comes back are as many as there are words but
zero, so every other word is among them. -/
theorem exists_iterate {a b : UInt32} (ha : a ≠ 0) (hb : b ≠ 0) :
    ∃ n < UInt32.size - 1, step^[n] a = b := by
  have period := (minimalPeriod_step ha).trans degree_fermat
  let way : Finset UInt32 := (Finset.range (UInt32.size - 1)).image (step^[·] a)
  have inside : way ⊆ Finset.univ.erase 0 := by
    intro v hv
    obtain ⟨n, -, rfl⟩ := Finset.mem_image.mp hv
    exact Finset.mem_erase.mpr ⟨iterate_step_ne_zero ha n, Finset.mem_univ _⟩
  have size : way.card = UInt32.size - 1 := by
    rw [Finset.card_image_of_injOn, Finset.card_range]
    rw [Finset.coe_range, ← period]
    exact iterate_injOn_Iio_minimalPeriod
  have all : way = Finset.univ.erase 0 := by
    apply Finset.eq_of_subset_of_card_le inside
    rw [size, Finset.card_erase_of_mem (Finset.mem_univ 0), Finset.card_univ, card_word]
  have hb : b ∈ way := all ▸ Finset.mem_erase.mpr ⟨hb, Finset.mem_univ b⟩
  obtain ⟨n, hn, back⟩ := Finset.mem_image.mp hb
  exact ⟨n, Finset.mem_range.mp hn, back⟩

def drawn : Nat → Xorshift → Xorshift
  | 0, r => r
  | n + 1, r => drawn n r.next.2

theorem drawn_eq (n : Nat) (r : Xorshift) : r.drawn n = ⟨step^[n] r.state⟩ := by
  induction n generalizing r with
  | zero => rfl
  | succ n ih => rw [drawn, ih]; rfl

theorem state_drawn (n : Nat) (r : Xorshift) : (r.drawn n).state = step^[n] r.state := by
  rw [drawn_eq]

theorem toNat_ofSeed (seed : Int) : ((ofSeed seed).state.toNat : Int) = seed % UInt32.size := by
  have hn := Int.emod_nonneg seed (show (UInt32.size : Int) ≠ 0 by decide)
  have hl := Int.emod_lt_of_pos seed (show (0 : Int) < UInt32.size by decide)
  have fits : (seed % UInt32.size).toNat < UInt32.size := by omega
  calc ((ofSeed seed).state.toNat : Int)
      = ((seed % UInt32.size).toNat : Int) := congrArg _ (UInt32.toNat_ofNat_of_lt' fits)
    _ = seed % UInt32.size := Int.toNat_of_nonneg hn

/-- Seeds are the same exactly if they differ by a multiple of the number of words. -/
theorem state_ofSeed_eq_iff (seed other : Int) :
    (ofSeed seed).state = (ofSeed other).state ↔ (UInt32.size : Int) ∣ seed - other := by
  rw [← UInt32.toNat_inj, ← Int.natCast_inj, toNat_ofSeed, toNat_ofSeed,
    Int.emod_eq_emod_iff_emod_sub_eq_zero, Int.dvd_iff_emod_eq_zero]

theorem state_ofSeed_eq_zero_iff (seed : Int) :
    (ofSeed seed).state = 0 ↔ (UInt32.size : Int) ∣ seed := by
  have other := state_ofSeed_eq_iff seed 0
  rwa [Int.sub_zero] at other

/-- The words after the first draw, the second and so on up to the end of the period differ. -/
theorem state_drawn_ne {r : Xorshift} (hr : r.state ≠ 0) {i j : Nat} (hi : 1 ≤ i) (hij : i < j)
    (hj : j ≤ UInt32.size - 1) : (r.drawn i).state ≠ (r.drawn j).state := by
  obtain ⟨i, rfl⟩ := Nat.exists_eq_add_of_le' hi
  obtain ⟨j, rfl⟩ := Nat.exists_eq_add_of_le' (hi.trans hij.le)
  have period : minimalPeriod step (step r.state) = UInt32.size - 1 :=
    (minimalPeriod_step (iterate_step_ne_zero hr 1)).trans degree_fermat
  rw [state_drawn, state_drawn, iterate_succ_apply, iterate_succ_apply]
  intro same
  have early : i < minimalPeriod step (step r.state) := by omega
  have late : j < minimalPeriod step (step r.state) := by omega
  have equal := (iterate_eq_iterate_iff_of_lt_minimalPeriod early late).mp same
  omega

/-- A whole period brings a random source back to where it was. -/
theorem drawn_period (r : Xorshift) : r.drawn (UInt32.size - 1) = r := by
  have back : step^[degree fermat] r.state = r.state := isPeriodicPt_step r.state
  rw [drawn_eq, ← degree_fermat, back]

/-- A step of the random source leaves zero where it is and takes the other words around in one
cycle. So a seed that is not zero as a word gives all of them before one comes again, and seeds
that differ as words never come to the same one; the others give zeros only. -/
theorem full_period :
    (step 0 = 0 ∧ Bijective step ∧
      ∀ a b, a ≠ 0 → b ≠ 0 → ∃ n < UInt32.size - 1, step^[n] a = b) ∧
    (∀ seed : Int, ¬ (UInt32.size : Int) ∣ seed →
      (∀ n, ((ofSeed seed).drawn n).state ≠ 0) ∧
      (∀ i j, 1 ≤ i → i < j → j ≤ UInt32.size - 1 →
        ((ofSeed seed).drawn i).state ≠ ((ofSeed seed).drawn j).state) ∧
      (ofSeed seed).drawn (UInt32.size - 1) = ofSeed seed) ∧
    (∀ seed other : Int, ¬ (UInt32.size : Int) ∣ seed - other →
      ∀ n, ((ofSeed seed).drawn n).state ≠ ((ofSeed other).drawn n).state) ∧
    ∀ seed : Int, (UInt32.size : Int) ∣ seed → ∀ n, ((ofSeed seed).drawn n).next.1 = 0 := by
  refine ⟨⟨step_zero, step_bijective, fun a b => exists_iterate⟩, ?_, ?_, ?_⟩
  · intro seed hs
    have hz : (ofSeed seed).state ≠ 0 := mt (state_ofSeed_eq_zero_iff seed).mp hs
    refine ⟨fun n => ?_, fun i j => state_drawn_ne hz, drawn_period _⟩
    rw [state_drawn]
    exact iterate_step_ne_zero hz n
  · intro seed other apart n same
    rw [state_drawn, state_drawn] at same
    exact apart ((state_ofSeed_eq_iff seed other).mp (step_bijective.injective.iterate n same))
  · intro seed hs n
    have hz : ((ofSeed seed).drawn n).state = 0 := by
      rw [state_drawn, (state_ofSeed_eq_zero_iff seed).mpr hs, (linear_step.iterate n).zero]
    rw [next, hz, step_zero]
    rfl

/-- A seed below zero and one too large for a word are seeds like any other. -/
theorem full_period_negative_oversized :
    (∀ n, ((ofSeed (-1)).drawn n).state ≠ 0) ∧
      (ofSeed (UInt32.size + 5)).drawn (UInt32.size - 1) = ofSeed (UInt32.size + 5) ∧
      (∀ n, ((ofSeed (-1)).drawn n).state ≠ ((ofSeed (UInt32.size + 5)).drawn n).state) ∧
      ∀ n, ((ofSeed (-UInt32.size)).drawn n).next.1 = 0 := by
  obtain ⟨-, around, apart, zeros⟩ := full_period
  exact ⟨(around (-1) (by decide)).1, (around (UInt32.size + 5) (by decide)).2.2,
    apart (-1) (UInt32.size + 5) (by decide), zeros (-UInt32.size) (by decide)⟩

end ChipEight.Xorshift
