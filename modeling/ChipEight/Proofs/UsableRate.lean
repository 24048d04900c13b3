import ChipEight.Proofs.Launch
import ChipEight.Proofs.Numeral

/-!
# Whether a rate that was read can be used

The reader of the command line takes any positive number of at most 4300 digits, a window only
those that have a double. Between the two lie the rates that round beyond the largest double:
they pass the reader, and the start fails on them when the window, its player and its image are
already there. On all other texts the start either shows the usage and asks for nothing, or runs
at the rate that was read.
-/
namespace ChipEight

namespace Double

/-- Rounding to a whole number reaches an even number from below at half a unit below it. -/
theorem le_nearest_iff {n half k : Nat} (pos : 0 < half) (odd : k % 2 = 1)
    (small : n < (k + 1) * (2 * half)) :
    k + 1 ≤ nearest n (2 * half) ↔ (k + 1) * (2 * half) - half ≤ n := by
  have parts := Nat.div_add_mod n (2 * half)
  have rest := Nat.mod_lt n (Nat.mul_pos Nat.two_pos pos)
  have whole : n / (2 * half) < k + 1 := Nat.div_lt_of_lt_mul (by rwa [Nat.mul_comm])
  have top : (k + 1) * (2 * half) = 2 * half * k + 2 * half := by rw [Nat.mul_comm, Nat.mul_succ]
  by_cases last : n / (2 * half) = k
  · rw [last] at parts
    simp only [nearest, last]
    split
    · omega
    · split <;> omega
  · -- More than a unit below, neither side holds.
    have near := nearest_le n (2 * half)
    have far : 2 * half * (n / (2 * half) + 1) ≤ 2 * half * k := Nat.mul_le_mul_left _ (by omega)
    rw [Nat.mul_succ] at far
    omega

/-- Rounding to 53 bits keeps as many of the highest bits and rounds at the next. -/
theorem rounded_eq (n : Nat) :
    rounded n = nearest n (2 ^ (n.log2 - 52)) * 2 ^ (n.log2 - 52) := by
  rw [rounded, Nat.shiftLeft_eq, Nat.shiftLeft_eq, Nat.one_mul]

theorem rounded_le {n k : Nat} (small : n < 2 ^ (k + 53)) : rounded n ≤ 2 ^ (k + 53) := by
  have extra : n.log2 - 52 ≤ k := by
    by_cases zero : n = 0
    · simp [zero]
    · have := (Nat.log2_lt zero).mpr small
      omega
  have quotient : n / 2 ^ (n.log2 - 52) < 2 ^ 53 := by
    apply Nat.div_lt_of_lt_mul
    rw [← Nat.pow_add]
    exact Nat.lt_of_lt_of_le Nat.lt_log2_self (Nat.pow_le_pow_right Nat.two_pos (by omega))
  have near := nearest_le n (2 ^ (n.log2 - 52))
  calc rounded n = nearest n (2 ^ (n.log2 - 52)) * 2 ^ (n.log2 - 52) := rounded_eq n
    _ ≤ 2 ^ 53 * 2 ^ k := Nat.mul_le_mul (by omega) (Nat.pow_le_pow_right Nat.two_pos extra)
    _ = 2 ^ (k + 53) := by rw [← Nat.pow_add, Nat.add_comm]

theorem le_rounded {n k : Nat} (large : 2 ^ (k + 52) ≤ n) : 2 ^ (k + 52) ≤ rounded n := by
  have nonzero : n ≠ 0 := Nat.pos_iff_ne_zero.mp (Nat.lt_of_lt_of_le (Nat.two_pow_pos _) large)
  have high : k + 52 ≤ n.log2 := (Nat.le_log2 nonzero).mpr large
  have quotient : 2 ^ 52 ≤ n / 2 ^ (n.log2 - 52) := by
    rw [Nat.le_div_iff_mul_le (Nat.two_pow_pos _), ← Nat.pow_add, Nat.add_sub_of_le (by omega)]
    exact Nat.log2_self_le nonzero
  have near := le_nearest n (2 ^ (n.log2 - 52))
  calc 2 ^ (k + 52) = 2 ^ 52 * 2 ^ k := by rw [← Nat.pow_add, Nat.add_comm]
    _ ≤ nearest n (2 ^ (n.log2 - 52)) * 2 ^ (n.log2 - 52) :=
        Nat.mul_le_mul (Nat.le_trans quotient near) (Nat.pow_le_pow_right Nat.two_pos (by omega))
    _ = rounded n := (rounded_eq n).symm

/-- With 53 bits kept, a power of two is reached from below half a unit before it. -/
theorem two_pow_le_rounded_iff (x n : Nat) :
    2 ^ (x + 54) ≤ rounded n ↔ 2 ^ (x + 54) - 2 ^ x ≤ n := by
  have pos : 0 < 2 ^ x := Nat.two_pow_pos x
  have below : 2 ^ (x + 53) = 2 ^ x * 2 ^ 53 := Nat.pow_add 2 x 53
  have above : 2 ^ (x + 54) = 2 ^ 53 * (2 * 2 ^ x) := by
    rw [Nat.pow_add]
    omega
  by_cases low : n < 2 ^ (x + 53)
  · have := rounded_le low
    omega
  by_cases high : 2 ^ (x + 54) ≤ n
  · have reached : 2 ^ (x + 54) ≤ rounded n := le_rounded (k := x + 2) high
    omega
  -- In the last binade below the power, the unit is twice the power of `x`.
  have exponent : n.log2 - 52 = x + 1 := by
    have nonzero : n ≠ 0 := by omega
    have : n.log2 = x + 53 := (Nat.log2_eq_iff nonzero).mpr ⟨Nat.le_of_not_lt low, by omega⟩
    omega
  have unit : 2 ^ (x + 1) = 2 * 2 ^ x := Nat.pow_succ'
  rw [rounded_eq, exponent, unit, above, Nat.mul_le_mul_right_iff (Nat.mul_pos Nat.two_pos pos)]
  have small : n < (2 ^ 53 - 1 + 1) * (2 * 2 ^ x) := by omega
  exact le_nearest_iff pos (by decide) small

/-- The numbers without a double are those that round beyond the largest double. -/
theorem limit_le_iff {n : Nat} : limit ≤ n ↔ 2 ^ 1024 ≤ rounded n := by
  have powers (x y : Nat) : 1 <<< x - 1 <<< y = 2 ^ x - 2 ^ y := by
    rw [Nat.one_shiftLeft, Nat.one_shiftLeft]
  have reached := two_pow_le_rounded_iff 970 n
  rw [show 970 + 54 = 1024 from rfl] at reached
  rw [limit, powers, reached]

/-- The numbers with a double are those that round below 2^1024. -/
theorem lt_limit_iff {n : Nat} : n < limit ↔ rounded n < 2 ^ 1024 := by
  rw [← Nat.not_le, limit_le_iff, Nat.not_le]

end Double

namespace Xorshift

/-- A clock reading that gives a seed: one below zero, or one that is finite in milliseconds. -/
def Readable (now : Float) : Prop :=
  now < 0.0 ∨ ∃ negative m q, Double.value (now * 1000.0) = .finite negative m q

theorem exists_seed {now : Float} (readable : Readable now) :
    ∃ random, ofClock now = .ok random := by
  unfold ofClock
  split
  next => exact ⟨_, rfl⟩
  next late =>
    obtain ⟨negative, m, q, finite⟩ := readable.resolve_left late
    exact ⟨_, by rw [finite]; rfl⟩

end Xorshift

namespace Window

variable {host : Host} {rate : Nat}

/-- A rate without a double is noticed when the window and its parts are there. -/
theorem openOn_of_huge {random : Xorshift} (seeded : Xorshift.ofClock host.now = .ok random)
    (huge : Double.limit ≤ rate) (machine : Machine) : ∃ lines, openOn host machine rate =
      ⟨.error .hugeRate, lines, openRequest :: partRequests⟩ := by
  simp only [openOn, seeded, timers_start, Rate.period_of_ge huge]
  exact ⟨_, rfl⟩

/-- Once there is a seed, whether a window opens depends on the rate alone. -/
theorem opens_iff (readable : Xorshift.Readable host.now) (pos : 0 < rate) (machine : Machine) :
    (∃ win, (openOn host machine rate).result = .ok win) ↔ Double.rounded rate < 2 ^ 1024 := by
  obtain ⟨random, seeded⟩ := Xorshift.exists_seed readable
  rw [← Double.lt_limit_iff]
  constructor
  · rintro ⟨win, opens⟩
    refine Nat.lt_of_not_le fun huge => ?_
    obtain ⟨lines, fails⟩ := openOn_of_huge seeded huge machine
    rw [fails] at opens
    cases opens
  · intro small
    obtain ⟨lines, opens⟩ := openOn_of_seed seeded pos small machine
    exact ⟨_, by rw [opens]⟩

end Window

namespace CommandLine

variable {host : Host} {files : Files} {args : List String} {path : String} {rate : Nat}
  {program : List UInt8}

/-- A start that ended with the window, the player, the image and the labels there, and nothing
scheduled, run or closed. -/
structure Stranded (l : Launch) : Prop where
  ending : l.ending = .crash .hugeRate
  requests : l.requests = Window.openRequest :: Window.partRequests

theorem starts_of_readable (readable : Xorshift.Readable host.now) (asks : Asks args path rate)
    (plain : '\x00' ∉ path.toList) (loadable : Loadable files path program)
    (small : rate < Double.limit) : Starts program rate (launch host files args) := by
  have openable : ¬ Unopenable host rate := by
    rintro (⟨f, unseeded⟩ | huge)
    · obtain ⟨random, seeded⟩ := Xorshift.exists_seed readable
      rw [seeded] at unseeded
      cases unseeded
    · omega
  rw [launch_of_loadable asks plain loadable]
  exact starts_of_openable openable asks.rate_pos (load_of_loadable plain loadable).2 _

theorem stranded_of_huge (readable : Xorshift.Readable host.now) (asks : Asks args path rate)
    (plain : '\x00' ∉ path.toList) (loadable : Loadable files path program)
    (huge : Double.limit ≤ rate) : Stranded (launch host files args) := by
  obtain ⟨random, seeded⟩ := Xorshift.exists_seed readable
  rw [launch_of_loadable asks plain loadable]
  obtain ⟨lines, fails⟩ :=
    Window.openOn_of_huge seeded huge (Rom.load files Machine.initial path).state
  simp only [openWindow, fails]
  exact ⟨rfl, rfl⟩

/-- On a text in the place of the rate, a start with a file that can be loaded shows the usage, or
runs at the rate that was read, unless that rate rounds beyond the largest double. Such a rate is
accepted, and the window cannot be opened with it. -/
theorem accepted_rate_usable_iff (host : Host) (readable : Xorshift.Readable host.now)
    (text : String) :
    (∀ n machine, Rate.parse text = some n →
      ((∃ win, (Window.openOn host machine n).result = .ok win) ↔ Double.rounded n < 2 ^ 1024)) ∧
    ∀ files name path rest program, '\x00' ∉ path.toList → Loadable files path program →
      (Rate.parse text = none →
        ShowsUsage host (launch host files (name :: path :: text :: rest))) ∧
      ∀ n, Rate.parse text = some n →
        (Double.rounded n < 2 ^ 1024 →
          Starts program n (launch host files (name :: path :: text :: rest))) ∧
        (2 ^ 1024 ≤ Double.rounded n →
          Stranded (launch host files (name :: path :: text :: rest))) := by
  constructor
  · intro n machine accepted
    exact Window.opens_iff readable (Rate.parse_pos accepted) machine
  · intro files name path rest program plain loadable
    refine ⟨fun refused => usage_of_malformed (.inr ⟨text, rfl, refused⟩), fun n accepted => ?_⟩
    have asks : Asks (name :: path :: text :: rest) path n := .paced accepted
    refine ⟨fun small => ?_, fun huge => ?_⟩
    · exact starts_of_readable readable asks plain loadable (Double.lt_limit_iff.mpr small)
    · exact stranded_of_huge readable asks plain loadable (Double.limit_le_iff.mpr huge)

/-- A host whose clock stands at one second. -/
def firstSecond : Host := ⟨false, true, 1.0⟩

theorem firstSecond_readable : Xorshift.Readable firstSecond.now :=
  .inr ⟨false, 8796093022208000, -43, by decide +kernel⟩

/-- A rate with a blank, a sign and an underscore opens a window like any other. -/
theorem sevenHundred_usable :
    Xorshift.Readable firstSecond.now ∧ Rate.parse " +7_00" = some 700 ∧
      ∃ win, (Window.openOn firstSecond Machine.initial (700 : Nat)).result = .ok win := by
  have accepted : Rate.parse " +7_00" = some 700 := by decide +kernel
  refine ⟨firstSecond_readable, accepted, ?_⟩
  have usable := accepted_rate_usable_iff firstSecond firstSecond_readable " +7_00"
  exact (usable.1 700 Machine.initial accepted).mpr (by decide +kernel)

/-- The least rate that rounds beyond the largest double is accepted, and no window opens. -/
theorem leastHugeRate_stranded :
    Rate.parse (toString Double.limit) = some Double.limit ∧
      (Window.openOn firstSecond Machine.initial Double.limit).result = .error .hugeRate ∧
      (Window.openOn firstSecond Machine.initial Double.limit).requests =
        Window.openRequest :: Window.partRequests := by
  obtain ⟨random, seeded⟩ := Xorshift.exists_seed firstSecond_readable
  obtain ⟨lines, fails⟩ := Window.openOn_of_huge seeded (Nat.le_refl _) Machine.initial
  rw [fails]
  refine ⟨Rate.parse_toString ?_ ?_, rfl, rfl⟩
  · decide +kernel
  · decide +kernel

end CommandLine

end ChipEight
