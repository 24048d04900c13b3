import Mathlib.Algebra.Order.BigOperators.Group.List
import Mathlib.Data.Rat.Floor
import Mathlib.Tactic.FieldSimp
import Mathlib.Tactic.Linarith
import ChipEight.TimerClock

/-!
# Ticks and time

The loop of the timer clock is described first for any numbers: it comes to an end exactly if,
taking off period after period, a time is reached that is less than a period, and then one tick
has been made for each period. Over exact fractions that always happens, and the clock knows
nothing of the way in which the time was cut into spans: what it has counted is the whole part of
the time that has passed, measured in periods.
-/
namespace ChipEight.TimerClock

section Loop

variable {τ : Type} [Sub τ] [LE τ] {period : τ}

/-- A time with a period taken off, again and again. -/
def less (period : τ) : Nat → τ → τ
  | 0, e => e
  | n + 1, e => less period n (e - period)

/-- From `a` the loop makes `n` ticks and stops at `b`. -/
structure Drains (period : τ) (n : Nat) (a b : Advance τ) : Prop where
  ticks : b.ticks = a.ticks + n
  elapsed : b.elapsed = less period n a.elapsed
  timers : b.timers = a.timers.ticks n
  due : ∀ k < n, period ≤ less period k a.elapsed
  rest : ¬ period ≤ b.elapsed

/-- One turn of the loop in front of others. -/
theorem drains_succ_iff {n : Nat} {a b : Advance τ} :
    Drains period (n + 1) a b ↔
      period ≤ a.elapsed ∧
        Drains period n ⟨a.ticks + 1, a.elapsed - period, a.timers.tick⟩ b := by
  constructor
  · rintro ⟨ticks, elapsed, timers, due, rest⟩
    refine ⟨due 0 (Nat.succ_pos n), ?_, elapsed, timers, ?_, rest⟩
    · simp only
      omega
    · intro k hk
      exact due (k + 1) (Nat.succ_lt_succ hk)
  · rintro ⟨first, ticks, elapsed, timers, due, rest⟩
    refine ⟨?_, elapsed, timers, ?_, rest⟩
    · simp only at ticks
      omega
    · intro k hk
      cases k with
      | zero => exact first
      | succ k => exact due k (Nat.lt_of_succ_lt_succ hk)

theorem drains_zero_iff {a b : Advance τ} :
    Drains period 0 a b ↔ b = a ∧ ¬ period ≤ a.elapsed := by
  constructor
  · rintro ⟨ticks, elapsed, timers, -, rest⟩
    obtain ⟨n, e, t⟩ := b
    cases ticks
    cases elapsed
    cases timers
    exact ⟨rfl, rest⟩
  · rintro ⟨rfl, rest⟩
    exact ⟨rfl, rfl, rfl, fun k hk => absurd hk (Nat.not_lt_zero k), rest⟩

variable [DecidableLE τ]

/-- The loop returns exactly if it drains in fewer ticks than it may make tests. -/
theorem drain_eq_some_iff {fuel : Nat} {a b : Advance τ} :
    drain period fuel a = some b ↔ ∃ n < fuel, Drains period n a b := by
  induction fuel generalizing a with
  | zero => simp [drain]
  | succ fuel ih =>
    by_cases hp : period ≤ a.elapsed
    · rw [drain, if_pos hp, ih]
      constructor
      · rintro ⟨n, hn, drains⟩
        exact ⟨n + 1, Nat.succ_lt_succ hn, drains_succ_iff.mpr ⟨hp, drains⟩⟩
      · rintro ⟨n, hn, drains⟩
        cases n with
        | zero => exact absurd hp (drains_zero_iff.mp drains).2
        | succ n => exact ⟨n, Nat.lt_of_succ_lt_succ hn, (drains_succ_iff.mp drains).2⟩
    · rw [drain, if_neg hp]
      constructor
      · intro same
        cases same
        exact ⟨0, Nat.succ_pos fuel, drains_zero_iff.mpr ⟨rfl, hp⟩⟩
      · rintro ⟨n, -, drains⟩
        cases n with
        | zero => rw [(drains_zero_iff.mp drains).1]
        | succ n => exact absurd (drains_succ_iff.mp drains).1 hp

/-- Let one span of time after the other pass, with at most `fuel` tests for each. The ticks of
all spans are counted together. -/
def pass [Add τ] (fuel : Nat) (c : TimerClock τ) (t : Timers) : List τ → Option (Advance τ)
  | [] => some ⟨0, c.elapsed, t⟩
  | dt :: dts =>
    match c.advance fuel dt t with
    | none => none
    | some a =>
      (pass fuel { c with elapsed := a.elapsed } a.timers dts).map fun b =>
        { b with ticks := a.ticks + b.ticks }

end Loop

def fractional (rate : Int) : TimerClock ℚ := ⟨1 / rate, 0⟩

/-- What a clock makes of a time: one tick for each whole period in it. -/
def counted (rate : Int) (t : Timers) (time : ℚ) : Advance ℚ where
  ticks := ⌊rate * time⌋₊
  elapsed := time - ⌊rate * time⌋₊ * (1 / rate)
  timers := t.ticks ⌊rate * time⌋₊

/-- Over fractions, periods taken off one by one are taken off at once. -/
theorem less_eq (period : ℚ) (n : Nat) (e : ℚ) : less period n e = e - n * period := by
  induction n generalizing e with
  | zero => simp [less]
  | succ n ih =>
    rw [less, ih]
    push_cast
    ring

section Fractional

variable {rate : Int} {t : Timers} {e : ℚ}

theorem periods_le_iff (hr : 0 < rate) (n : ℚ) : n * (1 / rate) ≤ e ↔ n ≤ rate * e := by
  have hr : (0 : ℚ) < rate := by exact_mod_cast hr
  rw [mul_one_div, div_le_iff₀ hr, mul_comm]

theorem counted_elapsed (hr : 0 < rate) (he : 0 ≤ e) :
    0 ≤ (counted rate t e).elapsed ∧ (counted rate t e).elapsed < 1 / rate := by
  have hn : (0 : ℚ) ≤ rate * e := mul_nonneg (by exact_mod_cast hr.le) he
  have lower := (periods_le_iff hr _).mpr (Nat.floor_le hn)
  have upper := mt (periods_le_iff hr _).mp (not_le.mpr (Nat.lt_floor_add_one (rate * e)))
  simp only [counted]
  constructor <;> linarith

/-- The loop makes a tick for every whole period. -/
theorem drains_fractional (hr : 0 < rate) (he : 0 ≤ e) :
    Drains (1 / (rate : ℚ)) ⌊rate * e⌋₊ ⟨0, e, t⟩ (counted rate t e) where
  ticks := (Nat.zero_add _).symm
  elapsed := (less_eq _ _ _).symm
  timers := rfl
  due k hk := by
    have hn : (0 : ℚ) ≤ rate * e := mul_nonneg (by exact_mod_cast hr.le) he
    have whole : ((k + 1 : Nat) : ℚ) ≤ rate * e := (Nat.le_floor_iff hn).mp hk
    have hp := (periods_le_iff hr _).mpr whole
    rw [less_eq]
    push_cast at hp
    linarith
  rest := not_le.mpr (counted_elapsed hr he).2

/-- A call ends with a tick for every whole period, if it may make one test more than that. -/
theorem advance_fractional (hr : 0 < rate) {dt : ℚ} (he : 0 ≤ e + dt) {fuel : Nat}
    (hf : ⌊rate * (e + dt)⌋₊ < fuel) :
    advance fuel ⟨1 / (rate : ℚ), e⟩ dt t = some (counted rate t (e + dt)) :=
  drain_eq_some_iff.mpr ⟨_, hf, drains_fractional hr he⟩

/-- Time that is less than a period makes no tick. -/
theorem counted_of_lt (hr : 0 < rate) (hl : e < 1 / rate) : counted rate t e = ⟨0, e, t⟩ := by
  have none : ⌊rate * e⌋₊ = 0 := by
    rw [Nat.floor_eq_zero, ← not_le, ← periods_le_iff hr, one_mul]
    exact not_le.mpr hl
  simp [counted, none, Timers.ticks]

/-- What is left over from one time counts in the next. -/
theorem counted_add (hr : 0 < rate) {more : ℚ} (hm : 0 ≤ more) :
    counted rate t (e + more) =
      let a := counted rate t e
      let b := counted rate a.timers (a.elapsed + more)
      { b with ticks := a.ticks + b.ticks } := by
  have hq : (rate : ℚ) ≠ 0 := by exact_mod_cast hr.ne'
  have left : (rate : ℚ) * (e - ⌊rate * e⌋₊ * (1 / rate) + more) =
      rate * (e + more) - ⌊rate * e⌋₊ := by
    field_simp
    ring
  have grows : ⌊rate * e⌋₊ ≤ ⌊rate * (e + more)⌋₊ :=
    Nat.floor_le_floor (mul_le_mul_of_nonneg_left (by linarith) (by exact_mod_cast hr.le))
  have rest : ⌊(rate : ℚ) * (e - ⌊rate * e⌋₊ * (1 / rate) + more)⌋₊ =
      ⌊rate * (e + more)⌋₊ - ⌊rate * e⌋₊ := by
    rw [left, Nat.floor_sub_natCast]
  simp only [counted, rest, ← Timers.ticks_add, Nat.add_sub_cancel' grows, Nat.cast_sub grows]
  congr 1
  ring

/-- However time is cut into spans, the clock counts it as a whole. -/
theorem pass_fractional (hr : 0 < rate) {fuel : Nat} {dts : List ℚ} (hd : ∀ dt ∈ dts, 0 ≤ dt)
    (he : 0 ≤ e) (hl : e < 1 / rate) (hf : ⌊rate * (e + dts.sum)⌋₊ < fuel) :
    pass fuel ⟨1 / (rate : ℚ), e⟩ t dts = some (counted rate t (e + dts.sum)) := by
  induction dts generalizing e t with
  | nil => rw [pass, List.sum_nil, add_zero, counted_of_lt hr hl]
  | cons dt dts ih =>
    obtain ⟨now, later⟩ := List.forall_mem_cons.mp hd
    have hs : 0 ≤ dts.sum := List.sum_nonneg later
    rw [List.sum_cons, ← add_assoc] at hf ⊢
    have split := counted_add (t := t) (e := e + dt) hr hs
    have whole := congrArg Advance.ticks split
    obtain ⟨lower, upper⟩ := counted_elapsed (t := t) hr (add_nonneg he now)
    -- The ticks of the first span and those of the others are bounded by the ticks of all.
    have first : advance fuel ⟨1 / (rate : ℚ), e⟩ dt t = some (counted rate t (e + dt)) := by
      apply advance_fractional hr (add_nonneg he now)
      simp only [counted] at whole
      omega
    have rest := ih (t := (counted rate t (e + dt)).timers) later lower upper (by
      simp only [counted] at whole ⊢
      omega)
    rw [pass, first]
    simp only [rest, Option.map_some, split]

end Fractional

/-- A counter after `n` ticks: it stops at zero, and one that starts below zero stays there. -/
structure CountedDown (start : Int) (n : Nat) (now : Int) : Prop where
  stops : 0 ≤ start → now = max 0 (start - n)
  stays : start < 0 → now = start

theorem countedDown_left (n : Nat) (c : Int) : CountedDown c n (Timers.left n c) where
  stops hc := by
    unfold Timers.left
    split
    next => omega
    next => split <;> omega
  stays hc := if_pos hc.le

/-- A clock that measures time in fractions ends every call, keeps less than a period and has
made as many ticks as there are whole periods in the time that has passed. So two ways of
cutting the same time into spans come to the same. -/
theorem ticks_counted (rate : Int) (hr : 0 < rate) (start : Timers) :
    (∀ dts : List ℚ, (∀ dt ∈ dts, 0 ≤ dt) → ∃ a,
      (∃ enough, ∀ fuel ≥ enough, (fractional rate).pass fuel start dts = some a) ∧
        (0 ≤ a.elapsed ∧ a.elapsed < 1 / rate) ∧
        (a.ticks : Int) = ⌊(rate : ℚ) * dts.sum⌋ ∧
        CountedDown start.delay a.ticks a.timers.delay ∧
        CountedDown start.sound a.ticks a.timers.sound) ∧
      ∀ dts dts' : List ℚ, (∀ dt ∈ dts, 0 ≤ dt) → (∀ dt ∈ dts', 0 ≤ dt) → dts'.sum = dts.sum →
        ∃ a, ∃ enough, ∀ fuel ≥ enough, (fractional rate).pass fuel start dts = some a ∧
          (fractional rate).pass fuel start dts' = some a := by
  have hp : (0 : ℚ) < 1 / rate := one_div_pos.mpr (by exact_mod_cast hr)
  have passed (dts : List ℚ) (hd : ∀ dt ∈ dts, 0 ≤ dt) (fuel : Nat)
      (hf : fuel ≥ ⌊rate * dts.sum⌋₊ + 1) :
      (fractional rate).pass fuel start dts = some (counted rate start dts.sum) := by
    have whole := pass_fractional (t := start) hr hd le_rfl hp (by rw [zero_add]; exact hf)
    rw [zero_add] at whole
    exact whole
  constructor
  · intro dts hd
    have hs : 0 ≤ dts.sum := List.sum_nonneg hd
    refine ⟨_, ⟨_, passed dts hd⟩, counted_elapsed hr hs, ?_, ?_, ?_⟩
    · exact Int.natCast_floor_eq_floor (mul_nonneg (by exact_mod_cast hr.le) hs)
    · simp only [counted, Timers.ticks_eq]
      exact countedDown_left ..
    · simp only [counted, Timers.ticks_eq]
      exact countedDown_left ..
  · intro dts dts' hd hd' same
    refine ⟨_, _, fun fuel hf => ⟨passed dts hd fuel hf, ?_⟩⟩
    rw [← same]
    exact passed dts' hd' fuel (by rw [same]; exact hf)

/-- Two spans of a hundredth of a second make one tick, as one span of a fiftieth does. -/
theorem two_spans_counted :
    (∃ a, (∃ enough, ∀ fuel ≥ enough,
        (fractional 60).pass fuel ⟨100, 1⟩ [1 / 100, 1 / 100] = some a) ∧
      a.ticks = 1 ∧ a.timers.delay = 99 ∧ a.timers.sound = 0) ∧
      ∃ a, ∃ enough, ∀ fuel ≥ enough,
        (fractional 60).pass fuel ⟨100, 1⟩ [1 / 100, 1 / 100] = some a ∧
          (fractional 60).pass fuel ⟨100, 1⟩ [1 / 50] = some a := by
  obtain ⟨counted, uncut⟩ := ticks_counted 60 (by decide) ⟨100, 1⟩
  constructor
  · obtain ⟨a, ends, -, ticks, delay, sound⟩ := counted [1 / 100, 1 / 100] (by norm_num)
    have one : a.ticks = 1 := by
      have : ⌊((60 : Int) : ℚ) * [1 / 100, 1 / 100].sum⌋ = 1 := by norm_num [Int.floor_eq_iff]
      omega
    refine ⟨a, ends, one, ?_, ?_⟩
    · rw [delay.stops (by decide), one]
      rfl
    · rw [sound.stops (by decide), one]
      rfl
  · exact uncut _ _ (by norm_num) (by norm_num) (by norm_num)

/-- A timer that is set below zero is not lifted to zero by a tick. -/
theorem negative_delay_kept :
    (fractional 1).pass 2 ⟨-5, 0⟩ [1] = some ⟨1, 0, ⟨-5, 0⟩⟩ ∧ (-5 : Int) ≠ max 0 (-5 - 1) := by
  refine ⟨?_, by decide⟩
  norm_num [pass, fractional, advance, drain, Timers.tick, Timers.down]

end ChipEight.TimerClock
