/-!
# Timers

The delay and the sound timer are two counters. A tick takes one off each counter that is above
zero and leaves a counter at or below zero where it is. The buzzer sounds as long as the sound
timer is above zero.
-/
namespace ChipEight

structure Timers where
  delay : Int
  sound : Int
  deriving DecidableEq, Repr

namespace Timers

def zero : Timers := ⟨0, 0⟩

def down (c : Int) : Int := if 0 < c then c - 1 else c

def tick (t : Timers) : Timers := ⟨down t.delay, down t.sound⟩

def active (t : Timers) : Bool := 0 < t.sound

/-- What a tick reports: both counters before it, unless both have run out. -/
def report (t : Timers) : List String :=
  if 0 < t.delay ∨ 0 < t.sound then
    ["Delay: " ++ toString t.delay, "Sound: " ++ toString t.sound]
  else []

/-- What `n` ticks in a row report. Timers that have run out stay silent. -/
def reports : Nat → Timers → List String
  | 0, _ => []
  | n + 1, t => if 0 < t.delay ∨ 0 < t.sound then t.report ++ reports n t.tick else []

def ticks : Nat → Timers → Timers
  | 0, t => t
  | n + 1, t => ticks n t.tick

def left (n : Nat) (c : Int) : Int := if c ≤ 0 then c else if c ≤ n then 0 else c - n

theorem left_zero (c : Int) : left 0 c = c := by
  simp only [left]
  split
  next => rfl
  next => split <;> omega

theorem left_down (n : Nat) (c : Int) : left n (down c) = left (n + 1) c := by
  by_cases h : 0 < c
  · have hc : ¬ c ≤ 0 := by omega
    simp only [down, h, ↓reduceIte, left, hc, Int.natCast_add, Int.cast_ofNat_Int]
    split
    next => rw [if_pos (by omega)]; omega
    next =>
      split
      next => rw [if_pos (by omega)]
      next => rw [if_neg (by omega)]; omega
  · have hc : c ≤ 0 := by omega
    simp only [down, h, ↓reduceIte, left, hc]

/-- Some ticks in a row, counter by counter. -/
theorem ticks_eq (n : Nat) (t : Timers) : ticks n t = ⟨left n t.delay, left n t.sound⟩ := by
  induction n generalizing t with
  | zero => simp only [ticks, left_zero]
  | succ n ih => simp only [ticks, ih, tick, left_down]

theorem ticks_add (m n : Nat) (t : Timers) : ticks (m + n) t = ticks n (ticks m t) := by
  induction m generalizing t with
  | zero => rw [Nat.zero_add, ticks]
  | succ m ih => rw [Nat.succ_add, ticks, ticks, ih]

theorem report_eq_nil {t : Timers} (h : ¬(0 < t.delay ∨ 0 < t.sound)) : t.report = [] := by
  simp [report, h]

/-- One more tick adds its own report in front. -/
theorem reports_succ (n : Nat) (t : Timers) : reports (n + 1) t = t.report ++ reports n t.tick := by
  by_cases h : 0 < t.delay ∨ 0 < t.sound
  · simp [reports, h]
  · have hd : down t.delay = t.delay := if_neg (by omega)
    have hs : down t.sound = t.sound := if_neg (by omega)
    rw [report_eq_nil h]
    cases n <;> simp [reports, h, tick, hd, hs]

end Timers

end ChipEight
