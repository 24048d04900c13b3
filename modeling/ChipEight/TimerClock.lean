import ChipEight.Rate
import ChipEight.Timers

/-!
# The timer clock

A clock makes whole timer ticks out of elapsed time. The clock keeps the time that has not yet
made a full period and carries it into the next call. Nothing is assumed of the numbers that
measure time beyond an addition, a subtraction and a comparison, so the same loop runs on doubles
and on exact fractions.
-/
namespace ChipEight

structure TimerClock (τ : Type) where
  period : τ
  elapsed : τ

structure Advance (τ : Type) where
  ticks : Nat
  elapsed : τ
  timers : Timers

namespace TimerClock

variable {τ : Type} [Add τ] [Sub τ] [LE τ] [DecidableLE τ]

/-- Take full periods off the elapsed time, one tick each, until less than one is
left. `fuel` bounds the number of tests, and `none` says that it was too small. -/
def drain (period : τ) : Nat → Advance τ → Option (Advance τ)
  | 0, _ => none
  | fuel + 1, a =>
    if period ≤ a.elapsed then
      drain period fuel ⟨a.ticks + 1, a.elapsed - period, a.timers.tick⟩
    else some a

def advance (fuel : Nat) (c : TimerClock τ) (dt : τ) (t : Timers) : Option (Advance τ) :=
  drain c.period fuel ⟨0, c.elapsed + dt, t⟩

def ofRate (rate : Int) : Except Fault (TimerClock Float) :=
  match Rate.period rate with
  | .error f => .error f
  | .ok p => .ok ⟨p, 0.0⟩

/-- As many tests as there are doubles. A call that comes to an end never meets the same time
twice, so they are enough for it. -/
def patience : Nat := 0x10000000000000000

end TimerClock

end ChipEight
