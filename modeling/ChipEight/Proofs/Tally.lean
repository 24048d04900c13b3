import Mathlib.Data.Fintype.Card
import ChipEight.Console
import ChipEight.Proofs.Cadence

/-!
# What the timer clock counts

The loop is run once more with a record of the timers that it ticks; the record is all that is
added. So the count that a call gives back can be held against the calls for a tick that were
made, and against the lines that these have printed. Nothing is assumed of the numbers that
measure time: addition, subtraction and comparison may be any operations, so all of it holds of
doubles, whatever they round and whatever is not a number. A call that comes to an end meets no
time twice, so on doubles it makes fewer ticks than there are doubles, and the bound on its tests
cuts off none that would have ended.
-/
namespace ChipEight

theorem Timers.reports_eq (n : Nat) (t : Timers) :
    reports n t = ((List.range n).map (t.ticks ·)).flatMap report := by
  induction n generalizing t with
  | zero => rfl
  | succ n ih =>
    rw [reports_succ, ih, List.range_succ_eq_map, List.map_cons, List.flatMap_cons, List.map_map]
    rfl

namespace TimerClock

section Loop

variable {τ : Type} [Sub τ] [LE τ] [DecidableLE τ] {period : τ}

/-- The loop with a record of the timers that it has ticked, in order. -/
def drainRecorded (period : τ) : Nat → List Timers → Advance τ → Option (Advance τ × List Timers)
  | 0, _, _ => none
  | fuel + 1, calls, a =>
    if period ≤ a.elapsed then
      drainRecorded period fuel (calls ++ [a.timers])
        ⟨a.ticks + 1, a.elapsed - period, a.timers.tick⟩
    else some (a, calls)

/-- The record changes nothing. -/
theorem map_fst_drainRecorded (fuel : Nat) (calls : List Timers) (a : Advance τ) :
    (drainRecorded period fuel calls a).map Prod.fst = drain period fuel a := by
  induction fuel generalizing calls a with
  | zero => rfl
  | succ fuel ih =>
    by_cases hp : period ≤ a.elapsed
    · rw [drainRecorded, drain, if_pos hp, if_pos hp, ih]
    · rw [drainRecorded, drain, if_neg hp, if_neg hp]
      rfl

/-- Every turn of the loop counts one and ticks the timers as the turns before have left them. -/
theorem calls_of_drainRecorded {fuel : Nat} {calls calls' : List Timers} {a b : Advance τ}
    (returns : drainRecorded period fuel calls a = some (b, calls')) :
    ∃ n, b.ticks = a.ticks + n ∧ calls' = calls ++ (List.range n).map (a.timers.ticks ·) := by
  induction fuel generalizing calls a with
  | zero => cases returns
  | succ fuel ih =>
    by_cases hp : period ≤ a.elapsed
    · rw [drainRecorded, if_pos hp] at returns
      obtain ⟨n, ticks, called⟩ := ih returns
      refine ⟨n + 1, ?_, ?_⟩
      · simp only at ticks
        omega
      · rw [called, List.append_assoc, List.range_succ_eq_map, List.map_cons, List.map_map]
        rfl
    · rw [drainRecorded, if_neg hp] at returns
      cases returns
      exact ⟨0, rfl, (List.append_nil _).symm⟩

end Loop

section Finite

variable {τ : Type} [Sub τ] {period : τ}

theorem less_add (m n : Nat) (e : τ) :
    less period (m + n) e = less period n (less period m e) := by
  induction m generalizing e with
  | zero => rw [Nat.zero_add, less]
  | succ m ih => rw [Nat.succ_add, less, less, ih]

variable [LE τ] {a b : Advance τ} {n : Nat}

/-- A loop that comes to an end meets no time twice: from a time that was met before, it would
come to that time again and again. -/
theorem Drains.less_ne (drains : Drains period n a b) {i j : Nat} (hij : i < j) (hj : j ≤ n) :
    less period i a.elapsed ≠ less period j a.elapsed := by
  intro same
  have last : less period (i + (n - j)) a.elapsed = b.elapsed := by
    rw [less_add, same, ← less_add, Nat.add_sub_of_le hj, drains.elapsed]
  have due := drains.due (i + (n - j)) (by omega)
  rw [last] at due
  exact drains.rest due

/-- So it makes fewer ticks than there are numbers. -/
theorem Drains.lt_of_injective {size : Nat} {f : τ → Fin size} (inj : Function.Injective f)
    (drains : Drains period n a b) : n < size := by
  have distinct : Function.Injective fun k : Fin (n + 1) => f (less period k a.elapsed) := by
    intro i j same
    rcases Nat.lt_trichotomy i.val j.val with lt | eq | gt
    · exact absurd (inj same) (drains.less_ne lt (Nat.le_of_lt_succ j.isLt))
    · exact Fin.ext eq
    · exact absurd (inj same).symm (drains.less_ne gt (Nat.le_of_lt_succ i.isLt))
  have count := Fintype.card_le_of_injective _ distinct
  rwa [Fintype.card_fin, Fintype.card_fin] at count

end Finite

variable {τ : Type} [Add τ] [Sub τ] [LE τ] [DecidableLE τ]

def advanceRecorded (fuel : Nat) (c : TimerClock τ) (dt : τ) (t : Timers) :
    Option (Advance τ × List Timers) :=
  drainRecorded c.period fuel [] ⟨0, c.elapsed + dt, t⟩

theorem map_fst_advanceRecorded (fuel : Nat) (c : TimerClock τ) (dt : τ) (t : Timers) :
    (c.advanceRecorded fuel dt t).map Prod.fst = c.advance fuel dt t :=
  map_fst_drainRecorded ..

section Call

variable {fuel : Nat} {c : TimerClock τ} {dt : τ} {t : Timers} {a : Advance τ} {calls : List Timers}

theorem advance_of_recorded (returns : c.advanceRecorded fuel dt t = some (a, calls)) :
    c.advance fuel dt t = some a := by
  rw [← map_fst_advanceRecorded, returns]
  rfl

/-- The timers ticked in a call are those before it, after each number of ticks in turn. -/
theorem calls_of_recorded (returns : c.advanceRecorded fuel dt t = some (a, calls)) :
    calls = (List.range a.ticks).map (t.ticks ·) := by
  obtain ⟨n, ticks, called⟩ := calls_of_drainRecorded returns
  rw [Nat.zero_add] at ticks
  rw [called, ticks, List.nil_append]

end Call

/-- A call comes to an end exactly if a time is reached that is less than a period. -/
theorem advance_returns_iff (c : TimerClock τ) (dt : τ) (t : Timers) :
    (∃ fuel a, c.advance fuel dt t = some a) ↔
      ∃ n, ¬ c.period ≤ less c.period n (c.elapsed + dt) := by
  constructor
  · rintro ⟨fuel, a, returns⟩
    obtain ⟨n, -, drains⟩ := drain_eq_some_iff.mp returns
    refine ⟨n, ?_⟩
    rw [← drains.elapsed]
    exact drains.rest
  · intro ends
    -- The loop stops at the first such time.
    let n := Nat.find ends
    let a : Advance τ := ⟨n, less c.period n (c.elapsed + dt), t.ticks n⟩
    refine ⟨n + 1, a, drain_eq_some_iff.mpr ⟨n, Nat.lt_succ_self n, ?_⟩⟩
    exact
      { ticks := (Nat.zero_add n).symm
        elapsed := rfl
        timers := rfl
        due := fun k hk => not_not.mp (Nat.find_min ends hk)
        rest := Nat.find_spec ends }

/-- A double is its bits. -/
theorem toBits_injective : Function.Injective fun x : Float => x.toBits.toFin := by
  rintro ⟨⟨bits, _⟩⟩ ⟨⟨bits', _⟩⟩ same
  cases UInt64.toFin_inj.mp same
  rfl

/-- A call on doubles that comes to an end does so within the tests that it is given. -/
theorem advance_patience {c : TimerClock Float} {dt : Float} {t : Timers} :
    c.advance patience dt t = none ↔ ∀ fuel, c.advance fuel dt t = none := by
  refine ⟨fun endless fuel => ?_, fun endless => endless patience⟩
  cases returns : c.advance fuel dt t with
  | none => rfl
  | some a =>
    obtain ⟨n, -, drains⟩ := drain_eq_some_iff.mp returns
    have few : n < patience := drains.lt_of_injective toBits_injective
    have returns : c.advance patience dt t = some a := drain_eq_some_iff.mpr ⟨n, few, drains⟩
    rw [endless] at returns
    cases returns

/-- What a call of the clock has done when it comes to an end, given the timers that it has
ticked. -/
structure Tallied (c : TimerClock τ) (dt : τ) (start : Timers) (a : Advance τ)
    (calls : List Timers) : Prop where
  count : a.ticks = calls.length
  calls : ∀ k < a.ticks, calls[k]? = some (start.ticks k)
  timers : a.timers = start.ticks a.ticks
  delay : CountedDown start.delay a.ticks a.timers.delay
  sound : CountedDown start.sound a.ticks a.timers.sound
  elapsed : a.elapsed = less c.period a.ticks (c.elapsed + dt)
  due : ∀ k < a.ticks, c.period ≤ less c.period k (c.elapsed + dt)
  rest : ¬ c.period ≤ a.elapsed

/-- Whatever the numbers are, the count that a call gives back is that of the ticks it has made,
one for each period that it has taken off the time, and it has taken off a period exactly as
long as there was one. It comes to an end exactly if there is an end to that. -/
theorem ticks_tallied (c : TimerClock τ) (dt : τ) (start : Timers) :
    (∀ fuel, (c.advanceRecorded fuel dt start).map Prod.fst = c.advance fuel dt start) ∧
      (∀ fuel a calls, c.advanceRecorded fuel dt start = some (a, calls) →
        c.Tallied dt start a calls) ∧
      ((∃ fuel a, c.advance fuel dt start = some a) ↔
        ∃ n, ¬ c.period ≤ less c.period n (c.elapsed + dt)) := by
  refine ⟨fun fuel => map_fst_advanceRecorded fuel c dt start, ?_, advance_returns_iff c dt start⟩
  intro fuel a calls returns
  have called := calls_of_recorded returns
  obtain ⟨n, -, drains⟩ := drain_eq_some_iff.mp (advance_of_recorded returns)
  have ticks : a.ticks = n := drains.ticks.trans (Nat.zero_add n)
  have timers : a.timers = start.ticks a.ticks := by
    rw [ticks]
    exact drains.timers
  rw [← ticks] at drains
  constructor
  case count => rw [called, List.length_map, List.length_range]
  case calls =>
    intro k hk
    rw [called, List.getElem?_map, List.getElem?_range hk]
    rfl
  case timers => exact timers
  case delay =>
    rw [timers, Timers.ticks_eq]
    exact countedDown_left ..
  case sound =>
    rw [timers, Timers.ticks_eq]
    exact countedDown_left ..
  case elapsed => exact drains.elapsed
  case due => exact drains.due
  case rest => exact drains.rest

def sixtieths : TimerClock Float := ⟨1.0 / 60.0, 0.0⟩

/-- Six ticks fit into a tenth of a second and a little more. -/
theorem sixTicks_tallied :
    ∃ a calls, sixtieths.advanceRecorded 7 0.11 ⟨100, 3⟩ = some (a, calls) ∧
      a.ticks = 6 ∧ calls.length = 6 ∧ a.timers = ⟨94, 0⟩ := by
  obtain ⟨-, tallied, -⟩ := ticks_tallied sixtieths 0.11 ⟨100, 3⟩
  obtain ⟨⟨a, calls⟩, returns, six⟩ :
      ∃ r, sixtieths.advanceRecorded 7 0.11 ⟨100, 3⟩ = some r ∧ r.1.ticks = 6 :=
    ⟨_, rfl, by decide +kernel⟩
  have t := tallied 7 a calls returns
  refine ⟨a, calls, returns, six, t.count.symm.trans six, ?_⟩
  rw [t.timers, show a.ticks = 6 from six]
  decide

/-- A sound timer that is set below zero is not lifted to zero by a tick. -/
theorem negative_sound_kept :
    ∃ a, (⟨1.0, 0.0⟩ : TimerClock Float).advance 2 1.0 ⟨0, -3⟩ = some a ∧ a.ticks = 1 ∧
      a.timers.sound = -3 ∧ a.timers.sound ≠ max 0 ((-3 : Int) - a.ticks) :=
  ⟨_, rfl, by decide +kernel, by decide +kernel, by decide +kernel⟩

end TimerClock

/-- A console answers with the number of ticks that were made, and notes what each of them has to
report. -/
theorem Console.advance_tells {w h : Nat} {c : Console w h} {dt : Float}
    {a : Advance Float} {calls : List Timers}
    (returns : c.clock.advanceRecorded TimerClock.patience dt c.vm.timers = some (a, calls)) :
    (c.advance dt).result = .ok calls.length ∧
      (c.advance dt).lines = notes (calls.flatMap Timers.report) := by
  have called := TimerClock.calls_of_recorded returns
  simp only [advance, TimerClock.advance_of_recorded returns, called, List.length_map,
    List.length_range, Timers.reports_eq, and_self]

/-- A console gives a call up exactly if it would never come to an end. -/
theorem Console.advance_endless_iff {w h : Nat} {c : Console w h} {dt : Float} :
    (c.advance dt).result = .error .endlessTicks ↔
      ∀ fuel, c.clock.advance fuel dt c.vm.timers = none := by
  rw [← TimerClock.advance_patience]
  cases returns : c.clock.advance TimerClock.patience dt c.vm.timers with
  | none => simp only [advance, returns]
  | some a => simp only [advance, returns, reduceCtorEq]

end ChipEight
