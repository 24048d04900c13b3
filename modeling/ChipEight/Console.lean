import ChipEight.Narration
import ChipEight.TimerClock
import ChipEight.Turn

/-!
# The console

A console is a virtual machine with its timer clock and the log switch. Logging decides which
lines are shown and has no other effect.
-/
namespace ChipEight

structure Console (w h : Nat) where
  vm : Vm w h
  clock : TimerClock Float
  logging : Bool

namespace Console

variable {w h : Nat}

def notes (texts : List String) : List Line := texts.map .note

def cycle (c : Console w h) : Turn (Console w h) Word :=
  let ran := c.vm.cycle
  ⟨ran.1, { c with vm := ran.2 }, notes (Narration.ofCycle c.vm ran.1 ran.2).toList, []⟩

/-- A cycle that was run: where, and which word. -/
structure Executed where
  address : UInt16
  word : Word

/-- Cycles run one after the other, and the one that failed, if one did. -/
structure Run (w h : Nat) where
  executed : List Executed
  failure : Option (UInt16 × Fault)
  state : Console w h
  lines : List Line

/-- Up to `n` cycles; the first that fails is the last. -/
def run : Nat → Console w h → Run w h
  | 0, c => ⟨[], none, c, []⟩
  | n + 1, c =>
    let t := c.cycle
    match t.result with
    | .error f => ⟨[], some (c.vm.pc, f), t.state, t.lines⟩
    | .ok word =>
      let rest := run n t.state
      ⟨⟨c.vm.pc, word⟩ :: rest.executed, rest.failure, rest.state, t.lines ++ rest.lines⟩

/-- One tick of the timers, past the clock. -/
def tick (c : Console w h) : Turn (Console w h) Unit :=
  ⟨.ok (), { c with vm := c.vm.tick }, notes c.vm.timers.report, []⟩

/-- Let time pass. The result is the number of ticks. -/
def advance (c : Console w h) (dt : Float) : Turn (Console w h) Nat :=
  match c.clock.advance TimerClock.patience dt c.vm.timers with
  | none => ⟨.error .endlessTicks, c, [], []⟩
  | some a =>
    ⟨.ok a.ticks,
      { c with
        vm := { c.vm with timers := a.timers }
        clock := { c.clock with elapsed := a.elapsed } },
      notes (Timers.reports a.ticks c.vm.timers), []⟩

/-- Seed the random source from a clock reading. The result is its new state. -/
def seedFromClock (c : Console w h) (now : Float) : Turn (Console w h) UInt32 :=
  match Xorshift.ofClock now with
  | .error f => ⟨.error f, c, [], []⟩
  | .ok r => ⟨.ok r.state, { c with vm := { c.vm with random := r } },
      notes (Xorshift.clockReport now), []⟩

def toggleLogging (c : Console w h) : Console w h := { c with logging := !c.logging }

end Console

end ChipEight
