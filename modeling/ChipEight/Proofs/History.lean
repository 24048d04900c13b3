import ChipEight.Vm

/-!
# Histories of a virtual machine

A history is a finite sequence of actions from outside, each of which may fail. A run goes on
after a failure with the state that the failure left behind. A property that every action keeps
holds after every history.
-/
namespace ChipEight

inductive Action where
  | load (program : List UInt8)
  | cycle
  | tick
  | press (key : Digit)
  | release (key : Digit)

namespace Vm

variable {w h : Nat}

/-- Put the keypad in the place of the old one, unless there is none. -/
def replaceKeypad (vm : Vm w h) : Except Fault Keypad → Except Fault (Option Word) × Vm w h
  | .error f => (.error f, vm)
  | .ok keypad => (.ok none, { vm with keypad := keypad })

/-- One action: its result, which for a cycle is the word executed, and the state left
behind. -/
def perform (vm : Vm w h) : Action → Except Fault (Option Word) × Vm w h
  | .load program =>
    match vm.load program with
    | .error f => (.error f, vm)
    | .ok loaded => (.ok none, loaded)
  | .cycle => (vm.cycle.1.map some, vm.cycle.2)
  | .tick => (.ok none, vm.tick)
  | .press key => vm.replaceKeypad (vm.keypad.press key.val)
  | .release key => vm.replaceKeypad (vm.keypad.release key.val)

def run (vm : Vm w h) : List Action → Vm w h
  | [] => vm
  | a :: actions => (vm.perform a).2.run actions

def results (vm : Vm w h) : List Action → List (Except Fault (Option Word))
  | [] => []
  | a :: actions => (vm.perform a).1 :: (vm.perform a).2.results actions

theorem perform_load_of_le (vm : Vm w h) {program : List UInt8}
    (hp : program.length ≤ Memory.programSpace) :
    vm.perform (.load program) = (.ok none, { vm with
      memory := vm.memory.put Memory.programStart program
      pc := UInt16.ofNat Memory.programStart }) := by
  simp [perform, load, Machine.load, Nat.not_lt.mpr hp, Except.map]

theorem perform_load_of_gt (vm : Vm w h) {program : List UInt8}
    (hp : Memory.programSpace < program.length) :
    vm.perform (.load program) =
      (.error (.romTooLarge program.length Memory.programSpace), vm) := by
  simp [perform, load, Machine.load, hp, Except.map]

@[simp] theorem perform_press (vm : Vm w h) (key : Digit) :
    vm.perform (.press key) = (.ok none, { vm with keypad := vm.keypad.put key true }) := by
  simp only [perform, replaceKeypad, Keypad.press_fin]

@[simp] theorem perform_release (vm : Vm w h) (key : Digit) :
    vm.perform (.release key) = (.ok none, { vm with keypad := vm.keypad.put key false }) := by
  simp only [perform, replaceKeypad, Keypad.release_fin]

@[simp] theorem run_nil (vm : Vm w h) : vm.run [] = vm := rfl
@[simp] theorem run_cons (vm : Vm w h) (a : Action) (actions : List Action) :
    vm.run (a :: actions) = (vm.perform a).2.run actions := rfl

/-- What every action keeps, every history keeps. -/
theorem run_keeps {P : Vm w h → Prop} (step : ∀ vm a, P vm → P (vm.perform a).2)
    {vm : Vm w h} (start : P vm) (actions : List Action) : P (vm.run actions) := by
  induction actions generalizing vm with
  | nil => exact start
  | cons a actions ih => exact ih (step vm a start)

end Vm

end ChipEight
