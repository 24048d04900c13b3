import ChipEight.CallStack
import ChipEight.Memory
import ChipEight.Registers
import ChipEight.Routine
import ChipEight.Timers

/-!
# The machine

The machine proper: memory, registers, the address register, the program counter,
the call stack and the timers.
-/
namespace ChipEight

structure Machine where
  memory : Memory
  registers : Registers
  index : UInt16
  pc : UInt16
  stack : CallStack
  timers : Timers
  deriving DecidableEq

namespace Machine

def initial : Machine := ⟨.initial, .zero, 0, 0, .empty, .zero⟩

/-- Lay a program over the program space and point at its first word. What an earlier
program left behind it stays. -/
def load (m : Machine) (program : List UInt8) : Except Fault Machine :=
  if program.length > Memory.programSpace then
    .error (.romTooLarge program.length Memory.programSpace)
  else .ok { m with
    memory := m.memory.put Memory.programStart program
    pc := UInt16.ofNat Memory.programStart }

/-- Read the word at the program counter and move past it. -/
def fetch (m : Machine) : Except Fault (Word × Machine) :=
  match m.memory.word m.pc with
  | .error f => .error f
  | .ok word => .ok (word, { m with pc := m.pc + 2 })

/-- Write numbers into memory: the answer, and the machine left behind. -/
def write (m : Machine) (address : Int) (data : List Int) : Except Fault Unit × Machine :=
  (Routine.attempt fun m : Machine =>
    (m.memory.write address data).map fun memory => ((), { m with memory := memory })).on m

def push (m : Machine) (address : Int) : Except Fault Machine :=
  (m.stack.push address).map fun s => { m with stack := s }

def pop (m : Machine) : Except Fault (UInt16 × Machine) :=
  m.stack.pop.map fun p => (p.1, { m with stack := p.2 })

def tick (m : Machine) : Machine := { m with timers := m.timers.tick }

end Machine

end ChipEight
