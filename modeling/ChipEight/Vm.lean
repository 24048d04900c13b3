import ChipEight.Display
import ChipEight.Keypad
import ChipEight.Machine
import ChipEight.Op
import ChipEight.Routine
import ChipEight.Xorshift

/-!
# The virtual machine

The virtual machine is the machine with its screen, keypad and random source. A cycle counts
itself, fetches a word, moves the program counter past it, decodes it and executes the
instruction. Each of these is a routine on the machine, and a cycle that fails leaves the machine
as the routines before the failure have made it.
-/
namespace ChipEight

/-- The byte an arithmetic instruction gives, and its flag if it has one. For the
subtractions the flag tells that nothing was borrowed, for the shifts it is the bit
shifted out. -/
def Alu.apply : Alu → UInt8 → UInt8 → UInt8 × Option Bool
  | .copy, _, b => (b, none)
  | .or, a, b => (a ||| b, none)
  | .and, a, b => (a &&& b, none)
  | .xor, a, b => (a ^^^ b, none)
  | .add, a, b => (a + b, some (255 < a.toNat + b.toNat))
  | .sub, a, b => (a - b, some (b ≤ a))
  | .shr, _, b => (b >>> 1, some (b &&& 1 == 1))
  | .rsub, a, b => (b - a, some (a ≤ b))
  | .shl, _, b => (b <<< 1, some (b &&& 0x80 == 0x80))

/-- The flag is written after the result, so register F ends up with the flag. -/
def Registers.alu (r : Registers) (f : Alu) (x y : Digit) : Registers :=
  match f.apply (r.get x) (r.get y) with
  | (v, none) => r.put x v
  | (v, some on) => Registers.flag (r.put x v) on

structure Vm (w h : Nat) extends Machine where
  screen : Display w h
  keypad : Keypad
  random : Xorshift
  cycles : Nat
  deriving DecidableEq

namespace Vm

variable {w h : Nat}

def initial (w h : Nat) (random : Xorshift) : Vm w h :=
  { Machine.initial with
    screen := Display.blank w h, keypad := Keypad.released, random := random, cycles := 0 }

def reg (vm : Vm w h) (i : Digit) : UInt8 := vm.registers.get i

def setReg (vm : Vm w h) (i : Digit) (v : UInt8) : Vm w h :=
  { vm with registers := vm.registers.put i v }

def goto (vm : Vm w h) (address : Nat) : Vm w h := { vm with pc := UInt16.ofNat address }

/-- Pass over the next word if the condition holds. -/
def skipIf (vm : Vm w h) (condition : Bool) : Vm w h :=
  if condition then { vm with pc := vm.pc + 2 } else vm

/-- The key that a register names by its low digit. -/
def namedKey (vm : Vm w h) (x : Digit) : Digit := Digit.of (vm.reg x).toNat

/-- Hundreds, tens and ones. -/
def decimalDigits (v : UInt8) : List UInt8 := [v / 100, v / 10 % 10, v % 10]

def onMachine {α : Type} (f : Machine → Except Fault (α × Machine)) : Routine (Vm w h) α :=
  .attempt fun vm => (f vm.toMachine).map fun p => (p.1, { vm with toMachine := p.2 })

def fetchWord : Routine (Vm w h) Word := onMachine Machine.fetch

def pushAddress (address : Int) : Routine (Vm w h) Unit :=
  onMachine fun m => (m.push address).map fun pushed => ((), pushed)

def popAddress : Routine (Vm w h) UInt16 := onMachine Machine.pop

def readAtIndex (length : Nat) : Routine (Vm w h) (List UInt8) :=
  onMachine fun m => (m.memory.read m.index.toNat length).map fun bytes => (bytes, m)

def storeAtIndex (data : List UInt8) : Routine (Vm w h) Unit :=
  onMachine fun m =>
    (m.memory.store m.index.toNat data).map fun memory => ((), { m with memory := memory })

/-- Draw `n` rows of memory at the point that two registers give, wrapped onto the
screen. Register F tells whether a pixel was turned off. -/
def drawSprite (x y : Digit) (n : Nat) : Routine (Vm w h) Unit := do
  if w = 0 ∨ h = 0 then throw .emptyScreen
  let rows ← readAtIndex n
  modify fun vm =>
    let drawn := vm.screen.draw ((vm.reg x).toNat % w) ((vm.reg y).toNat % h) rows
    { vm with screen := drawn.1, registers := vm.registers.flag drawn.2 }

/-- One instruction, with the program counter already past its word. -/
def exec : Op → Routine (Vm w h) Unit
  | .clear => modify fun vm => { vm with screen := vm.screen.clear }
  | .ret => do
    let address ← popAddress
    modify fun vm => { vm with pc := address }
  | .jump target => modify (·.goto target)
  | .call target => do
    pushAddress (← get).pc.toNat
    modify (·.goto target)
  | .skipByte x nn => modify fun vm => vm.skipIf (vm.reg x == nn)
  | .skipNotByte x nn => modify fun vm => vm.skipIf (vm.reg x != nn)
  | .skipSame x y => modify fun vm => vm.skipIf (vm.reg x == vm.reg y)
  | .setByte x nn => modify (·.setReg x nn)
  | .addByte x nn => modify fun vm => vm.setReg x (vm.reg x + nn)
  | .alu f x y => modify fun vm => { vm with registers := vm.registers.alu f x y }
  | .skipOther x y => modify fun vm => vm.skipIf (vm.reg x != vm.reg y)
  | .setIndex address => modify fun vm => { vm with index := UInt16.ofNat address }
  | .jumpFrom address => modify fun vm => vm.goto (address + (vm.reg (Digit.of 0)).toNat)
  | .random x mask => modify fun vm =>
    let drawn := vm.random.next
    { vm with random := drawn.2 }.setReg x (mask &&& drawn.1)
  | .draw x y n => drawSprite x y n
  | .skipKey x => modify fun vm => vm.skipIf (vm.keypad.get (vm.namedKey x))
  | .skipNoKey x => modify fun vm => vm.skipIf (!vm.keypad.get (vm.namedKey x))
  | .getDelay x => modify fun vm => vm.setReg x (UInt8.ofInt vm.timers.delay)
  | .waitKey x => modify fun vm =>
    match vm.keypad.first with
    | none => { vm with pc := vm.pc - 2 }
    | some k => vm.setReg x (UInt8.ofNat k)
  | .setDelay x => modify fun vm => { vm with timers := { vm.timers with delay := (vm.reg x).toNat } }
  | .setSound x => modify fun vm => { vm with timers := { vm.timers with sound := (vm.reg x).toNat } }
  | .addIndex x => modify fun vm => { vm with index := vm.index + (vm.reg x).toUInt16 }
  | .glyph x => modify fun vm =>
    { vm with index := UInt16.ofNat (Memory.fontBase + 5 * (vm.reg x).toNat) }
  | .decimal x => do storeAtIndex (decimalDigits ((← get).reg x))
  | .store x => do storeAtIndex ((← get).registers.upTo x)
  | .load x => do
    let bytes ← readAtIndex (x.val + 1)
    modify fun vm => { vm with registers := vm.registers.overlay 0 bytes }

def counted (vm : Vm w h) : Vm w h := { vm with cycles := vm.cycles + 1 }

/-- Count, fetch, decode, execute. The result is the word executed. -/
def fetchDecodeExecute : Routine (Vm w h) Word := do
  modify counted
  let address := (← get).pc
  let word ← fetchWord
  match Op.decode word with
  | none => throw (.unknownOpcode word address.toNat)
  | some op =>
    exec op
    return word

/-- One cycle: the word executed or the fault, and the state left behind. -/
def cycle (vm : Vm w h) : Except Fault Word × Vm w h := fetchDecodeExecute.on vm

def load (vm : Vm w h) (program : List UInt8) : Except Fault (Vm w h) :=
  (vm.toMachine.load program).map fun m => { vm with toMachine := m }

def tick (vm : Vm w h) : Vm w h := { vm with toMachine := vm.toMachine.tick }

@[simp] theorem reg_setReg_same (vm : Vm w h) (i : Digit) (v : UInt8) :
    (vm.setReg i v).reg i = v := by
  simp [reg, setReg]

/-- A delay that is a byte is read as it is. -/
theorem reg_getDelay (vm : Vm w h) (x : Digit) (low : 0 ≤ vm.timers.delay)
    (high : vm.timers.delay ≤ 255) :
    ((((exec (.getDelay x)).on vm).2.reg x).toNat : Int) = vm.timers.delay := by
  have reads : (((exec (.getDelay x)).on vm).2.reg x).toNat =
      (vm.timers.delay % 256).toNat % 256 := by
    simp only [exec, Routine.on_modify, reg_setReg_same]
    rfl
  omega

end Vm

end ChipEight
