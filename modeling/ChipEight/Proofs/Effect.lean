import ChipEight.Proofs.Encoding
import ChipEight.Vm

/-!
# What an instruction does, part by part

For each part of the virtual machine a table gives the part after an instruction, and one more
table gives the fault with which an instruction is refused. The main statement says that
executing an instruction is nothing but these tables: a refused instruction leaves the machine as
it was, and any other leaves the machine that the tables describe. A cycle then ends in one of
four ways.
-/
namespace ChipEight

namespace Vm

variable {w h : Nat}

/-- The bytes from the address register on. -/
def block (vm : Vm w h) (n : Nat) : List UInt8 :=
  (vm.memory.bytes.toArray.extract vm.index.toNat (vm.index.toNat + n)).toList

def drawn (vm : Vm w h) (x y n : Digit) : Display w h × Bool :=
  vm.screen.draw ((vm.reg x).toNat % w) ((vm.reg y).toNat % h) (vm.block n)

def skips (vm : Vm w h) : Op → Bool
  | .skipByte x nn => vm.reg x == nn
  | .skipNotByte x nn => vm.reg x != nn
  | .skipSame x y => vm.reg x == vm.reg y
  | .skipOther x y => vm.reg x != vm.reg y
  | .skipKey x => vm.keypad.get (vm.namedKey x)
  | .skipNoKey x => !vm.keypad.get (vm.namedKey x)
  | _ => false

def memoryAfter (vm : Vm w h) : Op → Memory
  | .decimal x => vm.memory.put vm.index.toNat (decimalDigits (vm.reg x))
  | .store x => vm.memory.put vm.index.toNat (vm.registers.upTo x)
  | _ => vm.memory

def registersAfter (vm : Vm w h) : Op → Registers
  | .setByte x nn => vm.registers.put x nn
  | .addByte x nn => vm.registers.put x (vm.reg x + nn)
  | .alu f x y => vm.registers.alu f x y
  | .random x mask => vm.registers.put x (mask &&& vm.random.next.1)
  | .draw x y n => vm.registers.flag (vm.drawn x y n).2
  | .getDelay x => vm.registers.put x (UInt8.ofInt vm.timers.delay)
  | .waitKey x =>
    match vm.keypad.first with
    | none => vm.registers
    | some k => vm.registers.put x (UInt8.ofNat k)
  | .load x => vm.registers.overlay 0 (vm.block (x.val + 1))
  | _ => vm.registers

def indexAfter (vm : Vm w h) : Op → UInt16
  | .setIndex address => UInt16.ofNat address
  | .addIndex x => vm.index + (vm.reg x).toUInt16
  | .glyph x => UInt16.ofNat (Memory.fontBase + 5 * (vm.reg x).toNat)
  | _ => vm.index

def pcAfter (vm : Vm w h) : Op → UInt16
  | .ret => vm.stack.top
  | .jump target | .call target => UInt16.ofNat target
  | .jumpFrom address => UInt16.ofNat (address + (vm.reg (Digit.of 0)).toNat)
  | .waitKey _ => if vm.keypad.first = none then vm.pc - 2 else vm.pc
  | op => if vm.skips op then vm.pc + 2 else vm.pc

def stackAfter (vm : Vm w h) : Op → CallStack
  | .call _ => vm.stack.pushed vm.pc
  | .ret => vm.stack.popped
  | _ => vm.stack

def timersAfter (vm : Vm w h) : Op → Timers
  | .setDelay x => { vm.timers with delay := (vm.reg x).toNat }
  | .setSound x => { vm.timers with sound := (vm.reg x).toNat }
  | _ => vm.timers

def screenAfter (vm : Vm w h) : Op → Display w h
  | .clear => vm.screen.clear
  | .draw x y n => (vm.drawn x y n).1
  | _ => vm.screen

def randomAfter (vm : Vm w h) : Op → Xorshift
  | .random _ _ => vm.random.next.2
  | _ => vm.random

def after (vm : Vm w h) (op : Op) : Vm w h where
  memory := vm.memoryAfter op
  registers := vm.registersAfter op
  index := vm.indexAfter op
  pc := vm.pcAfter op
  stack := vm.stackAfter op
  timers := vm.timersAfter op
  screen := vm.screenAfter op
  keypad := vm.keypad
  random := vm.randomAfter op
  cycles := vm.cycles

/-- The fault of a block of `n` bytes that does not end within memory. -/
def beyond (vm : Vm w h) (n : Nat) : Option Fault :=
  if 4096 < vm.index.toNat + n then some (.outOfBounds vm.index.toNat n) else none

/-- The fault with which an instruction is refused, if it is. -/
def refusal (vm : Vm w h) : Op → Option Fault
  | .ret => if vm.stack.depth = 0 then some .stackUnderflow else none
  | .call _ => if vm.stack.depth = 32 then some .stackOverflow else none
  | .draw _ _ n => if w = 0 ∨ h = 0 then some .emptyScreen else vm.beyond n
  | .decimal _ => vm.beyond 3
  | .store x | .load x => vm.beyond (x.val + 1)
  | _ => none

theorem on_readAtIndex (vm : Vm w h) (n : Nat) :
    (readAtIndex n).on vm = match vm.beyond n with
      | some f => (.error f, vm)
      | none => (.ok (vm.block n), vm) := by
  by_cases hb : 4096 < vm.index.toNat + n
  · simp [readAtIndex, onMachine, beyond, hb, Memory.read, Memory.check_of_gt hb, Except.map]
  · simp [readAtIndex, onMachine, beyond, hb, block, Memory.read,
      Memory.check_of_le (Nat.le_of_not_lt hb), Memory.stop_natCast, Except.map]

/-- A store at the address register is refused exactly beyond memory, and else is an overlay. -/
theorem on_storeAtIndex (vm : Vm w h) (data : List UInt8) :
    (storeAtIndex data).on vm = match vm.beyond data.length with
      | some f => (.error f, vm)
      | none => (.ok (), { vm with memory := vm.memory.put vm.index.toNat data }) := by
  by_cases hb : 4096 < vm.index.toNat + data.length
  · simp [storeAtIndex, onMachine, beyond, hb, Memory.store, Memory.check_of_gt hb, Except.map]
  · simp [storeAtIndex, onMachine, beyond, hb, Memory.store,
      Memory.check_of_le (Nat.le_of_not_lt hb), Except.map]

theorem skipIf_eq (vm : Vm w h) (c : Bool) :
    vm.skipIf c = { vm with pc := if c then vm.pc + 2 else vm.pc } := by
  cases c <;> rfl

/-- Executing an instruction is what the tables say. -/
theorem on_exec (vm : Vm w h) (op : Op) :
    (exec op).on vm = match vm.refusal op with
      | some f => (.error f, vm)
      | none => (.ok (), vm.after op) := by
  cases op with
  | ret =>
    by_cases hd : vm.stack.depth = 0
    · simp [exec, popAddress, onMachine, Machine.pop, refusal, hd, CallStack.pop_of_empty hd,
        Except.map]
    · simp [exec, popAddress, onMachine, Machine.pop, refusal, hd,
        CallStack.pop_of_pos (Nat.pos_of_ne_zero hd), Except.map]
      rfl
  | call target =>
    by_cases hd : vm.stack.depth = 32
    · simp [exec, pushAddress, onMachine, Machine.push, refusal, hd, CallStack.push_of_full hd,
        Except.map]
    · have hl := vm.stack.depth_le
      simp [exec, pushAddress, onMachine, Machine.push, refusal, hd,
        CallStack.push_of_lt (show vm.stack.depth < 32 by omega), Except.map]
      rfl
  | draw x y n =>
    by_cases hs : w = 0 ∨ h = 0
    · simp [exec, drawSprite, refusal, hs]
    · simp only [exec, drawSprite, refusal, hs, ↓reduceIte, Routine.on_bind, on_readAtIndex]
      cases vm.beyond n with
      | some f => rfl
      | none => rfl
  | decimal x =>
    simp only [exec, Routine.on_bind, Routine.on_get, on_storeAtIndex]
    rfl
  | store x =>
    simp only [exec, Routine.on_bind, Routine.on_get, on_storeAtIndex, Registers.length_upTo]
    rfl
  | load x =>
    simp only [exec, refusal, Routine.on_bind, on_readAtIndex]
    cases vm.beyond (x.val + 1) with
    | some f => rfl
    | none => rfl
  | waitKey x =>
    simp only [exec, refusal, Routine.on_modify, after, registersAfter, pcAfter]
    cases vm.keypad.first with
    | none => rfl
    | some k => rfl
  | skipByte _ _ | skipNotByte _ _ | skipSame _ _ | skipOther _ _ | skipKey _ | skipNoKey _ =>
    simp only [exec, Routine.on_modify, skipIf_eq]
    rfl
  | _ => rfl

theorem on_exec_of_accepted {vm : Vm w h} {op : Op} (accepts : vm.refusal op = none) :
    (exec op).on vm = (.ok (), vm.after op) := by
  rw [on_exec, accepts]

theorem pcAfter_of_skips {vm : Vm w h} {op : Op} (skips : vm.skips op = true) :
    vm.pcAfter op = vm.pc + 2 := by
  cases op with
  | skipByte _ _ | skipNotByte _ _ | skipSame _ _ | skipOther _ _ | skipKey _ | skipNoKey _ =>
    exact if_pos skips
  | _ => cases skips

def At (vm : Vm w h) (word : Word) : Prop :=
  ∃ hp : vm.pc.toNat + 2 ≤ 4096,
    word = ⟨vm.memory.bytes[vm.pc.toNat], vm.memory.bytes[vm.pc.toNat + 1]⟩

theorem at_iff {vm : Vm w h} {word : Word} : vm.At word ↔ vm.memory.word vm.pc = .ok word := by
  constructor
  · rintro ⟨hp, rfl⟩
    exact vm.memory.word_of_le hp
  · intro hw
    have hp := Memory.le_of_word hw
    rw [vm.memory.word_of_le hp] at hw
    cases hw
    exact ⟨hp, rfl⟩

theorem At.unique {vm : Vm w h} {word other : Word} (ha : vm.At word) (ho : vm.At other) :
    word = other := by
  obtain ⟨hp, rfl⟩ := ha
  obtain ⟨_, rfl⟩ := ho
  rfl

/-- The machine once a cycle has counted itself and fetched its word. -/
def fetched (vm : Vm w h) : Vm w h := { vm with pc := vm.pc + 2, cycles := vm.cycles + 1 }

theorem fetch_of_gt {vm : Vm w h} (hb : 4096 < vm.pc.toNat + 2) :
    vm.fetch = .error (.outOfBounds vm.pc.toNat 2) := by
  simp only [Machine.fetch, vm.memory.word_of_gt hb]

theorem fetch_of_word {vm : Vm w h} {word : Word} (hw : vm.memory.word vm.pc = .ok word) :
    vm.fetch = .ok (word, vm.fetched.toMachine) := by
  simp only [Machine.fetch, hw]
  rfl

theorem fetchWord_of_word {vm : Vm w h} {word : Word} (hw : vm.memory.word vm.pc = .ok word) :
    fetchWord.on vm = (.ok word, { vm with pc := vm.pc + 2 }) := by
  simp only [fetchWord, onMachine, Routine.on_attempt, fetch_of_word hw, Except.map]
  rfl

theorem fetchWord_of_gt {vm : Vm w h} (hb : 4096 < vm.pc.toNat + 2) :
    fetchWord.on vm = (.error (.outOfBounds vm.pc.toNat 2), vm) := by
  simp only [fetchWord, onMachine, Routine.on_attempt, fetch_of_gt hb, Except.map]

theorem fetchWord_counted {vm : Vm w h} {word : Word} (hw : vm.memory.word vm.pc = .ok word) :
    fetchWord.on vm.counted = (.ok word, vm.fetched) :=
  fetchWord_of_word hw

/-- A fetch moves the program counter on without a wrap. -/
theorem fetched_pc {vm : Vm w h} {word : Word} (hw : vm.memory.word vm.pc = .ok word) :
    vm.fetched.pc.toNat = vm.pc.toNat + 2 := by
  have hb := Memory.le_of_word hw
  change (vm.pc + 2).toNat = _
  rw [UInt16.toNat_add]
  exact Nat.mod_eq_of_lt (by simp only [UInt16.reduceToNat]; omega)

inductive Outcome (vm : Vm w h) (r : Except Fault Word × Vm w h) : Prop
  | stuck (beyond : 4096 < vm.pc.toNat + 2)
      (ends : r = (.error (.outOfBounds vm.pc.toNat 2), vm.counted))
  | unknown (word : Word) (reads : vm.memory.word vm.pc = .ok word) (decodes : Op.decode word = none)
      (ends : r = (.error (.unknownOpcode word vm.pc.toNat), vm.fetched))
  | refused (word : Word) (op : Op) (f : Fault) (reads : vm.memory.word vm.pc = .ok word)
      (decodes : Op.decode word = some op) (refuses : vm.fetched.refusal op = some f)
      (ends : r = (.error f, vm.fetched))
  | done (word : Word) (op : Op) (reads : vm.memory.word vm.pc = .ok word)
      (decodes : Op.decode word = some op) (accepts : vm.fetched.refusal op = none)
      (ends : r = (.ok word, vm.fetched.after op))

theorem cycle_of_gt {vm : Vm w h} (hb : 4096 < vm.pc.toNat + 2) :
    vm.cycle = (.error (.outOfBounds vm.pc.toNat 2), vm.counted) := by
  have hf : fetchWord.on vm.counted = (.error (.outOfBounds vm.pc.toNat 2), vm.counted) :=
    fetchWord_of_gt hb
  simp [cycle, fetchDecodeExecute, hf]

theorem cycle_of_unknown {vm : Vm w h} {word : Word} (hw : vm.memory.word vm.pc = .ok word)
    (hd : Op.decode word = none) :
    vm.cycle = (.error (.unknownOpcode word vm.pc.toNat), vm.fetched) := by
  simp only [cycle, fetchDecodeExecute, Routine.on_bind, Routine.on_modify, Routine.on_get,
    fetchWord_counted hw, hd]
  rfl

theorem cycle_of_refused {vm : Vm w h} {word : Word} {op : Op} {f : Fault}
    (hw : vm.memory.word vm.pc = .ok word) (hd : Op.decode word = some op)
    (hr : vm.fetched.refusal op = some f) : vm.cycle = (.error f, vm.fetched) := by
  simp only [cycle, fetchDecodeExecute, Routine.on_bind, Routine.on_modify, Routine.on_get,
    fetchWord_counted hw, hd, on_exec, hr]

theorem cycle_of_accepted {vm : Vm w h} {word : Word} {op : Op}
    (hw : vm.memory.word vm.pc = .ok word) (hd : Op.decode word = some op)
    (hr : vm.fetched.refusal op = none) : vm.cycle = (.ok word, vm.fetched.after op) := by
  simp only [cycle, fetchDecodeExecute, Routine.on_bind, Routine.on_modify, Routine.on_get,
    fetchWord_counted hw, hd, on_exec_of_accepted hr, Routine.on_pure]

/-- Every cycle ends in one of the four ways. -/
theorem cycle_outcome (vm : Vm w h) : Outcome vm vm.cycle := by
  by_cases hb : 4096 < vm.pc.toNat + 2
  · exact .stuck hb (cycle_of_gt hb)
  · obtain ⟨word, hw⟩ : ∃ word, vm.memory.word vm.pc = .ok word :=
      ⟨_, vm.memory.word_of_le (Nat.le_of_not_lt hb)⟩
    cases hd : Op.decode word with
    | none => exact .unknown word hw hd (cycle_of_unknown hw hd)
    | some op =>
      cases hr : vm.fetched.refusal op with
      | none => exact .done word op hw hd hr (cycle_of_accepted hw hd hr)
      | some f => exact .refused word op f hw hd hr (cycle_of_refused hw hd hr)

/-- A cycle counts itself, whatever comes of it. -/
@[simp] theorem cycles_cycle (vm : Vm w h) : vm.cycle.2.cycles = vm.cycles + 1 := by
  cases vm.cycle_outcome with
  | stuck _ ends => rw [ends]; rfl
  | unknown _ _ _ ends => rw [ends]; rfl
  | refused _ _ _ _ _ _ ends => rw [ends]; rfl
  | done _ _ _ _ _ ends => rw [ends]; rfl

/-- No instruction moves a key. -/
@[simp] theorem keypad_cycle (vm : Vm w h) : vm.cycle.2.keypad = vm.keypad := by
  cases vm.cycle_outcome with
  | stuck _ ends | unknown _ _ _ ends | refused _ _ _ _ _ _ ends | done _ _ _ _ _ ends =>
    rw [ends]
    rfl

/-- A cycle that succeeds has executed the word at the program counter. -/
theorem cycle_ok {vm : Vm w h} {word : Word} (hc : vm.cycle.1 = .ok word) :
    ∃ op, vm.memory.word vm.pc = .ok word ∧ Op.decode word = some op ∧
      vm.fetched.refusal op = none ∧ vm.cycle.2 = vm.fetched.after op := by
  cases vm.cycle_outcome with
  | stuck _ ends | unknown _ _ _ ends | refused _ _ _ _ _ _ ends =>
    rw [ends] at hc
    cases hc
  | done word op reads decodes accepts ends =>
    rw [ends] at hc
    cases hc
    exact ⟨op, reads, decodes, accepts, by rw [ends]⟩

/-- A cycle that succeeds has executed the instruction that its word spells. -/
theorem after_of_spelled {vm : Vm w h} {word : Word} {op : Op} (hc : vm.cycle.1 = .ok word)
    (hs : op.Spelled word) :
    vm.fetched.refusal op = none ∧ vm.cycle.2 = vm.fetched.after op := by
  obtain ⟨executed, -, decodes, accepts, ends⟩ := cycle_ok hc
  cases Op.eq_of_spelled decodes hs
  exact ⟨accepts, ends⟩

end Vm

end ChipEight
