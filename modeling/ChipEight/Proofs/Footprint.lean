import ChipEight.Proofs.Effect
import ChipEight.Proofs.Encoding

/-!
# What an instruction leaves alone

For each part of the virtual machine the words are listed that may change it, with no reference
to how a word is decoded; a part that differs after a cycle tells that the word executed is on
its list. The random source is the one part whose change is given as well: one byte is drawn, no
more.
-/
namespace ChipEight

namespace Word

/-- The addresses that a word writes while the address register holds `i`. -/
inductive Stores (w : Word) (i : Nat) (a : Nat) : Prop
  | decimal (family : w.family = 0xF) (low : w.nn = 0x33) (lower : i ≤ a) (upper : a ≤ i + 2)
  | registers (family : w.family = 0xF) (low : w.nn = 0x55) (lower : i ≤ a)
      (upper : a ≤ i + w.x.val)

inductive Sets (w : Word) (r : Digit) : Prop
  | own (family : w.family ∈ [0x6, 0x7, 0x8, 0xC]) (register : r = w.x)
  | device (family : w.family = 0xF) (low : w.nn ∈ [0x07, 0x0A]) (register : r = w.x)
  | load (family : w.family = 0xF) (low : w.nn = 0x65) (register : r ≤ w.x)
  | carry (family : w.family = 0x8) (last : w.n ∈ [0x4, 0x5, 0x6, 0x7, 0xE])
      (register : r = Registers.flagRegister)
  | collision (family : w.family = 0xD) (register : r = Registers.flagRegister)

/-- The words `Annn`, `Fx1E` and `Fx29`. -/
inductive Points (w : Word) : Prop
  | set (family : w.family = 0xA)
  | device (family : w.family = 0xF) (low : w.nn ∈ [0x1E, 0x29])

/-- The words `00E0` and `Dxyn`. -/
inductive Paints (w : Word) : Prop
  | clear (whole : w.opcode = 0x00E0)
  | draw (family : w.family = 0xD)

end Word

theorem Bank.eq_of_get_put_ne {α : Type} {b : Bank α} {i j : Digit} {a : α}
    (hne : (b.put i a).get j ≠ b.get j) : j = i := by
  by_cases hj : j = i
  · exact hj
  · exact absurd (b.get_put_other a hj) hne

theorem CallStack.eq_of_slot_pushed_ne {s : CallStack} {address : UInt16} {i : Nat} (hi : i < 32)
    (hne : (s.pushed address).slots[i] ≠ s.slots[i]) : i = s.depth := by
  unfold CallStack.pushed at hne
  split at hne
  next hd =>
    by_cases h : s.depth = i
    · exact h.symm
    · exact absurd (Vector.getElem_set_ne hd hi h) hne
  next => exact absurd rfl hne

/-- A byte that differs after an overlay lies under it. -/
theorem Memory.of_getElem_put_ne {m : Memory} {address : Nat} {bs : List UInt8} {i : Nat}
    (hi : i < 4096) (hne : (m.put address bs).bytes[i] ≠ m.bytes[i]) :
    address ≤ i ∧ i < address + bs.length := by
  by_cases h : address ≤ i ∧ i - address < bs.length
  · omega
  · rw [m.getElem_put, dif_neg h] at hne
    exact absurd rfl hne

/-- The arithmetic instructions with a flag write register F besides their own. -/
theorem Registers.of_alu_ne {r : Registers} {f : Alu} {x y j : Digit}
    (hne : (r.alu f x y).get j ≠ r.get j) :
    j = x ∨ (f.digit ∈ [0x4, 0x5, 0x6, 0x7, 0xE] ∧ j = flagRegister) := by
  have flagged (v : UInt8) (on : Bool) (h : (flag (r.put x v) on).get j ≠ r.get j) :
      j = x ∨ j = flagRegister := by
    by_cases hj : j = flagRegister
    · exact .inr hj
    · rw [flag, Bank.get_put_other _ _ hj] at h
      exact .inl (Bank.eq_of_get_put_ne h)
  cases f with
  | copy | or | and | xor => exact .inl (Bank.eq_of_get_put_ne hne)
  | add | sub | shr | rsub | shl =>
    rcases flagged _ _ hne with hj | hj
    · exact .inl hj
    · exact .inr ⟨by decide, hj⟩

namespace Vm

variable {w h : Nat} {word : Word} {op : Op}

theorem length_block_le (vm : Vm w h) (n : Nat) : (vm.block n).length ≤ n := by
  simp only [block, Array.length_toList, Array.size_extract]
  omega

theorem stores_of_memoryAfter (vm : Vm w h) (hs : op.Spelled word) {a : Nat} (ha : a < 4096)
    (hne : (vm.memoryAfter op).bytes[a] ≠ vm.memory.bytes[a]) :
    word.Stores vm.index.toNat a := by
  cases op with
  | decimal x =>
    obtain ⟨hl, hu⟩ := Memory.of_getElem_put_ne ha hne
    have hd : (decimalDigits (vm.reg x)).length = 3 := rfl
    exact .decimal hs.1 hs.2.2 hl (by omega)
  | store x =>
    obtain ⟨hf, rfl, hn⟩ := hs
    obtain ⟨hl, hu⟩ := Memory.of_getElem_put_ne ha hne
    rw [Registers.length_upTo] at hu
    exact .registers hf hn hl (by omega)
  | _ => exact absurd rfl hne

theorem sets_of_registersAfter (vm : Vm w h) (hs : op.Spelled word) {r : Digit}
    (hne : (vm.registersAfter op).get r ≠ vm.reg r) : word.Sets r := by
  cases op with
  | setByte x nn | addByte x nn | random x nn =>
    obtain ⟨hf, rfl, -⟩ := hs
    exact .own (by simp [hf]) (Bank.eq_of_get_put_ne hne)
  | alu f x y =>
    obtain ⟨hf, rfl, -, hn⟩ := hs
    rcases Registers.of_alu_ne hne with hr | ⟨hd, hr⟩
    · exact .own (by simp [hf]) hr
    · exact .carry hf (hn ▸ hd) hr
  | draw x y n => exact .collision hs.1 (Bank.eq_of_get_put_ne hne)
  | getDelay x =>
    obtain ⟨hf, rfl, hn⟩ := hs
    exact .device hf (by simp [hn]) (Bank.eq_of_get_put_ne hne)
  | waitKey x =>
    obtain ⟨hf, rfl, hn⟩ := hs
    simp only [registersAfter] at hne
    split at hne
    next => exact absurd rfl hne
    next => exact .device hf (by simp [hn]) (Bank.eq_of_get_put_ne hne)
  | load x =>
    obtain ⟨hf, rfl, hn⟩ := hs
    have hl := vm.length_block_le (word.x.val + 1)
    by_cases hr : r.val - 0 < (vm.block (word.x.val + 1)).length
    · exact .load hf hn (Fin.le_def.mpr (by omega))
    · simp only [registersAfter, Bank.get_overlay, hr, and_false, ↓reduceDIte] at hne
      exact absurd rfl hne
  | _ => exact absurd rfl hne

theorem points_of_indexAfter (vm : Vm w h) (hs : op.Spelled word)
    (hne : vm.indexAfter op ≠ vm.index) :
    word.Points := by
  cases op with
  | setIndex address => exact .set hs.1
  | addIndex x | glyph x => exact .device hs.1 (by simp [hs.2.2])
  | _ => exact absurd rfl hne

theorem moves_of_depthAfter (vm : Vm w h) (hs : op.Spelled word)
    (hne : (vm.stackAfter op).depth ≠ vm.stack.depth) :
    word.family = 0x2 ∨ word.opcode = 0x00EE := by
  cases op with
  | call target => exact .inl hs.1
  | ret => exact .inr hs
  | _ => exact absurd rfl hne

/-- A slot that differs is the first free one, and the word is a call. -/
theorem call_of_slotAfter (vm : Vm w h) (hs : op.Spelled word) {i : Nat} (hi : i < 32)
    (hne : (vm.stackAfter op).slots[i] ≠ vm.stack.slots[i]) :
    word.family = 0x2 ∧ i = vm.stack.depth := by
  cases op with
  | call target => exact ⟨hs.1, CallStack.eq_of_slot_pushed_ne hi hne⟩
  | _ => exact absurd rfl hne

theorem setDelay_of_timersAfter (vm : Vm w h) (hs : op.Spelled word)
    (hne : (vm.timersAfter op).delay ≠ vm.timers.delay) :
    word.family = 0xF ∧ word.nn = 0x15 := by
  cases op with
  | setDelay x => exact ⟨hs.1, hs.2.2⟩
  | _ => exact absurd rfl hne

theorem setSound_of_timersAfter (vm : Vm w h) (hs : op.Spelled word)
    (hne : (vm.timersAfter op).sound ≠ vm.timers.sound) :
    word.family = 0xF ∧ word.nn = 0x18 := by
  cases op with
  | setSound x => exact ⟨hs.1, hs.2.2⟩
  | _ => exact absurd rfl hne

theorem random_of_randomAfter (vm : Vm w h) (hs : op.Spelled word)
    (hne : vm.randomAfter op ≠ vm.random) :
    word.family = 0xC := by
  cases op with
  | random x mask => exact hs.1
  | _ => exact absurd rfl hne

theorem paints_of_screenAfter (vm : Vm w h) (hs : op.Spelled word)
    (hne : vm.screenAfter op ≠ vm.screen) :
    word.Paints := by
  cases op with
  | clear => exact .clear hs
  | draw x y n => exact .draw hs.1
  | _ => exact absurd rfl hne

/-- A random instruction draws one byte and masks it. -/
theorem draws_of_random (vm : Vm w h) (hd : Op.decode word = some op) (hf : word.family = 0xC) :
    vm.randomAfter op = vm.random.next.2 ∧
      (vm.registersAfter op).get word.x = vm.random.next.1 &&& word.nn := by
  have hs : (Op.random word.x word.nn).Spelled word := ⟨hf, rfl, rfl⟩
  cases Op.eq_of_spelled hd hs
  refine ⟨rfl, ?_⟩
  change (vm.registers.put _ _).get _ = _
  rw [Bank.get_put_same, UInt8.and_comm]

/-- The parts in which `vm'` may differ from `vm` once `word` has been executed. -/
structure Footprint (vm : Vm w h) (word : Word) (vm' : Vm w h) : Prop where
  memory : ∀ a (ha : a < 4096), vm'.memory.bytes[a] ≠ vm.memory.bytes[a] →
    word.Stores vm.index.toNat a
  register : ∀ r, vm'.reg r ≠ vm.reg r → word.Sets r
  index : vm'.index ≠ vm.index → word.Points
  depth : vm'.stack.depth ≠ vm.stack.depth → word.family = 0x2 ∨ word.opcode = 0x00EE
  slot : ∀ i (hi : i < 32), vm'.stack.slots[i] ≠ vm.stack.slots[i] →
    word.family = 0x2 ∧ i = vm.stack.depth
  delay : vm'.timers.delay ≠ vm.timers.delay → word.family = 0xF ∧ word.nn = 0x15
  sound : vm'.timers.sound ≠ vm.timers.sound → word.family = 0xF ∧ word.nn = 0x18
  random : vm'.random ≠ vm.random → word.family = 0xC
  drawn : word.family = 0xC →
    vm'.random = vm.random.next.2 ∧ vm'.reg word.x = vm.random.next.1 &&& word.nn
  pixel : ∀ x y, vm'.screen.pixel x y ≠ vm.screen.pixel x y → word.Paints
  stale : vm'.screen.stale ≠ vm.screen.stale → word.Paints
  keypad : vm'.keypad = vm.keypad
  cycles : vm'.cycles = vm.cycles + 1

/-- A cycle that succeeds changes a part only if the word it has executed is on the list of
that part. -/
theorem cycle_footprint (vm : Vm w h) (word : Word) (hc : vm.cycle.1 = .ok word) :
    vm.Footprint word vm.cycle.2 := by
  obtain ⟨op, -, hd, -, ends⟩ := cycle_ok hc
  have hs := Op.spelled_of_decode hd
  rw [ends]
  constructor
  case memory =>
    intro a ha hne
    exact vm.fetched.stores_of_memoryAfter hs ha hne
  case register =>
    intro r hne
    exact vm.fetched.sets_of_registersAfter hs hne
  case slot =>
    intro i hi hne
    exact vm.fetched.call_of_slotAfter hs hi hne
  case pixel =>
    intro x y hne
    apply vm.fetched.paints_of_screenAfter hs
    intro e
    exact hne (congrArg (Display.pixel · x y) e)
  case stale =>
    intro hne
    apply vm.fetched.paints_of_screenAfter hs
    intro e
    exact hne (congrArg Display.stale e)
  case index => exact vm.fetched.points_of_indexAfter hs
  case depth => exact vm.fetched.moves_of_depthAfter hs
  case delay => exact vm.fetched.setDelay_of_timersAfter hs
  case sound => exact vm.fetched.setSound_of_timersAfter hs
  case random => exact vm.fetched.random_of_randomAfter hs
  case drawn => exact vm.fetched.draws_of_random hd
  case keypad => rfl
  case cycles => rfl

/-- A random instruction on register F at zero, in memory that is zero otherwise. -/
def gamble : Vm 64 32 :=
  { initial 64 32 ⟨1⟩ with memory := Memory.put ⟨Vector.replicate 4096 0⟩ 0 [0xCF, 0x7F] }

theorem gamble_ok : gamble.cycle.1 = .ok ⟨0xCF, 0x7F⟩ := by
  have ha : gamble.At ⟨0xCF, 0x7F⟩ := ⟨by decide, by decide +kernel⟩
  have hd : Op.decode ⟨0xCF, 0x7F⟩ = some (.random (Digit.of 15) 0x7F) := by decide
  rw [cycle_of_accepted (at_iff.mp ha) hd rfl]

/-- A random instruction draws one byte and sets one register, be it the flag register. -/
theorem gamble_footprint :
    gamble.cycle.1 = .ok ⟨0xCF, 0x7F⟩ ∧ gamble.Footprint ⟨0xCF, 0x7F⟩ gamble.cycle.2 ∧
      gamble.cycle.2.random = ⟨0x42021⟩ ∧ gamble.cycle.2.reg Registers.flagRegister = 0x21 := by
  have footprint := cycle_footprint gamble ⟨0xCF, 0x7F⟩ gamble_ok
  obtain ⟨hr, hv⟩ := footprint.drawn rfl
  exact ⟨gamble_ok, footprint, hr.trans (by decide), hv.trans (by decide)⟩

end Vm

end ChipEight
