import ChipEight.Proofs.Font
import ChipEight.Proofs.Sprite

/-!
# Registers stored in memory and loaded again

Storing lays the registers over memory from the address register on and changes nothing else. A
history that writes nowhere in that block leaves it as it was stored, so a load of the block
finds it again, however much else has happened. A number stored by its decimal digits comes back
digit by digit in the same way.
-/
namespace ChipEight

namespace Registers

theorem getElem?_upTo (r : Registers) {x i : Digit} (hi : i ≤ x) :
    (r.upTo x)[i.val]? = some (r.get i) := by
  have hl : i.val < x.val + 1 := Nat.lt_succ_of_le hi
  simp [upTo, Bank.toList, Bank.get, hl]

end Registers

namespace Vm

variable {w h : Nat} {vm vm' : Vm w h} {word : Word}

/-- No action of a history writes to an address between two others, both included. -/
def Undisturbed (vm : Vm w h) (lower upper : Nat) : List Action → Prop
  | [] => True
  | act :: actions =>
    (∀ a, lower ≤ a → a ≤ upper → ¬ vm.Writes a act) ∧
      (vm.perform act).2.Undisturbed lower upper actions

/-- Where no action writes, memory stays as it is. -/
theorem Undisturbed.byte {lower upper : Nat} {actions : List Action}
    (calm : vm.Undisturbed lower upper actions) {a : Nat} (hl : lower ≤ a) (hu : a ≤ upper) :
    (vm.run actions).memory.bytes[a]? = vm.memory.bytes[a]? := by
  induction actions generalizing vm with
  | nil => rfl
  | cons act actions ih =>
    obtain ⟨now, later⟩ := calm
    rw [run_cons, ih later]
    by_cases ha : a < 4096
    · rcases vm.byte_perform act ha with same | writes
      · rw [Vector.getElem?_eq_getElem ha, Vector.getElem?_eq_getElem ha, same]
      · exact absurd writes (now a hl hu)
    · have hn : 4096 ≤ a := Nat.le_of_not_lt ha
      rw [Vector.getElem?_eq_none hn, Vector.getElem?_eq_none hn]

/-- Registers 0 to `x` have been stored at the address register, and nothing else has. -/
structure Stored (vm : Vm w h) (x : Digit) (vm' : Vm w h) : Prop where
  copied : ∀ i ≤ x, vm'.memory.bytes[vm.index.toNat + i]? = some (vm.reg i)
  beside : ∀ a, a < vm.index.toNat ∨ vm.index.toNat + x < a →
    vm'.memory.bytes[a]? = vm.memory.bytes[a]?
  register : ∀ i, vm'.reg i = vm.reg i
  index : vm'.index = vm.index

/-- Registers 0 to `x` have been set to certain values, and neither the others nor memory
have changed. -/
structure Loaded (vm : Vm w h) (x : Digit) (value : Digit → UInt8) (vm' : Vm w h) : Prop where
  set : ∀ i ≤ x, vm'.reg i = value i
  kept : ∀ i, x < i → vm'.reg i = vm.reg i
  memory : vm'.memory = vm.memory

/-- After a history that leaves the `x + 1` bytes from an address on alone, a load of these
bytes is next. -/
structure Reload (vm : Vm w h) (address : UInt16) (x : Digit) (actions : List Action)
    (load : Word) : Prop where
  undisturbed : vm.Undisturbed address.toNat (address.toNat + x) actions
  next : (vm.run actions).At load
  family : load.family = 0xF
  low : load.nn = 0x65
  last : load.x = x
  index : (vm.run actions).index = address

theorem fits_of_beyond {n : Nat} (hb : vm.beyond n = none) : vm.index.toNat + n ≤ 4096 := by
  unfold beyond at hb
  split at hb
  next => cases hb
  next hn => exact Nat.le_of_not_lt hn

theorem cycle_of_store (hc : vm.cycle.1 = .ok word) (hf : word.family = 0xF)
    (hn : word.nn = 0x55) :
    vm.index.toNat + word.x + 1 ≤ 4096 ∧ vm.cycle.2 = vm.fetched.after (.store word.x) := by
  have hs : (Op.store word.x).Spelled word := ⟨hf, rfl, hn⟩
  obtain ⟨accepts, ends⟩ := after_of_spelled hc hs
  exact ⟨fits_of_beyond accepts, ends⟩

theorem cycle_of_decimal (hc : vm.cycle.1 = .ok word) (hf : word.family = 0xF)
    (hn : word.nn = 0x33) :
    vm.index.toNat + 3 ≤ 4096 ∧ vm.cycle.2 = vm.fetched.after (.decimal word.x) := by
  have hs : (Op.decimal word.x).Spelled word := ⟨hf, rfl, hn⟩
  obtain ⟨accepts, ends⟩ := after_of_spelled hc hs
  exact ⟨fits_of_beyond accepts, ends⟩

theorem cycle_of_load (ha : vm.At word) (hf : word.family = 0xF) (hn : word.nn = 0x65)
    (fits : vm.index.toNat + word.x + 1 ≤ 4096) :
    vm.cycle = (.ok word, vm.fetched.after (.load word.x)) := by
  have hd : Op.decode word = some (.load word.x) := Op.decode_of_spelled ⟨hf, rfl, hn⟩
  have accepted : vm.fetched.refusal (.load word.x) = none :=
    if_neg (Nat.not_lt.mpr fits)
  exact cycle_of_accepted (at_iff.mp ha) hd accepted

theorem stored_after (fits : vm.index.toNat + word.x + 1 ≤ 4096) :
    vm.Stored word.x (vm.fetched.after (.store word.x)) where
  copied i hi := by
    have hl : i.val < (vm.registers.upTo word.x).length := by
      rw [Registers.length_upTo]
      exact Nat.lt_succ_of_le hi
    have inside := vm.memory.getElem?_put_inside
      (by rw [Registers.length_upTo]; exact fits : vm.index.toNat + _ ≤ 4096) hl
    exact inside.trans (vm.registers.getElem?_upTo hi)
  beside a ha := by
    have outside : a < vm.index.toNat ∨
        vm.index.toNat + (vm.registers.upTo word.x).length ≤ a := by
      rw [Registers.length_upTo]
      omega
    exact vm.memory.getElem?_put_outside outside
  register _ := rfl
  index := rfl

/-- A load sets each register of its range to the byte in its place. -/
theorem loaded_after {value : Digit → UInt8} (fits : vm.index.toNat + word.x + 1 ≤ 4096)
    (found : ∀ i ≤ word.x, vm.memory.bytes[vm.index.toNat + i]? = some (value i)) :
    vm.Loaded word.x value (vm.fetched.after (.load word.x)) := by
  have get (i : Digit) : (vm.fetched.after (.load word.x)).reg i =
      if h : 0 ≤ i.val ∧ i.val - 0 < (vm.block (word.x.val + 1)).length
      then (vm.block (word.x.val + 1))[i.val - 0] else vm.reg i :=
    Bank.get_overlay ..
  constructor
  case set =>
    intro i hi
    have byte : (vm.block (word.x.val + 1))[i.val]? = some (value i) := by
      rw [vm.getElem?_block fits, if_pos (Nat.lt_succ_of_le hi), found i hi]
    obtain ⟨hl, same⟩ := List.getElem?_eq_some_iff.mp byte
    rw [get, dif_pos ⟨Nat.zero_le _, hl⟩]
    exact same
  case kept =>
    intro i hi
    have hl := vm.length_block_le (word.x.val + 1)
    have hi : word.x.val < i.val := hi
    rw [get, dif_neg (by omega)]
  case memory => rfl

/-- A load of a block that has been left alone succeeds and brings back what the block held
before the history. -/
theorem Reload.loaded {address : UInt16} {x : Digit} {actions : List Action} {load : Word}
    (again : vm.Reload address x actions load) (fits : address.toNat + x + 1 ≤ 4096)
    {value : Digit → UInt8}
    (held : ∀ i ≤ x, vm.memory.bytes[address.toNat + i]? = some (value i)) :
    (vm.run actions).cycle.1 = .ok load ∧
      (vm.run actions).Loaded x value (vm.run actions).cycle.2 := by
  obtain ⟨undisturbed, next, family, low, rfl, rfl⟩ := again
  rw [cycle_of_load next family low fits]
  refine ⟨rfl, loaded_after fits ?_⟩
  intro i hi
  have hi' : i.val ≤ load.x.val := hi
  rw [undisturbed.byte (by omega) (by omega), held i hi]

/-- The decimal digits of a byte by their places, hundreds first. -/
def decimalDigit (v : UInt8) (i : Digit) : UInt8 :=
  if i.val = 0 then v / 100 else if i.val = 1 then v / 10 % 10 else v % 10

theorem getElem?_decimalDigits (v : UInt8) {i : Digit} (hi : i ≤ Digit.of 2) :
    (decimalDigits v)[i.val]? = some (decimalDigit v i) := by
  have hi : i.val = 0 ∨ i.val = 1 ∨ i.val = 2 := by
    have : i.val ≤ 2 := hi
    omega
  rcases hi with hi | hi | hi
  all_goals simp only [decimalDigits, decimalDigit, hi]; rfl

theorem decimalDigit_le (v : UInt8) (i : Digit) : (decimalDigit v i).toNat ≤ 9 := by
  have hv := v.toNat_lt
  unfold decimalDigit
  split
  · simp only [UInt8.toNat_div, UInt8.reduceToNat]
    omega
  · split <;> simp only [UInt8.toNat_mod, UInt8.reduceToNat] <;> omega

/-- The digits of a byte lie in memory, hundreds first. -/
theorem held_after_decimal (fits : vm.index.toNat + 3 ≤ 4096) (x : Digit) {i : Digit}
    (hi : i ≤ Digit.of 2) :
    (vm.fetched.after (.decimal x)).memory.bytes[vm.index.toNat + i]? =
      some (decimalDigit (vm.reg x) i) := by
  have hl : i.val < (decimalDigits (vm.reg x)).length := Nat.lt_succ_of_le hi
  exact (vm.memory.getElem?_put_inside fits hl).trans (getElem?_decimalDigits _ hi)

/-- Registers 0, 1 and 2 hold the decimal digits of a byte. -/
structure HoldsDecimal (vm : Vm w h) (v : UInt8) : Prop where
  digit : ∀ i ≤ Digit.of 2, (vm.reg i).toNat ≤ 9
  value : 100 * (vm.reg (Digit.of 0)).toNat + 10 * (vm.reg (Digit.of 1)).toNat +
    (vm.reg (Digit.of 2)).toNat = v.toNat

theorem Loaded.holdsDecimal {v : UInt8} (loaded : vm.Loaded (Digit.of 2) (decimalDigit v) vm') :
    vm'.HoldsDecimal v where
  digit i hi := by
    rw [loaded.set i hi]
    exact decimalDigit_le v i
  value := by
    rw [loaded.set (Digit.of 0) (by decide), loaded.set (Digit.of 1) (by decide),
      loaded.set (Digit.of 2) (by decide)]
    change 100 * (v / 100).toNat + 10 * (v / 10 % 10).toNat + (v % 10).toNat = v.toNat
    simp only [UInt8.toNat_div, UInt8.toNat_mod, UInt8.reduceToNat]
    omega

/-- Registers that have been stored are in memory one behind the other, nothing else has
changed, and a later load of the same block brings them back. A byte that has been stored by
its decimal digits comes back as three registers that hold them. -/
theorem stored_restored (vm : Vm w h) (word : Word) (hc : vm.cycle.1 = .ok word)
    (hf : word.family = 0xF) :
    (word.nn = 0x55 →
      vm.Stored word.x vm.cycle.2 ∧
        ∀ actions load, vm.cycle.2.Reload vm.index word.x actions load →
          (vm.cycle.2.run actions).cycle.1 = .ok load ∧
            (vm.cycle.2.run actions).Loaded word.x vm.reg (vm.cycle.2.run actions).cycle.2) ∧
      (word.nn = 0x33 →
        ∀ actions load, vm.cycle.2.Reload vm.index (Digit.of 2) actions load →
          (vm.cycle.2.run actions).cycle.1 = .ok load ∧
            (vm.cycle.2.run actions).cycle.2.HoldsDecimal (vm.reg word.x) ∧
            (vm.cycle.2.run actions).Loaded (Digit.of 2) (decimalDigit (vm.reg word.x))
              (vm.cycle.2.run actions).cycle.2) := by
  constructor
  · intro hn
    obtain ⟨fits, ends⟩ := cycle_of_store hc hf hn
    rw [ends]
    have stored := stored_after fits
    exact ⟨stored, fun actions load again => again.loaded fits stored.copied⟩
  · intro hn actions load again
    obtain ⟨fits, ends⟩ := cycle_of_decimal hc hf hn
    rw [ends] at again ⊢
    obtain ⟨done, loaded⟩ := again.loaded fits fun i hi => held_after_decimal fits word.x hi
    exact ⟨done, loaded.holdsDecimal, loaded⟩

/-- Two registers are stored in the last two bytes of memory. One of them is wiped before both
are loaded again. -/
def wiped : Vm 64 32 :=
  { initial 64 32 ⟨1⟩ with
    memory := Memory.put ⟨Vector.replicate 4096 0⟩ 0 [0xF1, 0x55, 0x60, 0x00, 0xF1, 0x65]
    index := 4094
    registers := (Registers.zero.put (Digit.of 0) 7).put (Digit.of 1) 9 }

/-- A register is stored by its digits, which are loaded over that register too. -/
def counter : Vm 64 32 :=
  { initial 64 32 ⟨1⟩ with
    memory := Memory.put ⟨Vector.replicate 4096 0⟩ 0 [0xF1, 0x33, 0xF2, 0x65]
    index := 4093
    registers := Registers.zero.put (Digit.of 1) 207 }

/-- Outside family F no word stores. -/
theorem not_writes_of_ok {a : Nat} (hc : vm.cycle.1 = .ok word) (hf : word.family ≠ 0xF) :
    ¬ vm.Writes a .cycle := by
  rintro ⟨⟩
  case store other succeeds stores =>
    cases Except.ok.inj (hc.symm.trans succeeds)
    cases stores with
    | decimal family _ _ _ => exact hf family
    | registers family _ _ _ => exact hf family

theorem wiped_ok : wiped.cycle.1 = .ok ⟨0xF1, 0x55⟩ := by decide +kernel

theorem wiped_reload :
    wiped.cycle.2.Reload wiped.index (Digit.of 1) [.tick, .cycle] ⟨0xF1, 0x65⟩ where
  undisturbed := by
    have wipes : (wiped.cycle.2.perform .tick).2.cycle.1 = .ok ⟨0x60, 0x00⟩ := by decide +kernel
    refine ⟨?_, ?_, trivial⟩
    · rintro a - - ⟨⟩
    · intro a _ _
      exact not_writes_of_ok wipes (by decide)
  next := at_iff.mpr (by decide +kernel)
  family := by decide
  low := rfl
  last := by decide
  index := by decide +kernel

theorem counter_ok : counter.cycle.1 = .ok ⟨0xF1, 0x33⟩ := by decide +kernel

theorem counter_reload : counter.cycle.2.Reload counter.index (Digit.of 2) [] ⟨0xF2, 0x65⟩ where
  undisturbed := trivial
  next := at_iff.mpr (by decide +kernel)
  family := by decide
  low := rfl
  last := by decide
  index := by decide +kernel

/-- A register that was wiped comes back from the last bytes of memory, and 207 as its three
digits. -/
theorem wiped_counter_restored :
    (wiped.cycle.1 = .ok ⟨0xF1, 0x55⟩ ∧
        (wiped.cycle.2.run [.tick, .cycle]).cycle.2.reg (Digit.of 0) = 7 ∧
        (wiped.cycle.2.run [.tick, .cycle]).cycle.2.reg (Digit.of 1) = 9) ∧
      counter.cycle.1 = .ok ⟨0xF1, 0x33⟩ ∧ counter.cycle.2.cycle.2.HoldsDecimal 207 := by
  obtain ⟨-, restored⟩ := (stored_restored wiped _ wiped_ok (by decide)).1 rfl
  obtain ⟨-, loaded⟩ := restored _ _ wiped_reload
  obtain ⟨-, digits, -⟩ :=
    (stored_restored counter _ counter_ok (by decide)).2 rfl _ _ counter_reload
  refine ⟨⟨wiped_ok, ?_, ?_⟩, counter_ok, digits⟩
  · exact (loaded.set (Digit.of 0) (by decide)).trans (by decide)
  · exact (loaded.set (Digit.of 1) (by decide)).trans (by decide)

end Vm

end ChipEight
