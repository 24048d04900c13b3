import Mathlib.Data.Nat.Bitwise
import ChipEight.Proofs.Effect
import ChipEight.Proofs.Encoding

/-!
# The arithmetic instructions in whole numbers

The flag tells what a byte cannot hold: the carry of a sum, the borrow of a difference, the bit
that a shift drops. With it the result is exact. It is written last, so that a result bound for
register F is lost, and the operands are those before the instruction, whichever of the three
registers coincide.
-/
namespace ChipEight

namespace Word

/-- What `8xy4`, `8xy5`, `8xy6`, `8xy7` and `8xyE` make of the operands: a byte and a flag. -/
inductive Flagged (w : Word) (a b result flag : Nat) : Prop
  | sum (last : w.n = 0x4) (exactly : result + 256 * flag = a + b)
  | difference (last : w.n = 0x5) (exactly : (result : Int) = a - b + 256 * (1 - flag))
      (unborrowed : flag = 1 ↔ a ≥ b)
  | half (last : w.n = 0x6) (exactly : 2 * result + flag = b)
  | reverse (last : w.n = 0x7) (exactly : (result : Int) = b - a + 256 * (1 - flag))
      (unborrowed : flag = 1 ↔ b ≥ a)
  | double (last : w.n = 0xE) (exactly : result + 256 * flag = 2 * b)

/-- What `8xy0` to `8xy3` and `7xnn` make of the operands: a byte and no flag. -/
inductive Plain (w : Word) (a b result : Nat) : Prop
  | copy (family : w.family = 0x8) (last : w.n = 0x0) (exactly : result = b)
  | or (family : w.family = 0x8) (last : w.n = 0x1) (exactly : result = a ||| b)
  | and (family : w.family = 0x8) (last : w.n = 0x2) (exactly : result = a &&& b)
  | xor (family : w.family = 0x8) (last : w.n = 0x3) (exactly : result = a ^^^ b)
  | sum (family : w.family = 0x7) (exactly : result = (a + w.nn.toNat) % 256)

end Word

namespace Alu

theorem low_bit_iff (b : UInt8) : (b &&& 1 == 1) = true ↔ b.toNat % 2 = 1 := by
  rw [beq_iff_eq, ← UInt8.toNat_inj, UInt8.toNat_and, UInt8.toNat_one, Nat.and_one_is_mod]

theorem high_bit_iff (b : UInt8) : (b &&& 0x80 == 0x80) = true ↔ 128 ≤ b.toNat := by
  have hb := b.toNat_lt
  have e : (0x80 : UInt8).toNat = 2 ^ 7 := rfl
  rw [beq_iff_eq, ← UInt8.toNat_inj, UInt8.toNat_and, e, Nat.and_two_pow,
    Nat.testBit_eq_decide_div_mod_eq]
  by_cases h : b.toNat / 2 ^ 7 % 2 = 1
  · rw [decide_eq_true h, Bool.toNat_true]
    omega
  · rw [decide_eq_false h, Bool.toNat_false]
    omega

theorem toNat_half (b : UInt8) : (b >>> 1).toNat = b.toNat / 2 := by
  simp [UInt8.toNat_shiftRight, Nat.shiftRight_eq_div_pow]

theorem toNat_double (b : UInt8) : (b <<< 1).toNat = 2 * b.toNat % 256 := by
  simp [UInt8.toNat_shiftLeft, Nat.shiftLeft_eq, Nat.mul_comm]

theorem toNat_flag {on : Bool} {p : Prop} (h : on = true ↔ p) :
    on.toNat ≤ 1 ∧ (on.toNat = 1 ↔ p) :=
  ⟨Bool.toNat_le on, Bool.toNat_eq_one.trans h⟩

/-- With its flag a result is exact. -/
theorem flagged_of_apply {f : Alu} {word : Word} (hn : word.n = f.digit) {a b v : UInt8} {on : Bool}
    (computed : f.apply a b = (v, some on)) : word.Flagged a.toNat b.toNat v.toNat on.toNat := by
  have ha := a.toNat_lt
  have hb := b.toNat_lt
  cases f with
  | copy | or | and | xor => cases computed
  | add =>
    cases computed
    obtain ⟨hle, carry⟩ := toNat_flag (decide_eq_true_iff (p := 255 < a.toNat + b.toNat))
    refine .sum hn ?_
    rw [UInt8.toNat_add]
    omega
  | sub =>
    cases computed
    obtain ⟨hle, kept⟩ :=
      toNat_flag (decide_eq_true_iff.trans (UInt8.le_iff_toNat_le (a := b) (b := a)))
    refine .difference hn ?_ kept
    rw [UInt8.toNat_sub]
    omega
  | shr =>
    cases computed
    obtain ⟨hle, dropped⟩ := toNat_flag (low_bit_iff b)
    refine .half hn ?_
    rw [toNat_half]
    omega
  | rsub =>
    cases computed
    obtain ⟨hle, kept⟩ :=
      toNat_flag (decide_eq_true_iff.trans (UInt8.le_iff_toNat_le (a := a) (b := b)))
    refine .reverse hn ?_ kept
    rw [UInt8.toNat_sub]
    omega
  | shl =>
    cases computed
    obtain ⟨hle, dropped⟩ := toNat_flag (high_bit_iff b)
    refine .double hn ?_
    rw [toNat_double]
    omega

theorem plain_of_apply {f : Alu} {word : Word} (hf : word.family = 0x8) (hn : word.n = f.digit)
    {a b v : UInt8} (computed : f.apply a b = (v, none)) :
    word.Plain a.toNat b.toNat v.toNat := by
  cases f with
  | copy => cases computed; exact .copy hf hn rfl
  | or => cases computed; exact .or hf hn (UInt8.toNat_or a b)
  | and => cases computed; exact .and hf hn (UInt8.toNat_and a b)
  | xor => cases computed; exact .xor hf hn (UInt8.toNat_xor a b)
  | add | sub | shr | rsub | shl => cases computed

theorem exists_flag {d : Digit} (hd : d ∈ [0x4, 0x5, 0x6, 0x7, 0xE]) (a b : UInt8) :
    ∃ (f : Alu) (v : UInt8) (on : Bool), d = f.digit ∧ f.apply a b = (v, some on) := by
  simp only [List.mem_cons, List.not_mem_nil, or_false] at hd
  rcases hd with rfl | rfl | rfl | rfl | rfl
  · exact ⟨.add, _, _, rfl, rfl⟩
  · exact ⟨.sub, _, _, rfl, rfl⟩
  · exact ⟨.shr, _, _, rfl, rfl⟩
  · exact ⟨.rsub, _, _, rfl, rfl⟩
  · exact ⟨.shl, _, _, rfl, rfl⟩

theorem exists_plain {d : Digit} (hd : d ∈ [0x0, 0x1, 0x2, 0x3]) (a b : UInt8) :
    ∃ (f : Alu) (v : UInt8), d = f.digit ∧ f.apply a b = (v, none) := by
  simp only [List.mem_cons, List.not_mem_nil, or_false] at hd
  rcases hd with rfl | rfl | rfl | rfl
  · exact ⟨.copy, _, rfl, rfl⟩
  · exact ⟨.or, _, rfl, rfl⟩
  · exact ⟨.and, _, rfl, rfl⟩
  · exact ⟨.xor, _, rfl, rfl⟩

end Alu

namespace Registers

variable {r : Registers} {f : Alu} {x y : Digit} {v : UInt8}

/-- The registers after an instruction with a flag. Register F comes first, so a result bound for
it does not show. -/
theorem get_alu_of_flag {on : Bool} (computed : f.apply (r.get x) (r.get y) = (v, some on))
    (i : Digit) : (r.alu f x y).get i =
      if i = flagRegister then (if on then 1 else 0) else if i = x then v else r.get i := by
  simp only [alu, computed, flag, Bank.get_put]

theorem get_alu_of_plain (computed : f.apply (r.get x) (r.get y) = (v, none)) (i : Digit) :
    (r.alu f x y).get i = if i = x then v else r.get i := by
  simp only [alu, computed, Bank.get_put]

end Registers

namespace Vm

variable {w h : Nat}

/-- A result in the register `x` and a flag in register F, which comes last. -/
structure SetsWithFlag (vm : Vm w h) (x : Digit) (result flag : Nat) (vm' : Vm w h) : Prop where
  flag : (vm'.reg Registers.flagRegister).toNat = flag
  result : x ≠ Registers.flagRegister → (vm'.reg x).toNat = result
  other : ∀ i, i ≠ x → i ≠ Registers.flagRegister → vm'.reg i = vm.reg i

structure SetsAlone (vm : Vm w h) (x : Digit) (result : Nat) (vm' : Vm w h) : Prop where
  result : (vm'.reg x).toNat = result
  other : ∀ i, i ≠ x → vm'.reg i = vm.reg i

variable {vm : Vm w h} {word : Word}

theorem cycle_of_alu (ha : vm.At word) (hf : word.family = 0x8) {f : Alu} (hn : word.n = f.digit) :
    vm.cycle = (.ok word, vm.fetched.after (.alu f word.x word.y)) :=
  cycle_of_accepted (at_iff.mp ha) (Op.decode_of_spelled ⟨hf, rfl, rfl, hn⟩) rfl

theorem cycle_of_addByte (ha : vm.At word) (hf : word.family = 0x7) :
    vm.cycle = (.ok word, vm.fetched.after (.addByte word.x word.nn)) :=
  cycle_of_accepted (at_iff.mp ha) (Op.decode_of_spelled ⟨hf, rfl, rfl⟩) rfl

/-- The flag is written over whatever register F has received before. -/
theorem setsWithFlag_of_apply {f : Alu} {x y : Digit} {v : UInt8} {on : Bool}
    (computed : f.apply (vm.reg x) (vm.reg y) = (v, some on)) :
    vm.SetsWithFlag x v.toNat on.toNat (vm.fetched.after (.alu f x y)) := by
  have get := Registers.get_alu_of_flag computed
  constructor
  case flag =>
    change ((vm.registers.alu f x y).get _).toNat = _
    rw [get, if_pos rfl]
    cases on <;> rfl
  case result =>
    intro hx
    change ((vm.registers.alu f x y).get x).toNat = _
    rw [get, if_neg hx, if_pos rfl]
  case other =>
    intro i hx hi
    change (vm.registers.alu f x y).get i = _
    rw [get, if_neg hi, if_neg hx]
    rfl

theorem setsAlone_of_apply {f : Alu} {x y : Digit} {v : UInt8}
    (computed : f.apply (vm.reg x) (vm.reg y) = (v, none)) :
    vm.SetsAlone x v.toNat (vm.fetched.after (.alu f x y)) := by
  have get := Registers.get_alu_of_plain computed
  constructor
  case result =>
    change ((vm.registers.alu f x y).get x).toNat = _
    rw [get, if_pos rfl]
  case other =>
    intro i hx
    change (vm.registers.alu f x y).get i = _
    rw [get, if_neg hx]
    rfl

theorem setsAlone_addByte (vm : Vm w h) (x : Digit) (nn : UInt8) :
    vm.SetsAlone x (vm.reg x + nn).toNat (vm.fetched.after (.addByte x nn)) where
  result := congrArg UInt8.toNat (Bank.get_put_same ..)
  other _ hi := Bank.get_put_other _ _ hi

/-- The words with a flag leave their exact result in a register and the flag, the others
their result alone. All operands are those before the cycle. -/
theorem arithmetic_exact (vm : Vm w h) (word : Word) (ha : vm.At word) :
    (word.family = 0x8 → word.n ∈ [0x4, 0x5, 0x6, 0x7, 0xE] →
      ∃ result flag, result ≤ 255 ∧ flag ≤ 1 ∧
        word.Flagged (vm.reg word.x).toNat (vm.reg word.y).toNat result flag ∧
        vm.cycle.1 = .ok word ∧ vm.SetsWithFlag word.x result flag vm.cycle.2) ∧
      ((word.family = 0x8 ∧ word.n ∈ [0x0, 0x1, 0x2, 0x3]) ∨ word.family = 0x7 →
        ∃ result, word.Plain (vm.reg word.x).toNat (vm.reg word.y).toNat result ∧
          vm.cycle.1 = .ok word ∧ vm.SetsAlone word.x result vm.cycle.2) := by
  constructor
  · intro hf hn
    obtain ⟨f, v, on, last, computed⟩ := Alu.exists_flag hn (vm.reg word.x) (vm.reg word.y)
    rw [cycle_of_alu ha hf last]
    exact ⟨v.toNat, on.toNat, Nat.le_of_lt_succ v.toNat_lt, Bool.toNat_le on,
      Alu.flagged_of_apply last computed, rfl, setsWithFlag_of_apply computed⟩
  · rintro (⟨hf, hn⟩ | hf)
    · obtain ⟨f, v, last, computed⟩ := Alu.exists_plain hn (vm.reg word.x) (vm.reg word.y)
      rw [cycle_of_alu ha hf last]
      exact ⟨v.toNat, Alu.plain_of_apply hf last computed, rfl, setsAlone_of_apply computed⟩
    · rw [cycle_of_addByte ha hf]
      exact ⟨_, .sum hf (UInt8.toNat_add ..), rfl, vm.setsAlone_addByte word.x word.nn⟩

/-- A difference of register F and itself, with 200 in it. -/
def cancelled : Vm 64 32 :=
  { initial 64 32 ⟨1⟩ with
    memory := Memory.put ⟨Vector.replicate 4096 0⟩ 0 [0x8F, 0xF5]
    registers := Registers.zero.put Registers.flagRegister 200 }

theorem cancelled_at : cancelled.At ⟨0x8F, 0xF5⟩ := ⟨by decide, by decide +kernel⟩

/-- With all three registers the same, the flag is what stays. -/
theorem cancelled_flag :
    cancelled.At ⟨0x8F, 0xF5⟩ ∧ cancelled.cycle.1 = .ok ⟨0x8F, 0xF5⟩ ∧
      (cancelled.cycle.2.reg Registers.flagRegister).toNat = 1 := by
  obtain ⟨result, flag, -, -, flagged, done, sets⟩ :=
    (arithmetic_exact cancelled ⟨0x8F, 0xF5⟩ cancelled_at).1 (by decide) (by decide)
  refine ⟨cancelled_at, done, sets.flag.trans ?_⟩
  cases flagged with
  | difference _ _ unborrowed => exact unborrowed.mpr (Nat.le_refl _)
  | sum last | half last | reverse last | double last => exact absurd last (by decide)

end Vm

end ChipEight
