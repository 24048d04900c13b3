import ChipEight.Proofs.Effect
import ChipEight.Proofs.Encoding

/-!
# Two machines side by side

How a cycle ends is decided by the program counter, the word there, the depth of the stack and
the address register: machines that agree on these get the same answer, whatever else sets them
apart. The main statement is about machines that differ in memory. A cycle takes nothing from
memory but the word it fetches and the block that a drawing or a loading word names, and only the
fetched word can make it fail.
-/
namespace ChipEight

namespace Word

/-- The addresses that a word reads while the address register holds `i`. -/
inductive Reads (w : Word) (i a : Nat) : Prop
  | sprite (family : w.family = 0xD) (lower : i ≤ a) (upper : a < i + w.n.val)
  | load (family : w.family = 0xF) (low : w.nn = 0x65) (lower : i ≤ a) (upper : a ≤ i + w.x.val)

end Word

namespace Memory

/-- Two memories hold the same byte at an address. Beyond their end there is none to hold. -/
def Agree (m m' : Memory) (a : Nat) : Prop := ∀ ha : a < 4096, m'.bytes[a] = m.bytes[a]

theorem Agree.put {m m' : Memory} {a : Nat} (h : m.Agree m' a) (address : Nat) (bs : List UInt8) :
    (m.put address bs).Agree (m'.put address bs) a := by
  intro ha
  rw [getElem_put, getElem_put, h ha]

theorem word_congr {m m' : Memory} {address : UInt16} (high : m.Agree m' address.toNat)
    (low : m.Agree m' (address.toNat + 1)) : m'.word address = m.word address := by
  by_cases hb : address.toNat + 2 ≤ 4096
  · rw [m.word_of_le hb, m'.word_of_le hb, high (by omega), low (by omega)]
  · rw [m.word_of_gt (Nat.lt_of_not_le hb), m'.word_of_gt (Nat.lt_of_not_le hb)]

end Memory

namespace Vm

variable {w h : Nat} {vm vm' : Vm w h}

/-- Machines that agree on what decides how a cycle ends. -/
structure Abreast (vm vm' : Vm w h) : Prop where
  pc : vm'.pc = vm.pc
  word : vm'.memory.word vm'.pc = vm.memory.word vm.pc
  depth : vm'.stack.depth = vm.stack.depth
  index : vm'.index = vm.index

/-- Whether an instruction is refused depends on the depth of the stack and the address register.
-/
theorem refusal_congr (depth : vm'.stack.depth = vm.stack.depth) (index : vm'.index = vm.index)
    (op : Op) : vm'.refusal op = vm.refusal op := by
  have beyond (n : Nat) : vm'.beyond n = vm.beyond n := by simp only [Vm.beyond, index]
  simp only [refusal, depth, beyond]

/-- Machines abreast give the same answer, and stay in a relation that every instruction
keeps which both of them execute. -/
theorem Abreast.cycle {R : Vm w h → Vm w h → Prop} (ha : vm.Abreast vm')
    (counted : R vm.counted vm'.counted) (fetched : R vm.fetched vm'.fetched)
    (after : ∀ {word op}, vm.memory.word vm.pc = .ok word → Op.decode word = some op →
      vm.fetched.refusal op = none → R (vm.fetched.after op) (vm'.fetched.after op)) :
    vm'.cycle.1 = vm.cycle.1 ∧ R vm.cycle.2 vm'.cycle.2 := by
  have refusal (op : Op) : vm'.fetched.refusal op = vm.fetched.refusal op :=
    refusal_congr ha.depth ha.index op
  cases vm.cycle_outcome with
  | stuck beyond ends =>
    rw [ends, cycle_of_gt (by rw [ha.pc]; exact beyond), ha.pc]
    exact ⟨rfl, counted⟩
  | unknown word reads decodes ends =>
    rw [ends, cycle_of_unknown (ha.word.trans reads) decodes, ha.pc]
    exact ⟨rfl, fetched⟩
  | refused word op f reads decodes refuses ends =>
    rw [ends, cycle_of_refused (ha.word.trans reads) decodes ((refusal op).trans refuses)]
    exact ⟨rfl, fetched⟩
  | done word op reads decodes accepts ends =>
    rw [ends, cycle_of_accepted (ha.word.trans reads) decodes ((refusal op).trans accepts)]
    exact ⟨rfl, after reads decodes accepts⟩

def onMemory (vm : Vm w h) (m : Memory) : Vm w h := { vm with memory := m }

theorem abreast_onMemory {m : Memory} (high : vm.memory.Agree m vm.pc.toNat)
    (low : vm.memory.Agree m (vm.pc.toNat + 1)) : vm.Abreast (vm.onMemory m) :=
  ⟨rfl, Memory.word_congr high low, rfl, rfl⟩

theorem block_onMemory {m : Memory} {n : Nat}
    (agree : ∀ a, vm.index.toNat ≤ a → a < vm.index.toNat + n → vm.memory.Agree m a) :
    (vm.onMemory m).block n = vm.block n := by
  apply congrArg Array.toList
  apply Array.ext
  · simp only [onMemory, Array.size_extract, Vector.size_toArray]
  · intro i _ hi
    simp only [Array.size_extract, Vector.size_toArray] at hi
    simp only [onMemory, Array.getElem_extract, Vector.getElem_toArray]
    exact agree _ (Nat.le_add_right _ _) (by omega) (by omega)

/-- What is written does not depend on what was there. -/
theorem agree_memoryAfter {m : Memory} {a : Nat} (agree : vm.memory.Agree m a) (op : Op) :
    (vm.memoryAfter op).Agree ((vm.onMemory m).memoryAfter op) a := by
  cases op with
  | decimal x => exact agree.put _ _
  | store x => exact agree.put _ _
  | _ => exact agree

/-- An instruction whose block is the same in both memories changes all but memory alike. -/
theorem after_onMemory (vm : Vm w h) {m : Memory} {op : Op}
    (sprite : ∀ x y n, op = .draw x y n → (vm.onMemory m).block n = vm.block n)
    (load : ∀ x, op = .load x → (vm.onMemory m).block (x.val + 1) = vm.block (x.val + 1)) :
    (vm.onMemory m).after op = (vm.after op).onMemory ((vm.onMemory m).memoryAfter op) := by
  cases op with
  | draw x y n =>
    have hd : (vm.onMemory m).drawn x y n = vm.drawn x y n := by
      unfold drawn
      rw [sprite x y n rfl]
      rfl
    simp only [after, registersAfter, screenAfter, hd]
    rfl
  | load x =>
    simp only [after, registersAfter, load x rfl]
    rfl
  | _ => rfl

theorem block_of_sprite {m : Memory} {word : Word} {x y n : Digit}
    (hd : Op.decode word = some (.draw x y n))
    (block : ∀ a, word.Reads vm.index.toNat a → vm.memory.Agree m a) :
    (vm.onMemory m).block n = vm.block n := by
  obtain ⟨hf, -, -, rfl⟩ := Op.spelled_of_decode hd
  exact block_onMemory fun a hl hu => block a (.sprite hf hl hu)

theorem block_of_load {m : Memory} {word : Word} {x : Digit}
    (hd : Op.decode word = some (.load x))
    (block : ∀ a, word.Reads vm.index.toNat a → vm.memory.Agree m a) :
    (vm.onMemory m).block (x.val + 1) = vm.block (x.val + 1) := by
  obtain ⟨hf, rfl, hn⟩ := Op.spelled_of_decode hd
  exact block_onMemory fun a hl hu => block a (.load hf hn hl (Nat.le_of_lt_succ hu))

/-- A cycle on another memory that has the same word at the program counter gives the same
word or the same fault, and the memories agree afterwards wherever they did before. If they
agree on the block that the word reads as well, nothing but memory differs afterwards. -/
theorem cycle_reads_confined (vm : Vm w h) (m : Memory) (high : vm.memory.Agree m vm.pc.toNat)
    (low : vm.memory.Agree m (vm.pc.toNat + 1)) :
    (vm.onMemory m).cycle.1 = vm.cycle.1 ∧
      (∀ a, vm.memory.Agree m a → vm.cycle.2.memory.Agree (vm.onMemory m).cycle.2.memory a) ∧
      ((∀ word a, vm.At word → word.Reads vm.index.toNat a → vm.memory.Agree m a) →
        (vm.onMemory m).cycle.2 = vm.cycle.2.onMemory (vm.onMemory m).cycle.2.memory) := by
  -- The machines stay abreast in two relations: agreement at an address, and equality of all
  -- but memory, which a word that reads a block keeps only if the block is the same.
  have abreast := abreast_onMemory high low
  have agree (a : Nat) (ha : vm.memory.Agree m a) :
      (vm.onMemory m).cycle.1 = vm.cycle.1 ∧
        vm.cycle.2.memory.Agree (vm.onMemory m).cycle.2.memory a := by
    apply abreast.cycle (R := fun v v' => v.memory.Agree v'.memory a)
    case counted => exact ha
    case fetched => exact ha
    case after =>
      intro word op _ _ _
      have fetched : vm.fetched.memory.Agree m a := ha
      exact agree_memoryAfter fetched op
  refine ⟨(agree _ high).1, ?_, ?_⟩
  · intro a ha
    exact (agree a ha).2
  · intro block
    refine (abreast.cycle (R := fun v v' => v' = v.onMemory v'.memory) rfl rfl ?_).2
    intro word op reads decodes _
    have hb (a : Nat) (hr : word.Reads vm.fetched.index.toNat a) : vm.fetched.memory.Agree m a :=
      block word a (at_iff.mpr reads) hr
    apply vm.fetched.after_onMemory
    · rintro x y n rfl
      exact block_of_sprite decodes hb
    · rintro x rfl
      exact block_of_load decodes hb

/-- A load of two registers from the last two bytes of memory. -/
def lastBytes : Vm 64 32 :=
  { initial 64 32 ⟨1⟩ with
    memory := Memory.put ⟨Vector.replicate 4096 0⟩ 0 [0xF1, 0x65]
    index := 4094 }

/-- The same memory but for the byte in front of the last two. -/
def besideLastBytes : Memory := lastBytes.memory.put 4093 [0xFF]

theorem lastBytes_agree {a : Nat} (ha : a ≠ 4093) : lastBytes.memory.Agree besideLastBytes a := by
  intro hb
  rw [besideLastBytes, Memory.getElem_put, dif_neg]
  simp only [List.length_singleton]
  omega

theorem lastBytes_at : lastBytes.At ⟨0xF1, 0x65⟩ := ⟨by decide, by decide +kernel⟩

theorem lastBytes_ok : lastBytes.cycle.1 = .ok ⟨0xF1, 0x65⟩ := by
  have hd : Op.decode ⟨0xF1, 0x65⟩ = some (.load (Digit.of 1)) := by decide
  rw [cycle_of_accepted (at_iff.mp lastBytes_at) hd rfl]

theorem lastBytes_block {word : Word} {a : Nat} (ha : lastBytes.At word)
    (hr : word.Reads lastBytes.index.toNat a) : lastBytes.memory.Agree besideLastBytes a := by
  cases lastBytes_at.unique ha
  cases hr with
  | sprite family _ _ => exact absurd family (by decide)
  | load _ _ lower _ =>
    have hl : 4094 ≤ a := lower
    exact lastBytes_agree (by omega)

/-- A load of the last two bytes does not look at the byte before them. -/
theorem lastBytes_confined :
    (lastBytes.onMemory besideLastBytes).cycle.1 = .ok ⟨0xF1, 0x65⟩ ∧
      (lastBytes.onMemory besideLastBytes).cycle.2 =
        lastBytes.cycle.2.onMemory (lastBytes.onMemory besideLastBytes).cycle.2.memory := by
  obtain ⟨same, -, rest⟩ := cycle_reads_confined lastBytes besideLastBytes
    (lastBytes_agree (by decide)) (lastBytes_agree (by decide))
  exact ⟨same.trans lastBytes_ok, rest fun _ _ ha hr => lastBytes_block ha hr⟩

end Vm

end ChipEight
