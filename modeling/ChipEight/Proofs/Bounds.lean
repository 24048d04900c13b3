import ChipEight.Proofs.Effect
import ChipEight.Proofs.History

/-!
# Bounds after every history

Most bounds of a machine the types carry. The others hold together: the program counter is
bounded because return addresses are, and return addresses are bounded because only a counter
that has passed the fetch is ever pushed.
-/
namespace ChipEight

/-- No slot holds more than the end of memory, and a slot in use at least what a fetch
at zero leaves behind. -/
structure CallStack.Addresses (s : CallStack) : Prop where
  slot_le : ∀ i (hi : i < 32), s.slots[i].toNat ≤ 0x1000
  two_le_live : ∀ i (hi : i < 32), i < s.depth → 2 ≤ s.slots[i].toNat

def Timers.InByte (t : Timers) : Prop := (0 ≤ t.delay ∧ t.delay ≤ 255) ∧ 0 ≤ t.sound ∧ t.sound ≤ 255

namespace CallStack

theorem addresses_empty : empty.Addresses where
  slot_le i hi := by simp [empty]
  two_le_live i _ hd := absurd hd (Nat.not_lt_zero i)

theorem Addresses.popped {s : CallStack} (hs : s.Addresses) : s.popped.Addresses where
  slot_le := hs.slot_le
  two_le_live i hi hd := hs.two_le_live i hi (Nat.lt_of_lt_of_le hd (Nat.sub_le _ _))

/-- A push of an address behind a fetched word keeps the bounds of the slots. -/
theorem Addresses.pushed {s : CallStack} (hs : s.Addresses) {address : UInt16}
    (hl : 2 ≤ address.toNat) (hu : address.toNat ≤ 0x1000) : (s.pushed address).Addresses := by
  unfold CallStack.pushed
  split
  next hd =>
    constructor
    · intro i hi
      rw [Vector.getElem_set]
      split
      · exact hu
      · exact hs.slot_le i hi
    · intro i hi hlive
      rw [Vector.getElem_set]
      split
      · exact hl
      · exact hs.two_le_live i hi (by simp only at hlive; omega)
  next => exact hs

/-- A return never leads beyond the end of memory. -/
theorem Addresses.top_le {s : CallStack} (hs : s.Addresses) : s.top.toNat ≤ 0x1000 := by
  unfold top
  split
  next hd =>
    have hl := s.depth_le
    exact hs.slot_le (s.depth - 1) (by omega)
  next => decide

end CallStack

namespace Timers

theorem inByte_tick {t : Timers} (ht : t.InByte) : t.tick.InByte := by
  unfold InByte tick down at *
  simp only
  split <;> split <;> omega

end Timers

namespace Vm

variable {w h : Nat}

theorem le_of_load {vm loaded : Vm w h} {program : List UInt8}
    (hl : vm.load program = .ok loaded) : Memory.programStart + program.length ≤ 4096 := by
  by_cases hp : program.length > Memory.programSpace
  · simp only [load, Machine.load, hp, ↓reduceIte, Except.map] at hl
    cases hl
  · simp only [Memory.programSpace, Memory.programStart, Memory.size] at hp ⊢
    omega

/-- The bounds that the types do not carry. -/
structure Tame (vm : Vm w h) : Prop where
  pc_le : vm.pc.toNat ≤ 0x10FE
  addresses : vm.stack.Addresses
  timers : vm.timers.InByte

/-- No instruction takes the program counter further than `Bnnn` does. -/
theorem pcAfter_le {vm : Vm w h} (hs : vm.stack.Addresses) (hl : 2 ≤ vm.pc.toNat)
    (hu : vm.pc.toNat ≤ 0x1000) (op : Op) : (vm.pcAfter op).toNat ≤ 0x10FE := by
  have two : (vm.pc + 2).toNat ≤ vm.pc.toNat + 2 := by
    rw [UInt16.toNat_add]
    exact Nat.mod_le _ _
  have word (n : Nat) : (UInt16.ofNat n).toNat ≤ n := Nat.mod_le _ _
  cases op with
  | ret => exact Nat.le_trans hs.top_le (by decide)
  | jump target | call target => exact Nat.le_trans (word _) (by omega)
  | jumpFrom address =>
    have hr := (vm.reg (Digit.of 0)).toNat_lt
    have ha := address.isLt
    exact Nat.le_trans (word _) (by omega)
  | waitKey x =>
    simp only [pcAfter]
    split
    · have hr : (vm.pc - 2).toNat = vm.pc.toNat - 2 := UInt16.toNat_sub_of_le _ _ hl
      omega
    · omega
  | _ =>
    simp only [pcAfter]
    split <;> omega

theorem stackAfter_addresses {vm : Vm w h} (hs : vm.stack.Addresses) (hl : 2 ≤ vm.pc.toNat)
    (hu : vm.pc.toNat ≤ 0x1000) (op : Op) : (vm.stackAfter op).Addresses := by
  cases op with
  | call target => exact hs.pushed hl hu
  | ret => exact hs.popped
  | _ => exact hs

/-- Timers are set from registers, so they are bytes. -/
theorem timersAfter_inByte {vm : Vm w h} (ht : vm.timers.InByte) (op : Op) :
    (vm.timersAfter op).InByte := by
  cases op with
  | setDelay x =>
    have hr := (vm.reg x).toNat_lt
    exact ⟨by simp only [timersAfter]; omega, ht.2⟩
  | setSound x =>
    have hr := (vm.reg x).toNat_lt
    exact ⟨ht.1, by simp only [timersAfter]; omega⟩
  | _ => exact ht

theorem Tame.counted {vm : Vm w h} (ht : vm.Tame) : vm.counted.Tame :=
  ⟨ht.pc_le, ht.addresses, ht.timers⟩

theorem Tame.fetched {vm : Vm w h} (ht : vm.Tame) {word : Word}
    (hw : vm.memory.word vm.pc = .ok word) : vm.fetched.Tame := by
  have hb := Memory.le_of_word hw
  exact ⟨by rw [fetched_pc hw]; omega, ht.addresses, ht.timers⟩

theorem Tame.after {vm : Vm w h} (ht : vm.Tame) {word : Word}
    (hw : vm.memory.word vm.pc = .ok word) (op : Op) : (vm.fetched.after op).Tame := by
  have hb := Memory.le_of_word hw
  have hp := fetched_pc hw
  have hl : 2 ≤ vm.fetched.pc.toNat := by omega
  have hu : vm.fetched.pc.toNat ≤ 0x1000 := by omega
  have hf := ht.fetched hw
  exact ⟨pcAfter_le hf.addresses hl hu op, stackAfter_addresses hf.addresses hl hu op,
    timersAfter_inByte hf.timers op⟩

/-- A cycle keeps the bounds, whether it fails or not. -/
theorem Tame.cycle {vm : Vm w h} (ht : vm.Tame) : vm.cycle.2.Tame := by
  cases vm.cycle_outcome with
  | stuck _ ends => rw [ends]; exact ht.counted
  | unknown word reads _ ends => rw [ends]; exact ht.fetched reads
  | refused word op f reads _ _ ends => rw [ends]; exact ht.fetched reads
  | done word op reads _ _ ends => rw [ends]; exact ht.after reads op

theorem Tame.perform {vm : Vm w h} (ht : vm.Tame) (a : Action) : (vm.perform a).2.Tame := by
  cases a with
  | load program =>
    by_cases hp : program.length ≤ Memory.programSpace
    · rw [perform_load_of_le vm hp]
      have hp : (UInt16.ofNat Memory.programStart).toNat ≤ 0x10FE := by decide
      exact ⟨hp, ht.addresses, ht.timers⟩
    · rw [perform_load_of_gt vm (Nat.lt_of_not_le hp)]
      exact ht
  | cycle => exact ht.cycle
  | tick => exact ⟨ht.pc_le, ht.addresses, Timers.inByte_tick ht.timers⟩
  | press key => rw [perform_press]; exact ⟨ht.pc_le, ht.addresses, ht.timers⟩
  | release key => rw [perform_release]; exact ⟨ht.pc_le, ht.addresses, ht.timers⟩

theorem tame_initial (random : Xorshift) : (initial w h random).Tame where
  pc_le := by simp [initial, Machine.initial]
  addresses := CallStack.addresses_empty
  timers := by simp [initial, Machine.initial, Timers.InByte, Timers.zero]

theorem tame_run (random : Xorshift) (actions : List Action) :
    ((initial w h random).run actions).Tame :=
  run_keeps (fun _ a ht => ht.perform a) (tame_initial random) actions

structure Bounded (vm : Vm w h) : Prop where
  memory_size : vm.memory.bytes.toList.length = 4096
  memory_le : ∀ b ∈ vm.memory.bytes.toList, b.toNat ≤ 255
  registers_size : vm.registers.toList.length = 16
  register_le : ∀ b ∈ vm.registers.toList, b.toNat ≤ 255
  index_le : vm.index.toNat ≤ 0xFFFF
  pc_le : vm.pc.toNat ≤ 0x10FE
  depth_le : vm.stack.depth ≤ 32
  slot_le : ∀ i (hi : i < 32), vm.stack.slots[i].toNat ≤ 0x1000
  two_le_live : ∀ i (hi : i < 32), i < vm.stack.depth → 2 ≤ vm.stack.slots[i].toNat
  delay_range : 0 ≤ vm.timers.delay ∧ vm.timers.delay ≤ 255
  sound_range : 0 ≤ vm.timers.sound ∧ vm.timers.sound ≤ 255
  random_lt : vm.random.state.toNat < UInt32.size
  pixel_le : ∀ x y, (vm.screen.pixel x y).toNat ≤ 1
  key_le : ∀ k, (vm.keypad.get k).toNat ≤ 1

theorem Tame.bounded {vm : Vm w h} (ht : vm.Tame) : vm.Bounded where
  memory_size := by simp
  memory_le b _ := Nat.le_of_lt_succ b.toNat_lt
  registers_size := by simp
  register_le b _ := Nat.le_of_lt_succ b.toNat_lt
  index_le := Nat.le_of_lt_succ vm.index.toNat_lt
  pc_le := ht.pc_le
  depth_le := vm.stack.depth_le
  slot_le := ht.addresses.slot_le
  two_le_live := ht.addresses.two_le_live
  delay_range := ht.timers.1
  sound_range := ht.timers.2
  random_lt := vm.random.state.toNat_lt
  pixel_le x y := Bool.toNat_le _
  key_le k := Bool.toNat_le _

/-- The instructions compute as with whole numbers. `m` is the machine once a word has been
fetched: the fetch has not wrapped, a skip does not, waiting does not fall below zero, and a
return address fits into its slot. What is stored or loaded ends within memory, and what is read
has the length asked for. -/
structure Exact (vm : Vm w h) : Prop where
  fetch : ∀ word m, fetchWord.on vm = (.ok word, m) → m.pc.toNat = vm.pc.toNat + 2
  skip : ∀ word m, fetchWord.on vm = (.ok word, m) → ∀ op, m.skips op = true →
    ((exec op).on m).2.pc.toNat = m.pc.toNat + 2
  wait : ∀ word m, fetchWord.on vm = (.ok word, m) → ∀ x, m.keypad.first = none →
    2 ≤ m.pc.toNat ∧ ((exec (.waitKey x)).on m).2.pc.toNat = m.pc.toNat - 2
  push : ∀ word m, fetchWord.on vm = (.ok word, m) → m.stack.depth < 32 →
    m.stack.push m.pc.toNat = .ok (m.stack.pushed m.pc)
  call : ∀ word m, fetchWord.on vm = (.ok word, m) → ∀ target, m.stack.depth < 32 →
    ((exec (.call target)).on m).1 = .ok () ∧ ((exec (.call target)).on m).2.pc.toNat = target ∧
      ((exec (.call target)).on m).2.stack.top.toNat = m.pc.toNat
  jumpFrom : ∀ address, ((exec (.jumpFrom address)).on vm).2.pc.toNat =
    address + (vm.reg (Digit.of 0)).toNat
  glyph : ∀ x, ((exec (.glyph x)).on vm).2.index.toNat = Memory.fontBase + 5 * (vm.reg x).toNat
  delay : ∀ x, ((((exec (.getDelay x)).on vm).2.reg x).toNat : Int) = vm.timers.delay
  store : ∀ data m, vm.memory.store vm.index.toNat data = .ok m →
    vm.index.toNat + data.length ≤ 4096
  load : ∀ program loaded, vm.load program = .ok loaded →
    Memory.programStart + program.length ≤ 4096
  read : ∀ (n : Nat) bytes, vm.memory.read vm.index.toNat n = .ok bytes → bytes.length = n

/-- A fetch that succeeds lies within memory, so it does not wrap. -/
theorem pc_of_fetchWord {vm m : Vm w h} {word : Word} (fetches : fetchWord.on vm = (.ok word, m)) :
    vm.pc.toNat + 2 ≤ 4096 ∧ m.pc.toNat = vm.pc.toNat + 2 := by
  by_cases beyond : 4096 < vm.pc.toNat + 2
  · rw [fetchWord_of_gt beyond] at fetches
    cases fetches
  · have reads := vm.memory.word_of_le (Nat.le_of_not_lt beyond)
    rw [fetchWord_of_word reads] at fetches
    cases fetches
    exact ⟨Nat.le_of_not_lt beyond, fetched_pc reads⟩

theorem pc_of_skips {vm : Vm w h} {op : Op} (skips : vm.skips op = true) :
    ((exec op).on vm).2.pc = vm.pc + 2 := by
  have accepts : vm.refusal op = none := by
    cases op with
    | skipByte _ _ | skipNotByte _ _ | skipSame _ _ | skipOther _ _ | skipKey _ | skipNoKey _ => rfl
    | _ => cases skips
  rw [on_exec_of_accepted accepts]
  exact pcAfter_of_skips skips

/-- A wait without a key takes the program counter back to its own word. -/
theorem pc_of_waitKey {vm : Vm w h} (x : Digit) (up : vm.keypad.first = none) :
    ((exec (.waitKey x)).on vm).2.pc = vm.pc - 2 := by
  have accepts : vm.refusal (.waitKey x) = none := rfl
  rw [on_exec_of_accepted accepts]
  exact if_pos up

theorem on_call {vm : Vm w h} (target : Fin 4096) (room : vm.stack.depth < 32) :
    (exec (.call target)).on vm = (.ok (), vm.after (.call target)) :=
  on_exec_of_accepted (if_neg (Nat.ne_of_lt room))

/-- Within the bounds the next cycle computes as with whole numbers. -/
theorem Tame.exact {vm : Vm w h} (ht : vm.Tame) : vm.Exact := by
  constructor
  case fetch =>
    intro word m fetches
    exact (pc_of_fetchWord fetches).2
  case skip =>
    intro word m fetches op skips
    have hm := pc_of_fetchWord fetches
    rw [pc_of_skips skips, UInt16.toNat_add]
    exact Nat.mod_eq_of_lt (by simp only [UInt16.reduceToNat]; omega)
  case wait =>
    intro word m fetches x up
    have hm := pc_of_fetchWord fetches
    have hl : 2 ≤ m.pc.toNat := by omega
    rw [pc_of_waitKey x up]
    exact ⟨hl, UInt16.toNat_sub_of_le _ _ hl⟩
  case push =>
    intro word m _ room
    exact CallStack.push_of_lt room m.pc
  case call =>
    intro word m _ target room
    have ht := target.isLt
    rw [on_call target room]
    refine ⟨rfl, Nat.mod_eq_of_lt (by omega), ?_⟩
    exact congrArg UInt16.toNat (CallStack.top_of_live (CallStack.live_pushed room m.pc))
  case jumpFrom =>
    intro address
    have hr := (vm.reg (Digit.of 0)).toNat_lt
    have ha := address.isLt
    exact Nat.mod_eq_of_lt (by omega)
  case glyph =>
    intro x
    have hr := (vm.reg x).toNat_lt
    exact Nat.mod_eq_of_lt (by simp only [Memory.fontBase]; omega)
  case delay =>
    intro x
    exact vm.reg_getDelay x ht.timers.1.1 ht.timers.1.2
  case store =>
    intro data m stores
    exact Memory.le_of_store stores
  case load =>
    intro program loaded loads
    exact le_of_load loads
  case read =>
    intro n bytes reads
    exact Memory.length_of_read reads

/-- After every history of a fresh machine all parts keep their bounds, and the next
cycle computes without a wrap. -/
theorem run_bounded (random : Xorshift) (actions : List Action) :
    ((initial w h random).run actions).Bounded ∧ ((initial w h random).run actions).Exact := by
  have ht : ((initial w h random).run actions).Tame := tame_run random actions
  exact ⟨ht.bounded, ht.exact⟩

end Vm

end ChipEight
