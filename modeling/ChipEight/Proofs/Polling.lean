import ChipEight.Proofs.Cadence
import ChipEight.Proofs.ControlFlow
import ChipEight.Proofs.Interleaving

/-!
# Waiting for a key

A machine waits by executing the same word again and again: as long as no key is down, a cycle on
that word takes the program counter back to it and changes nothing but the count of cycles. So
after any number of cycles, with ticks and key events between them, the machine is as it was at
the start, its timers and its keypad apart. The first cycle that finds a key down puts the lowest
such key into the register and moves on.
-/
namespace ChipEight

def Action.isCycle : Action → Bool
  | .cycle => true
  | _ => false

def Keypad.struck (p : Keypad) : Action → Keypad
  | .press key => p.put key true
  | .release key => p.put key false
  | _ => p

namespace Vm

variable {w h : Nat} {vm : Vm w h} {word : Word} {actions : List Action}

theorem keypad_perform (vm : Vm w h) (a : Action) :
    (vm.perform a).2.keypad = vm.keypad.struck a := by
  cases a with
  | load program =>
    by_cases hp : program.length ≤ Memory.programSpace
    · rw [perform_load_of_le vm hp]
      rfl
    · rw [perform_load_of_gt vm (Nat.lt_of_not_le hp)]
      rfl
  | cycle => exact vm.keypad_cycle
  | tick => rfl
  | press key => rw [perform_press]; rfl
  | release key => rw [perform_release]; rfl

/-- The machine after actions that have left no trace but in the count of cycles, the timers and
the keypad. -/
def waited (vm : Vm w h) (actions : List Action) : Vm w h :=
  { vm with
    cycles := vm.cycles + actions.countP Action.isCycle
    timers := vm.timers.ticks (actions.countP Action.isTick)
    keypad := actions.foldl Keypad.struck vm.keypad }

theorem waited_cons (vm : Vm w h) (a : Action) (actions : List Action) :
    vm.waited (a :: actions) = (vm.waited [a]).waited actions := by
  simp only [waited, List.countP_cons, List.countP_nil, Nat.zero_add, List.foldl_cons,
    List.foldl_nil, Nat.add_comm (actions.countP _), Timers.ticks_add, Nat.add_assoc]

/-- Nothing of it shows in the word at the program counter. -/
theorem At.waited (ha : vm.At word) (actions : List Action) : (vm.waited actions).At word := ha

/-- A history without loads in which no key is down whenever a cycle comes. -/
structure Unanswered (vm : Vm w h) (actions : List Action) : Prop where
  unloaded : ∀ program, Action.load program ∉ actions
  up : ∀ before after, actions = before ++ .cycle :: after →
    ∀ k, (vm.run before).keypad.get k = false

theorem unanswered_nil (vm : Vm w h) : vm.Unanswered [] where
  unloaded _ := List.not_mem_nil
  up before after split := by simp at split

theorem unanswered_cons {a : Action} :
    vm.Unanswered (a :: actions) ↔
      (∀ program, a ≠ .load program) ∧ (a = .cycle → ∀ k, vm.keypad.get k = false) ∧
        (vm.perform a).2.Unanswered actions := by
  constructor
  · rintro ⟨unloaded, up⟩
    refine ⟨?_, ?_, ?_, ?_⟩
    · rintro program rfl
      exact unloaded program List.mem_cons_self
    · rintro rfl
      exact up [] actions rfl
    · intro program member
      exact unloaded program (List.mem_cons_of_mem a member)
    · rintro before after rfl
      exact up (a :: before) after rfl
  · rintro ⟨unloaded, now, later⟩
    constructor
    · intro program member
      rcases List.mem_cons.mp member with rfl | member
      · exact unloaded program rfl
      · exact later.unloaded program member
    · intro before after split
      cases before with
      | nil =>
        cases split
        exact now rfl
      | cons b before =>
        cases split
        exact later.up before after rfl

theorem Unanswered.left {before after : List Action} (unanswered : vm.Unanswered (before ++ after)) :
    vm.Unanswered before where
  unloaded program member := unanswered.unloaded program (List.mem_append_left after member)
  up := by
    rintro earlier rest rfl
    exact unanswered.up earlier (rest ++ after) (by simp)

/-- A cycle that waits changes nothing but the count of cycles. -/
theorem cycle_of_waits (ha : vm.At word) (waits : vm.Waits word) :
    vm.cycle = (.ok word, vm.waited [.cycle]) := by
  have hs : (Op.waitKey word.x).Spelled word := ⟨waits.family, rfl, waits.low⟩
  have none : vm.fetched.keypad.first = none := vm.keypad.first_eq_none_iff.mpr waits.up
  have kept : vm.fetched.registersAfter (.waitKey word.x) = vm.registers := by
    simp only [registersAfter, none]
    rfl
  rw [cycle_of_accepted (at_iff.mp ha) (Op.decode_of_spelled hs) rfl, after, pcAfter_of_waits waits,
    kept]
  rfl

/-- A cycle that finds a key down moves on with it. -/
theorem cycle_of_key {k : Digit} (ha : vm.At word) (family : word.family = 0xF)
    (low : word.nn = 0x0A) (first : vm.keypad.first = some k) :
    vm.cycle = (.ok word, { vm with
      registers := vm.registers.put word.x (UInt8.ofNat k)
      pc := vm.pc + 2
      cycles := vm.cycles + 1 }) := by
  have hs : (Op.waitKey word.x).Spelled word := ⟨family, rfl, low⟩
  have first : vm.fetched.keypad.first = some k := first
  have moved : vm.fetched.pcAfter (.waitKey word.x) = vm.pc + 2 := by
    simp only [pcAfter, first]
    rfl
  have set : vm.fetched.registersAfter (.waitKey word.x) =
      vm.registers.put word.x (UInt8.ofNat k) := by
    simp only [registersAfter, first]
    rfl
  rw [cycle_of_accepted (at_iff.mp ha) (Op.decode_of_spelled hs) rfl, after, moved, set]
  rfl

/-- One action while no key is down leaves no trace. -/
theorem perform_of_unanswered {a : Action} (ha : vm.At word) (family : word.family = 0xF)
    (low : word.nn = 0x0A) (unanswered : vm.Unanswered (a :: actions)) :
    (vm.perform a).2 = vm.waited [a] := by
  obtain ⟨unloaded, up, -⟩ := unanswered_cons.mp unanswered
  cases a with
  | load program => exact absurd rfl (unloaded program)
  | cycle =>
    change vm.cycle.2 = _
    rw [cycle_of_waits ha ⟨family, low, up rfl⟩]
  | tick => rfl
  | press key => rw [perform_press]; rfl
  | release key => rw [perform_release]; rfl

theorem run_of_unanswered (ha : vm.At word) (family : word.family = 0xF) (low : word.nn = 0x0A)
    (unanswered : vm.Unanswered actions) : vm.run actions = vm.waited actions := by
  induction actions generalizing vm with
  | nil => rfl
  | cons a actions ih =>
    have now := perform_of_unanswered ha family low unanswered
    have later := (unanswered_cons.mp unanswered).2.2
    rw [now] at later
    rw [run_cons, now, ih (ha.waited [a]) later]
    exact (vm.waited_cons a actions).symm

/-- What a history leaves of a machine that waits for a key, and what the next cycle does if a key
is down by then. -/
structure Polled (vm : Vm w h) (word : Word) (actions : List Action) : Prop where
  succeeds : ∀ before after, actions = before ++ .cycle :: after →
    (vm.run before).cycle.1 = .ok word
  state : vm.run actions = vm.waited actions
  delay : TimerClock.CountedDown vm.timers.delay (actions.countP Action.isTick)
    (vm.run actions).timers.delay
  sound : TimerClock.CountedDown vm.timers.sound (actions.countP Action.isTick)
    (vm.run actions).timers.sound
  next : (vm.run actions).At word
  answered : ∀ key, (vm.run actions).keypad.get key = true →
    ∃ k, (vm.run actions).keypad.get k = true ∧
      (∀ j < k, (vm.run actions).keypad.get j = false) ∧
      (vm.run actions).cycle = (.ok word, { vm.run actions with
        registers := (vm.run actions).registers.put word.x (UInt8.ofNat k)
        pc := vm.pc + 2
        cycles := (vm.run actions).cycles + 1 }) ∧
      (vm.pc + 2).toNat = vm.pc.toNat + 2

/-- A machine that waits for a key stays as it is through cycles, ticks and key events, as long as
no cycle finds a key down. The first that does takes the lowest key and goes on behind the word. -/
theorem wait_polls (vm : Vm w h) (word : Word) (ha : vm.At word) (family : word.family = 0xF)
    (low : word.nn = 0x0A) (actions : List Action) (unanswered : vm.Unanswered actions) :
    vm.Polled word actions := by
  have state := run_of_unanswered ha family low unanswered
  have next : (vm.run actions).At word := by
    rw [state]
    exact ha.waited actions
  constructor
  case succeeds =>
    rintro before after rfl
    have up := unanswered.up before after rfl
    rw [run_of_unanswered ha family low unanswered.left] at up ⊢
    have waits : (vm.waited before).Waits word := ⟨family, low, up⟩
    rw [cycle_of_waits (ha.waited before) waits]
  case state => exact state
  case delay =>
    rw [state, waited, Timers.ticks_eq]
    exact TimerClock.countedDown_left ..
  case sound =>
    rw [state, waited, Timers.ticks_eq]
    exact TimerClock.countedDown_left ..
  case next => exact next
  case answered =>
    intro key down
    cases first : (vm.run actions).keypad.first with
    | none =>
      have up := (Keypad.first_eq_none_iff _).mp first key
      rw [down] at up
      cases up
    | some k =>
      obtain ⟨pressed, lowest⟩ := (Keypad.first_eq_some_iff _ k).mp first
      refine ⟨k, pressed, lowest, ?_, fetched_pc (at_iff.mp ha)⟩
      rw [cycle_of_key next family low first, state]
      rfl

/-- The wait for a key in the last two bytes of memory. -/
def waiting : Vm 64 32 :=
  { initial 64 32 ⟨1⟩ with
    memory := Memory.put ⟨Vector.replicate 4096 0⟩ 4094 [0xF5, 0x0A]
    pc := 4094
    timers := ⟨1, 9⟩ }

/-- A key that goes up again before a cycle sees it, and two that stay down. -/
def waitingActions : List Action :=
  [.cycle, .tick, .press (Digit.of 9), .tick, .release (Digit.of 9), .cycle, .press (Digit.of 12),
    .press (Digit.of 4)]

theorem waiting_at : waiting.At ⟨0xF5, 0x0A⟩ := ⟨by decide, by simp [waiting, Memory.put]⟩

theorem waiting_unanswered : waiting.Unanswered waitingActions := by
  simp only [waitingActions, unanswered_cons, keypad_perform, unanswered_nil, ne_eq, reduceCtorEq,
    not_false_eq_true, implies_true, forall_const, and_true, true_and, false_implies]
  decide

/-- A key that goes up before a cycle sees it is missed, and of two that stay down the lower one
is taken. -/
theorem waiting_polled :
    waiting.Unanswered waitingActions ∧
      (waiting.run waitingActions).timers = ⟨0, 7⟩ ∧
      (waiting.run waitingActions).cycle.2.reg (Digit.of 5) = 4 ∧
      (waiting.run waitingActions).cycle.2.pc = 4096 := by
  have polled := wait_polls waiting _ waiting_at (by decide) rfl _ waiting_unanswered
  have lowest : ∀ k, (waiting.run waitingActions).keypad.get k = true →
      (∀ j < k, (waiting.run waitingActions).keypad.get j = false) → k = Digit.of 4 := by
    rw [polled.state]
    decide
  obtain ⟨k, pressed, lower, ends, -⟩ := polled.answered (Digit.of 4) (by rw [polled.state]; decide)
  cases lowest k pressed lower
  refine ⟨waiting_unanswered, by rw [polled.state]; decide, ?_, ?_⟩
  · rw [ends]
    exact Bank.get_put_same ..
  · rw [ends]
    rfl

end Vm

end ChipEight
