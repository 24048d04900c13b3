import ChipEight.Proofs.Effect
import ChipEight.Proofs.Encoding
import ChipEight.Proofs.History

/-!
# Calls and returns over whole histories

No action touches the stack but a cycle that executes a call or a return, and these two work at
its end only. So the addresses below a depth that a history never leaves are the same at its end,
and a return comes back to the word behind its call.
-/
namespace ChipEight

namespace Op

theorem eq_call {word : Word} {op : Op} (hd : decode word = some op) (hf : word.family = 0x2) :
    op = .call word.nnn :=
  eq_of_spelled hd ⟨hf, rfl⟩

theorem eq_ret {word : Word} {op : Op} (hd : decode word = some op) (hw : word.opcode = 0x00EE) :
    op = .ret :=
  eq_of_spelled hd hw

end Op

namespace Vm

variable {w h : Nat}

def isCall : Except Fault (Option Word) → Bool
  | .ok (some word) => word.isCall
  | _ => false

def isReturn : Except Fault (Option Word) → Bool
  | .ok (some word) => word.isReturn
  | _ => false

inductive Moves (vm : Vm w h) (r : Except Fault (Option Word) × Vm w h) : Prop
  | call (calls : isCall r.1 = true) (returns : isReturn r.1 = false)
      (ends : r.2.stack.live = vm.stack.live ++ [vm.pc + 2])
  | ret (calls : isCall r.1 = false) (returns : isReturn r.1 = true)
      (used : 0 < vm.stack.depth) (ends : r.2.stack.live = vm.stack.live.dropLast)
  | still (calls : isCall r.1 = false) (returns : isReturn r.1 = false)
      (ends : r.2.stack = vm.stack)

theorem call_accepted {vm : Vm w h} {target : Fin 4096} :
    vm.refusal (.call target) = none ↔ vm.stack.depth < 32 := by
  have hl := vm.stack.depth_le
  simp only [refusal, ite_eq_right_iff, reduceCtorEq, imp_false]
  omega

theorem ret_accepted {vm : Vm w h} : vm.refusal .ret = none ↔ 0 < vm.stack.depth := by
  simp only [refusal, ite_eq_right_iff, reduceCtorEq, imp_false]
  omega

theorem stackAfter_of_other {vm : Vm w h} {word : Word} {op : Op} (hd : Op.decode word = some op)
    (hc : word.family ≠ 0x2) (hr : word.opcode ≠ 0x00EE) : vm.stackAfter op = vm.stack := by
  have hs := Op.spelled_of_decode hd
  cases op with
  | call target => exact absurd hs.1 hc
  | ret => exact absurd hs hr
  | _ => rfl

theorem cycle_moves (vm : Vm w h) : Moves vm (vm.cycle.1.map some, vm.cycle.2) := by
  cases vm.cycle_outcome with
  | stuck _ ends | unknown _ _ _ ends | refused _ _ _ _ _ _ ends =>
    rw [ends]
    exact .still rfl rfl rfl
  | done word op reads decodes accepts ends =>
    rw [ends]
    by_cases hf : word.family = 0x2
    · have ho : word.opcode ≠ 0x00EE := by
        intro ho
        rw [Op.family_of_opcode (by omega)] at hf
        cases hf
      rw [Op.eq_call decodes hf] at accepts ⊢
      exact .call (decide_eq_true hf) (decide_eq_false ho)
        (CallStack.live_pushed (call_accepted.mp accepts) _)
    · by_cases ho : word.opcode = 0x00EE
      · rw [Op.eq_ret decodes ho] at accepts ⊢
        exact .ret (decide_eq_false hf) (decide_eq_true ho) (ret_accepted.mp accepts)
          (CallStack.live_popped _)
      · exact .still (decide_eq_false hf) (decide_eq_false ho) (stackAfter_of_other decodes hf ho)

theorem perform_moves (vm : Vm w h) (a : Action) : Moves vm (vm.perform a) := by
  cases a with
  | load program =>
    by_cases hp : program.length ≤ Memory.programSpace
    · rw [perform_load_of_le vm hp]
      exact .still rfl rfl rfl
    · rw [perform_load_of_gt vm (Nat.lt_of_not_le hp)]
      exact .still rfl rfl rfl
  | cycle => exact vm.cycle_moves
  | tick => exact .still rfl rfl rfl
  | press key => rw [perform_press]; exact .still rfl rfl rfl
  | release key => rw [perform_release]; exact .still rfl rfl rfl

/-- One action keeps account of the depth. -/
theorem depth_perform (vm : Vm w h) (a : Action) :
    (vm.perform a).2.stack.depth + (if isReturn (vm.perform a).1 then 1 else 0) =
      vm.stack.depth + (if isCall (vm.perform a).1 then 1 else 0) := by
  rw [← CallStack.length_live, ← CallStack.length_live]
  cases vm.perform_moves a with
  | call calls returns ends => simp [calls, returns, ends]
  | ret calls returns used ends =>
    simp only [calls, returns, ends, List.length_dropLast, CallStack.length_live]
    exact Nat.sub_add_cancel used
  | still calls returns ends => simp [calls, returns, ends]

/-- Calls and returns keep account of the depth. -/
theorem depth_run (vm : Vm w h) (actions : List Action) :
    (vm.run actions).stack.depth + (vm.results actions).countP isReturn =
      vm.stack.depth + (vm.results actions).countP isCall := by
  induction actions generalizing vm with
  | nil => rfl
  | cons a actions ih =>
    have hs := vm.depth_perform a
    have hr := ih (vm.perform a).2
    simp only [run_cons, results, List.countP_cons]
    omega

/-- An action leaves what lies below a depth that it does not leave. -/
theorem take_live_perform {vm : Vm w h} {a : Action} {n : Nat} (before : n ≤ vm.stack.depth)
    (after : n ≤ (vm.perform a).2.stack.depth) :
    (vm.perform a).2.stack.live.take n = vm.stack.live.take n := by
  rw [← CallStack.length_live] at before after
  cases vm.perform_moves a with
  | call _ _ ends => rw [ends, List.take_append_of_le_length before]
  | ret _ _ _ ends =>
    rw [ends, List.length_dropLast] at after
    rw [ends, List.dropLast_eq_take, List.take_take, Nat.min_eq_left after]
  | still _ _ ends => rw [ends]

/-- What lies below a depth that a history never leaves stays as it is. -/
theorem take_live_run {vm : Vm w h} {actions : List Action} {n : Nat}
    (inside : ∀ m ≤ actions.length, n ≤ (vm.run (actions.take m)).stack.depth) :
    (vm.run actions).stack.live.take n = vm.stack.live.take n := by
  induction actions generalizing vm with
  | nil => rfl
  | cons a actions ih =>
    have before := inside 0 (Nat.zero_le _)
    have later : ∀ m ≤ actions.length, n ≤ ((vm.perform a).2.run (actions.take m)).stack.depth := by
      intro m hm
      exact inside (m + 1) (Nat.succ_le_succ hm)
    have after := later 0 (Nat.zero_le _)
    rw [run_cons, ih later]
    exact take_live_perform before after

/-- The next cycle is a call. After it the actions never leave the subroutine, and the
cycle behind them is the return to the depth of the call. -/
structure Visit (vm : Vm w h) (actions : List Action) : Prop where
  calls : ∃ word, vm.At word ∧ word.family = 0x2
  room : vm.stack.depth < 32
  inside : ∀ m ≤ actions.length,
    vm.stack.depth + 1 ≤ (vm.cycle.2.run (actions.take m)).stack.depth
  returns : ∃ word, (vm.cycle.2.run actions).At word ∧ word.opcode = 0x00EE
  level : (vm.cycle.2.run actions).stack.depth = vm.stack.depth + 1

theorem cycle_of_call {vm : Vm w h} {word : Word} (ha : vm.At word) (hf : word.family = 0x2)
    (hd : vm.stack.depth < 32) : vm.cycle = (.ok word, vm.fetched.after (.call word.nnn)) :=
  cycle_of_accepted (at_iff.mp ha) (Op.decode_of_spelled ⟨hf, rfl⟩) (call_accepted.mpr hd)

theorem cycle_of_return {vm : Vm w h} {word : Word} (ha : vm.At word) (ho : word.opcode = 0x00EE)
    (hd : 0 < vm.stack.depth) : vm.cycle = (.ok word, vm.fetched.after .ret) :=
  cycle_of_accepted (at_iff.mp ha) (Op.decode_of_spelled ho) (ret_accepted.mpr hd)

/-- A call puts the address of the word behind it on the stack. -/
theorem Visit.entered {vm : Vm w h} {actions : List Action} (hv : vm.Visit actions) :
    vm.cycle.2.stack.live = vm.stack.live ++ [vm.pc + 2] := by
  obtain ⟨word, ha, hf⟩ := hv.calls
  rw [cycle_of_call ha hf hv.room]
  exact CallStack.live_pushed hv.room _

/-- Before the return the stack is as the call has left it. -/
theorem Visit.kept {vm : Vm w h} {actions : List Action} (hv : vm.Visit actions) :
    (vm.cycle.2.run actions).stack.live = vm.stack.live ++ [vm.pc + 2] := by
  have kept := take_live_run hv.inside
  have hr : (vm.cycle.2.run actions).stack.live.length = vm.stack.depth + 1 := by
    rw [CallStack.length_live, hv.level]
  have hc : (vm.stack.live ++ [vm.pc + 2]).length = vm.stack.depth + 1 := by
    rw [List.length_append, CallStack.length_live, List.length_singleton]
  rw [hv.entered, List.take_of_length_le (Nat.le_of_eq hr),
    List.take_of_length_le (Nat.le_of_eq hc)] at kept
  exact kept

/-- The machine has moved past the word it stood at, and the stack is the same. -/
structure Resumed (vm vm' : Vm w h) : Prop where
  pc_eq : vm'.pc.toNat = vm.pc.toNat + 2
  depth_eq : vm'.stack.depth = vm.stack.depth
  slot_eq : ∀ i (hi : i < 32), i < vm.stack.depth → vm'.stack.slots[i] = vm.stack.slots[i]

/-- The return comes back to that address and takes it off the stack. -/
theorem Visit.resumed {vm : Vm w h} {actions : List Action} (hv : vm.Visit actions) :
    (∃ word, (vm.cycle.2.run actions).cycle.1 = .ok word) ∧
      vm.Resumed (vm.cycle.2.run actions).cycle.2 := by
  obtain ⟨word, ha, ho⟩ := hv.returns
  obtain ⟨call, hc, -⟩ := hv.calls
  have hd : 0 < (vm.cycle.2.run actions).stack.depth := by rw [hv.level]; omega
  rw [cycle_of_return ha ho hd]
  have live : (vm.cycle.2.run actions).stack.popped.live = vm.stack.live := by
    rw [CallStack.live_popped, hv.kept, List.dropLast_concat]
  refine ⟨⟨word, rfl⟩, ?_, ?_, ?_⟩
  · change (vm.cycle.2.run actions).stack.top.toNat = _
    rw [CallStack.top_of_live hv.kept]
    exact fetched_pc (at_iff.mp hc)
  · change (vm.cycle.2.run actions).stack.popped.depth = _
    rw [← CallStack.length_live, live, CallStack.length_live]
  · intro i hi hlow
    exact CallStack.slot_of_live live hi hlow

/-- A subroutine comes back to the word behind its call and gives the stack back as it
found it, whatever is done inside, as long as it does not return below its own level. And
in every history the depth counts the calls less the returns. -/
theorem return_address_kept :
    (∀ (vm : Vm w h) (actions : List Action), vm.Visit actions →
      vm.cycle.2.stack.depth = vm.stack.depth + 1 ∧
        (∃ word, (vm.cycle.2.run actions).cycle.1 = .ok word) ∧
        vm.Resumed (vm.cycle.2.run actions).cycle.2) ∧
      ∀ (vm : Vm w h) (actions : List Action),
        ((vm.run actions).stack.depth : Int) =
          vm.stack.depth + (vm.results actions).countP isCall -
            (vm.results actions).countP isReturn := by
  constructor
  · intro vm actions hv
    refine ⟨?_, hv.resumed⟩
    rw [← CallStack.length_live, hv.entered, List.length_append, CallStack.length_live]
    rfl
  · intro vm actions
    have hr := vm.depth_run actions
    omega

/-- A call at zero to a subroutine at four. The subroutine calls another, stumbles over a
word that is no instruction, and returns. -/
def nested : Vm 64 32 :=
  { initial 64 32 ⟨1⟩ with
    memory := Memory.put ⟨Vector.replicate 4096 0⟩ 0
      [0x20, 0x04, 0x00, 0xE0, 0x20, 0x0A, 0xFF, 0xFF, 0x00, 0xEE, 0x00, 0xEE] }

def nestedActions : List Action := [.cycle, .tick, .cycle, .press (Digit.of 7), .cycle]

theorem nested_visit : nested.Visit nestedActions where
  calls := ⟨⟨0x20, 0x04⟩, ⟨by decide, by decide +kernel⟩, by decide⟩
  room := by decide
  inside := by decide +kernel
  returns := ⟨⟨0x00, 0xEE⟩, ⟨by decide +kernel, by decide +kernel⟩, by decide⟩
  level := by decide +kernel

/-- A subroutine that calls another and meets a word that is no instruction comes back all the
same. -/
theorem nested_resumed :
    nested.Visit nestedActions ∧ nested.Resumed (nested.cycle.2.run nestedActions).cycle.2 :=
  ⟨nested_visit, (return_address_kept.1 nested nestedActions nested_visit).2.2⟩

end Vm

end ChipEight
