import ChipEight.Proofs.Footprint

/-!
# The call stack as a list

Of its slots a stack shows no more than those in use, and what a machine answers when it is asked
to push and pop is what a list of at most 32 numbers answers: a full list refuses any number, a
list with room those that need more than sixteen bits, and an empty list has nothing to give.
What earlier calls have left in the other slots never shows. A use that is refused changes
nothing, and any other touches nothing of the machine but its stack, and of the slots at most the
first free one.
-/
namespace ChipEight

/-- Go from state to state by a list of inputs: the answers, and the last state. -/
def conduct {σ α β : Type} (step : σ → α → β × σ) (s : σ) : List α → List β × σ
  | [] => ([], s)
  | a :: as => ((step s a).1 :: (conduct step (step s a).2 as).1, (conduct step (step s a).2 as).2)

/-- If each step is a step of another system, seen through a view of the states and of the answers,
then so is any number of steps. -/
theorem conduct_view {σ τ α β γ : Type} {step : σ → α → β × σ} {other : τ → α → γ × τ}
    {view : σ → τ} {told : β → γ}
    (simulates : ∀ s a, other (view s) a = (told (step s a).1, view (step s a).2))
    (s : σ) (as : List α) :
    conduct other (view s) as = ((conduct step s as).1.map told, view (conduct step s as).2) := by
  induction as generalizing s with
  | nil => rfl
  | cons a as ih => simp only [conduct, simulates, ih, List.map_cons]

namespace CallStack

inductive Use where
  | push (value : Int)
  | pop
  deriving DecidableEq, Repr

variable {s : CallStack}

/-- The return addresses in use as whole numbers, oldest first. -/
def entries (s : CallStack) : List Int := s.live.map fun address => address.toNat

@[simp] theorem length_entries (s : CallStack) : s.entries.length = s.depth := by
  rw [entries, List.length_map, length_live]

theorem entries_pushed (room : s.depth < 32) (address : UInt16) :
    (s.pushed address).entries = s.entries ++ [(address.toNat : Int)] := by
  rw [entries, live_pushed room, List.map_append, List.map_singleton]
  rfl

theorem entries_popped (s : CallStack) : s.popped.entries = s.entries.dropLast := by
  rw [entries, live_popped, List.map_dropLast]
  rfl

theorem getLast?_entries (used : 0 < s.depth) : s.entries.getLast? = some (s.top.toNat : Int) := by
  have nonempty : s.live ≠ [] := by
    rw [← List.length_pos_iff, length_live]
    exact used
  have top : s.live.getLast nonempty = s.top :=
    (top_of_live (List.dropLast_concat_getLast nonempty).symm).symm
  rw [entries, List.getLast?_map, List.getLast?_eq_some_getLast nonempty, top]
  rfl

inductive Pushes (s : CallStack) (value : Int) (r : Except Fault CallStack) : Prop
  | full (full : s.depth = 32) (ends : r = .error .stackOverflow)
  | wide (f : Fault) (room : s.depth < 32) (wide : value < 0 ∨ 65535 < value)
      (kind : f.kind = .overflow) (ends : r = .error f)
  | done (address : UInt16) (room : s.depth < 32) (fits : value = address.toNat)
      (ends : r = .ok (s.pushed address))

theorem pushes (s : CallStack) (value : Int) : s.Pushes value (s.push value) := by
  have hl := s.depth_le
  by_cases full : s.depth = 32
  · exact .full full (push_of_full full value)
  have room : s.depth < 32 := by omega
  by_cases wide : value < 0 ∨ 65535 < value
  · have hn : ¬(0 ≤ value ∧ value.toNat < 65536) := by omega
    by_cases word : Axis.inWord value
    · refine .wide (.wideAddress value) room wide rfl ?_
      simp only [push, room, hn, word, ↓reduceDIte, ↓reduceIte]
    · refine .wide .beyondWord room wide rfl ?_
      simp only [push, room, hn, word, ↓reduceDIte, ↓reduceIte, Bool.false_eq_true]
  · have fits : value = (UInt16.ofNat value.toNat).toNat := by
      rw [UInt16.toNat_ofNat', Nat.mod_eq_of_lt] <;> omega
    refine .done _ room fits ?_
    have := push_of_lt room (UInt16.ofNat value.toNat)
    rwa [← fits] at this

end CallStack

/-- A list of at most 32 numbers, the youngest last, each of at most sixteen bits. -/
def BoundedList.serve (entries : List Int) : CallStack.Use → Except Kind (Option Int) × List Int
  | .push value =>
    if entries.length = 32 then (.error .stackOverflow, entries)
    else if value < 0 ∨ 65535 < value then (.error .overflow, entries)
    else (.ok none, entries ++ [value])
  | .pop =>
    match entries.getLast? with
    | none => (.error .stackUnderflow, entries)
    | some value => (.ok (some value), entries.dropLast)

namespace Vm

variable {w h : Nat} {vm : Vm w h}

/-- One use of the stack. The answer to a pop is the address. -/
def useStack : CallStack.Use → Routine (Vm w h) (Option Int)
  | .push value => do
    pushAddress value
    return none
  | .pop => do
    return some (← popAddress).toNat

def serve (vm : Vm w h) (use : CallStack.Use) : Except Fault (Option Int) × Vm w h :=
  (useStack use).on vm

theorem serve_push_of_error {value : Int} {f : Fault} (fails : vm.stack.push value = .error f) :
    vm.serve (.push value) = (.error f, vm) := by
  simp only [serve, useStack, pushAddress, onMachine, Machine.push, Routine.on_bind,
    Routine.on_attempt, fails, Except.map]

theorem serve_push_of_ok {value : Int} {s : CallStack} (succeeds : vm.stack.push value = .ok s) :
    vm.serve (.push value) = (.ok none, { vm with stack := s }) := by
  simp only [serve, useStack, pushAddress, onMachine, Machine.push, Routine.on_bind,
    Routine.on_attempt, Routine.on_pure, succeeds, Except.map]

theorem serve_pop_of_empty (empty : vm.stack.depth = 0) :
    vm.serve .pop = (.error .stackUnderflow, vm) := by
  simp only [serve, useStack, popAddress, onMachine, Machine.pop, Routine.on_bind,
    Routine.on_attempt, CallStack.pop_of_empty empty, Except.map]

theorem serve_pop_of_pos (used : 0 < vm.stack.depth) :
    vm.serve .pop = (.ok (some vm.stack.top.toNat), { vm with stack := vm.stack.popped }) := by
  simp only [serve, useStack, popAddress, onMachine, Machine.pop, Routine.on_bind,
    Routine.on_attempt, Routine.on_pure, CallStack.pop_of_pos used, Except.map]

/-- One use of the stack is the same use of the list, and the faults are of the same kind. -/
theorem serve_entries (vm : Vm w h) (use : CallStack.Use) :
    BoundedList.serve vm.stack.entries use =
      ((vm.serve use).1.mapError Fault.kind, (vm.serve use).2.stack.entries) := by
  cases use with
  | push value =>
    cases vm.stack.pushes value with
    | full full ends =>
      have full : vm.stack.entries.length = 32 := vm.stack.length_entries.trans full
      rw [serve_push_of_error ends, BoundedList.serve, if_pos full]
      rfl
    | wide f room wide kind ends =>
      have room : vm.stack.entries.length ≠ 32 := by rw [CallStack.length_entries]; omega
      rw [serve_push_of_error ends, BoundedList.serve, if_neg room, if_pos wide, ← kind]
      rfl
    | done address room fits ends =>
      have narrow : ¬(value < 0 ∨ 65535 < value) := by
        have := address.toNat_lt
        omega
      have free : vm.stack.entries.length ≠ 32 := by rw [CallStack.length_entries]; omega
      rw [serve_push_of_ok ends, BoundedList.serve, if_neg free, if_neg narrow, fits,
        ← CallStack.entries_pushed room]
      rfl
  | pop =>
    by_cases empty : vm.stack.depth = 0
    · have nil : vm.stack.entries = [] :=
        List.eq_nil_of_length_eq_zero (vm.stack.length_entries.trans empty)
      rw [serve_pop_of_empty empty, nil]
      rfl
    · have used : 0 < vm.stack.depth := Nat.pos_of_ne_zero empty
      simp only [serve_pop_of_pos used, BoundedList.serve, CallStack.getLast?_entries used,
        CallStack.entries_popped]
      rfl

/-- What a use of the stack leaves alone. -/
structure Framed (vm : Vm w h) (use : CallStack.Use) : Prop where
  refused : ∀ f, (vm.serve use).1 = .error f → (vm.serve use).2 = vm
  rest : (vm.serve use).2 = { vm with stack := (vm.serve use).2.stack }
  slot : ∀ i (hi : i < 32), (vm.serve use).2.stack.slots[i] ≠ vm.stack.slots[i] →
    i = vm.stack.depth ∧ ∃ value, use = .push value

theorem framed_of_error {use : CallStack.Use} {f : Fault} (served : vm.serve use = (.error f, vm)) :
    vm.Framed use where
  refused _ _ := by rw [served]
  rest := by rw [served]
  slot i hi hne := by
    rw [served] at hne
    exact absurd rfl hne

theorem framed_of_ok {use : CallStack.Use} {answer : Option Int} {s : CallStack}
    (served : vm.serve use = (.ok answer, { vm with stack := s }))
    (slot : ∀ i (hi : i < 32), s.slots[i] ≠ vm.stack.slots[i] →
      i = vm.stack.depth ∧ ∃ value, use = .push value) : vm.Framed use where
  refused f fails := by
    rw [served] at fails
    cases fails
  rest := by rw [served]
  slot i hi hne := by
    rw [served] at hne
    exact slot i hi hne

/-- No use of the stack reaches beyond it. -/
theorem framed (vm : Vm w h) (use : CallStack.Use) : vm.Framed use := by
  cases use with
  | push value =>
    cases vm.stack.pushes value with
    | full _ ends => exact framed_of_error (serve_push_of_error ends)
    | wide _ _ _ _ ends => exact framed_of_error (serve_push_of_error ends)
    | done address room _ ends =>
      refine framed_of_ok (serve_push_of_ok ends) ?_
      intro i hi hne
      exact ⟨CallStack.eq_of_slot_pushed_ne hi hne, value, rfl⟩
  | pop =>
    by_cases empty : vm.stack.depth = 0
    · exact framed_of_error (serve_pop_of_empty empty)
    · refine framed_of_ok (serve_pop_of_pos (Nat.pos_of_ne_zero empty)) ?_
      intro i hi hne
      exact absurd rfl hne

/-- However often its stack is used, a machine gives the answers that a list of at most 32 numbers
gives, and its slots in use are that list. Each use leaves all else alone, and one that is refused
leaves everything alone. -/
theorem stack_refines_list (vm : Vm w h) (uses : List CallStack.Use) :
    conduct BoundedList.serve vm.stack.entries uses =
        ((conduct serve vm uses).1.map (·.mapError Fault.kind),
          (conduct serve vm uses).2.stack.entries) ∧
      ∀ use, (conduct serve vm uses).2.Framed use := by
  constructor
  · exact conduct_view serve_entries vm uses
  · intro use
    exact framed _ use

end Vm

end ChipEight
