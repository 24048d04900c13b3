import Mathlib.Control.Monad.Basic
import ChipEight.Console
import ChipEight.Proofs.History
import ChipEight.Proofs.Lockstep

/-!
# What no program can see

Parts of the state that no program can see: the sound timer, the stale mark of the screen,
the count of cycles, the slots of the stack that are not in use, and the log switch. Machines
that differ in these alone are alike. Every action gives the same answer on two machines that
are alike and leaves two that are alike again, so no history tells them apart.
-/
namespace ChipEight

namespace CallStack

/-- Stacks with the same slots in use. -/
structure Alike (s s' : CallStack) : Prop where
  depth : s'.depth = s.depth
  slot : ∀ i (hi : i < 32), i < s.depth → s'.slots[i] = s.slots[i]

variable {s s' : CallStack}

theorem Alike.top (ha : s.Alike s') : s'.top = s.top := by
  unfold CallStack.top
  simp only [ha.depth]
  split
  next hd =>
    have hl := s.depth_le
    exact ha.slot (s.depth - 1) (by omega) (by omega)
  next => rfl

theorem Alike.popped (ha : s.Alike s') : s.popped.Alike s'.popped where
  depth := congrArg (· - 1) ha.depth
  slot i hi hd := ha.slot i hi (Nat.lt_of_lt_of_le hd (Nat.sub_le _ _))

/-- A push fills the slot that it brings into use. -/
theorem Alike.pushed (ha : s.Alike s') (address : UInt16) :
    (s.pushed address).Alike (s'.pushed address) := by
  by_cases hd : s.depth < 32
  · have hd' : s'.depth < 32 := by rw [ha.depth]; exact hd
    simp only [CallStack.pushed, hd, hd', ↓reduceDIte]
    constructor
    · exact congrArg (· + 1) ha.depth
    · intro i hi hlive
      simp only [Vector.getElem_set, ha.depth]
      split
      next => rfl
      next hne =>
        simp only at hlive
        exact ha.slot i hi (by omega)
  · have hd' : ¬ s'.depth < 32 := by rw [ha.depth]; exact hd
    simp only [CallStack.pushed, hd, hd', ↓reduceDIte]
    exact ha

end CallStack

namespace Display

variable {w h : Nat} {d d' : Display w h}

theorem lit_of_pixel (hp : ∀ x y, d'.pixel x y = d.pixel x y) : d'.lit = d.lit := by
  apply Std.ExtTreeSet.ext_contains
  intro i
  obtain ⟨x, y, rfl⟩ := exists_number i
  exact hp x y

/-- Strokes that have lit the same pixels and made the same hit. -/
def Stroke.Alike (s s' : Stroke w h) : Prop := s'.screen.lit = s.screen.lit ∧ s'.hit = s.hit

namespace Stroke

variable {s s' : Stroke w h}

theorem Alike.flip (ha : s.Alike s') (x y : Nat) : (s.flip x y).Alike (s'.flip x y) := by
  unfold Stroke.flip
  split
  next hx =>
    split
    next hy =>
      have hp : s'.screen.pixel ⟨x, hx⟩ ⟨y, hy⟩ = s.screen.pixel ⟨x, hx⟩ ⟨y, hy⟩ := by
        simp only [pixel, ha.1]
      simp only [hp]
      exact ⟨by simp only [put, ha.1], by simp only [ha.2]⟩
    next => exact ha
  next => exact ha

theorem Alike.row (ha : s.Alike s') (x y : Nat) (bits : UInt8) :
    (s.row x y bits).Alike (s'.row x y bits) := by
  apply List.foldl_rel ha
  intro i _ t t' ht
  split
  next => exact ht.flip _ _
  next => exact ht

/-- A sprite lights the same pixels and makes the same hit under both pens. -/
theorem Alike.sprite (ha : s.Alike s') (x y : Nat) (sprite : List UInt8) :
    (s.sprite x y sprite).Alike (s'.sprite x y sprite) := by
  induction sprite generalizing s s' y with
  | nil => exact ha
  | cons bits rest ih => exact ih (ha.row x y bits) (y + 1)

end Stroke

/-- A drawing depends on the pixels only, and is stale whatever the screen was. -/
theorem draw_congr (hp : ∀ x y, d'.pixel x y = d.pixel x y) (x y : Nat) (sprite : List UInt8) :
    d'.draw x y sprite = d.draw x y sprite := by
  have start : Stroke.Alike ⟨d, false⟩ ⟨d', false⟩ := ⟨lit_of_pixel hp, rfl⟩
  obtain ⟨hl, hh⟩ := start.sprite x y sprite
  simp only [draw, hl, hh]

end Display

namespace Vm

variable {w h : Nat} {vm vm' : Vm w h}

/-- Machines that no program can tell apart. -/
structure Alike (vm vm' : Vm w h) : Prop where
  memory : vm'.memory = vm.memory
  registers : vm'.registers = vm.registers
  index : vm'.index = vm.index
  pc : vm'.pc = vm.pc
  stack : vm.stack.Alike vm'.stack
  delay : vm'.timers.delay = vm.timers.delay
  keypad : vm'.keypad = vm.keypad
  pixel : ∀ x y, vm'.screen.pixel x y = vm.screen.pixel x y
  random : vm'.random = vm.random

theorem Alike.reg (ha : vm.Alike vm') (x : Digit) : vm'.reg x = vm.reg x := by
  simp only [Vm.reg, ha.registers]

theorem Alike.block (ha : vm.Alike vm') (n : Nat) : vm'.block n = vm.block n := by
  simp only [Vm.block, ha.memory, ha.index]

theorem Alike.drawn (ha : vm.Alike vm') (x y n : Digit) : vm'.drawn x y n = vm.drawn x y n := by
  simp only [Vm.drawn, ha.reg, ha.block]
  exact Display.draw_congr ha.pixel _ _ _

theorem Alike.skips (ha : vm.Alike vm') (op : Op) : vm'.skips op = vm.skips op := by
  simp only [Vm.skips, namedKey, ha.reg, ha.keypad]

theorem Alike.after (ha : vm.Alike vm') (op : Op) : (vm.after op).Alike (vm'.after op) := by
  constructor
  case memory => simp only [Vm.after, memoryAfter, ha.memory, ha.index, ha.registers, ha.reg]
  case registers =>
    simp only [Vm.after, registersAfter, ha.registers, ha.reg, ha.random, ha.drawn, ha.delay,
      ha.keypad, ha.block]
  case index => simp only [Vm.after, indexAfter, ha.index, ha.reg]
  case pc =>
    simp only [Vm.after, pcAfter, ha.stack.top, ha.reg, ha.keypad, ha.pc, ha.skips]
  case stack =>
    cases op with
    | call target =>
      change (vm.stack.pushed vm.pc).Alike (vm'.stack.pushed vm'.pc)
      rw [ha.pc]
      exact ha.stack.pushed vm.pc
    | ret => exact ha.stack.popped
    | _ => exact ha.stack
  case delay =>
    cases op with
    | setDelay x => simp only [Vm.after, timersAfter, ha.reg]
    | _ => exact ha.delay
  case keypad => exact ha.keypad
  case pixel =>
    intro x y
    cases op with
    | clear => rfl
    | draw i j n => simp only [Vm.after, screenAfter, ha.drawn]
    | _ => exact ha.pixel x y
  case random => simp only [Vm.after, randomAfter, ha.random]

theorem Alike.counted (ha : vm.Alike vm') : vm.counted.Alike vm'.counted := { ha with }

theorem Alike.fetched (ha : vm.Alike vm') : vm.fetched.Alike vm'.fetched :=
  { ha with pc := congrArg (· + 2) ha.pc }

/-- Machines that are alike agree on how the next cycle ends. -/
theorem Alike.abreast (ha : vm.Alike vm') : vm.Abreast vm' where
  pc := ha.pc
  word := by rw [ha.memory, ha.pc]
  depth := ha.stack.depth
  index := ha.index

/-- A cycle gives the same answer on both and leaves them alike. -/
theorem Alike.cycle (ha : vm.Alike vm') :
    vm'.cycle.1 = vm.cycle.1 ∧ vm.cycle.2.Alike vm'.cycle.2 :=
  ha.abreast.cycle ha.counted ha.fetched fun _ _ _ => ha.fetched.after _

theorem Alike.perform (ha : vm.Alike vm') (a : Action) :
    (vm'.perform a).1 = (vm.perform a).1 ∧ (vm.perform a).2.Alike (vm'.perform a).2 := by
  cases a with
  | load program =>
    by_cases hp : program.length ≤ Memory.programSpace
    · rw [perform_load_of_le vm hp, perform_load_of_le vm' hp]
      exact ⟨rfl, { ha with memory := by rw [ha.memory], pc := rfl }⟩
    · rw [perform_load_of_gt vm (Nat.lt_of_not_le hp), perform_load_of_gt vm' (Nat.lt_of_not_le hp)]
      exact ⟨rfl, ha⟩
  | cycle =>
    obtain ⟨same, alike⟩ := ha.cycle
    exact ⟨congrArg (Except.map some) same, alike⟩
  | tick => exact ⟨rfl, { ha with delay := congrArg Timers.down ha.delay }⟩
  | press key =>
    rw [perform_press, perform_press]
    exact ⟨rfl, { ha with keypad := by rw [ha.keypad] }⟩
  | release key =>
    rw [perform_release, perform_release]
    exact ⟨rfl, { ha with keypad := by rw [ha.keypad] }⟩

theorem Alike.run (ha : vm.Alike vm') (actions : List Action) :
    vm'.results actions = vm.results actions ∧ (vm.run actions).Alike (vm'.run actions) := by
  induction actions generalizing vm vm' with
  | nil => exact ⟨rfl, ha⟩
  | cons a actions ih =>
    obtain ⟨same, alike⟩ := ha.perform a
    obtain ⟨rest, after⟩ := ih alike
    exact ⟨by simp only [results, same, rest], after⟩

end Vm

namespace Console

variable {w h : Nat}

/-- One action on the machine of a console, with what is noted about it. -/
def perform (c : Console w h) : Action → Turn (Console w h) (Option Word)
  | .cycle => ⟨c.cycle.result.map some, c.cycle.state, c.cycle.lines, c.cycle.requests⟩
  | .tick => ⟨c.tick.result.map fun _ => none, c.tick.state, c.tick.lines, c.tick.requests⟩
  | a => ⟨(c.vm.perform a).1, { c with vm := (c.vm.perform a).2 }, [], []⟩

def play (c : Console w h) : List Action → Console w h
  | [] => c
  | a :: actions => (c.perform a).state.play actions

def answers (c : Console w h) : List Action → List (Except Fault (Option Word))
  | [] => []
  | a :: actions => (c.perform a).result :: (c.perform a).state.answers actions

def said (c : Console w h) : List Action → List Line
  | [] => []
  | a :: actions => (c.perform a).lines ++ (c.perform a).state.said actions

def switched (c : Console w h) (logging : Bool) : Console w h := { c with logging := logging }

def onStack (c : Console w h) (stack : CallStack) : Console w h :=
  { c with vm := { c.vm with stack := stack } }

theorem perform_result (c : Console w h) (a : Action) :
    (c.perform a).result = (c.vm.perform a).1 := by
  cases a <;> rfl

theorem perform_state (c : Console w h) (a : Action) :
    (c.perform a).state = { c with vm := (c.vm.perform a).2 } := by
  cases a <;> rfl

theorem perform_switched_lines (c : Console w h) (logging : Bool) (a : Action) :
    ((c.switched logging).perform a).lines = (c.perform a).lines := by
  cases a <;> rfl

/-- A console plays a history as its machine runs it. -/
theorem play_eq (c : Console w h) (actions : List Action) :
    c.play actions = { c with vm := c.vm.run actions } := by
  induction actions generalizing c with
  | nil => rfl
  | cons a actions ih => simp only [play, ih, perform_state, Vm.run_cons]

theorem answers_eq (c : Console w h) (actions : List Action) :
    c.answers actions = c.vm.results actions := by
  induction actions generalizing c with
  | nil => rfl
  | cons a actions ih => simp only [answers, ih, perform_result, perform_state, Vm.results]

/-- The log switch has no part in what is said, only in what of it is printed. -/
theorem said_switched (c : Console w h) (logging : Bool) (actions : List Action) :
    (c.switched logging).said actions = c.said actions := by
  induction actions generalizing c with
  | nil => rfl
  | cons a actions ih =>
    have state : ((c.switched logging).perform a).state = (c.perform a).state.switched logging := by
      simp only [perform_state, switched]
    simp only [said, perform_switched_lines, state, ih]

theorem print_notes (texts : List String) : Line.print false (notes texts) = "" := by
  have silent : (notes texts).filterMap (Line.shown false) = [] := by
    apply List.filterMap_eq_nil_iff.mpr
    intro line hl
    obtain ⟨text, -, rfl⟩ := List.mem_map.mp hl
    rfl
  rw [Line.print, silent]
  rfl

/-- Whatever is said of a history is a note. -/
theorem said_notes (c : Console w h) (actions : List Action) :
    ∃ texts, c.said actions = notes texts := by
  induction actions generalizing c with
  | nil => exact ⟨[], rfl⟩
  | cons a actions ih =>
    obtain ⟨later, hl⟩ := ih (c.perform a).state
    have first : ∃ texts, (c.perform a).lines = notes texts := by
      cases a with
      | cycle => exact ⟨_, rfl⟩
      | tick => exact ⟨_, rfl⟩
      | _ => exact ⟨[], rfl⟩
    obtain ⟨texts, hf⟩ := first
    exact ⟨texts ++ later, by simp only [said, hf, hl, notes, List.map_append]⟩

theorem alike_play {c d : Console w h} (ha : c.vm.Alike d.vm) (actions : List Action) :
    d.answers actions = c.answers actions ∧ (c.play actions).vm.Alike (d.play actions).vm := by
  rw [answers_eq, answers_eq, play_eq, play_eq]
  exact ha.run actions

theorem alike_onStack (c : Console w h) {stack : CallStack} (hs : c.vm.stack.Alike stack) :
    c.vm.Alike (c.onStack stack).vm where
  memory := rfl
  registers := rfl
  index := rfl
  pc := rfl
  stack := hs
  delay := rfl
  keypad := rfl
  pixel _ _ := rfl
  random := rfl

/-- No history tells two consoles apart whose machines are alike. In particular the log switch
decides about what is printed and nothing else, and what lies in the slots of the stack that
are not in use makes no difference. -/
theorem unseen_parts :
    (∀ c d : Console w h, c.vm.Alike d.vm → ∀ actions,
      d.answers actions = c.answers actions ∧ (c.play actions).vm.Alike (d.play actions).vm) ∧
      (∀ (c : Console w h) (logging : Bool) (actions : List Action),
        (c.switched logging).answers actions = c.answers actions ∧
          (c.switched logging).play actions = (c.play actions).switched logging ∧
          (c.switched logging).said actions = c.said actions ∧
          Line.print false (c.said actions) = "") ∧
      ∀ (c : Console w h) (stack : CallStack), c.vm.stack.Alike stack → ∀ actions,
        (c.onStack stack).answers actions = c.answers actions ∧
          (c.play actions).vm.Alike ((c.onStack stack).play actions).vm := by
  refine ⟨?_, ?_, ?_⟩
  · intro c d ha actions
    exact alike_play ha actions
  · intro c logging actions
    refine ⟨?_, ?_, c.said_switched logging actions, ?_⟩
    · rw [answers_eq, answers_eq]
      rfl
    · rw [play_eq, play_eq]
      rfl
    · obtain ⟨texts, hs⟩ := c.said_notes actions
      rw [hs, print_notes]
  · intro c stack hs actions
    exact alike_play (c.alike_onStack hs) actions

/-- A call at zero, a return to two, and there a return to nowhere. -/
def calling : Console 64 32 where
  vm := { Vm.initial 64 32 ⟨1⟩ with
    memory := Memory.put ⟨Vector.replicate 4096 0⟩ 0 [0x20, 0x04, 0x00, 0xEE, 0x00, 0xEE] }
  clock := ⟨1.0, 0.0⟩
  logging := false

/-- The same with a sound, a screen that has been shown, some cycles behind it, what a call has
left on the stack, and the log on. -/
def callingAloud : Console 64 32 where
  vm := { calling.vm with
    stack := (calling.vm.stack.pushed 0xFFF).popped
    timers := ⟨0, 9⟩
    screen := calling.vm.screen.shown
    cycles := 7 }
  clock := ⟨1.0, 0.0⟩
  logging := true

theorem calling_alike : calling.vm.Alike callingAloud.vm where
  memory := rfl
  registers := rfl
  index := rfl
  pc := rfl
  stack := ⟨rfl, fun i _ hd => absurd hd (Nat.not_lt_zero i)⟩
  delay := rfl
  keypad := rfl
  pixel _ _ := rfl
  random := rfl

theorem calling_answers : calling.answers [.cycle, .tick, .cycle, .cycle] =
    [.ok (some ⟨0x20, 0x04⟩), .ok none, .ok (some ⟨0x00, 0xEE⟩), .error .stackUnderflow] := by
  decide +kernel

/-- A sound, a screen that was shown, cycles behind it and an old return address make no
difference. -/
theorem calling_unseen :
    calling.vm.Alike callingAloud.vm ∧
      callingAloud.answers [.cycle, .tick, .cycle, .cycle] =
        [.ok (some ⟨0x20, 0x04⟩), .ok none, .ok (some ⟨0x00, 0xEE⟩), .error .stackUnderflow] :=
  ⟨calling_alike, ((unseen_parts.1 calling callingAloud calling_alike _).1).trans calling_answers⟩

end Console

end ChipEight
