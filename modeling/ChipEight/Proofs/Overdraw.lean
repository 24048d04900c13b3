import Mathlib.Control.Monad.Basic
import ChipEight.Proofs.Footprint
import ChipEight.Proofs.Interleaving
import ChipEight.Proofs.Sprite

/-!
# Drawings on top of each other

Each drawing flips the pixels it covers, so what a history leaves on the screen is told by
counting: a pixel is changed exactly if an odd number of drawings has covered it. Neither the
order of the drawings matters nor what else is done between them, as long as the screen is not
cleared, and a drawing that is made twice is gone again.
-/
namespace ChipEight

/-- A sprite and the point of the screen at which it is drawn. -/
structure Drawing where
  left : Nat
  top : Nat
  rows : List UInt8
  deriving DecidableEq

namespace Drawing

def covers (d : Drawing) (c r : Nat) : Bool := Display.inSprite d.left d.top d.rows c r

/-- Whether an odd number of drawings covers a pixel. -/
def parity (ds : List Drawing) (c r : Nat) : Bool := ds.countP (·.covers c r) % 2 == 1

@[simp] theorem parity_nil (c r : Nat) : parity [] c r = false := rfl

/-- One more drawing changes the parity of the pixels it covers. -/
theorem parity_cons (d : Drawing) (ds : List Drawing) (c r : Nat) :
    parity (d :: ds) c r = (d.covers c r ^^ parity ds c r) := by
  rw [parity, parity, List.countP_cons]
  rcases Nat.mod_two_eq_zero_or_one (ds.countP (·.covers c r)) with even | odd
  · cases d.covers c r <;> simp [Nat.add_mod, even]
  · cases d.covers c r <;> simp [Nat.add_mod, odd]

theorem parity_perm {ds es : List Drawing} (same : ds.Perm es) (c r : Nat) :
    parity ds c r = parity es c r := by
  rw [parity, parity, same.countP_eq]

end Drawing

def Word.isClear (w : Word) : Bool := w.opcode = 0x00E0

namespace Vm

variable {w h : Nat} {vm vm' : Vm w h} {word : Word}

def drawing (vm : Vm w h) (word : Word) : Drawing :=
  ⟨vm.spriteLeft word, vm.spriteTop word, vm.block word.n⟩

/-- The drawing of an action, if it is a cycle that executes a drawing word. -/
def drawing? (vm : Vm w h) : Action → Option Drawing
  | .cycle =>
    match vm.cycle.1 with
    | .ok word => if word.family = Digit.of 0xD then some (vm.drawing word) else none
    | .error _ => none
  | _ => none

def drawings (vm : Vm w h) : List Action → List Drawing
  | [] => []
  | act :: actions => (vm.drawing? act).toList ++ (vm.perform act).2.drawings actions

theorem drawing?_cycle (hc : vm.cycle.1 = .ok word) :
    vm.drawing? .cycle = if word.family = Digit.of 0xD then some (vm.drawing word) else none := by
  simp only [drawing?, hc]

theorem drawing?_of_error {f : Fault} (hc : vm.cycle.1 = .error f) :
    vm.drawing? .cycle = none := by
  simp only [drawing?, hc]

/-- A cycle that has executed a drawing word is the drawing and nothing else. -/
theorem cycle_of_drawn (hc : vm.cycle.1 = .ok word) (hf : word.family = 0xD) :
    vm.cycle.2 = vm.fetched.after (.draw word.x word.y word.n) := by
  have hs : (Op.draw word.x word.y word.n).Spelled word := ⟨hf, rfl, rfl, rfl⟩
  exact (after_of_spelled hc hs).2

/-- A drawing word flips the pixels that its drawing covers. -/
theorem pixel_of_drawn (hc : vm.cycle.1 = .ok word) (hf : word.family = 0xD) (c : Fin w)
    (r : Fin h) :
    vm.cycle.2.screen.pixel c r = (vm.screen.pixel c r ^^ (vm.drawing word).covers c r) := by
  rw [cycle_of_drawn hc hf]
  exact vm.pixel_after_draw word c r

/-- Words other than `00E0` and `Dxyn` leave the screen alone. -/
theorem screen_of_ok (hc : vm.cycle.1 = .ok word) (hf : word.family ≠ 0xD)
    (ho : word.opcode ≠ 0x00E0) : vm.cycle.2.screen = vm.screen := by
  obtain ⟨op, -, decodes, -, ends⟩ := cycle_ok hc
  rw [ends]
  by_cases same : vm.fetched.screenAfter op = vm.screen
  · exact same
  · cases vm.fetched.paints_of_screenAfter (Op.spelled_of_decode decodes) same with
    | clear whole => exact absurd whole ho
    | draw family => exact absurd family hf

theorem screen_of_error {f : Fault} (hc : vm.cycle.1 = .error f) :
    vm.cycle.2.screen = vm.screen := by
  cases vm.cycle_outcome with
  | stuck _ ends | unknown _ _ _ ends | refused _ _ _ _ _ _ ends => rw [ends]; rfl
  | done _ _ _ _ _ ends => rw [ends] at hc; cases hc

/-- An action flips the pixels of its drawing, if it makes one. -/
theorem pixel_perform {act : Action} (kept : executed Word.isClear (vm.perform act).1 = false)
    (c : Fin w) (r : Fin h) :
    (vm.perform act).2.screen.pixel c r =
      (vm.screen.pixel c r ^^ (vm.drawing? act).any (·.covers c r)) := by
  cases act with
  | cycle =>
    change vm.cycle.2.screen.pixel c r = _
    cases hc : vm.cycle.1 with
    | error f => simp [drawing?_of_error hc, screen_of_error hc]
    | ok word =>
      rw [drawing?_cycle hc]
      split
      next hf => exact pixel_of_drawn hc hf c r
      next hf =>
        have ho : word.opcode ≠ 0x00E0 := by
          simpa [perform, executed, hc, Except.map, Word.isClear] using kept
        simp [screen_of_ok hc hf ho]
  | load program =>
    by_cases hp : program.length ≤ Memory.programSpace
    · simp [perform_load_of_le vm hp, drawing?]
    · simp [perform_load_of_gt vm (Nat.lt_of_not_le hp), drawing?]
  | tick => simp [perform, tick, drawing?]
  | press key => simp [drawing?]
  | release key => simp [drawing?]

/-- After a history without a clearing of the screen a pixel is changed exactly if an odd
number of its drawings covers it. -/
theorem pixel_run {actions : List Action} (kept : vm.Spares Word.isClear actions) (c : Fin w)
    (r : Fin h) :
    (vm.run actions).screen.pixel c r =
      (vm.screen.pixel c r ^^ Drawing.parity (vm.drawings actions) c r) := by
  induction actions generalizing vm with
  | nil => simp [drawings]
  | cons act actions ih =>
    obtain ⟨now, later⟩ := spares_cons.mp kept
    rw [run_cons, ih later, pixel_perform now, drawings]
    cases vm.drawing? act with
    | none => simp
    | some d => simp [Drawing.parity_cons]

/-- Register F tells whether a covered pixel was lit before. -/
theorem flag_of_drawn (hc : vm.cycle.1 = .ok word) (hf : word.family = 0xD) :
    vm.cycle.2.reg Registers.flagRegister = 1 ↔
      ∃ (c : Fin w) (r : Fin h), (vm.drawing word).covers c r = true ∧
        vm.screen.pixel c r = true := by
  have hit : (vm.drawn word.x word.y word.n).2 = true ↔
      ∃ (c : Fin w) (r : Fin h), (vm.drawing word).covers c r = true ∧
        vm.screen.pixel c r = true :=
    Display.hit_draw_iff ..
  rw [cycle_of_drawn hc hf, reg_after_draw, if_pos rfl, ← hit]
  cases (vm.drawn word.x word.y word.n).2 <;> decide

/-- A machine that makes, on the screen another has left behind, the same drawing as that one. -/
structure Redraws (vm : Vm w h) (word : Word) (vm' : Vm w h) (word' : Word) : Prop where
  done : vm.cycle.1 = .ok word
  draws : word.family = 0xD
  screen : ∀ c r, vm'.screen.pixel c r = vm.cycle.2.screen.pixel c r
  again : vm'.cycle.1 = .ok word'
  draws_again : word'.family = 0xD
  same : vm'.drawing word' = vm.drawing word

/-- The same drawing made twice is gone again. -/
theorem Redraws.pixel {word' : Word} (twice : vm.Redraws word vm' word') (c : Fin w) (r : Fin h) :
    vm'.cycle.2.screen.pixel c r = vm.screen.pixel c r := by
  rw [pixel_of_drawn twice.again twice.draws_again, twice.same, twice.screen,
    pixel_of_drawn twice.done twice.draws, Bool.xor_assoc, Bool.xor_self, Bool.xor_false]

/-- The second drawing hits the pixels that the first has turned on. -/
theorem Redraws.flag {word' : Word} (twice : vm.Redraws word vm' word') :
    vm'.cycle.2.reg Registers.flagRegister = 1 ↔
      ∃ (c : Fin w) (r : Fin h), vm.screen.pixel c r = false ∧
        vm.cycle.2.screen.pixel c r = true := by
  rw [flag_of_drawn twice.again twice.draws_again, twice.same]
  simp only [twice.screen, pixel_of_drawn twice.done twice.draws]
  apply exists_congr
  intro c
  apply exists_congr
  intro r
  cases vm.screen.pixel c r <;> cases (vm.drawing word).covers c r <;> decide

/-- On a screen that is not cleared drawings are counted: a pixel is changed exactly if it has
been covered an odd number of times. So the order of the drawings does not show, and the same
drawing made twice leaves the screen as it was, with a hit the second time exactly if the
first has turned a pixel on. -/
theorem drawings_counted :
    (∀ (vm : Vm w h) (actions : List Action), vm.Spares Word.isClear actions → ∀ c r,
      (vm.run actions).screen.pixel c r =
        (vm.screen.pixel c r ^^ ((vm.drawings actions).countP (·.covers c r) % 2 == 1))) ∧
      (∀ (vm vm' : Vm w h) (actions actions' : List Action), vm.Spares Word.isClear actions →
        vm'.Spares Word.isClear actions' → vm'.screen = vm.screen →
        (vm'.drawings actions').Perm (vm.drawings actions) → ∀ c r,
        (vm'.run actions').screen.pixel c r = (vm.run actions).screen.pixel c r) ∧
      ∀ (vm vm' : Vm w h) (word word' : Word), vm.Redraws word vm' word' →
        (∀ c r, vm'.cycle.2.screen.pixel c r = vm.screen.pixel c r) ∧
          (vm'.cycle.2.reg Registers.flagRegister = 1 ↔
            ∃ c r, vm.screen.pixel c r = false ∧ vm.cycle.2.screen.pixel c r = true) := by
  refine ⟨?_, ?_, ?_⟩
  · intro vm actions kept c r
    exact pixel_run kept c r
  · intro vm vm' actions actions' kept kept' screen same c r
    rw [pixel_run kept, pixel_run kept', screen, Drawing.parity_perm same]
  · intro vm vm' word word' twice
    exact ⟨twice.pixel, twice.flag⟩

/-- Two drawing words with a row of eight pixels behind them. Register 1 is 3, so that the rows
drawn at registers 0 and 1 overlap. -/
def twoRows (first second : UInt8) : Vm 64 32 :=
  { initial 64 32 ⟨1⟩ with
    memory := Memory.put ⟨Vector.replicate 4096 0⟩ 0 [first, 0x01, second, 0x01, 0xFF]
    index := 4
    registers := Registers.zero.put (Digit.of 1) 3 }

theorem twoRows_kept : (twoRows 0xD0 0xD1).Spares Word.isClear [.cycle, .cycle] := by
  unfold Spares
  decide +kernel

theorem twoRows_kept_swapped : (twoRows 0xD1 0xD0).Spares Word.isClear [.cycle, .cycle] := by
  unfold Spares
  decide +kernel

theorem twoRows_drawings :
    (twoRows 0xD0 0xD1).drawings [.cycle, .cycle] = [⟨0, 0, [0xFF]⟩, ⟨3, 0, [0xFF]⟩] := by
  decide +kernel

theorem twoRows_drawings_swapped :
    (twoRows 0xD1 0xD0).drawings [.cycle, .cycle] = [⟨3, 0, [0xFF]⟩, ⟨0, 0, [0xFF]⟩] := by
  decide +kernel

theorem twoRows_redraws :
    (twoRows 0xD0 0xD0).Redraws ⟨0xD0, 0x01⟩ (twoRows 0xD0 0xD0).cycle.2 ⟨0xD0, 0x01⟩ where
  done := by decide +kernel
  draws := by decide
  screen _ _ := rfl
  again := by decide +kernel
  draws_again := by decide
  same := by decide +kernel

theorem twoRows_dark (first second : UInt8) (c : Fin 64) (r : Fin 32) :
    (twoRows first second).screen.pixel c r = false := Display.pixel_blank c r

theorem twoRows_lit : (twoRows 0xD0 0xD0).cycle.2.screen.pixel 0 0 = true := by
  have covered :
      ((twoRows 0xD0 0xD0).drawing ⟨0xD0, 0x01⟩).covers (0 : Fin 64) (0 : Fin 32) = true := by
    decide +kernel
  rw [pixel_of_drawn twoRows_redraws.done twoRows_redraws.draws, twoRows_dark, covered]
  rfl

/-- Two overlapping rows, drawn in either order, leave what one of them covers, and a row drawn
twice is gone. -/
theorem twoRows_counted :
    ((twoRows 0xD0 0xD1).run [.cycle, .cycle]).screen.pixel 2 0 = true ∧
      ((twoRows 0xD0 0xD1).run [.cycle, .cycle]).screen.pixel 3 0 = false ∧
      ((twoRows 0xD1 0xD0).run [.cycle, .cycle]).screen.pixel 3 0 = false ∧
      (twoRows 0xD0 0xD0).cycle.2.cycle.2.screen.pixel 0 0 = false ∧
      (twoRows 0xD0 0xD0).cycle.2.cycle.2.reg Registers.flagRegister = 1 := by
  obtain ⟨counted, ordered, repeated⟩ := drawings_counted (w := 64) (h := 32)
  obtain ⟨restored, hit⟩ := repeated _ _ _ _ twoRows_redraws
  have twice : ((twoRows 0xD0 0xD1).run [.cycle, .cycle]).screen.pixel 3 0 = false := by
    rw [counted _ _ twoRows_kept, twoRows_drawings, twoRows_dark]
    decide
  have swapped : ((twoRows 0xD1 0xD0).drawings [.cycle, .cycle]).Perm
      ((twoRows 0xD0 0xD1).drawings [.cycle, .cycle]) := by
    rw [twoRows_drawings, twoRows_drawings_swapped]
    decide
  refine ⟨?_, twice, ?_, ?_, ?_⟩
  · rw [counted _ _ twoRows_kept, twoRows_drawings, twoRows_dark]
    decide
  · rw [ordered _ _ _ _ twoRows_kept twoRows_kept_swapped rfl swapped, twice]
  · rw [restored, twoRows_dark]
  · exact hit.mpr ⟨0, 0, twoRows_dark .., twoRows_lit⟩

end Vm

end ChipEight
