import Mathlib.Control.Monad.Basic
import ChipEight.Proofs.Footprint
import ChipEight.Proofs.History

/-!
# The font over whole histories

Nothing guards the glyphs: they lie in memory like any other bytes, and a program may store over
them. But they change in no other way. A byte of memory is after a history what it was before, or
what the last action that wrote there has left; and of all actions only a cycle that stores at
the address register reaches below the programs.
-/
namespace ChipEight

theorem Memory.getElem?_initial (i : Fin 80) : initial.bytes[fontBase + i]? = font[i.val]? := by
  have hi : fontBase + i.val < 4096 := by simp only [fontBase]; omega
  have hf : i.val < font.length := i.isLt
  rw [Vector.getElem?_eq_getElem hi, List.getElem?_eq_getElem hf, initial, getElem_put, dif_pos]
  · simp
  · simp [hf]

namespace Vm

variable {w h : Nat}

/-- The actions that write to an address: a program that is laid over it, and a cycle that
stores there. -/
inductive Writes (vm : Vm w h) (a : Nat) : Action → Prop
  | program {program : List UInt8} (fits : program.length ≤ Memory.programSpace)
      (lower : Memory.programStart ≤ a) (upper : a < Memory.programStart + program.length) :
    Writes vm a (.load program)
  | store {word : Word} (succeeds : vm.cycle.1 = .ok word)
      (stores : word.Stores vm.index.toNat a) : Writes vm a .cycle

/-- A cycle changes a byte of memory only by a store that reaches it. -/
theorem byte_cycle (vm : Vm w h) {a : Nat} (ha : a < 4096) :
    vm.cycle.2.memory.bytes[a] = vm.memory.bytes[a] ∨ vm.Writes a .cycle := by
  cases vm.cycle_outcome with
  | stuck _ ends | unknown _ _ _ ends | refused _ _ _ _ _ _ ends => rw [ends]; exact .inl rfl
  | done word op reads decodes accepts ends =>
    have succeeds : vm.cycle.1 = .ok word := by rw [ends]
    rw [ends]
    by_cases same : (vm.fetched.memoryAfter op).bytes[a] = vm.memory.bytes[a]
    · exact .inl same
    · exact .inr (.store succeeds
        (vm.fetched.stores_of_memoryAfter (Op.spelled_of_decode decodes) ha same))

/-- Besides that, a byte changes only under a program that is loaded over it. -/
theorem byte_perform (vm : Vm w h) (act : Action) {a : Nat} (ha : a < 4096) :
    (vm.perform act).2.memory.bytes[a] = vm.memory.bytes[a] ∨ vm.Writes a act := by
  cases act with
  | load program =>
    by_cases hp : program.length ≤ Memory.programSpace
    · rw [perform_load_of_le vm hp]
      by_cases same : (vm.memory.put Memory.programStart program).bytes[a] = vm.memory.bytes[a]
      · exact .inl same
      · obtain ⟨lower, upper⟩ := Memory.of_getElem_put_ne ha same
        exact .inr (.program hp lower upper)
    · rw [perform_load_of_gt vm (Nat.lt_of_not_le hp)]
      exact .inl rfl
  | cycle => exact vm.byte_cycle ha
  | tick => exact .inl rfl
  | press key => rw [perform_press]; exact .inl rfl
  | release key => rw [perform_release]; exact .inl rfl

/-- A byte is what it was before a history, or what an action that wrote there has left. -/
theorem byte_run (vm : Vm w h) (actions : List Action) {a : Nat} (ha : a < 4096) :
    (vm.run actions).memory.bytes[a] = vm.memory.bytes[a] ∨
      ∃ before act after, actions = before ++ act :: after ∧ (vm.run before).Writes a act ∧
        (vm.run actions).memory.bytes[a] = ((vm.run before).perform act).2.memory.bytes[a] := by
  induction actions generalizing vm with
  | nil => exact .inl rfl
  | cons act actions ih =>
    rcases ih (vm.perform act).2 with kept | ⟨before, late, after, rfl, writes, remains⟩
    · rcases vm.byte_perform act ha with same | writes
      · exact .inl (kept.trans same)
      · exact .inr ⟨[], act, actions, rfl, writes, kept⟩
    · exact .inr ⟨act :: before, late, after, rfl, writes, remains⟩

/-- Programs are loaded behind the font, so only a store reaches it. -/
theorem Writes.stores_of_font {vm : Vm w h} {i : Fin 80} {act : Action}
    (writes : vm.Writes (Memory.fontBase + i) act) :
    act = .cycle ∧ ∃ word, vm.cycle.1 = .ok word ∧
      word.Stores vm.index.toNat (Memory.fontBase + i) := by
  cases writes with
  | program fits lower upper =>
    simp only [Memory.programStart, Memory.fontBase] at lower
    omega
  | store succeeds stores => exact ⟨rfl, _, succeeds, stores⟩

/-- After every history of a fresh machine a byte of the font is as it was, unless a cycle of
the history has stored there, and then it is as such a cycle has left it. No other action
changes it, whatever the history before. -/
theorem font_unless_stored (random : Xorshift) (actions : List Action) (i : Fin 80) :
    (((initial w h random).run actions).memory.bytes[Memory.fontBase + i]? = Memory.font[i.val]? ∨
      ∃ before after word, actions = before ++ .cycle :: after ∧
        ((initial w h random).run before).cycle.1 = .ok word ∧
        word.Stores ((initial w h random).run before).index.toNat (Memory.fontBase + i) ∧
        ((initial w h random).run actions).memory.bytes[Memory.fontBase + i]? =
          ((initial w h random).run before).cycle.2.memory.bytes[Memory.fontBase + i]?) ∧
      ∀ act, (((initial w h random).run actions).perform act).2.memory.bytes[Memory.fontBase + i]? ≠
          ((initial w h random).run actions).memory.bytes[Memory.fontBase + i]? →
        act = .cycle ∧ ∃ word, ((initial w h random).run actions).cycle.1 = .ok word ∧
          word.Stores ((initial w h random).run actions).index.toNat (Memory.fontBase + i) := by
  have hi : Memory.fontBase + i.val < 4096 := by simp only [Memory.fontBase]; omega
  constructor
  · rcases (initial w h random).byte_run actions hi with
      same | ⟨before, act, after, rfl, writes, remains⟩
    · left
      rw [← Memory.getElem?_initial, Vector.getElem?_eq_getElem hi, Vector.getElem?_eq_getElem hi,
        same]
      rfl
    · right
      obtain ⟨rfl, word, succeeds, stores⟩ := writes.stores_of_font
      refine ⟨before, after, word, rfl, succeeds, stores, ?_⟩
      rw [Vector.getElem?_eq_getElem hi, Vector.getElem?_eq_getElem hi, remains]
      rfl
  · intro act changed
    rcases ((initial w h random).run actions).byte_perform act hi with same | writes
    · rw [Vector.getElem?_eq_getElem hi, Vector.getElem?_eq_getElem hi, same] at changed
      exact absurd rfl changed
    · exact writes.stores_of_font

/-- A program that stores register 0 over the first byte of the font. -/
def scribble : List Action := [.load [0xA0, 0x50, 0xF0, 0x55], .cycle, .cycle]

/-- Three actions are enough to spoil a glyph, and none of them fails. -/
theorem scribble_spoils_font :
    (initial 64 32 ⟨4⟩).results scribble =
        [.ok none, .ok (some ⟨0xA0, 0x50⟩), .ok (some ⟨0xF0, 0x55⟩)] ∧
      ((initial 64 32 ⟨4⟩).run scribble).memory.bytes[Memory.fontBase]? ≠ Memory.font[0]? := by
  decide +kernel

end Vm

end ChipEight
