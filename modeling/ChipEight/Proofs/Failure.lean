import ChipEight.Proofs.Effect
import ChipEight.Proofs.Encoding

/-!
# When a cycle fails, and what a failed cycle leaves behind

The failures are listed by the word at the program counter, the depth of the stack and the
address register, with no reference to how the word is decoded. A cycle fails with a fault
exactly if the list has it, and a failed cycle has changed nothing but its count and, if it got
that far, the program counter.
-/
namespace ChipEight

namespace Word

/-- The number of bytes that a word reads or writes at the address register. -/
inductive Needs (w : Word) : Nat → Prop
  | sprite (hf : w.family = 0xD) : Needs w w.n
  | decimal (hf : w.family = 0xF) (hn : w.nn = 0x33) : Needs w 3
  | store (hf : w.family = 0xF) (hn : w.nn = 0x55) : Needs w (w.x + 1)
  | load (hf : w.family = 0xF) (hn : w.nn = 0x65) : Needs w (w.x + 1)

end Word

namespace Vm

variable {w h : Nat}

inductive Fails (vm : Vm w h) : Fault → Prop
  | fetch (beyond : 4096 < vm.pc.toNat + 2) : Fails vm (.outOfBounds vm.pc.toNat 2)
  | unknown {word : Word} (reads : vm.At word) (unlisted : ¬ word.Listed) :
    Fails vm (.unknownOpcode word vm.pc.toNat)
  | underflow {word : Word} (reads : vm.At word) (ret : word.opcode = 0x00EE)
      (empty : vm.stack.depth = 0) : Fails vm .stackUnderflow
  | overflow {word : Word} (reads : vm.At word) (call : word.family = 0x2)
      (full : vm.stack.depth = 32) : Fails vm .stackOverflow
  | block {word : Word} {k : Nat} (reads : vm.At word) (needs : word.Needs k)
      (beyond : 4096 < vm.index.toNat + k) : Fails vm (.outOfBounds vm.index.toNat k)

theorem beyond_of_gt {vm : Vm w h} {n : Nat} (hb : 4096 < vm.index.toNat + n) :
    vm.beyond n = some (.outOfBounds vm.index.toNat n) := if_pos hb

theorem of_beyond {vm : Vm w h} {n : Nat} {f : Fault} (hb : vm.beyond n = some f) :
    4096 < vm.index.toNat + n ∧ f = .outOfBounds vm.index.toNat n := by
  unfold beyond at hb
  split at hb
  next hn => cases hb; exact ⟨hn, rfl⟩
  next => cases hb

/-- An instruction is refused only for a reason on the list. -/
theorem fails_of_refusal {vm : Vm w h} (hw : 0 < w) (hh : 0 < h) {word : Word} {op : Op}
    {f : Fault} (ha : vm.At word) (hd : Op.decode word = some op)
    (hr : vm.fetched.refusal op = some f) : vm.Fails f := by
  have hs := Op.spelled_of_decode hd
  cases op with
  | ret =>
    simp only [refusal] at hr
    split at hr
    next he => cases hr; exact .underflow ha hs he
    next => cases hr
  | call target =>
    simp only [refusal] at hr
    split at hr
    next he => cases hr; exact .overflow ha hs.1 he
    next => cases hr
  | draw x y n =>
    obtain ⟨hf, rfl, rfl, rfl⟩ := hs
    have he : ¬(w = 0 ∨ h = 0) := by omega
    simp only [refusal, he, ↓reduceIte] at hr
    obtain ⟨hb, rfl⟩ := of_beyond hr
    exact .block ha (.sprite hf) hb
  | decimal x =>
    obtain ⟨hb, rfl⟩ := of_beyond hr
    exact .block ha (.decimal hs.1 hs.2.2) hb
  | store x =>
    obtain ⟨hf, rfl, hn⟩ := hs
    obtain ⟨hb, rfl⟩ := of_beyond hr
    exact .block ha (.store hf hn) hb
  | load x =>
    obtain ⟨hf, rfl, hn⟩ := hs
    obtain ⟨hb, rfl⟩ := of_beyond hr
    exact .block ha (.load hf hn) hb
  | _ => cases hr

/-- A block beyond memory is refused to the word that needs it. -/
theorem refusal_of_needs (vm : Vm w h) (hw : 0 < w) (hh : 0 < h) {word : Word} {k : Nat}
    (hn : word.Needs k) (hb : 4096 < vm.index.toNat + k) :
    ∃ op, Op.decode word = some op ∧ vm.refusal op = some (.outOfBounds vm.index.toNat k) := by
  cases hn with
  | sprite hf =>
    have he : ¬(w = 0 ∨ h = 0) := by omega
    refine ⟨.draw word.x word.y word.n, Op.decode_of_spelled ⟨hf, rfl, rfl, rfl⟩, ?_⟩
    simp only [refusal, he, ↓reduceIte]
    exact beyond_of_gt hb
  | decimal hf hn =>
    exact ⟨.decimal word.x, Op.decode_of_spelled ⟨hf, rfl, hn⟩, beyond_of_gt hb⟩
  | store hf hn => exact ⟨.store word.x, Op.decode_of_spelled ⟨hf, rfl, hn⟩, beyond_of_gt hb⟩
  | load hf hn => exact ⟨.load word.x, Op.decode_of_spelled ⟨hf, rfl, hn⟩, beyond_of_gt hb⟩

theorem fails_of_error {vm : Vm w h} (hw : 0 < w) (hh : 0 < h) {f : Fault}
    (hc : vm.cycle.1 = .error f) : vm.Fails f := by
  cases vm.cycle_outcome with
  | stuck beyond ends =>
    rw [ends] at hc
    cases hc
    exact .fetch beyond
  | unknown word reads decodes ends =>
    rw [ends] at hc
    cases hc
    exact .unknown (at_iff.mpr reads) (Op.decode_eq_none_iff.mp decodes)
  | refused word op g reads decodes refuses ends =>
    rw [ends] at hc
    cases hc
    exact fails_of_refusal hw hh (at_iff.mpr reads) decodes refuses
  | done word op reads decodes accepts ends =>
    rw [ends] at hc
    cases hc

theorem error_of_fails {vm : Vm w h} (hw : 0 < w) (hh : 0 < h) {f : Fault} (hf : vm.Fails f) :
    vm.cycle.1 = .error f := by
  cases hf with
  | fetch beyond => rw [cycle_of_gt beyond]
  | unknown reads unlisted =>
    rw [cycle_of_unknown (at_iff.mp reads) (Op.decode_eq_none_iff.mpr unlisted)]
  | underflow reads ret empty =>
    have hd : Op.decode _ = some .ret := Op.decode_of_spelled ret
    rw [cycle_of_refused (at_iff.mp reads) hd (if_pos empty)]
  | overflow reads call full =>
    have hd : Op.decode _ = some (.call _) := Op.decode_of_spelled ⟨call, rfl⟩
    rw [cycle_of_refused (at_iff.mp reads) hd (if_pos full)]
  | block reads needs beyond =>
    obtain ⟨op, hd, hr⟩ := vm.fetched.refusal_of_needs hw hh needs beyond
    rw [cycle_of_refused (at_iff.mp reads) hd hr]
    rfl

/-- All faults on the list are of the emulated program. -/
theorem emulation_of_fails {vm : Vm w h} {f : Fault} (hf : vm.Fails f) :
    f.kind.isEmulation = true := by
  cases hf <;> rfl

theorem ok_of_not_fails (hw : 0 < w) (hh : 0 < h) {vm : Vm w h} {word : Word}
    (ha : vm.At word) (hn : ∀ f, ¬ vm.Fails f) : vm.cycle.1 = .ok word := by
  cases hc : vm.cycle.1 with
  | error f => exact absurd (fails_of_error hw hh hc) (hn f)
  | ok other =>
    obtain ⟨op, reads, -⟩ := cycle_ok hc
    rw [ha.unique (at_iff.mpr reads)]

theorem not_fails_of_ok (hw : 0 < w) (hh : 0 < h) {vm : Vm w h} {word : Word}
    (hc : vm.cycle.1 = .ok word) : vm.At word ∧ ∀ f, ¬ vm.Fails f := by
  obtain ⟨op, reads, -⟩ := cycle_ok hc
  refine ⟨at_iff.mpr reads, ?_⟩
  intro f hf
  rw [error_of_fails hw hh hf] at hc
  cases hc

/-- A cycle on a screen with pixels fails exactly as listed, and otherwise executes the
word at the program counter. All its faults are of the emulated program. -/
theorem cycle_fails_iff (hw : 0 < w) (hh : 0 < h) (vm : Vm w h) :
    (∀ f, vm.cycle.1 = .error f ↔ vm.Fails f) ∧
      (∀ word, vm.cycle.1 = .ok word ↔ vm.At word ∧ ∀ f, ¬ vm.Fails f) ∧
      ∀ f, vm.Fails f → f.kind.isEmulation = true := by
  refine ⟨?_, ?_, ?_⟩
  · intro f
    exact ⟨fails_of_error hw hh, error_of_fails hw hh⟩
  · intro word
    constructor
    · intro hc
      exact not_fails_of_ok hw hh hc
    · rintro ⟨ha, hn⟩
      exact ok_of_not_fails hw hh ha hn
  · intro f hf
    exact emulation_of_fails hf

/-- Memory full of the word `DDDD`, and the address register one byte too high for it. -/
def spriteTooHigh : Vm 64 32 :=
  { initial 64 32 ⟨1⟩ with memory := ⟨Vector.replicate 4096 0xDD⟩, index := 4084 }

theorem spriteTooHigh_at : spriteTooHigh.At ⟨0xDD, 0xDD⟩ := ⟨by decide, by simp [spriteTooHigh]⟩

theorem spriteTooHigh_fails : spriteTooHigh.Fails (.outOfBounds 4084 13) :=
  .block spriteTooHigh_at (.sprite rfl) (by decide)

/-- A sprite that would need one byte more than there is is refused as a whole. -/
theorem spriteTooHigh_error :
    0 < 64 ∧ 0 < 32 ∧ spriteTooHigh.cycle.1 = .error (.outOfBounds 4084 13) :=
  ⟨by decide, by decide,
    ((cycle_fails_iff (by decide) (by decide) spriteTooHigh).1 _).mpr spriteTooHigh_fails⟩

/-- A cycle that fails in its fetch changes nothing but the count of cycles. One that
fails later has also moved the program counter past its word. -/
theorem failed_cycle_unchanged (vm : Vm w h) (f : Fault) (hc : vm.cycle.1 = .error f) :
    (vm.fetch = .error f ∧ vm.cycle.2 = { vm with cycles := vm.cycles + 1 }) ∨
      ∃ word m, vm.fetch = .ok (word, m) ∧
        vm.cycle.2 = { vm with pc := vm.pc + 2, cycles := vm.cycles + 1 } ∧
        (vm.pc + 2).toNat = vm.pc.toNat + 2 := by
  cases vm.cycle_outcome with
  | stuck beyond ends =>
    rw [ends] at hc ⊢
    cases hc
    exact .inl ⟨fetch_of_gt beyond, rfl⟩
  | unknown word reads _ ends | refused word _ _ reads _ _ ends =>
    rw [ends]
    exact .inr ⟨word, _, fetch_of_word reads, rfl, fetched_pc reads⟩
  | done word op _ _ _ ends =>
    rw [ends] at hc
    cases hc

/-- Neither the screen nor register F has been touched by then. -/
theorem spriteTooHigh_unchanged :
    spriteTooHigh.cycle.1 = .error (.outOfBounds 4084 13) ∧
      spriteTooHigh.cycle.2 = { spriteTooHigh with pc := 2, cycles := 1 } := by
  have hc := error_of_fails (by decide) (by decide) spriteTooHigh_fails
  refine ⟨hc, ?_⟩
  obtain ⟨hf, -⟩ | ⟨word, m, -, hs, -⟩ := failed_cycle_unchanged spriteTooHigh _ hc
  · rw [fetch_of_word (at_iff.mp spriteTooHigh_at)] at hf
    cases hf
  · exact hs

end Vm

end ChipEight
