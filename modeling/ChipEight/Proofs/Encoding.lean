import ChipEight.Op

/-!
# The instruction table read the other way

For each instruction there are the words that spell it, and there is the list of all words that
spell one. A word decodes to an instruction exactly if it spells it, and to none exactly if it is
not listed.
-/
namespace ChipEight

/-- The last digit of the words `8xy_` of an arithmetic instruction. -/
def Alu.digit : Alu → Digit
  | .copy => 0x0
  | .or => 0x1
  | .and => 0x2
  | .xor => 0x3
  | .add => 0x4
  | .sub => 0x5
  | .shr => 0x6
  | .rsub => 0x7
  | .shl => 0xE

/-- The last digit of a word `8xy_` tells its instruction, and the other way round. -/
theorem Alu.ofDigit?_eq_some_iff {d : Digit} {f : Alu} : ofDigit? d = some f ↔ f.digit = d := by
  revert d
  cases f <;> decide

theorem Alu.digit_listed (f : Alu) : f.digit ≤ 0x7 ∨ f.digit = 0xE := by
  cases f <;> decide

theorem Alu.exists_digit : ∀ d : Digit, d ≤ 0x7 ∨ d = 0xE → ∃ f : Alu, d = f.digit
  | 0x0, _ => ⟨.copy, rfl⟩
  | 0x1, _ => ⟨.or, rfl⟩
  | 0x2, _ => ⟨.and, rfl⟩
  | 0x3, _ => ⟨.xor, rfl⟩
  | 0x4, _ => ⟨.add, rfl⟩
  | 0x5, _ => ⟨.sub, rfl⟩
  | 0x6, _ => ⟨.shr, rfl⟩
  | 0x7, _ => ⟨.rsub, rfl⟩
  | 0xE, _ => ⟨.shl, rfl⟩

def Word.Listed (w : Word) : Prop :=
  w.opcode = 0x00E0 ∨ w.opcode = 0x00EE ∨
    (0x1 ≤ w.family ∧ w.family ≤ 0x7) ∨
    (w.family = 0x8 ∧ (w.n ≤ 0x7 ∨ w.n = 0xE)) ∨
    (0x9 ≤ w.family ∧ w.family ≤ 0xD) ∨
    (w.family = 0xE ∧ w.nn ∈ [0x9E, 0xA1]) ∨
    (w.family = 0xF ∧ w.nn ∈ [0x07, 0x0A, 0x15, 0x18, 0x1E, 0x29, 0x33, 0x55, 0x65])

def Word.isCall (w : Word) : Bool := w.family = 0x2

def Word.isReturn (w : Word) : Bool := w.opcode = 0x00EE

namespace Op

/-- The words that spell an instruction, by their digits. -/
def Spelled (w : Word) : Op → Prop
  | .clear => w.opcode = 0x00E0
  | .ret => w.opcode = 0x00EE
  | .jump target => w.family = 0x1 ∧ w.nnn = target
  | .call target => w.family = 0x2 ∧ w.nnn = target
  | .skipByte x nn => w.family = 0x3 ∧ w.x = x ∧ w.nn = nn
  | .skipNotByte x nn => w.family = 0x4 ∧ w.x = x ∧ w.nn = nn
  | .skipSame x y => w.family = 0x5 ∧ w.x = x ∧ w.y = y
  | .setByte x nn => w.family = 0x6 ∧ w.x = x ∧ w.nn = nn
  | .addByte x nn => w.family = 0x7 ∧ w.x = x ∧ w.nn = nn
  | .alu f x y => w.family = 0x8 ∧ w.x = x ∧ w.y = y ∧ w.n = f.digit
  | .skipOther x y => w.family = 0x9 ∧ w.x = x ∧ w.y = y
  | .setIndex address => w.family = 0xA ∧ w.nnn = address
  | .jumpFrom address => w.family = 0xB ∧ w.nnn = address
  | .random x mask => w.family = 0xC ∧ w.x = x ∧ w.nn = mask
  | .draw x y n => w.family = 0xD ∧ w.x = x ∧ w.y = y ∧ w.n = n
  | .skipKey x => w.family = 0xE ∧ w.x = x ∧ w.nn = 0x9E
  | .skipNoKey x => w.family = 0xE ∧ w.x = x ∧ w.nn = 0xA1
  | .getDelay x => w.family = 0xF ∧ w.x = x ∧ w.nn = 0x07
  | .waitKey x => w.family = 0xF ∧ w.x = x ∧ w.nn = 0x0A
  | .setDelay x => w.family = 0xF ∧ w.x = x ∧ w.nn = 0x15
  | .setSound x => w.family = 0xF ∧ w.x = x ∧ w.nn = 0x18
  | .addIndex x => w.family = 0xF ∧ w.x = x ∧ w.nn = 0x1E
  | .glyph x => w.family = 0xF ∧ w.x = x ∧ w.nn = 0x29
  | .decimal x => w.family = 0xF ∧ w.x = x ∧ w.nn = 0x33
  | .store x => w.family = 0xF ∧ w.x = x ∧ w.nn = 0x55
  | .load x => w.family = 0xF ∧ w.x = x ∧ w.nn = 0x65

theorem spelled_of_system {w : Word} {op : Op} (h : system? w = some op) : op.Spelled w := by
  unfold system? at h
  split at h
  next hw => cases h; exact hw
  next =>
    split at h
    next hw => cases h; exact hw
    next => cases h

theorem spelled_of_keys {w : Word} {op : Op} (hf : w.family = 0xE) (h : keys? w = some op) :
    op.Spelled w := by
  unfold keys? at h
  split at h
  next hn => cases h; exact ⟨hf, rfl, hn⟩
  next =>
    split at h
    next hn => cases h; exact ⟨hf, rfl, hn⟩
    next => cases h

theorem spelled_of_devices {w : Word} {op : Op} (hf : w.family = 0xF) (h : devices? w = some op) :
    op.Spelled w := by
  unfold devices? at h
  repeat' split at h
  all_goals cases h
  all_goals exact ⟨hf, rfl, ‹_›⟩

theorem spelled_of_decode {w : Word} {op : Op} (h : decode w = some op) : op.Spelled w := by
  unfold decode at h
  split at h
  case h_1 => exact spelled_of_system h
  case h_9 hf =>
    obtain ⟨f, hn, rfl⟩ := Option.map_eq_some_iff.mp h
    exact ⟨hf, rfl, rfl, (Alu.ofDigit?_eq_some_iff.mp hn).symm⟩
  case h_15 hf => exact spelled_of_keys hf h
  case h_16 =>
    have hf : w.family = 0xF := by grind
    exact spelled_of_devices hf h
  all_goals
    cases h
    exact ⟨‹_›, by simp⟩

theorem family_of_opcode {w : Word} (h : w.opcode < 4096) : w.family = 0x0 := by
  have := w.opcode_eq
  exact Fin.ext (by simp only [Fin.val_zero]; omega)

theorem decode_of_spelled {w : Word} {op : Op} (h : op.Spelled w) : decode w = some op := by
  cases op with
  | clear =>
    have hw : w.opcode = 0x00E0 := h
    rw [decode, family_of_opcode (show w.opcode < 4096 by omega), system?, hw]
    rfl
  | ret =>
    have hw : w.opcode = 0x00EE := h
    rw [decode, family_of_opcode (show w.opcode < 4096 by omega), system?, hw]
    rfl
  | alu f x y =>
    obtain ⟨hf, rfl, rfl, hn⟩ := h
    rw [decode, hf, Alu.ofDigit?_eq_some_iff.mpr hn.symm]
    rfl
  | draw x y n =>
    obtain ⟨hf, rfl, rfl, rfl⟩ := h
    rw [decode, hf]
    rfl
  | jump _ | call _ | setIndex _ | jumpFrom _ =>
    obtain ⟨hf, rfl⟩ := h
    rw [decode, hf]
    rfl
  | skipByte _ _ | skipNotByte _ _ | skipSame _ _ | setByte _ _ | addByte _ _ | skipOther _ _
  | random _ _ =>
    obtain ⟨hf, rfl, rfl⟩ := h
    rw [decode, hf]
    rfl
  | skipKey x | skipNoKey x =>
    obtain ⟨hf, rfl, hn⟩ := h
    rw [decode, hf, keys?, hn]
    rfl
  | getDelay _ | waitKey _ | setDelay _ | setSound _ | addIndex _ | glyph _ | decimal _ | store _
  | load _ =>
    obtain ⟨hf, rfl, hn⟩ := h
    rw [decode, hf, devices?, hn]
    rfl

/-- A word spells one instruction only. -/
theorem eq_of_spelled {w : Word} {op other : Op} (hd : decode w = some op)
    (hs : other.Spelled w) : op = other :=
  Option.some.inj (hd.symm.trans (decode_of_spelled hs))

theorem listed_of_spelled {w : Word} {op : Op} (hs : op.Spelled w) : w.Listed := by
  cases op with
  | clear => exact .inl hs
  | ret => exact .inr (.inl hs)
  | alu f x y =>
    obtain ⟨hf, -, -, hn⟩ := hs
    simp [Word.Listed, hf, hn, f.digit_listed]
  | _ =>
    simp only [Spelled] at hs
    simp [Word.Listed, hs]

theorem exists_spelled {w : Word} (hl : w.Listed) : ∃ op : Op, op.Spelled w := by
  rcases hl with hw | hw | hf | ⟨hf, hn⟩ | hf | ⟨hf, hn⟩ | ⟨hf, hn⟩
  · exact ⟨.clear, hw⟩
  · exact ⟨.ret, hw⟩
  · have hf : w.family = 0x1 ∨ w.family = 0x2 ∨ w.family = 0x3 ∨ w.family = 0x4 ∨
        w.family = 0x5 ∨ w.family = 0x6 ∨ w.family = 0x7 := by grind
    rcases hf with hf | hf | hf | hf | hf | hf | hf
    · exact ⟨.jump _, hf, rfl⟩
    · exact ⟨.call _, hf, rfl⟩
    · exact ⟨.skipByte _ _, hf, rfl, rfl⟩
    · exact ⟨.skipNotByte _ _, hf, rfl, rfl⟩
    · exact ⟨.skipSame _ _, hf, rfl, rfl⟩
    · exact ⟨.setByte _ _, hf, rfl, rfl⟩
    · exact ⟨.addByte _ _, hf, rfl, rfl⟩
  · obtain ⟨f, hn⟩ := Alu.exists_digit w.n hn
    exact ⟨.alu f _ _, hf, rfl, rfl, hn⟩
  · have hf : w.family = 0x9 ∨ w.family = 0xA ∨ w.family = 0xB ∨ w.family = 0xC ∨
        w.family = 0xD := by grind
    rcases hf with hf | hf | hf | hf | hf
    · exact ⟨.skipOther _ _, hf, rfl, rfl⟩
    · exact ⟨.setIndex _, hf, rfl⟩
    · exact ⟨.jumpFrom _, hf, rfl⟩
    · exact ⟨.random _ _, hf, rfl, rfl⟩
    · exact ⟨.draw _ _ _, hf, rfl, rfl, rfl⟩
  · simp only [List.mem_cons, List.not_mem_nil, or_false] at hn
    rcases hn with hn | hn
    · exact ⟨.skipKey _, hf, rfl, hn⟩
    · exact ⟨.skipNoKey _, hf, rfl, hn⟩
  · simp only [List.mem_cons, List.not_mem_nil, or_false] at hn
    rcases hn with hn | hn | hn | hn | hn | hn | hn | hn | hn
    · exact ⟨.getDelay _, hf, rfl, hn⟩
    · exact ⟨.waitKey _, hf, rfl, hn⟩
    · exact ⟨.setDelay _, hf, rfl, hn⟩
    · exact ⟨.setSound _, hf, rfl, hn⟩
    · exact ⟨.addIndex _, hf, rfl, hn⟩
    · exact ⟨.glyph _, hf, rfl, hn⟩
    · exact ⟨.decimal _, hf, rfl, hn⟩
    · exact ⟨.store _, hf, rfl, hn⟩
    · exact ⟨.load _, hf, rfl, hn⟩

/-- The words that decode to nothing are those that are not on the list. -/
theorem decode_eq_none_iff {w : Word} : decode w = none ↔ ¬ w.Listed := by
  constructor
  · intro hd hl
    obtain ⟨op, hs⟩ := exists_spelled hl
    rw [decode_of_spelled hs] at hd
    cases hd
  · intro hl
    cases hd : decode w with
    | none => rfl
    | some op => exact absurd (listed_of_spelled (spelled_of_decode hd)) hl

end Op

end ChipEight
