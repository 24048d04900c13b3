import ChipEight.Proofs.Effect
import ChipEight.Proofs.Encoding

/-!
# Drawing a sprite

The pen flips one pixel after the other and looks at the screen it is changing, but no pixel
comes under it twice. So what a drawing does can be said of the screen as it was: the pixels
covered are flipped, the others stay, and there was a hit exactly if a covered pixel was lit.
Where a sprite reaches beyond the right or the bottom edge there is no pixel to cover.
-/
namespace ChipEight

namespace Display

variable {w h : Nat}

/-- The pixels of the set bits among the `n` leftmost of a row. -/
def inBits (x y n : Nat) (bits : UInt8) (c r : Nat) : Bool :=
  decide (r = y ∧ x ≤ c ∧ c < x + n) && bits.toNat.testBit (7 - (c - x))

/-- The pixels that a sprite at a point covers. -/
def inSprite (x y : Nat) (sprite : List UInt8) (c r : Nat) : Bool :=
  decide (y ≤ r ∧ x ≤ c ∧ c < x + 8) && sprite[r - y]?.any (·.toNat.testBit (7 - (c - x)))

namespace Stroke

variable {s t u : Stroke w h} {area more : Nat → Nat → Bool}

/-- From one stroke to another the pixels of an area have been flipped, each once. -/
structure Flips (s t : Stroke w h) (area : Nat → Nat → Bool) : Prop where
  pixel : ∀ (c : Fin w) (r : Fin h), t.screen.pixel c r = (s.screen.pixel c r ^^ area c r)
  hit : t.hit = true ↔
    s.hit = true ∨ ∃ (c : Fin w) (r : Fin h), area c r = true ∧ s.screen.pixel c r = true

/-- An area beyond the edges is flipped by doing nothing. -/
theorem flips_off (s : Stroke w h) (off : ∀ (c : Fin w) (r : Fin h), area c r = false) :
    s.Flips s area where
  pixel c r := by simp [off]
  hit := by simp [off]

/-- Areas without a common pixel may be flipped one after the other. -/
theorem Flips.trans (first : s.Flips t area) (second : t.Flips u more)
    (apart : ∀ c r, area c r = true → more c r = false) :
    s.Flips u fun c r => area c r || more c r where
  pixel c r := by
    rw [second.pixel, first.pixel]
    cases ha : area c r with
    | true => simp [apart c r ha]
    | false => simp
  hit := by
    -- What the second finds under it is as the first has found it.
    have untouched (c : Fin w) (r : Fin h) (hm : more c r = true) :
        t.screen.pixel c r = s.screen.pixel c r := by
      have ha : area c r = false := by
        cases ha : area c r with
        | true => exact absurd (hm.symm.trans (apart c r ha)) Bool.noConfusion
        | false => rfl
      rw [first.pixel, ha, Bool.xor_false]
    rw [second.hit, first.hit, or_assoc]
    apply or_congr_right
    constructor
    · rintro (⟨c, r, ha, lit⟩ | ⟨c, r, hm, lit⟩)
      · exact ⟨c, r, by simp [ha], lit⟩
      · exact ⟨c, r, by simp [hm], by rw [← untouched c r hm, lit]⟩
    · rintro ⟨c, r, either, lit⟩
      rcases Bool.or_eq_true_iff.mp either with ha | hm
      · exact .inl ⟨c, r, ha, lit⟩
      · exact .inr ⟨c, r, hm, by rw [untouched c r hm, lit]⟩

theorem flips_flip (s : Stroke w h) (x y : Nat) :
    s.Flips (s.flip x y) fun c r => decide (c = x ∧ r = y) := by
  unfold flip
  split
  next hx =>
    split
    next hy =>
      constructor
      · intro c r
        simp only [pixel_put, Fin.ext_iff]
        split
        next here =>
          obtain ⟨rfl, rfl⟩ : c = ⟨x, hx⟩ ∧ r = ⟨y, hy⟩ := here.imp Fin.ext Fin.ext
          simp
        next elsewhere => simp [elsewhere]
      · simp only [Bool.or_eq_true, decide_eq_true_eq]
        apply or_congr_right
        constructor
        · intro lit
          exact ⟨⟨x, hx⟩, ⟨y, hy⟩, ⟨rfl, rfl⟩, lit⟩
        · rintro ⟨c, r, ⟨rfl, rfl⟩, lit⟩
          exact lit
    next hy => exact s.flips_off fun c r => decide_eq_false (by omega)
  next hx => exact s.flips_off fun c r => decide_eq_false (by omega)

theorem flips_bit (s : Stroke w h) (x y i : Nat) (bits : UInt8) :
    s.Flips (if bits.toNat.testBit (7 - i) then s.flip (x + i) y else s) fun c r =>
      decide (c = x + i ∧ r = y) && bits.toNat.testBit (7 - i) := by
  split
  next set => simpa only [set, Bool.and_true] using s.flips_flip (x + i) y
  next clear => exact s.flips_off fun c r => by simp [clear]

theorem inBits_succ (x y n : Nat) (bits : UInt8) (c r : Nat) :
    inBits x y (n + 1) bits c r =
      (inBits x y n bits c r || (decide (c = x + n ∧ r = y) && bits.toNat.testBit (7 - n))) := by
  by_cases hc : c = x + n
  · simp [inBits, hc]
  · have hb : (r = y ∧ x ≤ c ∧ c < x + (n + 1)) ↔ (r = y ∧ x ≤ c ∧ c < x + n) := by omega
    simp [inBits, hc, hb]

/-- A row goes from left to right, so the pen is always beyond what it has flipped. -/
theorem flips_bits (s : Stroke w h) (x y n : Nat) (bits : UInt8) :
    s.Flips ((List.range n).foldl
      (fun s i => if bits.toNat.testBit (7 - i) then s.flip (x + i) y else s) s)
      (inBits x y n bits) := by
  induction n with
  | zero =>
    apply s.flips_off
    intro c r
    have none : ¬((r : Nat) = y ∧ x ≤ c ∧ (c : Nat) < x + 0) := by omega
    simp only [inBits, none, decide_false, Bool.false_and]
  | succ n ih =>
    rw [List.range_succ, List.foldl_append, List.foldl_cons, List.foldl_nil]
    have step := ih.trans (flips_bit _ x y n bits) (by
      intro c r behind
      simp only [inBits, Bool.and_eq_true, decide_eq_true_eq] at behind
      have hc : c ≠ x + n := by omega
      simp [hc])
    simp only [← inBits_succ] at step
    exact step

theorem flips_row (s : Stroke w h) (x y : Nat) (bits : UInt8) :
    s.Flips (s.row x y bits) (inBits x y 8 bits) := s.flips_bits x y 8 bits

theorem inSprite_cons (x y : Nat) (bits : UInt8) (rest : List UInt8) (c r : Nat) :
    inSprite x y (bits :: rest) c r = (inBits x y 8 bits c r || inSprite x (y + 1) rest c r) := by
  rcases Nat.lt_trichotomy r y with above | rfl | below
  · have hy : ¬ y ≤ r := by omega
    have hy' : ¬ y + 1 ≤ r := by omega
    have hr : r ≠ y := by omega
    simp [inSprite, inBits, hy, hy', hr]
  · have hr : ¬ r + 1 ≤ r := by omega
    simp [inSprite, inBits, hr]
  · have hy : y ≤ r := by omega
    have hr : r ≠ y := by omega
    have hy' : y + 1 ≤ r := below
    have e : r - y = r - (y + 1) + 1 := by omega
    simp [inSprite, inBits, hy, hy', hr, e]

/-- A sprite goes downwards, row by row. -/
theorem flips_sprite (s : Stroke w h) (x y : Nat) (sprite : List UInt8) :
    s.Flips (s.sprite x y sprite) (inSprite x y sprite) := by
  induction sprite generalizing s y with
  | nil => exact s.flips_off fun c r => by simp [inSprite]
  | cons bits rest ih =>
    have rows := (s.flips_row x y bits).trans (ih (s.row x y bits) (y + 1)) (by
      intro c r above
      simp only [inBits, Bool.and_eq_true, decide_eq_true_eq] at above
      have hr : ¬ y + 1 ≤ r := by omega
      simp [inSprite, hr])
    simp only [← inSprite_cons] at rows
    exact rows

end Stroke

/-- A drawing flips the pixels that the sprite covers. -/
theorem pixel_draw (d : Display w h) (x y : Nat) (sprite : List UInt8) (c : Fin w) (r : Fin h) :
    (d.draw x y sprite).1.pixel c r = (d.pixel c r ^^ inSprite x y sprite c r) :=
  (Stroke.flips_sprite ⟨d, false⟩ x y sprite).pixel c r

/-- There is a hit exactly if a covered pixel was lit before. -/
theorem hit_draw_iff (d : Display w h) (x y : Nat) (sprite : List UInt8) :
    (d.draw x y sprite).2 = true ↔
      ∃ (c : Fin w) (r : Fin h), inSprite x y sprite c r = true ∧ d.pixel c r = true := by
  have hit := (Stroke.flips_sprite ⟨d, false⟩ x y sprite).hit
  simp only [Bool.false_eq_true, false_or] at hit
  exact hit

end Display

namespace Vm

variable {w h : Nat}

/-- The column at which a drawing word starts, wrapped onto the screen. -/
def spriteLeft (vm : Vm w h) (word : Word) : Nat := (vm.reg word.x).toNat % w

/-- The row at which a drawing word starts, wrapped onto the screen. -/
def spriteTop (vm : Vm w h) (word : Word) : Nat := (vm.reg word.y).toNat % h

/-- The pixels that a drawing word covers: those under the set bits of its rows. -/
structure Covers (vm : Vm w h) (word : Word) (c : Fin w) (r : Fin h) : Prop where
  row : vm.spriteTop word ≤ r ∧ r < vm.spriteTop word + word.n
  column : vm.spriteLeft word ≤ c ∧ c < vm.spriteLeft word + 8
  bit : ∃ b, vm.memory.bytes[vm.index.toNat + (r - vm.spriteTop word)]? = some b ∧
    b.toNat.testBit (7 - (c - vm.spriteLeft word)) = true

structure Draws (vm : Vm w h) (word : Word) (vm' : Vm w h) : Prop where
  flipped : ∀ c r, vm.Covers word c r → vm'.screen.pixel c r = !vm.screen.pixel c r
  kept : ∀ c r, ¬ vm.Covers word c r → vm'.screen.pixel c r = vm.screen.pixel c r
  hit : (∃ c r, vm.Covers word c r ∧ vm.screen.pixel c r = true) →
    vm'.reg Registers.flagRegister = 1
  miss : (∀ c r, vm.Covers word c r → vm.screen.pixel c r = false) →
    vm'.reg Registers.flagRegister = 0
  register : ∀ i, i ≠ Registers.flagRegister → vm'.reg i = vm.reg i
  index : vm'.index = vm.index
  memory : vm'.memory = vm.memory
  stale : vm'.screen.stale = true

theorem getElem?_block (vm : Vm w h) {n : Nat} (hb : vm.index.toNat + n ≤ 4096) (k : Nat) :
    (vm.block n)[k]? = if k < n then vm.memory.bytes[vm.index.toNat + k]? else none := by
  have hn : min (vm.index.toNat + n) 4096 - vm.index.toNat = n := by omega
  simp only [block, Array.getElem?_toList, Array.getElem?_extract, Vector.size_toArray,
    Vector.getElem?_toArray, hn]

/-- The area of the sprite is what the word covers. -/
theorem inSprite_iff_covers (vm : Vm w h) (word : Word)
    (hb : vm.index.toNat + word.n.val ≤ 4096) (c : Fin w) (r : Fin h) :
    Display.inSprite (vm.spriteLeft word) (vm.spriteTop word) (vm.block word.n) c r = true ↔
      vm.Covers word c r := by
  simp only [Display.inSprite, Bool.and_eq_true, decide_eq_true_eq, vm.getElem?_block hb,
    Option.any_eq_true]
  constructor
  · rintro ⟨⟨hr, hc, hc'⟩, b, found, set⟩
    split at found
    next hn => exact ⟨⟨hr, by omega⟩, ⟨hc, hc'⟩, b, found, set⟩
    next => cases found
  · rintro ⟨⟨hr, hr'⟩, ⟨hc, hc'⟩, b, found, set⟩
    exact ⟨⟨hr, hc, hc'⟩, b, by rw [if_pos (by omega), found], set⟩

theorem cycle_of_draw (hw : 0 < w) (hh : 0 < h) {vm : Vm w h} {word : Word} (ha : vm.At word)
    (hf : word.family = 0xD) (hb : vm.index.toNat + word.n.val ≤ 4096) :
    vm.cycle = (.ok word, vm.fetched.after (.draw word.x word.y word.n)) := by
  have hd : Op.decode word = some (.draw word.x word.y word.n) :=
    Op.decode_of_spelled ⟨hf, rfl, rfl, rfl⟩
  have hs : ¬(w = 0 ∨ h = 0) := by omega
  have hn : ¬ 4096 < vm.index.toNat + word.n.val := by omega
  have accepted : vm.fetched.refusal (.draw word.x word.y word.n) = none := by
    simp only [refusal, hs, ↓reduceIte, beyond]
    exact if_neg hn
  exact cycle_of_accepted (at_iff.mp ha) hd accepted

theorem pixel_after_draw (vm : Vm w h) (word : Word) (c : Fin w) (r : Fin h) :
    (vm.fetched.after (.draw word.x word.y word.n)).screen.pixel c r =
      (vm.screen.pixel c r ^^
        Display.inSprite (vm.spriteLeft word) (vm.spriteTop word) (vm.block word.n) c r) :=
  Display.pixel_draw ..

theorem reg_after_draw (vm : Vm w h) (word : Word) (i : Digit) :
    (vm.fetched.after (.draw word.x word.y word.n)).reg i =
      if i = Registers.flagRegister then if (vm.drawn word.x word.y word.n).2 then 1 else 0
      else vm.reg i :=
  Bank.get_put ..

theorem drawn_hit_iff (vm : Vm w h) (word : Word) (hb : vm.index.toNat + word.n.val ≤ 4096) :
    (vm.drawn word.x word.y word.n).2 = true ↔
      ∃ c r, vm.Covers word c r ∧ vm.screen.pixel c r = true := by
  rw [drawn, Display.hit_draw_iff]
  simp only [← vm.inSprite_iff_covers word hb]
  rfl

/-- A drawing word whose rows lie within memory flips the pixels it covers and no others, and
leaves in register F whether one of them was lit. All this is meant of the registers and of
the screen before the cycle. -/
theorem draw_flips_covered (hw : 0 < w) (hh : 0 < h) (vm : Vm w h) (word : Word)
    (ha : vm.At word) (hf : word.family = 0xD) (hb : vm.index.toNat + word.n.val ≤ 4096) :
    vm.cycle.1 = .ok word ∧ vm.Draws word vm.cycle.2 := by
  rw [cycle_of_draw hw hh ha hf hb]
  refine ⟨rfl, ?_⟩
  constructor
  case flipped =>
    intro c r covered
    rw [pixel_after_draw, (vm.inSprite_iff_covers word hb c r).mpr covered, Bool.xor_true]
  case kept =>
    intro c r uncovered
    have off := mt (vm.inSprite_iff_covers word hb c r).mp uncovered
    rw [pixel_after_draw, Bool.eq_false_iff.mpr off, Bool.xor_false]
  case hit =>
    intro lit
    rw [reg_after_draw, if_pos rfl, (vm.drawn_hit_iff word hb).mpr lit]
    rfl
  case miss =>
    intro dark
    have missed : (vm.drawn word.x word.y word.n).2 = false := by
      rw [Bool.eq_false_iff, Ne, vm.drawn_hit_iff word hb]
      rintro ⟨c, r, covered, lit⟩
      exact absurd (lit.symm.trans (dark c r covered)) Bool.noConfusion
    rw [reg_after_draw, if_pos rfl, missed]
    rfl
  case register =>
    intro i hi
    rw [reg_after_draw, if_neg hi]
  case index => rfl
  case memory => rfl
  case stale => rfl

/-- A sprite whose place is in register F itself, on a screen narrower than its rows, with the
last two bytes of memory for rows and one pixel lit in the upper right corner. -/
def corner : Vm 5 3 :=
  { initial 5 3 ⟨1⟩ with
    memory := Memory.put (Memory.put ⟨Vector.replicate 4096 0⟩ 0 [0xDF, 0xF2]) 4094 [0xFF, 0x7F]
    index := 4094
    registers := Registers.zero.put Registers.flagRegister 9
    screen := (Display.blank 5 3).put 4 0 true }

theorem corner_at : corner.At ⟨0xDF, 0xF2⟩ := ⟨by decide, by decide +kernel⟩

theorem corner_covers : corner.Covers ⟨0xDF, 0xF2⟩ 4 0 where
  row := by decide +kernel
  column := by decide +kernel
  bit := ⟨0xFF, by decide +kernel, by decide⟩

theorem corner_lit : corner.screen.pixel 4 0 = true := by simp [corner, Display.pixel_put]

/-- A sprite that hits the one lit pixel turns it off, and the flag takes the place of its own
coordinate. -/
theorem corner_drawn :
    corner.At ⟨0xDF, 0xF2⟩ ∧ corner.cycle.1 = .ok ⟨0xDF, 0xF2⟩ ∧
      corner.cycle.2.screen.pixel 4 0 = false ∧
      corner.cycle.2.reg Registers.flagRegister = 1 := by
  obtain ⟨done, draws⟩ := draw_flips_covered (by decide) (by decide) corner ⟨0xDF, 0xF2⟩ corner_at
    (by decide) (by decide)
  exact ⟨corner_at, done, by rw [draws.flipped 4 0 corner_covers, corner_lit]; rfl,
    draws.hit ⟨4, 0, corner_covers, corner_lit⟩⟩

end Vm

end ChipEight
