import ChipEight.Fault

/-!
# Memory

Memory has 4096 bytes. The glyphs of the sixteen digits stand at 50, programs are loaded from 200
on (both hexadecimal). Ranges are given by an address and a length, checked before anything is
read or written.
-/
namespace ChipEight

structure Memory where
  bytes : Vector UInt8 4096
  deriving DecidableEq

namespace Memory

def size : Nat := 4096
def fontBase : Nat := 0x50
def programStart : Nat := 0x200
def programSpace : Nat := size - programStart

/-- Five bytes a glyph, one row a byte, the four pixels of a row in the high digit. -/
def font : List UInt8 :=
  [0xF0, 0x90, 0x90, 0x90, 0xF0,
    0x20, 0x60, 0x20, 0x20, 0x70,
    0xF0, 0x10, 0xF0, 0x80, 0xF0,
    0xF0, 0x10, 0xF0, 0x10, 0xF0,
    0x90, 0x90, 0xF0, 0x10, 0x10,
    0xF0, 0x80, 0xF0, 0x10, 0xF0,
    0xF0, 0x80, 0xF0, 0x90, 0xF0,
    0xF0, 0x10, 0x20, 0x40, 0x40,
    0xF0, 0x90, 0xF0, 0x90, 0xF0,
    0xF0, 0x90, 0xF0, 0x10, 0xF0,
    0xF0, 0x90, 0xF0, 0x90, 0x90,
    0xE0, 0x90, 0xE0, 0x90, 0xE0,
    0xF0, 0x80, 0x80, 0x80, 0xF0,
    0xE0, 0x90, 0x90, 0x90, 0xE0,
    0xF0, 0x80, 0xF0, 0x80, 0xF0,
    0xF0, 0x80, 0xF0, 0x80, 0x80]

/-- Overlay consecutive bytes from an address on. -/
def put (m : Memory) (address : Nat) : List UInt8 → Memory
  | [] => m
  | b :: bs => put ⟨m.bytes.setIfInBounds address b⟩ (address + 1) bs

/-- All zero but for the font. -/
def initial : Memory := put ⟨Vector.replicate 4096 0⟩ fontBase font

/-- A range may not start below zero or end beyond the last byte. -/
def check (address length : Int) : Except Fault Unit :=
  if address < 0 ∨ address + length > size then .error (.outOfBounds address length)
  else .ok ()

/-- Where a range stops. A stop below zero counts back from the end of memory. -/
def stop (address length : Int) : Nat :=
  if address + length < 0 then (address + length + size).toNat else (address + length).toNat

def read (m : Memory) (address length : Int) : Except Fault (List UInt8) :=
  match check address length with
  | .error f => .error f
  | .ok () => .ok (m.bytes.toArray.extract address.toNat (stop address length)).toList

def store (m : Memory) (address : Int) (data : List UInt8) : Except Fault Memory :=
  match check address data.length with
  | .error f => .error f
  | .ok () => .ok (m.put address.toNat data)

def byte? (v : Int) : Option UInt8 :=
  if 0 ≤ v ∧ v < 256 then some (UInt8.ofNat v.toNat) else none

/-- Store whole numbers, each of which has to be a byte. The range is checked first. -/
def write (m : Memory) (address : Int) (data : List Int) : Except Fault Memory :=
  match check address data.length with
  | .error f => .error f
  | .ok () =>
    match data.mapM byte? with
    | none => .error .wideByte
    | some bytes => .ok (m.put address.toNat bytes)

def numbers (bytes : List UInt8) : List Int := bytes.map fun b => b.toNat

def word (m : Memory) (address : UInt16) : Except Fault Word :=
  if h : address.toNat + 2 ≤ 4096 then .ok ⟨m.bytes[address.toNat], m.bytes[address.toNat + 1]⟩
  else .error (.outOfBounds address.toNat 2)

@[simp] theorem put_nil (m : Memory) (address : Nat) : m.put address [] = m := rfl

@[simp] theorem put_cons (m : Memory) (address : Nat) (b : UInt8) (bs : List UInt8) :
    m.put address (b :: bs) = put ⟨m.bytes.setIfInBounds address b⟩ (address + 1) bs := rfl

/-- After an overlay a byte is the one laid over it, if any, and otherwise the old one. -/
theorem getElem_put (m : Memory) (address : Nat) (bs : List UInt8) (i : Nat) (hi : i < 4096) :
    (m.put address bs).bytes[i] =
      if h : address ≤ i ∧ i - address < bs.length then bs[i - address] else m.bytes[i] := by
  induction bs generalizing m address with
  | nil => simp
  | cons b bs ih =>
    rw [put_cons, ih]
    by_cases h : i = address
    · subst h
      rw [dif_neg (by omega), dif_pos ⟨Nat.le_refl _, by simp⟩]
      simp
    · by_cases h' : address + 1 ≤ i ∧ i - (address + 1) < bs.length
      · have e : i - address = (i - (address + 1)) + 1 := by omega
        rw [dif_pos h', dif_pos ⟨by omega, by simp only [List.length_cons]; omega⟩]
        simp only [e, List.getElem_cons_succ]
      · rw [dif_neg h', dif_neg (by simp only [List.length_cons]; omega)]
        simp only [Vector.getElem_setIfInBounds, Ne.symm h, ↓reduceIte]

/-- The bytes of an overlay are found where they were laid. -/
theorem getElem?_put_inside (m : Memory) {address k : Nat} {bs : List UInt8}
    (fits : address + bs.length ≤ 4096) (hk : k < bs.length) :
    (m.put address bs).bytes[address + k]? = bs[k]? := by
  have ha : address + k < 4096 := by omega
  have hs : address ≤ address + k ∧ address + k - address < bs.length := by omega
  rw [Vector.getElem?_eq_getElem ha, List.getElem?_eq_getElem hk, getElem_put, dif_pos hs]
  simp only [Nat.add_sub_cancel_left]

/-- Before and behind an overlay nothing changes. -/
theorem getElem?_put_outside (m : Memory) {address a : Nat} {bs : List UInt8}
    (ha : a < address ∨ address + bs.length ≤ a) :
    (m.put address bs).bytes[a]? = m.bytes[a]? := by
  by_cases hb : a < 4096
  · have hs : ¬(address ≤ a ∧ a - address < bs.length) := by omega
    rw [Vector.getElem?_eq_getElem hb, Vector.getElem?_eq_getElem hb, getElem_put, dif_neg hs]
  · have hn : 4096 ≤ a := Nat.le_of_not_lt hb
    rw [Vector.getElem?_eq_none hn, Vector.getElem?_eq_none hn]

theorem check_of_inside {address length : Int} (low : 0 ≤ address)
    (high : address + length ≤ 4096) : check address length = .ok () := by
  have inside : ¬(address < 0 ∨ address + length > (size : Nat)) := by
    simp only [size]
    omega
  simp only [check, inside, ↓reduceIte]

theorem check_of_outside {address length : Int} (outside : address < 0 ∨ 4096 < address + length) :
    check address length = .error (.outOfBounds address length) := by
  have outside : address < 0 ∨ address + length > (size : Nat) := by
    simp only [size]
    omega
  simp only [check, outside, ↓reduceIte]

theorem check_of_le {address length : Nat} (h : address + length ≤ 4096) :
    check address length = .ok () :=
  check_of_inside (by omega) (by omega)

theorem check_of_gt {address length : Nat} (h : 4096 < address + length) :
    check address length = .error (.outOfBounds address length) :=
  check_of_outside (by omega)

theorem stop_natCast (address length : Nat) : stop address length = address + length := by
  have hn : ¬((address : Int) + length < 0) := by omega
  simp only [stop, hn, ↓reduceIte]
  omega

/-- A word that ends within memory is its two bytes, the high one first. -/
theorem word_of_le (m : Memory) {address : UInt16} (h : address.toNat + 2 ≤ 4096) :
    m.word address = .ok ⟨m.bytes[address.toNat], m.bytes[address.toNat + 1]⟩ := by
  simp only [word, h, ↓reduceDIte]

theorem word_of_gt (m : Memory) {address : UInt16} (h : 4096 < address.toNat + 2) :
    m.word address = .error (.outOfBounds address.toNat 2) := by
  simp only [word, Nat.not_le.mpr h, ↓reduceDIte]

theorem le_of_word {m : Memory} {address : UInt16} {word : Word}
    (hw : m.word address = .ok word) : address.toNat + 2 ≤ 4096 := by
  by_cases h : address.toNat + 2 ≤ 4096
  · exact h
  · rw [m.word_of_gt (Nat.lt_of_not_le h)] at hw
    cases hw

theorem le_of_store {m stored : Memory} {address : Nat} {data : List UInt8}
    (hs : m.store address data = .ok stored) : address + data.length ≤ 4096 := by
  by_cases hb : address + data.length ≤ 4096
  · exact hb
  · rw [store, check_of_gt (Nat.lt_of_not_le hb)] at hs
    cases hs

@[simp] theorem length_numbers (bytes : List UInt8) : (numbers bytes).length = bytes.length :=
  List.length_map _

theorem byte?_natCast (b : UInt8) : byte? b.toNat = some b := by
  have := b.toNat_lt
  have narrow : (0 : Int) ≤ b.toNat ∧ (b.toNat : Int) < 256 := by omega
  rw [byte?, if_pos narrow, Int.toNat_natCast, UInt8.ofNat_toNat]

theorem mapM_byte?_numbers (bytes : List UInt8) : (numbers bytes).mapM byte? = some bytes := by
  induction bytes with
  | nil => rfl
  | cons b bytes ih =>
    rw [numbers, List.map_cons, List.mapM_cons, byte?_natCast, ← numbers, ih]
    rfl

/-- Bytes are stored as the numbers that they are would be written. -/
theorem write_numbers (m : Memory) (address : Int) (bytes : List UInt8) :
    m.write address (numbers bytes) = m.store address bytes := by
  simp only [write, store, length_numbers, mapM_byte?_numbers]

/-- What is read has the length that was asked for. -/
theorem length_of_read {m : Memory} {address n : Nat} {bytes : List UInt8}
    (hr : m.read address n = .ok bytes) : bytes.length = n := by
  by_cases hb : address + n ≤ 4096
  · rw [read, check_of_le hb, stop_natCast] at hr
    cases hr
    simp only [Array.length_toList, Array.size_extract, Vector.size_toArray, Int.toNat_natCast]
    omega
  · rw [read, check_of_gt (Nat.lt_of_not_le hb)] at hr
    cases hr

end Memory

end ChipEight
