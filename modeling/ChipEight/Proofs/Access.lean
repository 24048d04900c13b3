import ChipEight.Machine

/-!
# Access to memory by address and length

The address and the length of an access may be any whole numbers. A write is refused if its range
leaves memory, then if one of its numbers is no byte, and else is done as a whole: the numbers
are read back from the range, and nothing beside it changes. Writes to ranges without a common
address may change places, and a second write to a range hides the first.

A read gives the bytes that were asked for, with one exception. A length below zero may take the
end of the range below the start of memory, where it counts back from the end of memory, and such
a read gives bytes that nobody has asked for.
-/
namespace ChipEight

/-- Ranges without a common address. An empty range has none with any. -/
def Apart (a n b k : Int) : Prop := ∀ i, a ≤ i → i < a + n → ¬(b ≤ i ∧ i < b + k)

namespace Memory

variable {m m' : Memory} {address length : Int}

section Reads

def span (m : Memory) (start stop : Nat) : List UInt8 :=
  (m.bytes.toArray.extract start stop).toList

@[simp] theorem length_span (m : Memory) (start stop : Nat) :
    (m.span start stop).length = min stop 4096 - start := by
  simp only [span, Array.length_toList, Array.size_extract, Vector.size_toArray]

theorem getElem?_span (m : Memory) {start stop i : Nat} (hi : start + i < min stop 4096) :
    (m.span start stop)[i]? = m.bytes[start + i]? := by
  rw [span, Array.getElem?_toList, Array.getElem?_extract, Vector.size_toArray,
    if_pos (by omega), Vector.getElem?_toArray]

theorem read_of_inside (m : Memory) (low : 0 ≤ address) (high : address + length ≤ 4096) :
    m.read address length = .ok (m.span address.toNat (stop address length)) := by
  rw [read, check_of_inside low high, span]

theorem read_of_outside (m : Memory) (outside : address < 0 ∨ 4096 < address + length) :
    m.read address length = .error (.outOfBounds address length) := by
  rw [read, check_of_outside outside]

/-- A read is refused exactly if its range starts below zero or ends beyond memory. -/
theorem read_eq_error_iff : m.read address length = .error (.outOfBounds address length) ↔
    address < 0 ∨ 4096 < address + length := by
  refine ⟨fun fails => ?_, m.read_of_outside⟩
  by_cases inside : 0 ≤ address ∧ address + length ≤ 4096
  · rw [m.read_of_inside inside.1 inside.2] at fails
    cases fails
  · omega

/-- What a range is to be answered with: its bytes, in order. A length below zero asks for none. -/
structure Answers (m : Memory) (address length : Int) (bytes : List UInt8) : Prop where
  low : 0 ≤ address
  length : bytes.length = length.toNat
  byte : ∀ i < bytes.length, bytes[i]? = m.bytes[(address + i).toNat]?

/-- A result is a refusal of the range, or the bytes of the range and no others. -/
def Confined (m : Memory) (address length : Int) (r : Except Fault (List UInt8)) : Prop :=
  r = .error (.outOfBounds address length) ∨ ∃ bytes, r = .ok bytes ∧ m.Answers address length bytes

/-- A range that ends below the start of memory, by less than the size of memory. -/
def EndsBelow (address length : Int) : Prop := 0 ≤ address ∧ address + length < 0 ∧ -4096 < length

theorem length_of_not_endsBelow (m : Memory) (low : 0 ≤ address) (high : address + length ≤ 4096)
    (above : ¬ EndsBelow address length) :
    (m.span address.toNat (stop address length)).length = length.toNat := by
  simp only [EndsBelow, low, true_and] at above
  simp only [length_span, stop, size]
  split <;> omega

theorem length_of_endsBelow (m : Memory) (below : EndsBelow address length) :
    ((m.span address.toNat (stop address length)).length : Int) = length + 4096 := by
  obtain ⟨low, negative, near⟩ := below
  simp only [length_span, stop, size, negative, ↓reduceIte]
  omega

theorem byte_of_span (m : Memory) (low : 0 ≤ address) {stop i : Nat}
    (hi : i < (m.span address.toNat stop).length) :
    (m.span address.toNat stop)[i]? = m.bytes[(address + i).toNat]? := by
  rw [length_span] at hi
  have place : (address + i).toNat = address.toNat + i := by omega
  rw [place, m.getElem?_span (by omega)]

theorem confined_of_not_endsBelow (m : Memory) (above : ¬ EndsBelow address length) :
    m.Confined address length (m.read address length) := by
  by_cases inside : 0 ≤ address ∧ address + length ≤ 4096
  · obtain ⟨low, high⟩ := inside
    refine .inr ⟨_, m.read_of_inside low high, low, ?_, fun i hi => m.byte_of_span low hi⟩
    exact m.length_of_not_endsBelow low high above
  · exact .inl (m.read_of_outside (by omega))

theorem read_answers (m : Memory) {k : Nat} (low : 0 ≤ address) (high : address + k ≤ 4096) :
    ∃ bytes, m.read address k = .ok bytes ∧ m.Answers address k bytes := by
  have above : ¬ EndsBelow address k := by
    rintro ⟨-, negative, -⟩
    omega
  refine (m.confined_of_not_endsBelow above).resolve_left ?_
  rw [read_eq_error_iff]
  omega

/-- An answer depends on nothing but the bytes of the range. -/
theorem Answers.congr {bytes bytes' : List UInt8} (answers : m.Answers address length bytes)
    (answers' : m'.Answers address length bytes')
    (same : ∀ a : Nat, address ≤ a → a < address + length → m'.bytes[a]? = m.bytes[a]?) :
    bytes = bytes' := by
  have count := answers.length
  have count' := answers'.length
  have low := answers.low
  apply List.ext_getElem?
  intro i
  by_cases hi : i < length.toNat
  · rw [answers.byte i (by omega), answers'.byte i (by omega), same _ (by omega) (by omega)]
  · rw [List.getElem?_eq_none (by omega), List.getElem?_eq_none (by omega)]

theorem read_congr {k : Nat}
    (same : ∀ a : Nat, address ≤ a → a < address + k → m'.bytes[a]? = m.bytes[a]?) :
    m'.read address k = m.read address k := by
  by_cases inside : 0 ≤ address ∧ address + k ≤ 4096
  · obtain ⟨bytes, reads, answers⟩ := m.read_answers inside.1 inside.2
    obtain ⟨bytes', reads', answers'⟩ := m'.read_answers inside.1 inside.2
    rw [reads, reads', answers.congr answers' same]
  · rw [m.read_of_outside (by omega), m'.read_of_outside (by omega)]

/-- A range that ends below the start of memory is answered up to an end that counts back from the
end of memory. -/
theorem read_of_endsBelow (m : Memory) (below : EndsBelow address length) :
    ∃ bytes, m.read address length = .ok bytes ∧ (bytes.length : Int) = length + 4096 ∧
      ∀ i < bytes.length, bytes[i]? = m.bytes[(address + i).toNat]? := by
  have low : 0 ≤ address := below.1
  have high : address + length ≤ 4096 := by
    have := below.2.1
    omega
  exact ⟨_, m.read_of_inside low high, m.length_of_endsBelow below,
    fun i hi => m.byte_of_span low hi⟩

theorem not_confined_of_endsBelow (m : Memory) (below : EndsBelow address length) :
    ¬ m.Confined address length (m.read address length) := by
  obtain ⟨bytes, reads, count, -⟩ := m.read_of_endsBelow below
  obtain ⟨low, negative, near⟩ := below
  rw [reads]
  rintro (refused | ⟨answer, answered, answers⟩)
  · cases refused
  · cases answered
    have asked := answers.length
    omega

/-- A read is confined to the range asked for unless the range ends below the start of memory, and
then it gives more than was asked for. -/
theorem read_confined_iff (m : Machine) (address length : Int) :
    (m.memory.Confined address length (m.memory.read address length) ↔
      ¬ EndsBelow address length) ∧
    (m.memory.read address length = .error (.outOfBounds address length) ↔
      address < 0 ∨ 4096 < address + length) ∧
    (EndsBelow address length →
      ∃ bytes, m.memory.read address length = .ok bytes ∧ (bytes.length : Int) = length + 4096 ∧
        ∀ i < bytes.length, bytes[i]? = m.memory.bytes[(address + i).toNat]?) := by
  refine ⟨⟨fun confined below => ?_, ?_⟩, read_eq_error_iff, m.memory.read_of_endsBelow⟩
  · exact m.memory.not_confined_of_endsBelow below confined
  · exact m.memory.confined_of_not_endsBelow

/-- Asked for one byte less than none, a fresh machine gives all its bytes but the last. -/
theorem lessThanNothing_read :
    ¬ Machine.initial.memory.Confined 0 (-1) (Machine.initial.memory.read 0 (-1)) :=
  not_confined_of_endsBelow _ ⟨by decide, by decide, by decide⟩

end Reads

section Writes

variable {data : List Int} {bytes : List UInt8}

structure Fits (address : Int) (data : List Int) : Prop where
  low : 0 ≤ address
  high : address + data.length ≤ 4096
  narrow : ∀ v ∈ data, 0 ≤ v ∧ v ≤ 255

theorem byte?_of_wide {v : Int} (wide : v < 0 ∨ 255 < v) : byte? v = none :=
  if_neg (by omega)

theorem mapM_byte?_of_wide (wide : ∃ v ∈ data, v < 0 ∨ 255 < v) : data.mapM byte? = none := by
  induction data with
  | nil => simp at wide
  | cons v data ih =>
    rw [List.mapM_cons]
    by_cases first : v < 0 ∨ 255 < v
    · rw [byte?_of_wide first]
      rfl
    · simp only [List.mem_cons, exists_eq_or_imp] at wide
      rw [ih (wide.resolve_left first)]
      cases byte? v <;> rfl

theorem exists_numbers (narrow : ∀ v ∈ data, 0 ≤ v ∧ v ≤ 255) : ∃ bytes, data = numbers bytes := by
  induction data with
  | nil => exact ⟨[], rfl⟩
  | cons v data ih =>
    obtain ⟨bytes, rest⟩ := ih fun u hu => narrow u (List.mem_cons_of_mem v hu)
    obtain ⟨low, high⟩ := narrow v List.mem_cons_self
    have first : v = (UInt8.ofNat v.toNat).toNat := by
      rw [UInt8.toNat_ofNat', Nat.mod_eq_of_lt] <;> omega
    exact ⟨UInt8.ofNat v.toNat :: bytes, by rw [numbers, List.map_cons, ← first, rest, numbers]⟩

/-- The range is checked first, whatever the numbers are. -/
theorem write_of_outside (m : Memory) (outside : address < 0 ∨ 4096 < address + data.length) :
    m.write address data = .error (.outOfBounds address data.length) := by
  rw [write, check_of_outside outside]

/-- Within memory a number that is no byte is the only reason left to refuse a write. -/
theorem write_of_wide (m : Memory) (low : 0 ≤ address) (high : address + data.length ≤ 4096)
    (wide : ∃ v ∈ data, v < 0 ∨ 255 < v) : m.write address data = .error .wideByte := by
  simp only [write, check_of_inside low high, mapM_byte?_of_wide wide]

theorem write_of_fits (m : Memory) (fits : Fits address (numbers bytes)) :
    m.write address (numbers bytes) = .ok (m.put address.toNat bytes) := by
  have inside := check_of_inside fits.low fits.high
  rw [length_numbers] at inside
  rw [write_numbers, store, inside]

theorem ext_bytes (same : ∀ a (ha : a < 4096), m'.bytes[a] = m.bytes[a]) : m' = m := by
  cases m
  cases m'
  exact congrArg Memory.mk (Vector.ext same)

/-- Overlays without a common address may change places. -/
theorem put_comm (m : Memory) {a b : Nat} {bs cs : List UInt8}
    (apart : Apart a bs.length b cs.length) : (m.put a bs).put b cs = (m.put b cs).put a bs := by
  refine ext_bytes fun i hi => ?_
  have once := apart i
  simp only [getElem_put]
  by_cases ha : a ≤ i ∧ i - a < bs.length
  · have hb : ¬(b ≤ i ∧ i - b < cs.length) := by omega
    simp only [ha, hb, and_self, ↓reduceDIte]
  · simp only [ha, ↓reduceDIte]

theorem put_put (m : Memory) (a : Nat) {bs cs : List UInt8} (same : cs.length = bs.length) :
    (m.put a bs).put a cs = m.put a cs := by
  refine ext_bytes fun i hi => ?_
  simp only [getElem_put, same]
  split
  · rfl
  · rfl

theorem answers_put (m : Memory) (low : 0 ≤ address) (high : address + bytes.length ≤ 4096) :
    (m.put address.toNat bytes).Answers address bytes.length bytes where
  low := low
  length := (Int.toNat_natCast _).symm
  byte i hi := by
    have place : (address + i).toNat = address.toNat + i := by omega
    rw [place, m.getElem?_put_inside (by omega) hi]

theorem read_put_inside (m : Memory) (low : 0 ≤ address) (high : address + bytes.length ≤ 4096) :
    (m.put address.toNat bytes).read address bytes.length = .ok bytes := by
  obtain ⟨answer, reads, answers⟩ := (m.put address.toNat bytes).read_answers low high
  rw [reads, answers.congr (m.answers_put low high) fun _ _ _ => rfl]

/-- A range without an address in common with an overlay is read as before. -/
theorem read_put_beside (m : Memory) {b : Int} {k : Nat} (low : 0 ≤ address)
    (apart : Apart b k address bytes.length) :
    (m.put address.toNat bytes).read b k = m.read b k := by
  refine read_congr fun a above below => m.getElem?_put_outside ?_
  have := apart a above below
  omega

end Writes

end Memory

namespace Machine

variable {m : Machine} {address : Int} {data : List Int}

theorem write_of_error {f : Fault} (fails : m.memory.write address data = .error f) :
    m.write address data = (.error f, m) := by
  simp only [write, Routine.on_attempt, fails, Except.map]

theorem write_of_fits (m : Machine) {bytes : List UInt8}
    (fits : Memory.Fits address (Memory.numbers bytes)) :
    m.write address (Memory.numbers bytes) =
      (.ok (), { m with memory := m.memory.put address.toNat bytes }) := by
  simp only [write, Routine.on_attempt, m.memory.write_of_fits fits, Except.map]

/-- A machine after numbers were written: they are read back, and all else is as it was. -/
structure Wrote (m : Machine) (address : Int) (data : List Int) (m' : Machine) : Prop where
  size : m'.memory.bytes.toList.length = 4096
  back : (m'.memory.read address data.length).map Memory.numbers = .ok data
  beside : ∀ (b : Int) (k : Nat), Apart b k address data.length →
    m'.memory.read b k = m.memory.read b k
  rest : m' = { m with memory := m'.memory }

theorem wrote_put (m : Machine) {bytes : List UInt8}
    (fits : Memory.Fits address (Memory.numbers bytes)) :
    m.Wrote address (Memory.numbers bytes)
      { m with memory := m.memory.put address.toNat bytes } where
  size := Vector.length_toList
  back := by
    have high := fits.high
    rw [Memory.length_numbers] at high ⊢
    rw [m.memory.read_put_inside fits.low high]
    rfl
  beside b k apart := by
    rw [Memory.length_numbers] at apart
    exact m.memory.read_put_beside fits.low apart
  rest := rfl

inductive Outcome (m : Machine) (address : Int) (data : List Int) (r : Except Fault Unit × Machine) :
    Prop
  | outside (outside : address < 0 ∨ 4096 < address + data.length)
      (ends : r = (.error (.outOfBounds address data.length), m))
  | wide (low : 0 ≤ address) (high : address + data.length ≤ 4096)
      (wide : ∃ v ∈ data, v < 0 ∨ 255 < v) (ends : r = (.error .wideByte, m))
  | done (fits : Memory.Fits address data) (m' : Machine) (wrote : m.Wrote address data m')
      (ends : r = (.ok (), m'))

/-- Every write ends in one of the three ways. -/
theorem outcome_write (m : Machine) (address : Int) (data : List Int) :
    m.Outcome address data (m.write address data) := by
  -- The cases come in the order of the checks: the range, then the numbers.
  by_cases outside : address < 0 ∨ 4096 < address + data.length
  · exact .outside outside (write_of_error (m.memory.write_of_outside outside))
  have low : 0 ≤ address := by omega
  have high : address + data.length ≤ 4096 := by omega
  by_cases wide : ∃ v ∈ data, v < 0 ∨ 255 < v
  · exact .wide low high wide (write_of_error (m.memory.write_of_wide low high wide))
  have narrow : ∀ v ∈ data, 0 ≤ v ∧ v ≤ 255 := by
    intro v hv
    have near : ¬(v < 0 ∨ 255 < v) := fun far => wide ⟨v, hv, far⟩
    omega
  obtain ⟨bytes, rfl⟩ := Memory.exists_numbers narrow
  have fits : Memory.Fits address (Memory.numbers bytes) := ⟨low, high, narrow⟩
  exact .done fits _ (m.wrote_put fits) (m.write_of_fits fits)

namespace Outcome

variable {r : Except Fault Unit × Machine}

theorem outside_iff (outcome : m.Outcome address data r) :
    r.1 = .error (.outOfBounds address data.length) ↔
      address < 0 ∨ 4096 < address + data.length := by
  cases outcome with
  | outside outside ends => simp only [ends, outside]
  | wide low high _ ends => simp only [ends, Except.error.injEq, reduceCtorEq, false_iff]; omega
  | done fits _ _ ends =>
    have := fits.low
    have := fits.high
    simp only [ends, reduceCtorEq, false_iff]
    omega

theorem wide_iff (outcome : m.Outcome address data r) : r.1 = .error .wideByte ↔
    (0 ≤ address ∧ address + data.length ≤ 4096) ∧ ∃ v ∈ data, v < 0 ∨ 255 < v := by
  cases outcome with
  | outside outside ends =>
    simp only [ends, Except.error.injEq, reduceCtorEq, false_iff]
    rintro ⟨inside, -⟩
    omega
  | wide low high wide ends => simp only [ends, low, high, wide, and_self]
  | done fits _ _ ends =>
    simp only [ends, reduceCtorEq, false_iff]
    rintro ⟨-, v, hv, far⟩
    have := fits.narrow v hv
    omega

theorem refused (outcome : m.Outcome address data r) {f : Fault} (fails : r.1 = .error f) :
    (f = .outOfBounds address data.length ∨ f = .wideByte) ∧ r.2 = m := by
  cases outcome with
  | outside _ ends =>
    rw [ends] at fails
    cases fails
    exact ⟨.inl rfl, by rw [ends]⟩
  | wide _ _ _ ends =>
    rw [ends] at fails
    cases fails
    exact ⟨.inr rfl, by rw [ends]⟩
  | done _ _ _ ends =>
    rw [ends] at fails
    cases fails

theorem done_of_fits (outcome : m.Outcome address data r) (fits : Memory.Fits address data) :
    r.1 = .ok () ∧ m.Wrote address data r.2 := by
  obtain ⟨low, high, narrow⟩ := fits
  cases outcome with
  | outside outside _ => omega
  | wide _ _ wide _ =>
    obtain ⟨v, hv, far⟩ := wide
    have := narrow v hv
    omega
  | done _ m' wrote ends =>
    rw [ends]
    exact ⟨rfl, wrote⟩

end Outcome

/-- Writes to ranges without a common address may change places. -/
theorem write_apart (m : Machine) {b : Int} {other : List Int} (fits : Memory.Fits address data)
    (fits' : Memory.Fits b other) (apart : Apart address data.length b other.length) :
    ((m.write address data).2.write b other).2 = ((m.write b other).2.write address data).2 := by
  obtain ⟨bytes, rfl⟩ := Memory.exists_numbers fits.narrow
  obtain ⟨others, rfl⟩ := Memory.exists_numbers fits'.narrow
  have apart : Apart address.toNat bytes.length b.toNat others.length := by
    rw [Int.toNat_of_nonneg fits.low, Int.toNat_of_nonneg fits'.low]
    simpa only [Memory.length_numbers] using apart
  simp only [write_of_fits _ fits, write_of_fits _ fits', m.memory.put_comm apart]

theorem write_later (m : Machine) {other : List Int} (same : other.length = data.length)
    (fits : Memory.Fits address data) (fits' : Memory.Fits address other) :
    ((m.write address data).2.write address other).2 = (m.write address other).2 := by
  obtain ⟨bytes, rfl⟩ := Memory.exists_numbers fits.narrow
  obtain ⟨others, rfl⟩ := Memory.exists_numbers fits'.narrow
  simp only [Memory.length_numbers] at same
  simp only [write_of_fits _ fits, write_of_fits _ fits', m.memory.put_put _ same]

/-- Which writes are refused and how, what any other leaves behind, and what two of them do. -/
structure Checked (m : Machine) (address : Int) (data : List Int) : Prop where
  outside_iff : (m.write address data).1 = .error (.outOfBounds address data.length) ↔
    address < 0 ∨ 4096 < address + data.length
  wide_iff : (m.write address data).1 = .error .wideByte ↔
    (0 ≤ address ∧ address + data.length ≤ 4096) ∧ ∃ v ∈ data, v < 0 ∨ 255 < v
  refused : ∀ f, (m.write address data).1 = .error f →
    (f = .outOfBounds address data.length ∨ f = .wideByte) ∧ (m.write address data).2 = m
  done : Memory.Fits address data →
    (m.write address data).1 = .ok () ∧ m.Wrote address data (m.write address data).2
  apart : ∀ b other, Memory.Fits address data → Memory.Fits b other →
    Apart address data.length b other.length →
    ((m.write address data).2.write b other).2 = ((m.write b other).2.write address data).2
  later : ∀ other, other.length = data.length → Memory.Fits address data →
    Memory.Fits address other →
    ((m.write address data).2.write address other).2 = (m.write address other).2

/-- Every write is checked, its range first and then its numbers. One that is refused changes
nothing, and any other is done as a whole. -/
theorem writes_checked (m : Machine) (address : Int) (data : List Int) :
    m.Checked address data := by
  have outcome := m.outcome_write address data
  constructor
  case outside_iff => exact outcome.outside_iff
  case wide_iff => exact outcome.wide_iff
  case refused =>
    intro f fails
    exact outcome.refused fails
  case done => exact outcome.done_of_fits
  case apart =>
    intro b other fits fits' apart
    exact m.write_apart fits fits' apart
  case later =>
    intro other same fits fits'
    exact m.write_later same fits fits'

end Machine

end ChipEight
