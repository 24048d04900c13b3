import ChipEight.Axis

/-!
# The call stack

A call stack has 32 slots and the number of them in use. A return address enters the first free
slot, and popping leaves the slot's content where it is. The lemmas say what happens to the list
of the slots in use.
-/
namespace ChipEight

structure CallStack where
  slots : Vector UInt16 32
  depth : Nat
  depth_le : depth ≤ 32
  deriving DecidableEq

namespace CallStack

def empty : CallStack := ⟨Vector.replicate 32 0, 0, by decide⟩

/-- The slots in use, oldest first. -/
def live (s : CallStack) : List UInt16 := s.slots.toList.take s.depth

/-- A full stack refuses any value, a stack with room those that need more than
sixteen bits. -/
def push (s : CallStack) (value : Int) : Except Fault CallStack :=
  if h : s.depth < 32 then
    if 0 ≤ value ∧ value.toNat < 65536 then
      .ok ⟨s.slots.set s.depth (UInt16.ofNat value.toNat), s.depth + 1, h⟩
    else if Axis.inWord value then .error (.wideAddress value)
    else .error .beyondWord
  else .error .stackOverflow

def pop (s : CallStack) : Except Fault (UInt16 × CallStack) :=
  if h : 0 < s.depth then
    have hl := s.depth_le
    .ok (s.slots[s.depth - 1], ⟨s.slots, s.depth - 1, by omega⟩)
  else .error .stackUnderflow

def top (s : CallStack) : UInt16 :=
  if h : 0 < s.depth then
    have hl := s.depth_le
    s.slots[s.depth - 1]
  else 0

def popped (s : CallStack) : CallStack :=
  ⟨s.slots, s.depth - 1, Nat.le_trans (Nat.sub_le _ _) s.depth_le⟩

def pushed (s : CallStack) (address : UInt16) : CallStack :=
  if h : s.depth < 32 then ⟨s.slots.set s.depth address, s.depth + 1, h⟩ else s

@[simp] theorem live_empty : empty.live = [] := rfl

@[simp] theorem length_live (s : CallStack) : s.live.length = s.depth := by
  have := s.depth_le
  simp only [live, List.length_take, Vector.length_toList]
  omega

theorem pop_of_pos {s : CallStack} (h : 0 < s.depth) : s.pop = .ok (s.top, s.popped) := by
  simp only [pop, top, popped, h, ↓reduceDIte]

theorem pop_of_empty {s : CallStack} (h : s.depth = 0) : s.pop = .error .stackUnderflow := by
  simp only [pop, h, Nat.lt_irrefl, ↓reduceDIte]

/-- Every address fits into a slot, so only a full stack refuses one. -/
theorem push_of_lt {s : CallStack} (h : s.depth < 32) (address : UInt16) :
    s.push address.toNat = .ok (s.pushed address) := by
  have ha := address.toNat_lt
  simp [push, pushed, h, ha]

theorem push_of_full {s : CallStack} (h : s.depth = 32) (value : Int) :
    s.push value = .error .stackOverflow := by
  simp only [push, h, Nat.lt_irrefl, ↓reduceDIte]

/-- A push adds its address behind the slots in use. -/
theorem live_pushed {s : CallStack} (h : s.depth < 32) (address : UInt16) :
    (s.pushed address).live = s.live ++ [address] := by
  have hs : s.depth < s.slots.toList.length := by rw [Vector.length_toList]; exact h
  simp only [pushed, h, ↓reduceDIte, live, Vector.toList_set]
  rw [List.take_add_one, List.take_set_of_le (Nat.le_refl _), List.getElem?_set_self hs]
  rfl

/-- A pop takes the youngest address out of use and no other. -/
theorem live_popped (s : CallStack) : s.popped.live = s.live.dropLast := by
  rw [List.dropLast_eq_take, length_live]
  simp only [live, popped, List.take_take]
  rw [Nat.min_eq_left (Nat.sub_le _ _)]

/-- The youngest return address is the last one in use. -/
theorem top_of_live {s : CallStack} {older : List UInt16} {address : UInt16}
    (h : s.live = older ++ [address]) : s.top = address := by
  have hl := s.length_live
  rw [h, List.length_append, List.length_singleton] at hl
  have hd : 0 < s.depth := by omega
  have hs := s.depth_le
  have ht : s.live[older.length]? = some s.top := by
    simp only [live, top, hd, ↓reduceDIte]
    rw [List.getElem?_take_of_lt (by omega), Vector.getElem?_toList]
    simp [← hl]
  rw [h, List.getElem?_concat_length] at ht
  exact (Option.some.inj ht).symm

theorem slot_of_live {s t : CallStack} (h : s.live = t.live) {i : Nat} (hi : i < 32)
    (hd : i < t.depth) : s.slots[i] = t.slots[i] := by
  have hs : i < s.depth := by
    rw [← length_live, h, length_live]
    exact hd
  have he : s.live[i]? = t.live[i]? := by rw [h]
  simp only [live, List.getElem?_take_of_lt hs, List.getElem?_take_of_lt hd,
    Vector.getElem?_toList, Vector.getElem?_eq_getElem hi] at he
  exact Option.some.inj he

end CallStack

end ChipEight
