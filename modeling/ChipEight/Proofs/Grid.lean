import Mathlib.Data.List.DropRight
import Mathlib.Data.List.OfFn
import ChipEight.Display

/-!
# The screen as a grid

The screen is read and written by coordinates. A pair of whole numbers leads to one cell or is
refused, and what is refused changes nothing. Over any sequence of uses a cell is what it was
last set to since the screen was last cleared, the mark tells whether the screen was written
since it was last shown, and the text of the screen says as much as its pixels.
-/
namespace ChipEight

namespace Axis

/-- The numbers that a signed word of 64 bits holds. -/
def Fits (i : Int) : Prop := -0x8000000000000000 ≤ i ∧ i < 0x8000000000000000

/-- The numbers that lie on an axis, counted from the start or from the end. -/
def On (size : Nat) (i : Int) : Prop := -size ≤ i ∧ i < size

/-- The numbers that an unsigned word of 64 bits holds and a signed one does not. -/
def Beyond (i : Int) : Prop := 0x8000000000000000 ≤ i ∧ i < 0x10000000000000000

instance (i : Int) : Decidable (Fits i) := inferInstanceAs (Decidable (_ ∧ _))
instance (size : Nat) (i : Int) : Decidable (On size i) := inferInstanceAs (Decidable (_ ∧ _))
instance (i : Int) : Decidable (Beyond i) := inferInstanceAs (Decidable (_ ∧ _))

/-- What a number is refused with that no signed word holds. -/
def wide (i : Int) : Fault := if Beyond i then .beyondWord else .notIndex

variable {size : Nat} {i : Int}

theorem index_of_fits (fits : Fits i) : index i = .ok i := index_of_inWord (inWord_iff.mpr fits)

theorem index_of_wide (h : ¬ Fits i) : index i = .error (wide i) := by
  have hw : inWord i = false := Bool.eq_false_iff.mpr (mt inWord_iff.mp h)
  rw [Fits] at h
  by_cases hb : Beyond i
  · have hu : inUnsignedWord i = true := by
      rw [Beyond] at hb
      rw [inUnsignedWord_iff]
      omega
    simp only [index, hw, hu, wide, hb, Bool.false_eq_true, ↓reduceIte]
  · have hu : inUnsignedWord i = false := by
      rw [Beyond] at hb
      rw [Bool.eq_false_iff, ne_eq, inUnsignedWord_iff]
      omega
    simp only [index, hw, hu, wide, hb, Bool.false_eq_true, ↓reduceIte]

theorem kind_wide (i : Int) : (wide i).kind = if Beyond i then .overflow else .badIndex := by
  unfold wide
  split <;> rfl

theorem not_beyond (fits : Fits i) : ¬ Beyond i := by
  rw [Fits] at fits
  rw [Beyond]
  omega

theorem place_of_off (off : ¬ On size i) : place size i = none := by
  rw [On] at off
  rw [place_eq_none_iff]
  omega

/-- On the axis there is a place for every number. -/
theorem exists_place (on : On size i) : ∃ p, place size i = some p := by
  rw [On] at on
  cases found : place size i with
  | none =>
    rw [place_eq_none_iff] at found
    omega
  | some p => exact ⟨p, rfl⟩

theorem place_of_on {p : Fin size} (on : On size i) (hp : (p.val : Int) = i % size) :
    place size i = some p := by
  obtain ⟨q, found⟩ := exists_place on
  have hq := place_val found
  rw [← hp] at hq
  rw [found, Fin.ext (Int.ofNat_inj.mp hq)]

end Axis

namespace Display

open Axis (Fits On)

variable {w h : Nat} {x y : Int} {f : Fault} {c : Fin w} {r : Fin h}

/-- The coordinates of a cell: words that lie on their axes, and the cell is their remainder by the
sizes. -/
structure Addresses (x y : Int) (c : Fin w) (r : Fin h) : Prop where
  fits : Fits y ∧ Fits x
  on : On h y ∧ On w x
  row : (r.val : Int) = y % h
  column : (c.val : Int) = x % w

instance (x y : Int) (c : Fin w) (r : Fin h) : Decidable (Addresses x y c r) :=
  decidable_of_iff ((Fits y ∧ Fits x) ∧ (On h y ∧ On w x) ∧ (r.val : Int) = y % h ∧
    (c.val : Int) = x % w)
    ⟨fun ⟨fits, on, row, column⟩ => ⟨fits, on, row, column⟩,
      fun ⟨fits, on, row, column⟩ => ⟨fits, on, row, column⟩⟩

/-- What coordinates are refused with. Both have to be words before either is looked for on the
screen, and the row comes first each time. -/
inductive Refused (w h : Nat) (x y : Int) : Fault → Prop
  | wideRow (wide : ¬ Fits y) : Refused w h x y (Axis.wide y)
  | wideColumn (fits : Fits y) (wide : ¬ Fits x) : Refused w h x y (Axis.wide x)
  | noRow (fits : Fits y ∧ Fits x) (off : ¬ On h y) : Refused w h x y (.noRow y h)
  | noColumn (fits : Fits y ∧ Fits x) (on : On h y) (off : ¬ On w x) :
      Refused w h x y (.noColumn x w)

theorem cell_of_refused (refused : Refused w h x y f) : cell w h x y = .error f := by
  cases refused with
  | wideRow wide => simp only [cell, Axis.index_of_wide wide]
  | wideColumn fits wide => simp only [cell, Axis.index_of_fits fits, Axis.index_of_wide wide]
  | noRow fits off =>
    simp only [cell, Axis.index_of_fits fits.1, Axis.index_of_fits fits.2, Axis.place_of_off off]
  | noColumn fits on off =>
    obtain ⟨p, found⟩ := Axis.exists_place on
    simp only [cell, Axis.index_of_fits fits.1, Axis.index_of_fits fits.2, found,
      Axis.place_of_off off]

theorem cell_of_addresses (leads : Addresses x y c r) : cell w h x y = .ok (c, r) := by
  simp only [cell, Axis.index_of_fits leads.fits.1, Axis.index_of_fits leads.fits.2,
    Axis.place_of_on leads.on.1 leads.row, Axis.place_of_on leads.on.2 leads.column]

/-- Coordinates are refused or lead to a cell. -/
theorem refused_or_addresses (w h : Nat) (x y : Int) :
    (∃ f, Refused w h x y f) ∨ ∃ (c : Fin w) (r : Fin h), Addresses x y c r := by
  by_cases hy : Fits y
  · by_cases hx : Fits x
    · by_cases row : On h y
      · by_cases column : On w x
        · obtain ⟨r, hr⟩ := Axis.exists_place row
          obtain ⟨c, hc⟩ := Axis.exists_place column
          exact .inr ⟨c, r, ⟨hy, hx⟩, ⟨row, column⟩, Axis.place_val hr, Axis.place_val hc⟩
        · exact .inl ⟨_, .noColumn ⟨hy, hx⟩ row column⟩
      · exact .inl ⟨_, .noRow ⟨hy, hx⟩ row⟩
    · exact .inl ⟨_, .wideColumn hy hx⟩
  · exact .inl ⟨_, .wideRow hy⟩

theorem cell_eq_error_iff : cell w h x y = .error f ↔ Refused w h x y f := by
  constructor
  · intro fails
    rcases refused_or_addresses w h x y with ⟨g, refused⟩ | ⟨c, r, leads⟩
    · cases (cell_of_refused refused).symm.trans fails
      exact refused
    · cases (cell_of_addresses leads).symm.trans fails
  · exact cell_of_refused

/-- Coordinates are accepted exactly if they lead to a cell. -/
theorem cell_eq_ok_iff : cell w h x y = .ok (c, r) ↔ Addresses x y c r := by
  constructor
  · intro found
    rcases refused_or_addresses w h x y with ⟨g, refused⟩ | ⟨c, r, leads⟩
    · cases (cell_of_refused refused).symm.trans found
    · cases (cell_of_addresses leads).symm.trans found
      exact leads
  · exact cell_of_addresses

/-- Coordinates are refused as indices, but for the numbers that only an unsigned word holds. -/
theorem kind_of_refused (refused : Refused w h x y f) :
    f.kind = if Axis.Beyond y ∨ Fits y ∧ Axis.Beyond x then .overflow else .badIndex := by
  have narrow (fits : Fits y ∧ Fits x) : ¬(Axis.Beyond y ∨ Fits y ∧ Axis.Beyond x) := by
    rintro (beyond | ⟨-, beyond⟩)
    · exact Axis.not_beyond fits.1 beyond
    · exact Axis.not_beyond fits.2 beyond
  cases refused with
  | wideRow wide => simp only [Axis.kind_wide, wide, false_and, or_false]
  | wideColumn fits wide =>
    simp only [Axis.kind_wide, Axis.not_beyond fits, fits, true_and, false_or]
  | noRow fits _ => rw [if_neg (narrow fits)]; rfl
  | noColumn fits _ _ => rw [if_neg (narrow fits)]; rfl

/-- The sides of a screen that can be made are machine words, whatever room there is. -/
theorem fits_of_sizes {room : Nat} {width height : Int}
    (made : sizes room width height = .ok (w, h)) : Fits w ∧ Fits h := by
  unfold sizes at made
  split at made
  next => cases made
  next words =>
    simp only [Bool.or_eq_true, Bool.not_eq_true', not_or, Bool.not_eq_false,
      Axis.inWord_iff] at words
    split at made
    next => cases made
    next =>
      split at made
      next => cases made
      next =>
        split at made
        next => cases made
        next =>
          cases made
          rw [Fits, Fits]
          omega

/-- Off a screen whose sides are words lie also the numbers that no word holds. -/
theorem refused_iff_off (hw : Fits w) (hh : Fits h) :
    (∃ f, Refused w h x y f) ↔ ¬ On h y ∨ ¬ On w x := by
  rw [Fits] at hw hh
  constructor
  · rintro ⟨f, refused⟩
    cases refused with
    | wideRow wide => rw [Fits] at wide; rw [On]; omega
    | wideColumn _ wide => rw [Fits] at wide; rw [On, On]; omega
    | noRow _ off => exact .inl off
    | noColumn _ _ off => exact .inr off
  · intro off
    rcases refused_or_addresses w h x y with refused | ⟨c, r, leads⟩
    · exact refused
    · exact absurd leads.on (not_and_or.mpr off)

inductive Deed where
  | get (x y : Int)
  | set (x y : Int) (on : Bool)
  | clear
  | dump
  | shown
  deriving DecidableEq, Repr

inductive Reply where
  | done
  | pixel (on : Bool)
  | text (lines : String)

/-- One deed: the answer, and the screen left behind. -/
def obey (d : Display w h) : Deed → Except Fault Reply × Display w h
  | .get x y => ((d.get x y).map .pixel, d)
  | .set x y on =>
    match d.set x y on with
    | .error f => (.error f, d)
    | .ok written => (.ok .done, written)
  | .clear => (.ok .done, d.clear)
  | .dump => (.ok (.text d.text), d)
  | .shown => (.ok .done, d.shown)

def after (w h : Nat) (past : List Deed) : Display w h :=
  past.foldl (fun d deed => (d.obey deed).2) (blank w h)

@[simp] theorem after_nil (w h : Nat) : after w h [] = blank w h := rfl

@[simp] theorem after_concat (w h : Nat) (past : List Deed) (deed : Deed) :
    after w h (past ++ [deed]) = ((after w h past).obey deed).2 := List.foldl_append ..

/-- What a deed sets a cell to, if it sets it. -/
def Deed.sets? (c : Fin w) (r : Fin h) : Deed → Option Bool
  | .set x y on => if Addresses x y c r then some on else none
  | _ => none

/-- The deeds that write the screen: clearing it, and setting a cell of it. -/
def Deed.Marks (w h : Nat) : Deed → Prop
  | .clear => True
  | .set x y _ => ∃ (c : Fin w) (r : Fin h), Addresses x y c r
  | _ => False

/-- What a cell was last set to since the screen was last cleared. -/
def lastSet (c : Fin w) (r : Fin h) (past : List Deed) : Option Bool :=
  ((past.rtakeWhile (· ≠ .clear)).filterMap (Deed.sets? c r)).getLast?

/-- The screen was never shown, or it was written and not shown since. -/
def Unshown (w h : Nat) (past : List Deed) : Prop :=
  .shown ∉ past ∨ ∃ deed ∈ past.rtakeWhile (· ≠ .shown), deed.Marks w h

section Deeds

variable {d : Display w h} {on : Bool} {deed : Deed} {past : List Deed}

theorem get_eq_error_iff : d.get x y = .error f ↔ Refused w h x y f := by
  rw [← cell_eq_error_iff, get]
  cases cell w h x y <;> simp [Except.map]

theorem set_eq_error_iff : d.set x y on = .error f ↔ Refused w h x y f := by
  rw [← cell_eq_error_iff, set]
  cases cell w h x y <;> simp [Except.map]

theorem get_of_addresses (leads : Addresses x y c r) : d.get x y = .ok (d.pixel c r) := by
  rw [get, cell_of_addresses leads]
  rfl

theorem set_of_addresses (leads : Addresses x y c r) : d.set x y on = .ok (d.put c r on) := by
  rw [set, cell_of_addresses leads]
  rfl

inductive Obeyed (d : Display w h) (deed : Deed) (t : Except Fault Reply × Display w h) : Prop
  | refused (x y : Int) (f : Fault) (refused : Refused w h x y f)
      (is : deed = .get x y ∨ ∃ on, deed = .set x y on) (ends : t = (.error f, d))
  | got (x y : Int) (c : Fin w) (r : Fin h) (leads : Addresses x y c r) (is : deed = .get x y)
      (ends : t = (.ok (.pixel (d.pixel c r)), d))
  | written (x y : Int) (on : Bool) (c : Fin w) (r : Fin h) (leads : Addresses x y c r)
      (is : deed = .set x y on) (ends : t = (.ok .done, d.put c r on))
  | cleared (is : deed = .clear) (ends : t = (.ok .done, d.clear))
  | dumped (is : deed = .dump) (ends : t = (.ok (.text d.text), d))
  | shown (is : deed = .shown) (ends : t = (.ok .done, d.shown))

theorem obeyed (d : Display w h) (deed : Deed) : Obeyed d deed (d.obey deed) := by
  cases deed with
  | get x y =>
    rcases refused_or_addresses w h x y with ⟨f, refused⟩ | ⟨c, r, leads⟩
    · refine .refused x y f refused (.inl rfl) ?_
      rw [obey, get_eq_error_iff.mpr refused]
      rfl
    · refine .got x y c r leads rfl ?_
      rw [obey, get_of_addresses leads]
      rfl
  | set x y on =>
    rcases refused_or_addresses w h x y with ⟨f, refused⟩ | ⟨c, r, leads⟩
    · refine .refused x y f refused (.inr ⟨on, rfl⟩) ?_
      simp only [obey, set_eq_error_iff.mpr refused]
    · refine .written x y on c r leads rfl ?_
      simp only [obey, set_of_addresses leads]
  | clear => exact .cleared rfl rfl
  | dump => exact .dumped rfl rfl
  | shown => exact .shown rfl rfl

theorem not_addresses (refused : Refused w h x y f) : ¬ Addresses x y c r := by
  intro leads
  cases (cell_of_refused refused).symm.trans (cell_of_addresses leads)

/-- Coordinates lead to one cell only. -/
theorem addresses_iff {c' : Fin w} {r' : Fin h} (leads : Addresses x y c r) :
    Addresses x y c' r' ↔ c' = c ∧ r' = r := by
  rw [← cell_eq_ok_iff, cell_of_addresses leads, Except.ok.injEq, Prod.mk.injEq, eq_comm,
    eq_comm (a := r)]

/-- What a deed does to a cell. -/
theorem pixel_obey (d : Display w h) (deed : Deed) (c : Fin w) (r : Fin h) :
    (d.obey deed).2.pixel c r =
      if deed = .clear then false else (deed.sets? c r).getD (d.pixel c r) := by
  cases d.obeyed deed with
  | refused x y f refused is ends =>
    rw [ends]
    rcases is with rfl | ⟨on, rfl⟩
    · rfl
    · rw [Deed.sets?, if_neg (not_addresses refused)]
      rfl
  | got x y c' r' leads is ends =>
    subst is
    rw [ends]
    rfl
  | written x y on c' r' leads is ends =>
    subst is
    simp only [ends, pixel_put, Deed.sets?, addresses_iff leads, reduceCtorEq, ↓reduceIte]
    split <;> rfl
  | cleared is ends =>
    subst is
    rw [ends, if_pos rfl]
    exact pixel_clear d c r
  | dumped is ends =>
    subst is
    rw [ends]
    rfl
  | shown is ends =>
    subst is
    rw [ends]
    rfl

theorem lastSet_concat (c : Fin w) (r : Fin h) (past : List Deed) (deed : Deed) :
    lastSet c r (past ++ [deed]) =
      if deed = .clear then none else (deed.sets? c r).or (lastSet c r past) := by
  unfold lastSet
  rw [List.rtakeWhile_concat]
  by_cases hc : deed = .clear
  · simp [hc]
  · simp only [hc, ne_eq, not_false_eq_true, decide_true, ↓reduceIte, List.filterMap_append,
      List.getLast?_append]
    cases hs : deed.sets? c r with
    | none => rw [List.filterMap_cons_none hs]; rfl
    | some on => rw [List.filterMap_cons_some hs]; rfl

/-- After any sequence of uses a cell is what it was last set to, and dark if it was not set. -/
theorem pixel_after (past : List Deed) (c : Fin w) (r : Fin h) :
    (after w h past).pixel c r = (lastSet c r past).getD false := by
  -- From the last deed back: it clears the screen, or sets the cell, or leaves it as it was.
  induction past using List.reverseRecOn with
  | nil => exact pixel_blank c r
  | append_singleton past deed ih =>
    rw [after_concat, pixel_obey, ih, lastSet_concat]
    by_cases hc : deed = .clear
    · rw [if_pos hc, if_pos hc]
      rfl
    · rw [if_neg hc, if_neg hc]
      cases deed.sets? c r <;> rfl

/-- What a deed does to the mark. -/
theorem stale_obey (d : Display w h) (deed : Deed) :
    (d.obey deed).2.stale = true ↔ deed.Marks w h ∨ deed ≠ .shown ∧ d.stale = true := by
  cases d.obeyed deed with
  | refused x y f refused is ends =>
    rw [ends]
    have unmarked : ¬ deed.Marks w h := by
      rcases is with rfl | ⟨on, rfl⟩
      · exact id
      · rintro ⟨c, r, leads⟩
        exact not_addresses refused leads
    have other : deed ≠ .shown := by
      rcases is with rfl | ⟨on, rfl⟩ <;> exact Deed.noConfusion
    simp [unmarked, other]
  | got x y c r leads is ends =>
    subst is
    simp [ends, Deed.Marks]
  | written x y on c r leads is ends =>
    subst is
    rw [ends]
    exact ⟨fun _ => .inl ⟨c, r, leads⟩, fun _ => rfl⟩
  | cleared is ends =>
    subst is
    rw [ends]
    exact ⟨fun _ => .inl trivial, fun _ => rfl⟩
  | dumped is ends =>
    subst is
    simp [ends, Deed.Marks]
  | shown is ends =>
    subst is
    simp [ends, Deed.Marks, Display.shown]

/-- The screen is yet to be shown if the last deed has written it, or has not shown what was
written before. -/
theorem unshown_concat (past : List Deed) (deed : Deed) :
    Unshown w h (past ++ [deed]) ↔ deed.Marks w h ∨ deed ≠ .shown ∧ Unshown w h past := by
  unfold Unshown
  rw [List.rtakeWhile_concat]
  by_cases hs : deed = .shown
  · simp [hs, Deed.Marks]
  · have other : Deed.shown ≠ deed := Ne.symm hs
    simp only [hs, other, List.mem_append, List.mem_singleton, ne_eq, not_false_eq_true,
      decide_true, ↓reduceIte, or_false, true_and, or_and_right, exists_or, exists_eq_left]
    grind

/-- The mark tells whether the screen is yet to be shown. -/
theorem stale_after (past : List Deed) : (after w h past).stale = true ↔ Unshown w h past := by
  induction past using List.reverseRecOn with
  | nil => exact ⟨fun _ => .inl List.not_mem_nil, fun _ => rfl⟩
  | append_singleton past deed ih => rw [after_concat, stale_obey, ih, unshown_concat]

end Deeds

section Text

def digit (on : Bool) : Char := if on then '1' else '0'

theorem digit_injective : Function.Injective digit := by
  intro a b
  cases a <;> cases b <;> decide

variable (d e : Display w h)

theorem map_line_rows :
    d.rows.map line = List.ofFn fun r => List.ofFn fun c => digit (d.pixel c r) := by
  simp [rows, row, line, digit, List.finRange, List.map_ofFn, Function.comp_def]

theorem newline_not_mem {l : List Char} (hl : l ∈ d.rows.map line) : '\n' ∉ l := by
  obtain ⟨row, -, rfl⟩ := List.mem_map.mp hl
  intro mem
  obtain ⟨on, -, same⟩ := List.mem_map.mp mem
  cases on <;> exact absurd same (by decide)

/-- The text of a screen row by row. -/
theorem text_eq : d.text = "\n".intercalate (List.ofFn fun r =>
    String.ofList (List.ofFn fun c => digit (d.pixel c r))) := by
  apply String.toList_injective
  rw [text, String.toList_intercalate, String.toList_ofList, map_line_rows, List.map_ofFn]
  simp [Function.comp_def]

/-- The rows can be read off the text: they are what lies between the newlines. -/
theorem splitOn_text (hh : h ≠ 0) : d.text.toList.splitOn '\n' = d.rows.map line := by
  have nonempty : d.rows.map line ≠ [] := by
    simp [rows, hh]
  rw [text, String.toList_ofList]
  exact List.splitOn_intercalate '\n' (fun _ => d.newline_not_mem) nonempty

/-- Two screens have the same text exactly if they have the same pixels. -/
theorem text_eq_iff : d.text = e.text ↔ ∀ c r, d.pixel c r = e.pixel c r := by
  constructor
  · intro same c r
    have hh : h ≠ 0 := by
      rintro rfl
      exact r.elim0
    have rows : d.rows.map line = e.rows.map line := by
      rw [← d.splitOn_text hh, ← e.splitOn_text hh, same]
    rw [map_line_rows, map_line_rows] at rows
    have row := congrFun (List.ofFn_injective rows) r
    exact digit_injective (congrFun (List.ofFn_injective row) c)
  · intro same
    simp only [text_eq, same]

end Text

/-- What can be said of a new screen after some deeds, and of the deed that comes next. -/
structure Kept (w h : Nat) (past : List Deed) : Prop where
  get_fails_iff : ∀ x y f, (after w h past).get x y = .error f ↔ Refused w h x y f
  set_fails_iff : ∀ x y on f, (after w h past).set x y on = .error f ↔ Refused w h x y f
  failed : ∀ deed f, ((after w h past).obey deed).1 = .error f →
    ((after w h past).obey deed).2 = after w h past
  leads : ∀ x y, (¬ ∃ f, Refused w h x y f) → ∃! p : Fin w × Fin h, Addresses x y p.1 p.2
  got : ∀ x y c r, Addresses x y c r →
    (after w h past).get x y = .ok ((after w h past).pixel c r)
  written : ∀ x y on c r, Addresses x y c r → ∃ d, (after w h past).set x y on = .ok d ∧
    d.stale = true ∧ ∀ c' r', d.pixel c' r' =
      if c' = c ∧ r' = r then on else (after w h past).pixel c' r'
  cleared : (after w h past).clear.stale = true ∧ ∀ c r, (after w h past).clear.pixel c r = false
  pixel_iff : ∀ c r, (after w h past).pixel c r = true ↔ lastSet c r past = some true
  stale_iff : (after w h past).stale = true ↔ Unshown w h past
  dumped : (after w h past).text = "\n".intercalate (List.ofFn fun r =>
    String.ofList (List.ofFn fun c => digit ((after w h past).pixel c r)))

/-- A screen of any size is a grid of cells, each of which keeps what it was last set to, however
often the screen is read, written, cleared and shown. -/
theorem grid_kept (w h : Nat) :
    (∀ past, Kept w h past) ∧
      (∀ d e : Display w h, d.text = e.text ↔ ∀ c r, d.pixel c r = e.pixel c r) ∧
      (∀ x y f, Refused w h x y f →
        f.kind = if Axis.Beyond y ∨ Fits y ∧ Axis.Beyond x then .overflow else .badIndex) ∧
      (Fits w → Fits h → ∀ x y, (∃ f, Refused w h x y f) ↔ ¬ On h y ∨ ¬ On w x) := by
  refine ⟨?_, text_eq_iff, fun _ _ _ => kind_of_refused, fun hw hh _ _ => refused_iff_off hw hh⟩
  intro past
  constructor
  case get_fails_iff =>
    intro x y f
    exact get_eq_error_iff
  case set_fails_iff =>
    intro x y on f
    exact set_eq_error_iff
  case failed =>
    intro deed f fails
    cases (after w h past).obeyed deed with
    | refused _ _ _ _ _ ends => rw [ends]
    | got _ _ _ _ _ _ ends => rw [ends]
    | dumped _ ends => rw [ends]
    | written _ _ _ _ _ _ _ ends | cleared _ ends | shown _ ends =>
      rw [ends] at fails
      cases fails
  case leads =>
    intro x y accepted
    rcases refused_or_addresses w h x y with refused | ⟨c, r, leads⟩
    · exact absurd refused accepted
    · refine ⟨(c, r), leads, ?_⟩
      rintro ⟨c', r'⟩ leads'
      obtain ⟨rfl, rfl⟩ := (addresses_iff leads).mp leads'
      rfl
  case got =>
    intro x y c r leads
    exact get_of_addresses leads
  case written =>
    intro x y on c r leads
    exact ⟨_, set_of_addresses leads, rfl, fun c' r' => pixel_put _ c c' r r' on⟩
  case cleared => exact ⟨rfl, pixel_clear _⟩
  case pixel_iff =>
    intro c r
    rw [pixel_after]
    cases lastSet c r past with
    | none => simp
    | some on => simp
  case stale_iff => exact stale_after past
  case dumped => exact text_eq _

/-- The last cell of a small screen is set, a column off the screen is not, and the screen is
shown. -/
def corner : List Deed := [.set (-1) (-1) true, .set 3 0 true, .shown]

/-- A cell keeps its value over a write that is refused, and showing the screen clears the mark
until the next write. -/
theorem corner_kept :
    (∃ f, (after 3 2 corner).set 3 0 true = .error f) ∧
      (after 3 2 corner).get (-1) 1 = .ok true ∧ (after 3 2 corner).stale = false ∧
      ∃ d, (after 3 2 corner).set 2 (-1) false = .ok d ∧ d.stale = true ∧ d.pixel 2 1 = false := by
  obtain ⟨kept, -, -, off_iff⟩ := grid_kept 3 2
  have made : sizes 6 3 2 = .ok (3, 2) := rfl
  obtain ⟨hw, hh⟩ := fits_of_sizes made
  refine ⟨?_, ?_, ?_, ?_⟩
  · obtain ⟨f, refused⟩ := (off_iff hw hh 3 0).mpr (.inr (by decide))
    exact ⟨f, ((kept corner).set_fails_iff 3 0 true f).mpr refused⟩
  · rw [(kept corner).got (-1) 1 2 1 (by decide +kernel),
      ((kept corner).pixel_iff 2 1).mpr (by decide +kernel)]
  · rw [← Bool.not_eq_true, (kept corner).stale_iff]
    rintro (unseen | ⟨deed, mem, -⟩)
    · exact unseen (by decide)
    · exact absurd mem (by simp [corner, List.rtakeWhile])
  · obtain ⟨d, done, stale, pixel⟩ :=
      (kept corner).written 2 (-1) false 2 1 (by decide +kernel)
    exact ⟨d, done, stale, by rw [pixel, if_pos ⟨rfl, rfl⟩]⟩

/-- A column that only an unsigned word holds is off the screen, and yet it is not refused as an
index. -/
theorem hugeColumn_overflows :
    (blank 3 2).get 0x8000000000000000 0 = .error .beyondWord ∧
      ¬ On 3 0x8000000000000000 ∧ On 2 0 ∧ Fault.beyondWord.kind ≠ .badIndex :=
  ⟨rfl, by decide, by decide, by decide⟩

end Display

end ChipEight
