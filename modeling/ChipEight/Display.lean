import Std.Data.ExtTreeSet
import ChipEight.Axis
import ChipEight.Fault

/-!
# The screen

The monochrome screen, row 0 on top. It is kept as the set of its lit pixels, which
are numbered row by row, so a screen of any size costs no more than what is drawn on
it, and two screens with the same pixels are equal. Whoever shows the screen clears
the `stale` mark, and every write sets it again. Sprites are drawn by flipping pixels
one by one; pixels beyond the right and the bottom edge are left out.
-/
namespace ChipEight

structure Display (width height : Nat) where
  lit : Std.ExtTreeSet (Fin (height * width))
  stale : Bool
  deriving DecidableEq

namespace Display

variable {w h : Nat}

def blank (w h : Nat) : Display w h := ⟨∅, true⟩

/-- The sizes of a screen, on a host that has room for some number of pixels. Both sides have
to be machine words, then not negative, then the number of pixels has to be a machine word, and
at last there has to be room. -/
def sizes (room : Nat) (width height : Int) : Except Fault (Nat × Nat) :=
  if !Axis.inWord height || !Axis.inWord width then .error .hugeSide
  else if height < 0 ∨ width < 0 then .error .negativeSize
  else if !Axis.inWord (height * width) then .error .hugeScreen
  else if room < height.toNat * width.toNat then .error (.noRoom width.toNat height.toNat)
  else .ok (width.toNat, height.toNat)

def number (x : Fin w) (y : Fin h) : Fin (h * w) :=
  ⟨y.val * w + x.val, by
    calc y.val * w + x.val < (y.val + 1) * w := by rw [Nat.succ_mul]; exact Nat.add_lt_add_left x.isLt _
      _ ≤ h * w := Nat.mul_le_mul_right w y.isLt⟩

def pixel (d : Display w h) (x : Fin w) (y : Fin h) : Bool := d.lit.contains (number x y)

def put (d : Display w h) (x : Fin w) (y : Fin h) (on : Bool) : Display w h :=
  ⟨if on then d.lit.insert (number x y) else d.lit.erase (number x y), true⟩

/-- The cell of a pair of coordinates, each counted from the end if negative. Both have
to be indices before either is looked up, and the row comes first each time. -/
def cell (w h : Nat) (x y : Int) : Except Fault (Fin w × Fin h) :=
  match Axis.index y, Axis.index x with
  | .error f, _ | _, .error f => .error f
  | .ok y, .ok x =>
    match Axis.place h y, Axis.place w x with
    | none, _ => .error (.noRow y h)
    | _, none => .error (.noColumn x w)
    | some row, some column => .ok (column, row)

def get (d : Display w h) (x y : Int) : Except Fault Bool :=
  (cell w h x y).map fun c => d.pixel c.1 c.2

def set (d : Display w h) (x y : Int) (on : Bool) : Except Fault (Display w h) :=
  (cell w h x y).map fun c => d.put c.1 c.2 on

def clear (_ : Display w h) : Display w h := blank w h

def shown (d : Display w h) : Display w h := { d with stale := false }

def row (d : Display w h) (y : Fin h) : List Bool := (List.finRange w).map (d.pixel · y)

def rows (d : Display w h) : List (List Bool) := (List.finRange h).map d.row

/-- A row as a line of zeros and ones. -/
def line (row : List Bool) : List Char := row.map fun on => if on then '1' else '0'

/-- The lines of the rows from top to bottom, with newlines between them. -/
def text (d : Display w h) : String := String.ofList (['\n'].intercalate (d.rows.map line))

/-- A screen under a pen, and whether the pen has turned a pixel off. -/
structure Stroke (w h : Nat) where
  screen : Display w h
  hit : Bool

/-- Flip a pixel. Nothing happens off the screen. -/
def Stroke.flip (s : Stroke w h) (x y : Nat) : Stroke w h :=
  if hx : x < w then
    if hy : y < h then
      let on := s.screen.pixel ⟨x, hx⟩ ⟨y, hy⟩
      ⟨s.screen.put ⟨x, hx⟩ ⟨y, hy⟩ (!on), s.hit || on⟩
    else s
  else s

/-- Flip the pixels of the set bits of a byte, the highest bit leftmost. -/
def Stroke.row (s : Stroke w h) (x y : Nat) (bits : UInt8) : Stroke w h :=
  (List.range 8).foldl (fun s i => if bits.toNat.testBit (7 - i) then s.flip (x + i) y else s) s

/-- One byte a row, downwards. -/
def Stroke.sprite (s : Stroke w h) (x y : Nat) : List UInt8 → Stroke w h
  | [] => s
  | bits :: rest => (s.row x y bits).sprite x (y + 1) rest

/-- Draw a sprite at a point. The second part tells whether a pixel was turned off. -/
def draw (d : Display w h) (x y : Nat) (sprite : List UInt8) : Display w h × Bool :=
  let s := Stroke.sprite ⟨d, false⟩ x y sprite
  ({ s.screen with stale := true }, s.hit)

theorem number_inj {x c : Fin w} {y r : Fin h} : number x y = number c r ↔ x = c ∧ y = r := by
  constructor
  · intro e
    have e : y.val * w + x.val = r.val * w + c.val := congrArg Fin.val e
    have hw : 0 < w := Nat.lt_of_le_of_lt (Nat.zero_le _) x.isLt
    have hy : y.val = r.val := by
      have e := congrArg (· / w) e
      simpa only [Nat.mul_comm _ w, Nat.mul_add_div hw, Nat.div_eq_of_lt x.isLt, Nat.div_eq_of_lt c.isLt,
        Nat.add_zero] using e
    rw [hy] at e
    exact ⟨Fin.ext (Nat.add_left_cancel e), Fin.ext hy⟩
  · rintro ⟨rfl, rfl⟩
    rfl

/-- Every number is that of a pixel. -/
theorem exists_number (i : Fin (h * w)) : ∃ (x : Fin w) (y : Fin h), number x y = i := by
  have hw : 0 < w := Nat.pos_of_ne_zero fun e => by
    have := i.isLt
    simp only [e, Nat.mul_zero, Nat.not_lt_zero] at this
  exact ⟨⟨i.val % w, Nat.mod_lt _ hw⟩, ⟨i.val / w, Nat.div_lt_of_lt_mul (Nat.mul_comm h w ▸ i.isLt)⟩,
    Fin.ext (Nat.div_add_mod' i.val w)⟩

/-- A screen is its pixels and its mark. -/
theorem ext_pixel {d e : Display w h} (hp : ∀ x y, d.pixel x y = e.pixel x y)
    (hs : d.stale = e.stale) : d = e := by
  have hl : d.lit = e.lit := Std.ExtTreeSet.ext_contains fun i => by
    obtain ⟨x, y, rfl⟩ := exists_number i
    exact hp x y
  cases d
  cases e
  cases hl
  cases hs
  rfl

@[simp] theorem pixel_blank (x : Fin w) (y : Fin h) : (blank w h).pixel x y = false := by
  simp [blank, pixel]

@[simp] theorem pixel_clear (d : Display w h) (x : Fin w) (y : Fin h) :
    d.clear.pixel x y = false := by
  simp [clear]

@[simp] theorem pixel_shown (d : Display w h) (x : Fin w) (y : Fin h) :
    d.shown.pixel x y = d.pixel x y := rfl

/-- Coordinates that count from the start lead to their own cell. -/
theorem cell_fin (x : Fin w) (y : Fin h) (hx : Axis.inWord x.val = true)
    (hy : Axis.inWord y.val = true) : cell w h x.val y.val = .ok (x, y) := by
  simp only [cell, Axis.index_of_inWord hx, Axis.index_of_inWord hy, Axis.place_fin]

theorem pixel_put (d : Display w h) (x c : Fin w) (y r : Fin h) (on : Bool) :
    (d.put x y on).pixel c r = if c = x ∧ r = y then on else d.pixel c r := by
  by_cases h : c = x ∧ r = y
  · obtain ⟨rfl, rfl⟩ := h
    cases on <;> simp [put, pixel]
  · have hn : number x y ≠ number c r := fun e =>
      h ((number_inj.mp e).imp Eq.symm Eq.symm)
    cases on <;> simp [put, pixel, h, hn]

/-- On a screen of machine words, flipping a pixel is getting it and setting it to the opposite. -/
theorem Stroke.flip_eq (s : Stroke w h) (x : Fin w) (y : Fin h) (hx : Axis.inWord x.val = true)
    (hy : Axis.inWord y.val = true) : ∃ on d, s.screen.get x.val y.val = .ok on ∧
      s.screen.set x.val y.val (!on) = .ok d ∧ s.flip x.val y.val = ⟨d, s.hit || on⟩ := by
  refine ⟨s.screen.pixel x y, s.screen.put x y (!s.screen.pixel x y), ?_, ?_, ?_⟩
  · rw [get, cell_fin x y hx hy]
    rfl
  · rw [set, cell_fin x y hx hy]
    rfl
  · simp only [flip, x.isLt, y.isLt, ↓reduceDIte]

end Display

end ChipEight
