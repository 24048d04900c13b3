import ChipEight.Text.Blank
import ChipEight.Text.DecimalDigit
import ChipEight.Double
import ChipEight.Fault

/-!
# Rates

On the command line a rate is a positive whole number: blanks, a plus sign if wanted, decimal
digits of any script with single underscores between them, blanks. A text of more than 4300
digits is refused, leading zeros included.
-/
namespace ChipEight.Rate

def digitLimit : Nat := 4300

/-- Digit values, with at most one underscore between two digits and none at the ends. -/
def digits : List Char → Option (List Nat)
  | [] => none
  | [c] => (Text.digitValue c).map fun d => [d]
  | c :: '_' :: rest =>
    match Text.digitValue c, digits rest with
    | some d, some ds => some (d :: ds)
    | _, _ => none
  | c :: next :: rest =>
    match Text.digitValue c, digits (next :: rest) with
    | some d, some ds => some (d :: ds)
    | _, _ => none

/-- The number with these decimal digits, most significant first. -/
def ofDigits (ds : List Nat) : Nat := ds.foldl (fun n d => 10 * n + d) 0

def unsigned : List Char → List Char
  | '+' :: rest => rest
  | cs => cs

/-- The rate that a text denotes. Zero is no rate, and a minus sign never stands in one. -/
def parse (text : String) : Option Nat :=
  match digits (unsigned (Text.trim text.toList)) with
  | none => none
  | some ds =>
    if ds.length ≤ digitLimit ∧ 0 < ofDigits ds then some (ofDigits ds) else none

/-- The time between two beats. A rate without a double is refused before a zero. -/
def period (rate : Int) : Except Fault Float :=
  match Double.ofInt? rate with
  | none => .error .hugeRate
  | some r => if rate = 0 then .error .zeroDivisor else .ok (1.0 / r)

/-- A rate that was read is not zero. -/
theorem parse_pos {text : String} {n : Nat} (h : parse text = some n) : 0 < n := by
  unfold parse at h
  split at h
  next => cases h
  next ds _ =>
    split at h
    next hd => cases h; exact hd.2
    next => cases h

end ChipEight.Rate
