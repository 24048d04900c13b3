/-!
# Decimal digits

The decimal digits of all scripts come in runs of ten consecutive characters that stand for 0 to
9, so the table keeps the zero of each run.
-/
namespace ChipEight.Text

/-- The zeros of the runs of decimal digits, in ascending order. -/
def zeros : List Nat :=
  [0x30, 0x660, 0x6F0, 0x7C0, 0x966, 0x9E6, 0xA66, 0xAE6, 0xB66, 0xBE6, 0xC66, 0xCE6, 0xD66,
    0xDE6, 0xE50, 0xED0, 0xF20, 0x1040, 0x1090, 0x17E0, 0x1810, 0x1946, 0x19D0, 0x1A80, 0x1A90,
    0x1B50, 0x1BB0, 0x1C40, 0x1C50, 0xA620, 0xA8D0, 0xA900, 0xA9D0, 0xA9F0, 0xAA50, 0xABF0,
    0xFF10, 0x104A0, 0x10D30, 0x11066, 0x110F0, 0x11136, 0x111D0, 0x112F0, 0x11450, 0x114D0,
    0x11650, 0x116C0, 0x11730, 0x118E0, 0x11950, 0x11C50, 0x11D50, 0x11DA0, 0x16A60, 0x16AC0,
    0x16B50, 0x1D7CE, 0x1D7D8, 0x1D7E2, 0x1D7EC, 0x1D7F6, 0x1E140, 0x1E2F0, 0x1E950, 0x1FBF0]

/-- What a decimal digit stands for; `none` for every other character. -/
def digitValue (c : Char) : Option Nat :=
  (zeros.find? fun z => z ≤ c.toNat && c.toNat < z + 10).map (c.toNat - ·)

/-- A decimal digit of some script, and what it stands for. -/
def Decimal (c : Char) (d : Nat) : Prop := d < 10 ∧ ∃ z ∈ zeros, c.toNat = z + d

/-- Runs do not overlap, so the run of a digit is the one that is found. -/
theorem find?_run {runs : List Nat} (apart : runs.Pairwise fun a b => a + 10 ≤ b) {z n : Nat}
    (mem : z ∈ runs) (low : z ≤ n) (high : n < z + 10) :
    runs.find? (fun z => z ≤ n && n < z + 10) = some z := by
  induction runs with
  | nil => cases mem
  | cons a runs ih =>
    obtain ⟨beyond, apart⟩ := List.pairwise_cons.mp apart
    rcases List.mem_cons.mp mem with rfl | mem
    · exact List.find?_cons_of_pos (by simp [low, high])
    · have := beyond z mem
      rw [List.find?_cons_of_neg (by simp; omega)]
      exact ih apart mem

/-- The table gives a character a value exactly if it is a decimal digit of some script. -/
theorem digitValue_eq_some_iff {c : Char} {d : Nat} : digitValue c = some d ↔ Decimal c d := by
  simp only [digitValue, Option.map_eq_some_iff]
  constructor
  · rintro ⟨z, found, rfl⟩
    have inside := List.find?_some found
    simp only [Bool.and_eq_true, decide_eq_true_eq] at inside
    exact ⟨by omega, z, List.mem_of_find?_eq_some found, by omega⟩
  · rintro ⟨small, z, mem, place⟩
    exact ⟨z, find?_run (by decide) mem (by omega) (by omega), by omega⟩

end ChipEight.Text
