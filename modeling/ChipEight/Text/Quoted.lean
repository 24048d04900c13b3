import ChipEight.Text.Hexadecimal
import ChipEight.Text.Printable

/-!
# Quoted texts

File names appear in messages between quotation marks. The mark is a single quote, unless the
text holds a single quote and no double quote. The mark itself and the backslash are escaped,
tab, newline and return have letters, and every other character that is not printable is written
as a code of two, four or eight small hexadecimal digits.
-/
namespace ChipEight.Text.Quoted

def mark (cs : List Char) : Char :=
  if cs.contains '\'' && !cs.contains '"' then '"' else '\''

/-- A code of at least `width` digits behind a letter that tells the width. -/
def code (letter : Char) (width n : Nat) : List Char :=
  '\\' :: letter :: Hexadecimal.pad width (Nat.toDigits 16 n)

def escape (quote c : Char) : List Char :=
  if c = quote ∨ c = '\\' then ['\\', c]
  else if c = '\t' then ['\\', 't']
  else if c = '\n' then ['\\', 'n']
  else if c = '\r' then ['\\', 'r']
  else if isPrintable c then [c]
  else if c.toNat < 0x100 then code 'x' 2 c.toNat
  else if c.toNat < 0x10000 then code 'u' 4 c.toNat
  else code 'U' 8 c.toNat

def quoted (s : String) : String :=
  let cs := s.toList
  let q := mark cs
  String.ofList (q :: cs.flatMap (escape q) ++ [q])

/-- The ASCII characters that are printable and need no escape between single quotes. -/
def Ordinary (c : Char) : Prop := (0x20 ≤ c.toNat ∧ c.toNat ≤ 0x7E) ∧ c ≠ '\'' ∧ c ≠ '\\'

/-- An ordinary character stands for itself. -/
theorem escape_of_ordinary {c : Char} (ordinary : Ordinary c) : escape '\'' c = [c] := by
  obtain ⟨⟨low, high⟩, quote, backslash⟩ := ordinary
  have other (d : Char) (control : d.toNat < 0x20) : c ≠ d := by
    rintro rfl
    omega
  simp only [escape, quote, backslash, other '\t' (by decide), other '\n' (by decide),
    other '\r' (by decide), isPrintable_of_ascii low high, or_self, ↓reduceIte]

theorem flatMap_escape {cs : List Char} (ordinary : ∀ c ∈ cs, Ordinary c) :
    cs.flatMap (escape '\'') = cs := by
  induction cs with
  | nil => rfl
  | cons c cs ih =>
    rw [List.flatMap_cons, escape_of_ordinary (ordinary c List.mem_cons_self),
      ih fun d mem => ordinary d (List.mem_cons_of_mem c mem)]
    rfl

/-- An ordinary text stands between single quotes as it is. -/
theorem quoted_of_ordinary {s : String} (ordinary : ∀ c ∈ s.toList, Ordinary c) :
    quoted s = "'" ++ s ++ "'" := by
  have absent : '\'' ∉ s.toList := fun mem => (ordinary _ mem).2.1 rfl
  have single : mark s.toList = '\'' := by simp [mark, absent]
  apply String.toList_injective
  simp only [quoted, single, flatMap_escape ordinary, String.toList_ofList, String.toList_append]
  rfl

end ChipEight.Text.Quoted
