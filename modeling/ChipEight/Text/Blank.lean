/-!
# White space

The white space allowed around a number on the command line is made of the six blanks of the
ASCII set and the spaces beyond it. The four ASCII separators 1C to 1F do not count, nor do
zero-width characters.
-/
namespace ChipEight.Text

def blanks : List Nat :=
  [0x20, 0x09, 0x0A, 0x0B, 0x0C, 0x0D, 0x85, 0xA0, 0x1680, 0x2000, 0x2001, 0x2002, 0x2003,
    0x2004, 0x2005, 0x2006, 0x2007, 0x2008, 0x2009, 0x200A, 0x2028, 0x2029, 0x202F, 0x205F,
    0x3000]

def isBlank (c : Char) : Bool := blanks.contains c.toNat

def trim (cs : List Char) : List Char :=
  ((cs.dropWhile isBlank).reverse.dropWhile isBlank).reverse

@[simp] theorem trim_nil : trim [] = [] := rfl

theorem isBlank_iff {c : Char} : isBlank c = true ↔ c.toNat ∈ blanks := by
  simp only [isBlank, List.contains_iff_mem]

/-- What is trimmed off is blank. -/
theorem exists_trim (cs : List Char) : ∃ before after, cs = before ++ trim cs ++ after ∧
    (∀ c ∈ before, isBlank c) ∧ ∀ c ∈ after, isBlank c := by
  let rest := cs.dropWhile isBlank
  have split : rest = trim cs ++ (rest.reverse.takeWhile isBlank).reverse := by
    rw [trim, ← List.reverse_append, List.takeWhile_append_dropWhile, List.reverse_reverse]
  refine ⟨cs.takeWhile isBlank, (rest.reverse.takeWhile isBlank).reverse, ?_, ?_, ?_⟩
  · rw [List.append_assoc, ← split, List.takeWhile_append_dropWhile]
  · exact List.all_eq_true.mp List.all_takeWhile
  · intro c hc
    exact List.all_eq_true.mp List.all_takeWhile c (List.mem_reverse.mp hc)

/-- Between blanks, a text that neither starts nor ends with one is all that stays. -/
theorem trim_between {before after cs : List Char} {c d : Char}
    (blankBefore : ∀ c ∈ before, isBlank c) (blankAfter : ∀ c ∈ after, isBlank c)
    (first : cs.head? = some c) (solid : ¬ isBlank c) (last : cs.getLast? = some d)
    (solid' : ¬ isBlank d) : trim (before ++ cs ++ after) = cs := by
  have left : (before ++ cs ++ after).dropWhile isBlank = cs ++ after := by
    obtain ⟨front, rfl⟩ := List.head?_eq_some_iff.mp first
    rw [List.append_assoc, List.dropWhile_append_of_pos blankBefore, List.cons_append,
      List.dropWhile_cons_of_neg solid]
  have right : (cs ++ after).reverse.dropWhile isBlank = cs.reverse := by
    obtain ⟨back, rfl⟩ := List.getLast?_eq_some_iff.mp last
    rw [List.reverse_append, List.dropWhile_append_of_pos (by simpa using blankAfter),
      List.reverse_concat, List.dropWhile_cons_of_neg solid']
  rw [trim, left, right, List.reverse_reverse]

end ChipEight.Text
