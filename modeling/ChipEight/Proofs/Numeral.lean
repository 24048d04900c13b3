import ChipEight.Rate
import Mathlib.Data.List.Forall2
import Mathlib.Data.Nat.Digits.Defs

/-!
# The texts that are read as rates

A rate is written as blanks, a plus sign if wanted, one digit or more, with single underscores
between them if wanted, and blanks; the digits may be of any script, their number is limited, and
their value is not zero. The reader accepts these texts and no others. So the decimal text of a
number is read as that number, and so is each of its other spellings.
-/
namespace ChipEight.Rate

open Text (Decimal)

/-- Characters, and a text in which an underscore may stand between two of them. -/
inductive Spaced : List Char → List Char → Prop
  | single {c : Char} : Spaced [c] [c]
  | close {c : Char} {cs body : List Char} (rest : Spaced cs body) : Spaced (c :: cs) (c :: body)
  | apart {c : Char} {cs body : List Char} (rest : Spaced cs body) :
    Spaced (c :: cs) (c :: '_' :: body)

/-- A text in which some characters stand as the digits of a number do: spaced, after a plus sign or
none, between blanks. -/
inductive Written (text : String) (cs : List Char) : Prop
  | parts (before sign body after : List Char)
      (text : text.toList = before ++ (sign ++ body) ++ after)
      (blankBefore : ∀ c ∈ before, c.toNat ∈ Text.blanks) (sign : sign = [] ∨ sign = ['+'])
      (body : Spaced cs body) (blankAfter : ∀ c ∈ after, c.toNat ∈ Text.blanks)

def Denotes (text : String) (n : Nat) : Prop :=
  ∃ cs values, Written text cs ∧ List.Forall₂ Decimal cs values ∧ cs.length ≤ 4300 ∧ 0 < n ∧
    n = Nat.ofDigits 10 values.reverse

variable {c : Char} {cs body : List Char} {d n : Nat} {ds : List Nat} {text : String}

theorem not_decimal (h : Text.digitValue c = none) : ¬ Decimal c d := by
  rw [← Text.digitValue_eq_some_iff, h]
  simp

/-- No run of digits holds a blank. -/
theorem blank_outside : ∀ b ∈ Text.blanks, ∀ z ∈ Text.zeros, b < z ∨ z + 10 ≤ b := by
  decide +kernel

theorem not_blank (digit : Decimal c d) : ¬ Text.isBlank c := by
  obtain ⟨small, z, mem, place⟩ := digit
  intro blank
  have outside := blank_outside _ (Text.isBlank_iff.mp blank) z mem
  omega

namespace Spaced

/-- The text starts and ends with one of the characters. -/
theorem ends (spaced : Spaced cs body) :
    ∃ c ∈ cs, ∃ e ∈ cs, body.head? = some c ∧ body.getLast? = some e := by
  induction spaced with
  | single => exact ⟨_, List.mem_cons_self, _, List.mem_cons_self, rfl, rfl⟩
  | close rest ih =>
    obtain ⟨-, -, e, mem, -, last⟩ := ih
    refine ⟨_, List.mem_cons_self, e, List.mem_cons_of_mem _ mem, rfl, ?_⟩
    rw [List.getLast?_cons, last, Option.getD_some]
  | apart rest ih =>
    obtain ⟨-, -, e, mem, -, last⟩ := ih
    refine ⟨_, List.mem_cons_self, e, List.mem_cons_of_mem _ mem, rfl, ?_⟩
    rw [List.getLast?_cons_cons, List.getLast?_cons, last, Option.getD_some]

theorem refl (h : cs ≠ []) : Spaced cs cs := by
  induction cs with
  | nil => contradiction
  | cons c cs ih =>
    cases cs with
    | nil => exact .single
    | cons b cs => exact .close (ih (by simp))

theorem mem (spaced : Spaced cs body) (h : c ∈ body) : c = '_' ∨ c ∈ cs := by
  induction spaced with
  | single => exact .inr h
  | close rest ih =>
    rcases List.mem_cons.mp h with rfl | h
    · exact .inr List.mem_cons_self
    · exact (ih h).imp_right (List.mem_cons_of_mem _)
  | apart rest ih =>
    rcases List.mem_cons.mp h with rfl | h
    · exact .inr List.mem_cons_self
    rcases List.mem_cons.mp h with rfl | h
    · exact .inl rfl
    · exact (ih h).imp_right (List.mem_cons_of_mem _)

end Spaced

theorem exists_decimal (values : List.Forall₂ Decimal cs ds) (mem : c ∈ cs) : ∃ d, Decimal c d := by
  induction values with
  | nil => cases mem
  | cons digit _ ih =>
    rcases List.mem_cons.mp mem with rfl | mem
    · exact ⟨_, digit⟩
    · exact ih mem

theorem digits_of_spaced (spaced : Spaced cs body) (values : List.Forall₂ Decimal cs ds) :
    digits body = some ds := by
  induction spaced generalizing ds with
  | single =>
    obtain ⟨d, _, digit, rest, rfl⟩ := List.forall₂_cons_left_iff.mp values
    rw [List.forall₂_nil_left_iff.mp rest, digits, Text.digitValue_eq_some_iff.mpr digit]
    rfl
  | close rest ih =>
    obtain ⟨d, ds, digit, others, rfl⟩ := List.forall₂_cons_left_iff.mp values
    -- The next character is a digit, hence no underscore.
    obtain ⟨next, mem, -, -, first, -⟩ := rest.ends
    obtain ⟨tail, rfl⟩ := List.head?_eq_some_iff.mp first
    obtain ⟨e, nextDigit⟩ := exists_decimal others mem
    have plain : next ≠ '_' := by
      rintro rfl
      exact not_decimal rfl nextDigit
    rw [digits, Text.digitValue_eq_some_iff.mpr digit, ih others]
    exact plain
  | apart rest ih =>
    obtain ⟨d, ds, digit, others, rfl⟩ := List.forall₂_cons_left_iff.mp values
    rw [digits, Text.digitValue_eq_some_iff.mpr digit, ih others]

theorem spaced_of_digits (h : digits body = some ds) :
    ∃ cs, Spaced cs body ∧ List.Forall₂ Decimal cs ds := by
  fun_induction digits body generalizing ds with
  | case1 => cases h
  | case2 c =>
    obtain ⟨d, digit, rfl⟩ := Option.map_eq_some_iff.mp h
    exact ⟨[c], .single, .cons (Text.digitValue_eq_some_iff.mp digit) .nil⟩
  | case3 c rest d ds' reads digit ih =>
    cases h
    obtain ⟨cs, spaced, values⟩ := ih reads
    exact ⟨c :: cs, .apart spaced, .cons (Text.digitValue_eq_some_iff.mp digit) values⟩
  | case4 => cases h
  | case5 c next rest plain d ds' reads digit ih =>
    cases h
    obtain ⟨cs, spaced, values⟩ := ih reads
    exact ⟨c :: cs, .close spaced, .cons (Text.digitValue_eq_some_iff.mp digit) values⟩
  | case6 => cases h

theorem unsigned_of_ne (h : cs.head? ≠ some '+') : unsigned cs = cs := by
  unfold unsigned
  split
  · simp at h
  · rfl

theorem exists_sign (cs : List Char) :
    ∃ sign, (sign = [] ∨ sign = ['+']) ∧ cs = sign ++ unsigned cs := by
  unfold unsigned
  split
  · exact ⟨['+'], .inr rfl, rfl⟩
  · exact ⟨[], .inl rfl, rfl⟩

theorem digits_of_written (written : Written text cs) (values : List.Forall₂ Decimal cs ds) :
    digits (unsigned (Text.trim text.toList)) = some ds := by
  obtain ⟨before, sign, body, after, parts, blankBefore, sign_eq, spaced, blankAfter⟩ := written
  obtain ⟨c, hc, e, he, first, last⟩ := spaced.ends
  obtain ⟨d, firstDigit⟩ := exists_decimal values hc
  obtain ⟨f, lastDigit⟩ := exists_decimal values he
  have blankBefore : ∀ c ∈ before, Text.isBlank c := fun c h => Text.isBlank_iff.mpr (blankBefore c h)
  have blankAfter : ∀ c ∈ after, Text.isBlank c := fun c h => Text.isBlank_iff.mpr (blankAfter c h)
  rcases sign_eq with rfl | rfl
  · have trimmed : Text.trim text.toList = body := by
      rw [parts]
      exact Text.trim_between blankBefore blankAfter first (not_blank firstDigit) last
        (not_blank lastDigit)
    have plain : body.head? ≠ some '+' := by
      rw [first]
      rintro ⟨⟩
      exact not_decimal rfl firstDigit
    rw [trimmed, unsigned_of_ne plain, digits_of_spaced spaced values]
  · have signed : (['+'] ++ body).getLast? = some e := by
      rw [List.singleton_append, List.getLast?_cons, last, Option.getD_some]
    have trimmed : Text.trim text.toList = ['+'] ++ body := by
      rw [parts]
      exact Text.trim_between blankBefore blankAfter rfl (by decide) signed (not_blank lastDigit)
    rw [trimmed]
    exact digits_of_spaced spaced values

theorem written_of_digits (h : digits (unsigned (Text.trim text.toList)) = some ds) :
    ∃ cs, Written text cs ∧ List.Forall₂ Decimal cs ds := by
  obtain ⟨cs, spaced, values⟩ := spaced_of_digits h
  obtain ⟨before, after, trimmed, blankBefore, blankAfter⟩ := Text.exists_trim text.toList
  obtain ⟨sign, sign_eq, signed⟩ := exists_sign (Text.trim text.toList)
  refine ⟨cs, .parts before sign _ after ?_ ?_ sign_eq spaced ?_, values⟩
  · rw [← signed]
    exact trimmed
  · exact fun c hc => Text.isBlank_iff.mp (blankBefore c hc)
  · exact fun c hc => Text.isBlank_iff.mp (blankAfter c hc)

/-- The value of digits, most significant first. -/
theorem ofDigits_eq (ds : List Nat) : ofDigits ds = Nat.ofDigits 10 ds.reverse := by
  rw [Nat.ofDigits_eq_foldr, List.foldr_reverse, ofDigits]
  congr 1
  funext n d
  rw [Nat.cast_id, Nat.add_comm]

/-- How a text is read that is written in the right way. -/
theorem parse_of_written (written : Written text cs) (values : List.Forall₂ Decimal cs ds) :
    parse text = if cs.length ≤ 4300 ∧ 0 < Nat.ofDigits 10 ds.reverse then
      some (Nat.ofDigits 10 ds.reverse) else none := by
  rw [parse, digits_of_written written values, values.length_eq, ← ofDigits_eq]
  rfl

/-- A text is read as a rate exactly if it denotes it. -/
theorem parse_eq_some_iff : parse text = some n ↔ Denotes text n := by
  constructor
  · intro reads
    cases found : digits (unsigned (Text.trim text.toList)) with
    | none =>
      rw [parse, found] at reads
      cases reads
    | some ds =>
      obtain ⟨cs, written, values⟩ := written_of_digits found
      rw [parse_of_written written values] at reads
      split at reads
      next accepted =>
        cases reads
        exact ⟨cs, ds, written, values, accepted.1, accepted.2, rfl⟩
      next => cases reads
  · rintro ⟨cs, ds, written, values, few, pos, rfl⟩
    rw [parse_of_written written values, if_pos ⟨few, pos⟩]

theorem parse_eq_none_iff : parse text = none ↔ ¬ ∃ n, Denotes text n := by
  simp only [← parse_eq_some_iff, Option.eq_none_iff_forall_ne_some, ne_eq, not_exists]

/-- What stands in a text that denotes a rate. -/
theorem Written.mem (written : Written text cs) (h : c ∈ text.toList) :
    c.toNat ∈ Text.blanks ∨ c = '+' ∨ c = '_' ∨ c ∈ cs := by
  obtain ⟨before, sign, body, after, parts, blankBefore, sign_eq, spaced, blankAfter⟩ := written
  rw [parts] at h
  simp only [List.mem_append] at h
  rcases h with (h | h | h) | h
  · exact .inl (blankBefore c h)
  · rcases sign_eq with rfl | rfl
    · cases h
    · exact .inr (.inl (List.mem_singleton.mp h))
  · exact .inr (.inr (spaced.mem h))
  · exact .inl (blankAfter c h)

/-- No text with a minus sign denotes a rate. -/
theorem not_denotes_of_minus (minus : '-' ∈ text.toList) : ¬ Denotes text n := by
  rintro ⟨cs, ds, written, values, -, -, -⟩
  rcases written.mem minus with blank | plus | underscore | digit
  · exact absurd blank (by decide)
  · exact absurd plus (by decide)
  · exact absurd underscore (by decide)
  · obtain ⟨d, decimal⟩ := exists_decimal values digit
    exact not_decimal rfl decimal

theorem decimal_digitChar (h : d < 10) : Decimal d.digitChar d :=
  ⟨h, 0x30, by decide, Nat.toNat_digitChar_of_lt_ten h⟩

/-- The characters of a decimal text stand for the digits of the number. -/
theorem decimal_toDigits (pos : 0 < n) :
    List.Forall₂ Decimal (Nat.toDigits 10 n) (Nat.digits 10 n).reverse := by
  induction n using Nat.strong_induction_on with
  | _ n ih =>
    by_cases small : n < 10
    · rw [Nat.toDigits_of_lt_base small, Nat.digits_of_lt 10 n (by omega) small]
      exact .cons (decimal_digitChar small) .nil
    · have last : Decimal (n % 10).digitChar (n % 10) := decimal_digitChar (Nat.mod_lt _ (by decide))
      rw [Nat.toDigits_of_base_le (by decide) (by omega), Nat.digits_def' (by decide) pos,
        List.reverse_cons]
      exact List.rel_append (ih (n / 10) (by omega) (by omega)) (.cons last .nil)

theorem decimal_zeros (k : Nat) :
    List.Forall₂ Decimal (List.replicate k '0') (List.replicate k 0) := by
  induction k with
  | zero => exact .nil
  | succ k ih => exact .cons (decimal_digitChar (d := 0) (by decide)) ih

theorem toList_toString (n : Nat) : (toString n).toList = Nat.toDigits 10 n := by
  rw [Nat.toString_eq_repr, Nat.toList_repr]

theorem length_toString_le {k : Nat} (pos : 0 < k) (small : n < 10 ^ k) :
    (toString n).toList.length ≤ k := by
  rw [toList_toString]
  exact (Nat.length_toDigits_le_iff (by decide) pos).mpr small

theorem written_toString (n : Nat) : Written (toString n) (toString n).toList := by
  have nonempty : (toString n).toList ≠ [] := by
    rw [toList_toString]
    exact List.ne_nil_of_length_pos Nat.length_toDigits_pos
  exact .parts [] [] (toString n).toList [] (by simp) (by simp) (.inl rfl) (.refl nonempty) (by simp)

/-- The decimal text of a positive number of at most 4300 digits is read as that number. -/
theorem parse_toString (pos : 0 < n) (small : n < 10 ^ 4300) : parse (toString n) = some n := by
  have values : List.Forall₂ Decimal (toString n).toList (Nat.digits 10 n).reverse := by
    rw [toList_toString]
    exact decimal_toDigits pos
  have few : (toString n).toList.length ≤ 4300 := length_toString_le (by decide) small
  rw [parse_of_written (written_toString n) values, List.reverse_reverse, Nat.ofDigits_digits,
    if_pos ⟨few, pos⟩]

/-- Blanks, a plus sign, leading zeros and underscores do not change what a text is read as. -/
theorem parse_respelled {other : String} {k : Nat} (written : Written text cs)
    (values : List.Forall₂ Decimal cs ds) (respelled : Written other (List.replicate k '0' ++ cs))
    (few : k + cs.length ≤ 4300) : parse other = parse text := by
  have padded : List.Forall₂ Decimal (List.replicate k '0' ++ cs) (List.replicate k 0 ++ ds) :=
    List.rel_append (decimal_zeros k) values
  have same : Nat.ofDigits 10 (List.replicate k 0 ++ ds).reverse = Nat.ofDigits 10 ds.reverse := by
    rw [List.reverse_append, List.reverse_replicate, Nat.ofDigits_append_replicate_zero]
  have count : (List.replicate k '0' ++ cs).length = k + cs.length := by
    rw [List.length_append, List.length_replicate]
  have fewer : cs.length ≤ 4300 := by omega
  rw [parse_of_written written values, parse_of_written respelled padded, same, count]
  simp only [few, fewer, true_and]

/-- A reader of texts that accepts rates and nothing else. -/
structure ReadsRates (read : String → Option Nat) : Prop where
  some_iff : ∀ text n, read text = some n ↔ Denotes text n
  none_iff : ∀ text, read text = none ↔ ¬ ∃ n, Denotes text n
  minus : ∀ text, '-' ∈ text.toList → read text = none
  decimal : ∀ n, 0 < n → n < 10 ^ 4300 → read (toString n) = some n
  /-- Two texts with the same digits, but for zeros in front of them, are read alike. -/
  respelled : ∀ text other cs ds k, Written text cs → List.Forall₂ Decimal cs ds →
    Written other (List.replicate k '0' ++ cs) → k + cs.length ≤ 4300 → read other = read text

/-- The reader of the command line accepts the texts that denote a rate, and no others. -/
theorem parse_reads_rates : ReadsRates parse where
  some_iff text n := parse_eq_some_iff
  none_iff text := parse_eq_none_iff
  minus text minus := by
    rw [parse_eq_none_iff]
    rintro ⟨n, denotes⟩
    exact not_denotes_of_minus minus denotes
  decimal n pos small := parse_toString pos small
  respelled text other cs ds k written values respelled few :=
    parse_respelled written values respelled few

example : parse "\u2003+0_0\u06637\n" = some 37 := by decide +kernel
example : parse "1__0" = none := by decide +kernel

end ChipEight.Rate
