/-!
# Numbers in base sixteen

Addresses and opcodes are written with capital digits and padded with zeros to a least width; the
sign of a negative number stands first and takes one place of that width. Jump targets are
written with small digits behind `0x`.
-/
namespace ChipEight.Text.Hexadecimal

/-- Capital digits, most significant first, and at least one of them. -/
def digits (n : Nat) : List Char := (Nat.toDigits 16 n).map Char.toUpper

/-- Zeros in front of `cs` up to `width` places; longer texts stay as they are. -/
def pad (width : Nat) (cs : List Char) : List Char :=
  List.replicate (width - cs.length) '0' ++ cs

def padded (width : Nat) : Int → String
  | .ofNat n => String.ofList (pad width (digits n))
  | .negSucc n => String.ofList ('-' :: pad (width - 1) (digits (n + 1)))

/-- Small digits behind `0x`, without padding. -/
def plain (n : Nat) : String := "0x" ++ String.ofList (Nat.toDigits 16 n)

end ChipEight.Text.Hexadecimal
