import ChipEight.Digit

/-!
# The keyboard

Sixteen keys of the keyboard stand for the keypad, in the same four by four square; a few more
control the emulator.
-/
namespace ChipEight

inductive Key where
  | one | two | three | four
  | q | w | e | r
  | a | s | d | f
  | z | x | c | v
  | escape | f1 | m | space | n
  /-- A key without a meaning. -/
  | other
  deriving DecidableEq, Repr

namespace Key

/-- The keypad keys under the keyboard keys, row by row. -/
def bindings : List (Key × Digit) :=
  [(.one, .of 0x1), (.two, .of 0x2), (.three, .of 0x3), (.four, .of 0xC),
    (.q, .of 0x4), (.w, .of 0x5), (.e, .of 0x6), (.r, .of 0xD),
    (.a, .of 0x7), (.s, .of 0x8), (.d, .of 0x9), (.f, .of 0xE),
    (.z, .of 0xA), (.x, .of 0x0), (.c, .of 0xB), (.v, .of 0xF)]

def bound (k : Key) : Option (Digit) := bindings.lookup k

def name : Key → String
  | .one => "_1"
  | .two => "_2"
  | .three => "_3"
  | .four => "_4"
  | .q => "Q"
  | .w => "W"
  | .e => "E"
  | .r => "R"
  | .a => "A"
  | .s => "S"
  | .d => "D"
  | .f => "F"
  | .z => "Z"
  | .x => "X"
  | .c => "C"
  | .v => "V"
  | .escape => "ESCAPE"
  | .f1 => "F1"
  | .m => "M"
  | .space => "SPACE"
  | .n => "N"
  | .other => ""

def named : List Key :=
  [.one, .two, .three, .four, .q, .w, .e, .r, .a, .s, .d, .f, .z, .x, .c, .v,
    .escape, .f1, .m, .space, .n]

def ofName (text : String) : Key := (named.find? fun k => k.name == text).getD .other

end Key

end ChipEight
