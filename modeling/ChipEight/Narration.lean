import ChipEight.Vm

/-!
# The log line of an instruction

The line is read off the states before and after a cycle that succeeded. Conditional skips speak
only when they skip, waiting for a key only when a key came, and the timer instructions never.
-/
namespace ChipEight.Narration

open Text

variable {w h : Nat}

def name (i : Digit) : String := "V" ++ toString i.val

def decimal (v : UInt8) : String := toString v.toNat

/-- Addresses have three digits at least. -/
def address (a : Nat) : String := Hexadecimal.padded 3 a

def digit (n : Nat) : String := Hexadecimal.padded 1 n

def skip (left relation right : String) : String :=
  "Skip next instruction: " ++ left ++ " " ++ relation ++ " " ++ right

def bitwise (verb : String) (x y : Digit) (after : Vm w h) : String :=
  name x ++ " = " ++ name x ++ " " ++ verb ++ " " ++ name y ++ " -> " ++ decimal (after.reg x)

def alu (f : Alu) (x y : Digit) (after : Vm w h) : String :=
  let result := decimal (after.reg x)
  let flag := decimal (after.reg Registers.flagRegister)
  match f with
  | .copy => "Copy " ++ name y ++ " (" ++ decimal (after.reg y) ++ ") into " ++ name x
  | .or => bitwise "OR" x y after
  | .and => bitwise "AND" x y after
  | .xor => bitwise "XOR" x y after
  | .add => "Add " ++ name y ++ " to " ++ name x ++ ": result " ++ result ++ ", carry=" ++ flag
  | .sub =>
    "Subtract " ++ name y ++ " from " ++ name x ++ ": result " ++ result ++
      ", NOT borrow=" ++ flag
  | .shr => name x ++ " = " ++ name y ++ " >> 1: " ++ result ++ ", least significant bit=" ++ flag
  | .rsub =>
    "Set " ++ name x ++ " = " ++ name y ++ " - " ++ name x ++ ": result " ++ result ++
      ", NOT borrow=" ++ flag
  | .shl => name x ++ " = " ++ name y ++ " << 1: " ++ result ++ ", most significant bit=" ++ flag

def ofOp (before after : Vm w h) (op : Op) : Option String :=
  let ifSkipped (text : String) : Option String :=
    if after.pc = before.pc + 4 then some text else none
  let key (x : Digit) := digit (before.namedKey x).val
  match op with
  | .clear => some "Clear the display (all pixels turned off)"
  | .ret => some ("Return to " ++ Hexadecimal.plain after.pc.toNat)
  | .jump target => some ("Jump to address " ++ Hexadecimal.plain target)
  | .call target => some ("Call subroutine at " ++ Hexadecimal.plain target)
  | .skipByte x nn => ifSkipped (skip (name x) "==" (decimal nn))
  | .skipNotByte x nn => ifSkipped (skip (name x) "!=" (decimal nn))
  | .skipSame x y => ifSkipped (skip (name x) "==" (name y))
  | .setByte x nn => some ("Set " ++ name x ++ " = " ++ decimal nn)
  | .addByte x nn =>
    some ("Add " ++ decimal nn ++ " to " ++ name x ++ ": " ++ decimal (after.reg x))
  | .alu f x y => some (alu f x y after)
  | .skipOther x y => ifSkipped (skip (name x) "!=" (name y))
  | .setIndex a => some ("Set I = " ++ address a)
  | .jumpFrom a =>
    some ("Jump to address V0 + " ++ address a ++ " = " ++ address after.pc.toNat)
  | .random x mask =>
    some ("Set " ++ name x ++ " = random_byte & " ++ decimal mask ++ " -> " ++
      decimal (after.reg x))
  | .draw x y _ =>
    some ("Drew sprite at (" ++ toString ((before.reg x).toNat % w) ++ ", " ++
      toString ((before.reg y).toNat % h) ++ "), collision=" ++ decimal (after.reg Registers.flagRegister))
  | .skipKey x => ifSkipped ("Key " ++ key x ++ " pressed, skip")
  | .skipNoKey x => ifSkipped ("Key " ++ key x ++ " not pressed, skip")
  | .getDelay _ | .setDelay _ | .setSound _ => none
  | .waitKey x => before.keypad.first.map fun k => "Key " ++ digit k.val ++ " -> " ++ name x
  | .addIndex x => some ("Set I = I + " ++ name x ++ " -> " ++ address after.index.toNat)
  | .glyph x => some ("Set I = font glyph " ++ digit (before.reg x).toNat)
  | .decimal x =>
    some ("BCD of " ++ name x ++ " (" ++ decimal (before.reg x) ++ ") stored at " ++
      address after.index.toNat)
  | .store x => some ("Stored V0.." ++ name x ++ " at " ++ address after.index.toNat)
  | .load x => some ("Loaded V0.." ++ name x ++ " from " ++ address after.index.toNat)

/-- What is said of a cycle: nothing, if it failed. -/
def ofCycle (before : Vm w h) (result : Except Fault Word) (after : Vm w h) : Option String :=
  match result with
  | .error _ => none
  | .ok word => (Op.decode word).bind (ofOp before after)

end ChipEight.Narration
