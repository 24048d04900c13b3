import ChipEight.Text.BinarySize
import ChipEight.Text.Quoted
import ChipEight.Word

/-!
# Faults and their messages

A fault is what is reported in place of a result, kept as its cause. Each cause has a kind, which
handlers look at, and a message, which is all that is ever shown.
-/
namespace ChipEight

/-- Why a file could not be read: the number and the text of the system's error, and whether
the error names the file. One from opening a file does, one from reading an open file does not. -/
structure ReadFailure where
  number : Nat
  text : String
  named : Bool
  deriving DecidableEq, Repr

namespace ReadFailure

def missing : ReadFailure := ⟨2, "No such file or directory", true⟩

def describe (cause : ReadFailure) (path : String) : String :=
  "[Errno " ++ toString cause.number ++ "] " ++ cause.text ++
    if cause.named then ": " ++ Text.Quoted.quoted path else ""

end ReadFailure

/-- What a player that is gone was asked to do. -/
inductive PlayerVerb where
  | play | pause
  deriving DecidableEq, Repr

def PlayerVerb.name : PlayerVerb → String
  | .play => "play"
  | .pause => "pause"

inductive Fault where
  | unknownOpcode (word : Word) (address : Int)
  | outOfBounds (address length : Int)
  | stackOverflow
  | stackUnderflow
  | romTooLarge (size limit : Int)
  | romUnreadable (path : String) (cause : ReadFailure)
  /-- No key has this number. -/
  | noKey (key : Int)
  /-- The screen has no such row. -/
  | noRow (row : Int) (height : Nat)
  /-- The screen has no such column. -/
  | noColumn (column : Int) (width : Nat)
  /-- A whole number that a signed word of 64 bits does not hold. -/
  | beyondWord
  /-- A number too far out to be taken for an index. -/
  | notIndex
  | negativeSize
  /-- A side of a screen that a signed word of 64 bits does not hold. -/
  | hugeSide
  /-- A screen whose number of pixels a signed word of 64 bits does not hold. -/
  | hugeScreen
  /-- A screen for which there is no room in memory. -/
  | noRoom (width height : Nat)
  /-- A return address that does not fit in sixteen bits. -/
  | wideAddress (value : Int)
  /-- A byte to be written lies outside 0 to 255. -/
  | wideByte
  /-- Drawing on a screen without pixels. -/
  | emptyScreen
  /-- A rate or a time span of zero. -/
  | zeroDivisor
  /-- A rate or a number of frames beyond the largest double. -/
  | hugeRate
  | clockNotNumber
  | clockInfinite
  | nulInPath
  | noPlayer (verb : PlayerVerb)
  /-- The timer clock does not catch up with the time it was given. -/
  | endlessTicks
  deriving DecidableEq, Repr

/-- What handlers distinguish. `emulation` is the general kind of the errors of the
emulated machine and its programs. -/
inductive Kind where
  | emulation | unknownOpcode | memoryBounds | stackOverflow | stackUnderflow
  | romLoad | romTooLarge
  | badIndex | badValue | overflow | zeroDivision | noMemory | missingPart | endless
  deriving DecidableEq, Repr

namespace Kind

def isRom : Kind → Bool
  | .romLoad | .romTooLarge => true
  | _ => false

/-- The fault of the emulated machine or its program, not of a caller. -/
def isEmulation : Kind → Bool
  | .emulation | .unknownOpcode | .memoryBounds | .stackOverflow | .stackUnderflow => true
  | k => k.isRom

end Kind

namespace Fault

def kind : Fault → Kind
  | .unknownOpcode .. => .unknownOpcode
  | .outOfBounds .. => .memoryBounds
  | .stackOverflow => .stackOverflow
  | .stackUnderflow => .stackUnderflow
  | .romTooLarge .. => .romTooLarge
  | .romUnreadable .. => .romLoad
  | .noKey .. | .noRow .. | .noColumn .. | .notIndex => .badIndex
  | .negativeSize | .hugeSide | .hugeScreen | .wideByte | .clockNotNumber | .nulInPath => .badValue
  | .wideAddress .. | .beyondWord | .hugeRate | .clockInfinite => .overflow
  | .noRoom .. => .noMemory
  | .emptyScreen | .zeroDivisor => .zeroDivision
  | .noPlayer .. => .missingPart
  | .endlessTicks => .endless

/-- An index, an axis and its size, as all three out-of-range messages put them. -/
def indexText (index : Int) (axis size : Nat) : String :=
  "index " ++ toString index ++ " is out of bounds for axis " ++ toString axis ++
    " with size " ++ toString size

def message : Fault → String
  | .unknownOpcode word address =>
    "Unknown opcode: " ++ word.hex ++ " at 0x" ++ Text.Hexadecimal.padded 3 address
  | .outOfBounds address length =>
    "Memory access out of bounds: 0x" ++ Text.Hexadecimal.padded 4 address ++
      " (+" ++ toString length ++ ")"
  | .stackOverflow => "Stack overflow on CALL (32 frames)"
  | .stackUnderflow => "Stack underflow on 00EE"
  | .romTooLarge size limit =>
    "ROM is " ++ toString size ++ " bytes, program space holds " ++ toString limit
  | .romUnreadable path cause => "Unable to read ROM " ++ path ++ ": " ++ cause.describe path
  | .noKey key => indexText key 0 16
  | .noRow row height => indexText row 0 height
  | .noColumn column width => indexText column 1 width
  | .beyondWord => "Python int too large to convert to C long"
  | .notIndex =>
    "only integers, slices (`:`), ellipsis (`...`), numpy.newaxis (`None`) and integer or boolean " ++
      "arrays are valid indices"
  | .negativeSize => "negative dimensions are not allowed"
  | .hugeSide => "Maximum allowed dimension exceeded"
  | .hugeScreen =>
    "array is too big; `arr.size * arr.dtype.itemsize` is larger than the maximum possible size."
  | .noRoom width height =>
    "Unable to allocate " ++ Text.BinarySize.describe (width * height) ++
      " for an array with shape (" ++ toString height ++ ", " ++ toString width ++
      ") and data type uint8"
  | .wideAddress value => "Python integer " ++ toString value ++ " out of bounds for uint16"
  | .wideByte => "bytes must be in range(0, 256)"
  | .emptyScreen => "integer modulo by zero"
  | .zeroDivisor => "float division by zero"
  | .hugeRate => "int too large to convert to float"
  | .clockNotNumber => "cannot convert float NaN to integer"
  | .clockInfinite => "cannot convert float infinity to integer"
  | .nulInPath => "embedded null byte"
  | .noPlayer verb => "'NoneType' object has no attribute '" ++ verb.name ++ "'"
  | .endlessTicks => "timer clock cannot catch up"

/-- A file that cannot be opened is named twice, the second time in quotes. -/
theorem message_of_named (path : String) {cause : ReadFailure} (named : cause.named = true) :
    (romUnreadable path cause).message = "Unable to read ROM " ++ path ++ ": " ++
      ("[Errno " ++ toString cause.number ++ "] " ++ cause.text ++
        (": " ++ Text.Quoted.quoted path)) := by
  have described : cause.describe path = "[Errno " ++ toString cause.number ++ "] " ++
      cause.text ++ (": " ++ Text.Quoted.quoted path) := by
    rw [ReadFailure.describe, if_pos named]
  rw [← described]
  rfl

/-- A file that fails while it is read is named once. -/
theorem message_of_unnamed (path : String) {cause : ReadFailure} (unnamed : cause.named = false) :
    (romUnreadable path cause).message = "Unable to read ROM " ++ path ++ ": " ++
      ("[Errno " ++ toString cause.number ++ "] " ++ cause.text) := by
  have described : cause.describe path =
      "[Errno " ++ toString cause.number ++ "] " ++ cause.text := by
    rw [ReadFailure.describe, if_neg (Bool.eq_false_iff.mp unnamed), String.append_empty]
  rw [← described]
  rfl

theorem message_romTooLarge (size : Nat) : (romTooLarge size 3584).message =
    "ROM is " ++ toString size ++ " bytes, program space holds 3584" := by
  have limit : " bytes, program space holds " ++ toString (3584 : Int) =
      " bytes, program space holds 3584" := by decide +kernel
  rw [← limit, ← String.append_assoc]
  rfl

end Fault

/-- A kind with a text of the caller's own. -/
structure Diagnostic where
  kind : Kind
  text : String
  deriving DecidableEq, Repr

def Fault.diagnostic (f : Fault) : Diagnostic := ⟨f.kind, f.message⟩

end ChipEight
