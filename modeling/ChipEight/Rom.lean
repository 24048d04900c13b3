import ChipEight.Machine
import ChipEight.Turn

/-!
# Program files

A program file is loaded into a machine as a whole or not at all. Files are known only by what
reading a path gives.
-/
namespace ChipEight

/-- The files of a system: content or failure for each path. -/
abbrev Files := String → Except ReadFailure (List UInt8)

namespace Rom

/-- The bytes of a program file. No path holds a null character. -/
def read (files : Files) (path : String) : Except Fault (List UInt8) :=
  if path.toList.contains '\x00' then .error .nulInPath
  else
    match files path with
    | .error cause => .error (.romUnreadable path cause)
    | .ok content => .ok content

/-- Read a file and lay it over the program space. The result is its size. -/
def load (files : Files) (m : Machine) (path : String) : Turn Machine Nat :=
  let first : Line := .note ("Loading ROM: " ++ path)
  match read files path with
  | .error f => ⟨.error f, m, [first], []⟩
  | .ok program =>
    match m.load program with
    | .error f => ⟨.error f, m, [first], []⟩
    | .ok loaded =>
      ⟨.ok program.length, loaded,
        [first, .note ("Loaded " ++ toString program.length ++ " bytes")], []⟩

section

variable {files : Files} {path : String} {program : List UInt8}

theorem load_of_unreadable (m : Machine) {cause : ReadFailure} (plain : '\x00' ∉ path.toList)
    (fails : files path = .error cause) :
    load files m path =
      ⟨.error (.romUnreadable path cause), m, [.note ("Loading ROM: " ++ path)], []⟩ := by
  simp [load, read, plain, fails]

theorem load_of_large (m : Machine) (plain : '\x00' ∉ path.toList)
    (reads : files path = .ok program) (large : Memory.programSpace < program.length) :
    load files m path = ⟨.error (.romTooLarge program.length Memory.programSpace), m,
      [.note ("Loading ROM: " ++ path)], []⟩ := by
  simp [load, read, plain, reads, Machine.load, large]

/-- Any other file is laid over the program space, and the program counter points at its start. -/
theorem load_of_fits (m : Machine) (plain : '\x00' ∉ path.toList)
    (reads : files path = .ok program) (fits : program.length ≤ Memory.programSpace) :
    load files m path = ⟨.ok program.length,
      { m with
        memory := m.memory.put Memory.programStart program
        pc := UInt16.ofNat Memory.programStart },
      [.note ("Loading ROM: " ++ path),
        .note ("Loaded " ++ toString program.length ++ " bytes")], []⟩ := by
  simp [load, read, plain, reads, Machine.load, Nat.not_lt.mpr fits]

end

end Rom

end ChipEight
