import ChipEight.Rom

/-!
# Loading a file, all or nothing

A load ends in one of three ways: the file cannot be read, it is longer than the program space,
or its bytes lie in the program space, the program counter stands at the first of them and the
rest of the machine is as it was. In the first two the whole machine is as it was, and the fault
says which of them it is.
-/
namespace ChipEight.Rom

/-- The machine `m` with a program laid into it. What a longer program has left behind the new one
stays there. -/
structure Installed (m : Machine) (program : List UInt8) (m' : Machine) : Prop where
  byte : ∀ i < program.length, m'.memory.bytes[0x200 + i]? = program[i]?
  beside : ∀ a, a < 0x200 ∨ 0x200 + program.length ≤ a → m'.memory.bytes[a]? = m.memory.bytes[a]?
  size : m'.memory.bytes.toList.length = 4096
  pc : m'.pc = 0x200
  rest : m' = { m with memory := m'.memory, pc := m'.pc }

inductive Outcome (files : Files) (m : Machine) (path : String) (t : Turn Machine Nat) : Prop
  | unreadable (cause : ReadFailure) (fails : files path = .error cause)
      (result : t.result = .error (.romUnreadable path cause)) (state : t.state = m)
  | tooLarge (program : List UInt8) (reads : files path = .ok program)
      (large : 3584 < program.length)
      (result : t.result = .error (.romTooLarge program.length 3584)) (state : t.state = m)
  | loaded (program : List UInt8) (reads : files path = .ok program)
      (fits : program.length ≤ 3584) (result : t.result = .ok program.length)
      (installed : Installed m program t.state)

variable {files : Files} {path : String}

theorem installed_put (m : Machine) {program : List UInt8} (fits : program.length ≤ 3584) :
    Installed m program { m with memory := m.memory.put 0x200 program, pc := 0x200 } where
  byte i hi := m.memory.getElem?_put_inside (by omega) hi
  beside a ha := m.memory.getElem?_put_outside ha
  size := Vector.length_toList
  pc := rfl
  rest := rfl

/-- Every load of a path without a null character ends in one of the three ways. -/
theorem outcome_load (m : Machine) (plain : '\x00' ∉ path.toList) :
    Outcome files m path (load files m path) := by
  cases reads : files path with
  | error cause =>
    rw [load_of_unreadable m plain reads]
    exact .unreadable cause reads rfl rfl
  | ok program =>
    by_cases fits : program.length ≤ Memory.programSpace
    · rw [load_of_fits m plain reads fits]
      exact .loaded program reads fits rfl (installed_put m fits)
    · have large : Memory.programSpace < program.length := Nat.lt_of_not_le fits
      rw [load_of_large m plain reads large]
      exact .tooLarge program reads large rfl rfl

namespace Outcome

variable {m : Machine} {t : Turn Machine Nat}

theorem ok_iff (outcome : Outcome files m path t) (n : Nat) : t.result = .ok n ↔
    ∃ program, files path = .ok program ∧ program.length ≤ 3584 ∧ n = program.length := by
  cases outcome with
  | unreadable cause fails result _ => simp [fails, result]
  | tooLarge program reads large result _ =>
    have unfit : ¬ program.length ≤ 3584 := Nat.not_le.mpr large
    simp [reads, result, unfit]
  | loaded program reads fits result _ => simp [reads, result, fits, eq_comm]

theorem installed (outcome : Outcome files m path t) {program : List UInt8}
    (reads : files path = .ok program) (fits : program.length ≤ 3584) :
    Installed m program t.state := by
  cases outcome with
  | unreadable cause fails _ _ => rw [reads] at fails; cases fails
  | tooLarge found reads' large _ _ =>
    cases Except.ok.inj (reads.symm.trans reads')
    exact absurd fits (Nat.not_le.mpr large)
  | loaded found reads' _ _ installed =>
    cases Except.ok.inj (reads.symm.trans reads')
    exact installed

theorem refused (outcome : Outcome files m path t) {f : Fault} (refuses : t.result = .error f) :
    f.kind.isRom = true ∧ t.state = m := by
  cases outcome with
  | unreadable _ _ result state | tooLarge _ _ _ result state =>
    cases Except.error.inj (refuses.symm.trans result)
    exact ⟨rfl, state⟩
  | loaded _ _ _ result _ => rw [result] at refuses; cases refuses

theorem tooLarge_iff (outcome : Outcome files m path t) (size limit : Int) :
    t.result = .error (.romTooLarge size limit) ↔
      ∃ program, files path = .ok program ∧ 3584 < program.length ∧ size = program.length ∧
        limit = 3584 := by
  cases outcome with
  | unreadable cause fails result _ => simp [fails, result]
  | tooLarge program reads large result _ => simp [reads, result, large, eq_comm]
  | loaded program reads fits result _ =>
    have small : ¬ 3584 < program.length := Nat.not_lt.mpr fits
    simp [reads, result, small]

theorem unreadable_iff (outcome : Outcome files m path t) (cause : ReadFailure) :
    t.result = .error (.romUnreadable path cause) ↔ files path = .error cause := by
  cases outcome with
  | unreadable cause fails result _ => simp [fails, result]
  | tooLarge program reads _ result _ => simp [reads, result]
  | loaded program reads _ result _ => simp [reads, result]

end Outcome

/-- A load is done as a whole exactly for a file that can be read and fits, and is refused as a
whole otherwise. -/
structure AllOrNothing (files : Files) (m : Machine) (path : String) (t : Turn Machine Nat) :
    Prop where
  ok_iff : ∀ n, t.result = .ok n ↔
    ∃ program, files path = .ok program ∧ program.length ≤ 3584 ∧ n = program.length
  installed : ∀ program, files path = .ok program → program.length ≤ 3584 →
    Installed m program t.state
  refused : ∀ f, t.result = .error f → f.kind.isRom = true ∧ t.state = m
  tooLarge_iff : ∀ size limit, t.result = .error (.romTooLarge size limit) ↔
    ∃ program, files path = .ok program ∧ 3584 < program.length ∧ size = program.length ∧
      limit = 3584
  unreadable_iff : ∀ cause, t.result = .error (.romUnreadable path cause) ↔
    files path = .error cause

/-- Whatever the machine holds and whatever the files are, a path without a null character is
loaded all or nothing. -/
theorem load_all_or_nothing (files : Files) (m : Machine) (path : String)
    (plain : '\x00' ∉ path.toList) : AllOrNothing files m path (load files m path) := by
  have outcome : Outcome files m path (load files m path) := outcome_load m plain
  constructor
  case ok_iff => exact outcome.ok_iff
  case installed =>
    intro program reads fits
    exact outcome.installed reads fits
  case refused =>
    intro f refuses
    exact outcome.refused refuses
  case tooLarge_iff => exact outcome.tooLarge_iff
  case unreadable_iff => exact outcome.unreadable_iff

/-- Two files, one of them a byte longer than the program space. -/
def twoFiles : Files
  | "full" => .ok (List.replicate 3584 0xAA)
  | "over" => .ok (List.replicate 3585 0xAA)
  | _ => .error .missing

/-- A machine in the middle of another program. -/
def busy : Machine := { Machine.initial with memory := ⟨Vector.replicate 4096 0x77⟩, pc := 7 }

/-- A file that fills the program space is loaded to its last byte, one that exceeds it by a byte
not at all. -/
theorem twoFiles_loaded :
    ('\x00' ∉ "full".toList ∧ (load twoFiles busy "full").result = .ok 3584 ∧
        (load twoFiles busy "full").state.memory.bytes[4095]? = some 0xAA ∧
        (load twoFiles busy "full").state.memory.bytes[511]? = some 0x77) ∧
      '\x00' ∉ "over".toList ∧
        (load twoFiles busy "over").result = .error (.romTooLarge 3585 3584) ∧
        (load twoFiles busy "over").state = busy := by
  have done := load_all_or_nothing twoFiles busy "full" (by decide)
  have refused := load_all_or_nothing twoFiles busy "over" (by decide)
  have fullReads : twoFiles "full" = .ok (List.replicate 3584 0xAA) := rfl
  have overReads : twoFiles "over" = .ok (List.replicate 3585 0xAA) := rfl
  have fits : (List.replicate 3584 (0xAA : UInt8)).length = 3584 := List.length_replicate
  have large : (List.replicate 3585 (0xAA : UInt8)).length = 3585 := List.length_replicate
  have installed := done.installed _ fullReads (Nat.le_of_eq fits)
  have refuses : (load twoFiles busy "over").result = .error (.romTooLarge 3585 3584) :=
    (refused.tooLarge_iff _ _).mpr ⟨_, overReads, by omega, by rw [large]; rfl, rfl⟩
  refine ⟨⟨by decide, ?_, ?_, ?_⟩, by decide, refuses, (refused.refused _ refuses).2⟩
  · exact (done.ok_iff _).mpr ⟨_, fullReads, Nat.le_of_eq fits, fits.symm⟩
  · rw [installed.byte 3583 (by omega), List.getElem?_replicate, if_pos (by decide)]
  · rw [installed.beside 511 (by decide)]
    simp [busy]

end ChipEight.Rom
