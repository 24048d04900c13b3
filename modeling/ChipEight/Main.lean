import Std.Time.DateTime.Timestamp
import ChipEight.CommandLine
import ChipEight.Script

/-!
# The program

Events come from standard input, a line each, and end with the input or with the first that
closes the window. Lines that are no events are passed over.
-/
namespace ChipEight.Program

def systemError : IO.Error → UInt32 × String
  | .alreadyExists _ code text | .otherError code text | .resourceBusy code text
  | .resourceVanished code text | .unsupportedOperation code text | .hardwareFault code text
  | .unsatisfiedConstraints code text | .illegalOperation code text | .protocolError code text
  | .timeExpired code text | .interrupted _ code text | .noFileOrDirectory _ code text
  | .invalidArgument _ code text | .permissionDenied _ code text | .resourceExhausted _ code text
  | .inappropriateType _ code text | .noSuchThing _ code text => (code, text)
  | .unexpectedEof => (0, "Unexpected end of file")
  | .userError text => (0, text)

/-- Some calls report the number negated, which wraps it into the upper half. -/
def unsignedCode (code : UInt32) : UInt32 :=
  if 0x80000000 ≤ code then 0 - code else code

def readFailure (e : IO.Error) (named : Bool) : ReadFailure :=
  let (code, text) := systemError e
  ⟨(unsignedCode code).toNat, text, named⟩

def directoryCode : Nat := 21

/-- A directory can be opened here and is noticed only when it is read. It counts as a failure
to open it. -/
def readFile (path : String) : IO (Except ReadFailure (List UInt8)) := do
  match ← (IO.FS.Handle.mk path .read).toBaseIO with
  | .error e => return .error (readFailure e true)
  | .ok file =>
    match ← (file.readBinToEnd).toBaseIO with
    | .ok content => return .ok content.toList
    | .error e =>
      let cause := readFailure e false
      return .error { cause with named := cause.number == directoryCode }

/-- The clock reading in seconds since the epoch. -/
def secondsNow : IO Float := do
  let now ← Std.Time.Timestamp.now
  return Float.ofInt now.toNanosecondsSinceUnixEpoch.val / 1000000000.0

/-- The files as the arguments need them: at most one is read. -/
def filesFor (args : List String) : IO Files := do
  match CommandLine.plan args with
  | .help => return fun _ => .error .missing
  | .play path _ =>
    let content ← readFile path
    return fun _ => content

partial def session (input : IO.FS.Stream) (win : Window) : IO Unit := do
  let line ← input.getLine
  if line.isEmpty then return
  match Script.event? line with
  | none => session input win
  | some event =>
    let turn := win.handle event
    IO.print (Window.output turn)
    match turn.result with
    | .ok () => pure ()
    | .error f => IO.eprintln f.message
    if turn.state.exited then return
    session input turn.state

end ChipEight.Program

open ChipEight in
def main (args : List String) : IO UInt32 := do
  let args := "chip-8" :: args
  let host : Host := ⟨false, Settings.haltOnUnknown, ← Program.secondsNow⟩
  let launch := CommandLine.launch host (← Program.filesFor args) args
  IO.print (Line.print host.logging launch.lines)
  match launch.complaint with
  | none => pure ()
  | some text => IO.eprintln text
  match launch.ending with
  | .exit code => return UInt32.ofNat code
  | .crash f =>
    IO.eprintln f.message
    return 1
  | .running win =>
    Program.session (← IO.getStdin) win
    return 0
