import ChipEight.Rate
import ChipEight.Rom
import ChipEight.Window

/-!
# The command line

The command line gives a program file and, if wanted, a rate of instructions a second. Further
arguments are ignored. A bad rate is reported before any file is read, and a program that cannot
be loaded before any window is opened.
-/
namespace ChipEight.CommandLine

def usage : String := "Usage: python -m chip8 <rom-file> [cpu-hz]"

/-- What the arguments ask for; the first of them is the program's own name. -/
inductive Plan where
  | help
  | play (path : String) (rate : Int)
  deriving DecidableEq, Repr

def plan : List String → Plan
  | [] | [_] => .help
  | [_, path] => .play path Settings.cpuRate
  | _ :: path :: rate :: _ =>
    match Rate.parse rate with
    | none => .help
    | some n => .play path n

/-- How a start ended: with an exit code, in a fault that nobody handles, or with a
window on which the host's loop runs. -/
inductive Ending where
  | exit (code : Nat)
  | crash (fault : Fault)
  | running (window : Window)

structure Launch where
  ending : Ending
  lines : List Line
  /-- Text for the error stream. -/
  complaint : Option String
  requests : List Request

/-- The exit code once the host's loop is over. -/
def Ending.code : Ending → Option Nat
  | .exit code => some code
  | .crash _ => none
  | .running _ => some 0

def openWindow (host : Host) (machine : Machine) (rate : Int) (lines : List Line) : Launch :=
  let o := Window.openOn host machine rate
  match o.result with
  | .error f => ⟨.crash f, lines ++ o.lines, none, o.requests⟩
  | .ok win => ⟨.running win, lines ++ o.lines, none, o.requests ++ [.runLoop]⟩

def launch (host : Host) (files : Files) (args : List String) : Launch :=
  match plan args with
  | .help => ⟨.exit 1, [.say usage], none, []⟩
  | .play path rate =>
    let t := Rom.load files Machine.initial path
    match t.result with
    | .error f =>
      if f.kind.isRom then ⟨.exit 1, t.lines, some f.message, []⟩
      else ⟨.crash f, t.lines, none, []⟩
    | .ok _ => openWindow host t.state rate t.lines

end ChipEight.CommandLine
