import ChipEight.Buzzer
import ChipEight.Console
import ChipEight.Frame
import ChipEight.Key

/-!
# The window

A window drives the virtual machine. The host delivers events, each event is one turn. Cycles run
on the host's beat while the clock is automatic, one at a time by the space bar while it is not.
An error of the emulated program closes the window; an unknown opcode does so only while halting
is on.
-/
namespace ChipEight

structure Window where
  console : Console Settings.width Settings.height
  halting : Bool
  buzzer : Buzzer
  auto : Bool
  exited : Bool
  /-- Frames drawn since the last report. -/
  frames : Nat
  /-- The cycle count of the last report. -/
  reported : Nat
  frameText : String
  cycleText : String

inductive Event where
  | cpu
  | step
  | timer (dt : Float)
  | bench (dt : Float)
  | press (key : Key)
  | release (key : Key)
  | draw
  | close

/-- What the start of a window depends on besides the machine. -/
structure Host where
  logging : Bool
  halting : Bool
  /-- The clock reading in seconds. -/
  now : Float

/-- The start of a window: a window or a fault, and what was said and asked until then. -/
structure Opening where
  result : Except Fault Window
  lines : List Line
  requests : List Request

namespace Window

def caption : String := "CHIP-8 Emulator"

/-- A text some pixels below the upper edge. -/
def label (text : String) (offset : Nat) : Label :=
  ⟨text, 12, 5, Settings.windowHeight - offset, "left", "center", [255, 255, 255, 255]⟩

def frameTextAtStart : String := "FPS: 0"
def cycleTextAtStart : String := "Cycles/s: 0"

def openRequest : Request :=
  .openWindow Settings.windowWidth Settings.windowHeight caption false false

def partRequests : List Request :=
  Buzzer.newRequests Settings.beepFrequency ++
    [.newImage Settings.windowWidth Settings.windowHeight Frame.format
      (List.replicate (Settings.windowWidth * Settings.windowHeight * 4) 0),
    .newLabel (label frameTextAtStart 15), .newLabel (label cycleTextAtStart 30)]

def fresh (host : Host) (machine : Machine) (random : Xorshift) (clock : TimerClock Float) :
    Window where
  console := ⟨{ Vm.initial Settings.width Settings.height random with toMachine := machine }, clock,
    host.logging⟩
  halting := host.halting
  buzzer := Buzzer.new Settings.beepVolume
  auto := true
  exited := false
  frames := 0
  reported := 0
  frameText := frameTextAtStart
  cycleText := cycleTextAtStart

/-- Open a window on a machine. The random source is seeded from the clock, and the
tasks are scheduled last, so a bad rate is noticed only after the parts are there. -/
def openOn (host : Host) (machine : Machine) (rate : Int) : Opening :=
  match Xorshift.ofClock host.now with
  | .error f => ⟨.error f, [], [openRequest]⟩
  | .ok random =>
    let lines := Console.notes (Xorshift.clockReport host.now)
    match TimerClock.ofRate Settings.timerRate with
    | .error f => ⟨.error f, lines, [openRequest]⟩
    | .ok clock =>
      let made := openRequest :: partRequests
      match Rate.period rate with
      | .error f => ⟨.error f, lines, made⟩
      | .ok interval =>
        ⟨.ok (fresh host machine random clock), lines,
          made ++ [.schedule .cpu interval, .schedule .timer clock.period, .schedule .bench 1.0]⟩

/-- Stop the tasks, let go of the player and close. A second time closes again. -/
def close (win : Window) : Turn Window Unit :=
  let b := win.buzzer.delete
  ⟨.ok (), { win with exited := true, buzzer := b.state }, [],
    [.unschedule .cpu, .unschedule .timer, .unschedule .bench] ++ b.requests ++ [.closeWindow]⟩

def halt (win : Window) (f : Fault) : Turn Window Unit :=
  win.close.after [.say ("Emulation error: " ++ f.message)] []

/-- One cycle, whatever the state of the window. -/
def step (win : Window) : Turn Window Unit :=
  let t := win.console.cycle
  let next := { win with console := t.state }
  match t.result with
  | .ok _ => ⟨.ok (), next, t.lines, t.requests⟩
  | .error f =>
    if f.kind = .unknownOpcode ∧ next.halting = false then
      ⟨.ok (), next, t.lines ++ [.say ("Skipping: " ++ f.message)], t.requests⟩
    else if f.kind.isEmulation then (next.halt f).after t.lines t.requests
    else ⟨.error f, next, t.lines, t.requests⟩

def cpuTick (win : Window) : Turn Window Unit :=
  if win.auto && !win.exited then win.step else .quiet win ()

/-- Let time pass; after a tick the buzzer follows the sound timer. -/
def timerTick (win : Window) (dt : Float) : Turn Window Unit :=
  let t := win.console.advance dt
  let next := { win with console := t.state }
  match t.result with
  | .error f => ⟨.error f, next, t.lines, t.requests⟩
  | .ok 0 => ⟨.ok (), next, t.lines, t.requests⟩
  | .ok (_ + 1) =>
    ((next.buzzer.update next.console.vm.timers.active).lift fun b => { next with buzzer := b }).after
      t.lines t.requests

/-- Report frames a second and cycles since the last report, and start counting anew. A number of
frames without a double is refused before a time span of zero. -/
def bench (win : Window) (dt : Float) : Turn Window Unit :=
  match Double.ofInt? win.frames with
  | none => ⟨.error .hugeRate, win, [], []⟩
  | some frames =>
    if dt == 0.0 then ⟨.error .zeroDivisor, win, [], []⟩
    else
      let cycles := win.console.vm.cycles
      .quiet { win with
        frameText := "FPS: " ++ Double.oneDecimal (frames / dt)
        cycleText := "Cycles/s: " ++ toString (cycles - win.reported)
        frames := 0
        reported := cycles } ()

def mapVm (win : Window) (f : Vm Settings.width Settings.height → Vm Settings.width Settings.height) :
    Window :=
  { win with console := { win.console with vm := f win.console.vm } }

def setKey (win : Window) (k : Digit) (down : Bool) : Window :=
  win.mapVm fun vm => { vm with keypad := vm.keypad.put k down }

def truth (b : Bool) : String := if b then "True" else "False"

def command (win : Window) : Key → Turn Window Unit
  | .escape => win.close
  | .f1 =>
    let console := win.console.toggleLogging
    ⟨.ok (), { win with console := console }, [.note ("logs_on: " ++ truth console.logging)], []⟩
  | .m =>
    ⟨.ok (), { win with auto := !win.auto }, [.note ("Auto clock: " ++ truth !win.auto)], []⟩
  | .space => if win.auto then .quiet win () else win.step
  | .n => ⟨.ok (), win, [.say win.console.vm.screen.text], []⟩
  | _ => .quiet win ()

def press (win : Window) (key : Key) : Turn Window Unit :=
  match key.bound with
  | some k => .quiet (win.setKey k true) ()
  | none => win.command key

def release (win : Window) (key : Key) : Turn Window Unit :=
  match key.bound with
  | some k => .quiet (win.setKey k false) ()
  | none => .quiet win ()

/-- Draw a frame. The image is replaced only if the screen was written since the last. -/
def draw (win : Window) : Turn Window Unit :=
  let screen := win.console.vm.screen
  let upload : List Request :=
    if screen.stale then
      [.setImage Frame.format (Settings.windowWidth * 4) (Frame.data Settings.scale screen)]
    else []
  let next := win.mapVm fun vm => { vm with screen := screen.shown }
  ⟨.ok (), { next with frames := win.frames + 1 }, [],
    [.clearWindow] ++ upload ++ [.blit 0 0, .drawLabel win.frameText, .drawLabel win.cycleText]⟩

def handle (win : Window) : Event → Turn Window Unit
  | .cpu => win.cpuTick
  | .step => win.step
  | .timer dt => win.timerTick dt
  | .bench dt => win.bench dt
  | .press key => win.press key
  | .release key => win.release key
  | .draw => win.draw
  | .close => win.close

/-- What a turn prints. The log switch is that after the turn, so switching logging on
is itself shown. -/
def output (t : Turn Window Unit) : String := Line.print t.state.console.logging t.lines

def run (win : Window) (events : List Event) : Window :=
  events.foldl (fun win e => (win.handle e).state) win

/-- A bound key is pressed and released as the keypad has it. -/
theorem keypad_setKey (win : Window) (k : Digit) :
    win.console.vm.keypad.press k.val = .ok (win.setKey k true).console.vm.keypad ∧
      win.console.vm.keypad.release k.val = .ok (win.setKey k false).console.vm.keypad :=
  ⟨Keypad.press_fin .., Keypad.release_fin ..⟩

@[simp] theorem run_nil (win : Window) : win.run [] = win := rfl
@[simp] theorem run_cons (win : Window) (e : Event) (events : List Event) :
    win.run (e :: events) = (win.handle e).state.run events := rfl

end Window

end ChipEight
