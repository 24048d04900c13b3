import Mathlib.Data.List.Induction
import ChipEight.Proofs.Failure
import ChipEight.Window

/-!
# Sessions

A session is a window from its opening on, with whatever events it is given. An event makes the
window execute one instruction, or closes it, or does neither; what it comes to is said once, and
every invariant of a session is derived from that. The record of a session is all that the host
was asked for, the opening included.
-/
namespace ChipEight

/-- The beat, the single step and the keys: the events that the emulated program and its
player bring about. -/
def Event.Drives : Event → Prop
  | .cpu | .step | .press _ | .release _ => True
  | _ => False

namespace Window

variable {win : Window} {e : Event}

/-- The window once its machine has run a cycle. -/
def cycled (win : Window) : Window := win.mapVm fun vm => vm.cycle.2

inductive Executes (win : Window) : Event → Prop
  | beat (auto : win.auto = true) (running : win.exited = false) : Executes win .cpu
  | step : Executes win .step
  | space (paused : win.auto = false) : Executes win (.press .space)

def Fatal (win : Window) (f : Fault) : Prop :=
  (f.kind.isEmulation = true ∧ f.kind ≠ .unknownOpcode) ∨
    (f.kind = .unknownOpcode ∧ win.halting = true)

inductive Ends (win : Window) : Event → Prop
  | close : Ends win .close
  | escape : Ends win (.press .escape)
  | fault {e : Event} {f : Fault} (executes : win.Executes e)
      (fails : win.console.vm.cycle.1 = .error f) (fatal : win.Fatal f) : Ends win e

/-- Windows that differ in the keypad and in the two switches only. -/
def Switched (win win' : Window) : Prop :=
  ∃ keypad logging auto, win' = { win with
    auto := auto
    console := { win.console with
      logging := logging
      vm := { win.console.vm with keypad := keypad } } }

inductive Outcome (win : Window) (e : Event) (t : Turn Window Unit) : Prop
  | executed (executes : win.Executes e) (stays : ¬ win.Ends e) (result : t.result = .ok ())
      (state : t.state = win.cycled) (requests : t.requests = [])
  | halted (executes : win.Executes e) (ends : win.Ends e) (result : t.result = .ok ())
      (state : t.state = win.cycled.close.state) (requests : t.requests = win.cycled.close.requests)
  | closed (idle : ¬ win.Executes e) (ends : win.Ends e) (turn : t = win.close)
  | switched (idle : ¬ win.Executes e) (stays : ¬ win.Ends e) (drives : e.Drives)
      (result : t.result = .ok ()) (state : win.Switched t.state) (requests : t.requests = [])
  | timed (dt : Float) (is : e = .timer dt) (turn : t = win.timerTick dt)
  | reported (dt : Float) (is : e = .bench dt) (turn : t = win.bench dt)
  | drawn (is : e = .draw) (turn : t = win.draw)

/-- Whatever goes wrong in a cycle of a window is the fault of the emulated program. -/
theorem emulation_of_error {f : Fault} (hc : win.console.vm.cycle.1 = .error f) :
    f.kind.isEmulation = true :=
  Vm.emulation_of_fails (Vm.fails_of_error (by decide) (by decide) hc)

theorem step_of_mild (mild : ∀ f, win.console.vm.cycle.1 = .error f → ¬ win.Fatal f) :
    ∃ lines, win.step = ⟨.ok (), win.cycled, lines, []⟩ := by
  cases hc : win.console.vm.cycle.1 with
  | ok word =>
    simp only [step, Console.cycle, hc]
    exact ⟨_, rfl⟩
  | error f =>
    have he := emulation_of_error hc
    have hm := mild f hc
    have hs : f.kind = .unknownOpcode ∧ win.halting = false := by
      unfold Fatal at hm
      grind
    simp only [step, Console.cycle, hc]
    rw [if_pos hs]
    exact ⟨_, rfl⟩

theorem step_of_fatal {f : Fault} (hc : win.console.vm.cycle.1 = .error f) (fatal : win.Fatal f) :
    ∃ lines, win.step = ⟨.ok (), win.cycled.close.state, lines, win.cycled.close.requests⟩ := by
  have he := emulation_of_error hc
  have hs : ¬(f.kind = .unknownOpcode ∧ win.halting = false) := by
    unfold Fatal at fatal
    grind
  simp only [step, Console.cycle, hc, hs, he, ↓reduceIte]
  exact ⟨_, rfl⟩

theorem handle_cpu (win : Window) :
    win.handle .cpu = if win.auto && !win.exited then win.step else .quiet win () := rfl

theorem handle_space (win : Window) :
    win.handle (.press .space) = if win.auto then .quiet win () else win.step := rfl

theorem handle_of_executes (he : win.Executes e) : win.handle e = win.step := by
  cases he with
  | beat auto running => simp [handle_cpu, auto, running]
  | step => rfl
  | space paused => simp [handle_space, paused]

theorem outcome_of_executes (he : win.Executes e) : Outcome win e (win.handle e) := by
  rw [handle_of_executes he]
  by_cases ends : win.Ends e
  · cases ends with
    | close => cases he
    | escape => cases he
    | fault executes fails fatal =>
      obtain ⟨lines, hs⟩ := step_of_fatal fails fatal
      rw [hs]
      exact .halted he (.fault executes fails fatal) rfl rfl rfl
  · have mild : ∀ f, win.console.vm.cycle.1 = .error f → ¬ win.Fatal f :=
      fun f fails fatal => ends (.fault he fails fatal)
    obtain ⟨lines, hs⟩ := step_of_mild mild
    rw [hs]
    exact .executed he ends rfl rfl rfl

/-- The beat runs a cycle while the clock is automatic and the window is open. -/
theorem executes_cpu_iff : win.Executes .cpu ↔ win.auto = true ∧ win.exited = false := by
  constructor
  · rintro ⟨auto, running⟩
    exact ⟨auto, running⟩
  · rintro ⟨auto, running⟩
    exact .beat auto running

/-- The space bar runs one while the clock is not automatic, even if the window is closed. -/
theorem executes_space_iff : win.Executes (.press .space) ↔ win.auto = false := by
  constructor
  · intro he
    cases he with
    | space paused => exact paused
  · exact .space

theorem cpu_of_idle (idle : ¬ win.Executes .cpu) : win.handle .cpu = .quiet win () := by
  have hb : (win.auto && !win.exited) = false := by
    rw [executes_cpu_iff] at idle
    grind
  rw [handle_cpu, hb]
  rfl

theorem space_of_idle (idle : ¬ win.Executes (.press .space)) :
    win.handle (.press .space) = .quiet win () := by
  rw [executes_space_iff, Bool.not_eq_false] at idle
  rw [handle_space, idle]
  rfl

/-- Without an instruction only the close event and the escape key close a window. -/
theorem stays_of_idle (idle : ¬ win.Executes e) (hc : e ≠ .close) (he : e ≠ .press .escape) :
    ¬ win.Ends e := by
  intro ends
  cases ends with
  | close => exact hc rfl
  | escape => exact he rfl
  | fault executes _ _ => exact idle executes

theorem switched_refl (win : Window) : win.Switched win := ⟨_, _, _, rfl⟩

/-- An event has one of seven outcomes. -/
theorem outcome (win : Window) (e : Event) : Outcome win e (win.handle e) := by
  cases e with
  | cpu =>
    by_cases he : win.Executes .cpu
    · exact outcome_of_executes he
    · rw [cpu_of_idle he]
      exact .switched he (stays_of_idle he nofun nofun) trivial rfl win.switched_refl rfl
  | step => exact outcome_of_executes .step
  | timer dt => exact .timed dt rfl rfl
  | bench dt => exact .reported dt rfl rfl
  | draw => exact .drawn rfl rfl
  | close => exact .closed nofun .close rfl
  | press key =>
    cases key with
    | escape => exact .closed nofun .escape rfl
    | space =>
      by_cases he : win.Executes (.press .space)
      · exact outcome_of_executes he
      · rw [space_of_idle he]
        exact .switched he (stays_of_idle he nofun nofun) trivial rfl win.switched_refl rfl
    | _ => exact .switched nofun (stays_of_idle nofun nofun nofun) trivial rfl ⟨_, _, _, rfl⟩ rfl
  | release key =>
    cases key <;>
      exact .switched nofun (stays_of_idle nofun nofun nofun) trivial rfl ⟨_, _, _, rfl⟩ rfl

/-- A timer event touches the clock, the timers and the buzzer only. -/
theorem timerTick_state (win : Window) (dt : Float) : ∃ clock timers buzzer,
    (win.timerTick dt).state = { win with
      buzzer := buzzer
      console := { win.console with
        clock := clock
        vm := { win.console.vm with timers := timers } } } := by
  have advanced : ∃ clock timers, (win.console.advance dt).state =
      { win.console with clock := clock, vm := { win.console.vm with timers := timers } } := by
    unfold Console.advance
    split
    next => exact ⟨_, _, rfl⟩
    next => exact ⟨_, _, rfl⟩
  obtain ⟨clock, timers, ha⟩ := advanced
  refine ⟨clock, timers, (win.timerTick dt).state.buzzer, ?_⟩
  rw [← ha]
  simp only [timerTick]
  cases (win.console.advance dt).result with
  | error f => rfl
  | ok n => cases n <;> rfl

theorem advance_requests (win : Window) (dt : Float) : (win.console.advance dt).requests = [] := by
  unfold Console.advance
  split <;> rfl

/-- A report touches the counters and their labels only. -/
theorem bench_state (win : Window) (dt : Float) : ∃ frames reported frameText cycleText,
    (win.bench dt).state = { win with
      frames := frames
      reported := reported
      frameText := frameText
      cycleText := cycleText } := by
  unfold bench
  split
  next => exact ⟨_, _, _, _, rfl⟩
  next =>
    split
    next => exact ⟨_, _, _, _, rfl⟩
    next => exact ⟨_, _, _, _, rfl⟩

@[simp] theorem bench_requests (win : Window) (dt : Float) : (win.bench dt).requests = [] := by
  unfold bench
  split
  next => rfl
  next => split <;> rfl

/-- How far an event reaches. Memory, registers, program counter, stack, random source and
cycle count are left to the cycle. -/
inductive Moved (win : Window) (e : Event) (win' : Window) : Prop
  | cycled (executes : win.Executes e) (halting : win'.halting = win.halting)
      (vm : win'.console.vm = win.console.vm.cycle.2)
  | idle (idle : ¬ win.Executes e) (halting : win'.halting = win.halting)
      (vm : ∃ timers screen keypad, win'.console.vm =
        { win.console.vm with timers := timers, screen := screen, keypad := keypad })

theorem moved (win : Window) (e : Event) : Moved win e (win.handle e).state := by
  cases win.outcome e with
  | executed executes _ _ state _ => rw [state]; exact .cycled executes rfl rfl
  | halted executes _ _ state _ => rw [state]; exact .cycled executes rfl rfl
  | closed idle _ turn => rw [turn]; exact .idle idle rfl ⟨_, _, _, rfl⟩
  | switched idle _ _ _ state _ =>
    obtain ⟨_, _, _, hs⟩ := state
    rw [hs]
    exact .idle idle rfl ⟨_, _, _, rfl⟩
  | timed dt is turn =>
    subst is
    obtain ⟨_, _, _, hs⟩ := win.timerTick_state dt
    rw [turn, hs]
    exact .idle nofun rfl ⟨_, _, _, rfl⟩
  | reported dt is turn =>
    subst is
    obtain ⟨_, _, _, _, hs⟩ := win.bench_state dt
    rw [turn, hs]
    exact .idle nofun rfl ⟨_, _, _, rfl⟩
  | drawn is turn =>
    subst is
    rw [turn]
    exact .idle nofun rfl ⟨_, _, _, rfl⟩

theorem opens_of_seed {host : Host} {random : Xorshift} {clock : TimerClock Float} {rate : Int}
    {interval : Float} (seeded : Xorshift.ofClock host.now = .ok random)
    (timed : TimerClock.ofRate Settings.timerRate = .ok clock)
    (paced : Rate.period rate = .ok interval) (machine : Machine) :
    (openOn host machine rate).result = .ok (fresh host machine random clock) := by
  simp only [openOn, seeded, timed, paced]

def requests (win : Window) : List Event → List Request
  | [] => []
  | e :: events => (win.handle e).requests ++ (win.handle e).state.requests events

theorem run_append (win : Window) (events later : List Event) :
    win.run (events ++ later) = (win.run events).run later := List.foldl_append ..

theorem requests_append (win : Window) (events later : List Event) :
    win.requests (events ++ later) = win.requests events ++ (win.run events).requests later := by
  induction events generalizing win with
  | nil => rfl
  | cons e events ih => simp only [List.cons_append, requests, run_cons, ih, List.append_assoc]

end Window

/-- A window on a machine, as it was opened. The machine may hold any program. -/
structure Session where
  host : Host
  machine : Machine
  rate : Int
  window : Window
  opens : (Window.openOn host machine rate).result = .ok window

/-- A session at the usual rate. Any machine will do, and any clock that gives a seed. -/
def Session.on (host : Host) {random : Xorshift} (seeded : Xorshift.ofClock host.now = .ok random)
    (machine : Machine) : Session where
  host := host
  machine := machine
  rate := Settings.cpuRate
  window := Window.fresh host machine random ⟨1.0 / Float.ofInt Settings.timerRate, 0.0⟩
  opens := Window.opens_of_seed seeded rfl rfl machine

/-- An element of a list with one more at its end is that one or lies before it. -/
theorem concat_eq_append_cons {α : Type} {xs before after : List α} {x y : α} :
    xs ++ [x] = before ++ y :: after ↔
      (xs = before ∧ x = y ∧ after = []) ∨
        ∃ rest, after = rest ++ [x] ∧ xs = before ++ y :: rest := by
  constructor
  · intro h
    rcases List.eq_nil_or_concat after with rfl | ⟨rest, z, rfl⟩
    · obtain ⟨hb, hy⟩ := List.append_inj' h rfl
      exact .inl ⟨hb, (List.cons.inj hy).1, rfl⟩
    · rw [List.concat_eq_append, ← List.cons_append, ← List.append_assoc] at h
      obtain ⟨hb, hz⟩ := List.append_inj' h rfl
      cases hz
      exact .inr ⟨rest, List.concat_eq_append .., hb⟩
  · rintro (⟨rfl, rfl, rfl⟩ | ⟨rest, rfl, rfl⟩)
    · rfl
    · simp

namespace Session

def now (s : Session) (events : List Event) : Window := s.window.run events

/-- What the host was asked for to open the window. -/
def opening (s : Session) : List Request := (Window.openOn s.host s.machine s.rate).requests

/-- What the host was asked for until the end of some events. -/
def record (s : Session) (events : List Event) : List Request :=
  s.opening ++ s.window.requests events

@[simp] theorem now_nil (s : Session) : s.now [] = s.window := rfl
@[simp] theorem record_nil (s : Session) : s.record [] = s.opening := List.append_nil _

@[simp] theorem now_concat (s : Session) (events : List Event) (e : Event) :
    s.now (events ++ [e]) = ((s.now events).handle e).state := Window.run_append ..

@[simp] theorem record_concat (s : Session) (events : List Event) (e : Event) :
    s.record (events ++ [e]) = s.record events ++ ((s.now events).handle e).requests := by
  simp only [record, Window.requests_append, List.append_assoc]
  simp [Window.requests, now]

/-- What holds of an opened window and is kept by every event holds all along. -/
theorem keeps {P : Window → List Request → Prop} (s : Session) (start : P s.window s.opening)
    (step : ∀ win record e, P win record →
      P (win.handle e).state (record ++ (win.handle e).requests))
    (events : List Event) : P (s.now events) (s.record events) := by
  induction events using List.reverseRecOn with
  | nil => simpa using start
  | append_singleton events e ih =>
    rw [now_concat, record_concat]
    exact step _ _ e ih

/-- A session starts with a fresh window, once its parts are there and its tasks scheduled. -/
theorem opened (s : Session) : ∃ random clock interval,
    s.window = Window.fresh s.host s.machine random clock ∧
      s.opening = Window.openRequest :: Window.partRequests ++
        [.schedule .cpu interval, .schedule .timer clock.period, .schedule .bench 1.0] := by
  have ho := s.opens
  unfold opening
  unfold Window.openOn at ho ⊢
  split at ho
  next => cases ho
  next random _ =>
    split at ho
    next => cases ho
    next clock _ =>
      split at ho
      next => cases ho
      next interval _ =>
        exact ⟨random, clock, interval, (Except.ok.inj ho).symm, rfl⟩

end Session

end ChipEight
