import Std.Data.String.ToNat
import Mathlib.Algebra.Ring.Nat
import Mathlib.Data.List.Basic
import ChipEight.Proofs.LifeCycle

/-!
# The reports of a window and what they add up to

A cycle is counted at each event that attempts one, whether it fails or not, and a frame at each
drawing. A report that succeeds tells the cycles and the frames since the last one that did, and
counts anew from there; a report that fails leaves the window as it was. So the numbers told,
together with what is yet to be told, are all the cycles that were attempted, and what a failed
report did not tell the next one does.
-/
namespace ChipEight

def Event.draws : Event → Bool
  | .draw => true
  | _ => false

namespace Window

variable {win : Window} {e : Event}

instance (win : Window) : DecidablePred win.Executes
  | .cpu => decidable_of_iff _ executes_cpu_iff.symm
  | .step => isTrue .step
  | .press key =>
    if h : key = .space then decidable_of_iff (win.auto = false) (by rw [h, executes_space_iff])
    else isFalse fun he => by cases he; exact h rfl
  | .timer _ => isFalse fun he => by cases he
  | .bench _ => isFalse fun he => by cases he
  | .release _ => isFalse fun he => by cases he
  | .draw => isFalse fun he => by cases he
  | .close => isFalse fun he => by cases he

def cycleLabel (n : Nat) : String := "Cycles/s: " ++ toString n

def frameLabel (n : Nat) (dt : Float) : String :=
  "FPS: " ++ Double.oneDecimal (Float.ofInt n / dt)

theorem cycleLabel_injective : Function.Injective cycleLabel := by
  intro m n same
  have same : toString m = toString n := String.append_right_inj _ |>.mp same
  exact Nat.repr_injective same

/-- The window once it has told its counters and starts them anew. -/
def afresh (win : Window) (dt : Float) : Window :=
  { win with
    frameText := frameLabel win.frames dt
    cycleText := cycleLabel (win.console.vm.cycles - win.reported)
    frames := 0
    reported := win.console.vm.cycles }

inductive Benched (win : Window) (dt : Float) (t : Turn Window Unit) : Prop
  | refused (f : Fault) (cause : Double.limit ≤ win.frames ∨ (dt == 0.0) = true)
      (result : t.result = .error f) (state : t.state = win)
  | told (narrow : win.frames < Double.limit) (time : (dt == 0.0) = false)
      (result : t.result = .ok ())
      (state : t.state = win.afresh dt)

theorem benched (win : Window) (dt : Float) : Benched win dt (win.handle (.bench dt)) := by
  change Benched win dt (win.bench dt)
  by_cases wide : Double.limit ≤ win.frames
  · have hd : Double.ofInt? win.frames = none := if_pos wide
    refine .refused .hugeRate (.inl wide) ?_ ?_ <;> simp only [bench, hd]
  · have hd : Double.ofInt? win.frames = some (Float.ofInt win.frames) := if_neg wide
    cases time : dt == 0.0 with
    | true =>
      refine .refused .zeroDivisor (.inr time) ?_ ?_ <;> simp only [bench, hd, time, ↓reduceIte]
    | false =>
      refine .told (Nat.lt_of_not_le wide) time ?_ ?_ <;>
        simp only [bench, hd, time, Bool.false_eq_true, ↓reduceIte, Turn.quiet]
      rfl

def tells (win : Window) : Event → Bool
  | .bench dt => (win.handle (.bench dt)).result.isOk
  | _ => false

/-- An event adds one to the count of cycles exactly if it executes one, be it in vain. -/
theorem cycles_handle (win : Window) (e : Event) :
    (win.handle e).state.console.vm.cycles =
      win.console.vm.cycles + if win.Executes e then 1 else 0 := by
  by_cases he : win.Executes e
  · rw [vm_of_executes he, Vm.cycles_cycle, if_pos he]
  · rw [cycles_of_idle he, if_neg he, Nat.add_zero]

/-- What an event does to the counters of a report. -/
inductive Booked (win : Window) (e : Event) (win' : Window) : Prop
  | told (dt : Float) (is : e = .bench dt) (tells : win.tells e = true)
      (state : win' = win.afresh dt)
  | counted (silent : win.tells e = false)
      (frames : win'.frames = win.frames + if e.draws then 1 else 0)
      (reported : win'.reported = win.reported)

/-- An event that is neither a drawing nor a report leaves the counters of a report alone. -/
theorem booked_of_same {win' : Window} (silent : win.tells e = false) (blank : e.draws = false)
    (frames : win'.frames = win.frames) (reported : win'.reported = win.reported) :
    Booked win e win' := by
  refine .counted silent ?_ reported
  rw [frames, blank]
  rfl

theorem booked (win : Window) (e : Event) : Booked win e (win.handle e).state := by
  cases win.outcome e with
  | executed executes _ _ state _ =>
    rw [state]
    cases executes <;> exact booked_of_same rfl rfl rfl rfl
  | halted executes _ _ state _ =>
    rw [state]
    cases executes <;> exact booked_of_same rfl rfl rfl rfl
  | closed idle ends turn =>
    rw [turn]
    cases ends with
    | close => exact booked_of_same rfl rfl rfl rfl
    | escape => exact booked_of_same rfl rfl rfl rfl
    | fault executes _ _ => exact absurd executes idle
  | switched _ _ drives _ state _ =>
    obtain ⟨_, _, _, hs⟩ := state
    rw [hs]
    cases e with
    | cpu | step | press | release => exact booked_of_same rfl rfl rfl rfl
    | _ => cases drives
  | timed dt is turn =>
    subst is
    obtain ⟨_, _, _, hs⟩ := win.timerTick_state dt
    rw [turn, hs]
    exact booked_of_same rfl rfl rfl rfl
  | reported dt is _ =>
    subst is
    cases win.benched dt with
    | refused f _ result state =>
      rw [state]
      exact booked_of_same (by simp only [tells, result]; rfl) rfl rfl rfl
    | told _ _ result state => exact .told dt rfl (by simp only [tells, result]; rfl) state
  | drawn is turn =>
    subst is
    rw [turn]
    exact .counted rfl rfl rfl

def attempts (win : Window) : List Event → Nat
  | [] => 0
  | e :: events => (if win.Executes e then 1 else 0) + (win.handle e).state.attempts events

/-- What the reports among some events put into the label of the cycles. -/
def cycleLabels (win : Window) : List Event → List String
  | [] => []
  | e :: events =>
    if win.tells e then (win.handle e).state.cycleText :: (win.handle e).state.cycleLabels events
    else (win.handle e).state.cycleLabels events

/-- Over a run the count of cycles grows by the attempts made. -/
theorem cycles_run (win : Window) (events : List Event) :
    (win.run events).console.vm.cycles = win.console.vm.cycles + win.attempts events := by
  induction events generalizing win with
  | nil => rfl
  | cons e events ih => rw [run_cons, ih, cycles_handle, attempts, Nat.add_assoc]

/-- Each report tells how far the counter has come since the last. -/
theorem labels_run (win : Window) (events : List Event)
    (start : win.reported ≤ win.console.vm.cycles) :
    (win.run events).reported ≤ (win.run events).console.vm.cycles ∧
      ∃ numbers : List Nat, win.cycleLabels events = numbers.map cycleLabel ∧
        win.reported + numbers.sum = (win.run events).reported := by
  induction events generalizing win with
  | nil => exact ⟨start, [], rfl, rfl⟩
  | cons e events ih =>
    -- The sum of the numbers and the counter of the last report move together or not at all.
    rw [run_cons, cycleLabels]
    cases win.booked e with
    | told dt is tells state =>
      obtain ⟨bound, numbers, labels, sum⟩ :=
        ih (win.handle e).state (Nat.le_of_eq (by rw [state]; rfl))
      refine ⟨bound, (win.console.vm.cycles - win.reported) :: numbers, ?_, ?_⟩
      · rw [if_pos tells, labels, List.map_cons, state]
        rfl
      · rw [← sum, state, List.sum_cons, ← Nat.add_assoc, Nat.add_sub_cancel' start]
        rfl
    | counted silent _ reported =>
      have cycles := win.cycles_handle e
      obtain ⟨bound, numbers, labels, sum⟩ := ih (win.handle e).state (by omega)
      rw [reported] at sum
      exact ⟨bound, numbers, by rw [silent, labels]; rfl, sum⟩

end Window

namespace Session

def attempts (s : Session) (events : List Event) : Nat := s.window.attempts events

def cycleLabels (s : Session) (events : List Event) : List String := s.window.cycleLabels events

/-- What came after the last report that succeeded, or after the opening if there was none. -/
structure LastTold (s : Session) (before after : List Event) : Prop where
  told : before = [] ∨ ∃ earlier e, before = earlier ++ [e] ∧ (s.now earlier).tells e = true
  untold : ∀ middle e rest, after = middle ++ e :: rest → (s.now (before ++ middle)).tells e = false

variable {s : Session} {before after : List Event} {e : Event}

theorem now_append (s : Session) (before after : List Event) :
    s.now (before ++ after) = (s.now before).run after := Window.run_append ..

theorem LastTold.init (last : s.LastTold before (after ++ [e])) :
    s.LastTold before after ∧ (s.now (before ++ after)).tells e = false := by
  refine ⟨⟨last.told, ?_⟩, last.untold after e [] rfl⟩
  rintro middle x rest rfl
  exact last.untold middle x (rest ++ [e]) (by simp)

theorem LastTold.concat (last : s.LastTold before after)
    (silent : (s.now (before ++ after)).tells e = false) : s.LastTold before (after ++ [e]) := by
  refine ⟨last.told, ?_⟩
  intro middle x rest split
  rcases concat_eq_append_cons.mp split with ⟨rfl, rfl, -⟩ | ⟨rest, -, rfl⟩
  · exact silent
  · exact last.untold middle x rest rfl

theorem exists_lastTold (s : Session) (events : List Event) :
    ∃ before after, events = before ++ after ∧ s.LastTold before after := by
  induction events using List.reverseRecOn with
  | nil => exact ⟨[], [], rfl, .inl rfl, by simp⟩
  | append_singleton events e ih =>
    cases ht : (s.now events).tells e with
    | true => exact ⟨events ++ [e], [], by simp, .inr ⟨events, e, rfl, ht⟩, by simp⟩
    | false =>
      obtain ⟨before, after, rfl, last⟩ := ih
      exact ⟨before, after ++ [e], by simp, last.concat ht⟩

/-- The counters of a report start at the last one that succeeded. -/
theorem LastTold.counters (last : s.LastTold before after) :
    (s.now (before ++ after)).frames = after.countP Event.draws ∧
      (s.now (before ++ after)).reported = (s.now before).console.vm.cycles := by
  -- A report that succeeds sets both counters, and no event after it is another one.
  induction after using List.reverseRecOn with
  | nil =>
    rw [List.append_nil]
    rcases last.told with rfl | ⟨earlier, e, rfl, tells⟩
    · obtain ⟨random, clock, _, hw, -⟩ := s.opened
      rw [now_nil, hw]
      exact ⟨rfl, rfl⟩
    · rw [now_concat]
      cases (s.now earlier).booked e with
      | told _ _ _ state =>
        rw [state]
        exact ⟨rfl, rfl⟩
      | counted silent _ _ => exact absurd (tells.symm.trans silent) Bool.noConfusion
  | append_singleton after e ih =>
    obtain ⟨last, silent⟩ := last.init
    obtain ⟨frames, reported⟩ := ih last
    rw [← List.append_assoc, now_concat]
    cases (s.now (before ++ after)).booked e with
    | told _ _ tells _ => exact absurd (tells.symm.trans silent) Bool.noConfusion
    | counted _ frames' reported' =>
      rw [frames', reported', frames, reported, List.countP_append, List.countP_singleton]
      exact ⟨rfl, rfl⟩

/-- The cycles that are yet to be told are those attempted since the last report. -/
theorem LastTold.pending (last : s.LastTold before after) :
    (s.now (before ++ after)).console.vm.cycles - (s.now (before ++ after)).reported =
      (s.now before).attempts after := by
  rw [last.counters.2, now_append, Window.cycles_run, Nat.add_sub_cancel_left]

theorem cycles_now (s : Session) (events : List Event) :
    (s.now events).console.vm.cycles = s.attempts events := by
  obtain ⟨random, clock, _, hw, -⟩ := s.opened
  have start : s.window.console.vm.cycles = 0 := by rw [hw]; rfl
  rw [now, Window.cycles_run, start, Nat.zero_add, attempts]

/-- The numbers that were told add up to the count of cycles at the last report. -/
theorem labels_now (s : Session) (events : List Event) :
    (s.now events).reported ≤ (s.now events).console.vm.cycles ∧
      ∃ numbers : List Nat, s.cycleLabels events = numbers.map Window.cycleLabel ∧
        numbers.sum = (s.now events).reported := by
  obtain ⟨random, clock, _, hw, -⟩ := s.opened
  have start : s.window.reported = 0 := by rw [hw]; rfl
  obtain ⟨bound, numbers, labels, sum⟩ :=
    s.window.labels_run events (by rw [start]; exact Nat.zero_le _)
  rw [start, Nat.zero_add] at sum
  exact ⟨bound, numbers, labels, sum⟩

/-- What can be said of the counters after some events, and of the report that comes next. -/
structure Accounted (s : Session) (events : List Event) : Prop where
  attempts : (s.now events).console.vm.cycles = s.attempts events
  labels : ∃ numbers : List Nat, s.cycleLabels events = numbers.map Window.cycleLabel
  balance : ∀ numbers : List Nat, s.cycleLabels events = numbers.map Window.cycleLabel →
    (s.now events).reported ≤ (s.now events).console.vm.cycles ∧
      numbers.sum + ((s.now events).console.vm.cycles - (s.now events).reported) =
        (s.now events).console.vm.cycles
  split : ∃ before after, events = before ++ after ∧ s.LastTold before after
  frames : ∀ before after, events = before ++ after → s.LastTold before after →
    (s.now events).frames = after.countP Event.draws
  fails_iff : ∀ dt, (∃ f, ((s.now events).handle (.bench dt)).result = .error f) ↔
    Double.limit ≤ (s.now events).frames ∨ (dt == 0.0) = true
  failed : ∀ dt f, ((s.now events).handle (.bench dt)).result = .error f →
    ((s.now events).handle (.bench dt)).state = s.now events
  told : ∀ dt, ((s.now events).handle (.bench dt)).result = .ok () →
    ∀ before after, events = before ++ after → s.LastTold before after →
      ((s.now events).handle (.bench dt)).state = { s.now events with
        frameText := Window.frameLabel (after.countP Event.draws) dt
        cycleText := Window.cycleLabel ((s.now before).attempts after)
        frames := 0
        reported := s.attempts events }

/-- No cycle and no frame is lost between reports, nor told twice. -/
theorem reports_account (s : Session) (events : List Event) : s.Accounted events := by
  constructor
  case attempts => exact s.cycles_now events
  case labels =>
    obtain ⟨-, numbers, labels, -⟩ := s.labels_now events
    exact ⟨numbers, labels⟩
  case balance =>
    intro numbers labels
    obtain ⟨bound, told, labels', sum⟩ := s.labels_now events
    have same : numbers = told :=
      Window.cycleLabel_injective.list_map (labels.symm.trans labels')
    refine ⟨bound, ?_⟩
    rw [same, sum, Nat.add_sub_cancel' bound]
  case split => exact s.exists_lastTold events
  case frames =>
    rintro before after rfl last
    exact last.counters.1
  case fails_iff =>
    intro dt
    cases (s.now events).benched dt with
    | refused f cause result _ => exact ⟨fun _ => cause, fun _ => ⟨f, result⟩⟩
    | told narrow time result _ =>
      rw [result, time]
      constructor
      · rintro ⟨f, fails⟩
        cases fails
      · rintro (wide | zero)
        · exact absurd wide (Nat.not_le.mpr narrow)
        · cases zero
  case failed =>
    intro dt f fails
    cases (s.now events).benched dt with
    | refused _ _ _ state => exact state
    | told _ _ result _ =>
      rw [result] at fails
      cases fails
  case told =>
    rintro dt succeeds before after rfl last
    cases (s.now (before ++ after)).benched dt with
    | refused _ _ result _ =>
      rw [result] at succeeds
      cases succeeds
    | told _ _ _ state =>
      rw [state, Window.afresh, last.pending, last.counters.1, s.cycles_now]

-- A word that is no instruction and a return to nowhere are counted like any cycle, and a report
-- over no time leaves both to the next one.
example :
    let machine := { Machine.initial with memory := Memory.initial.put 0 [0xFF, 0xFF, 0x00, 0xEE] }
    let s := Session.on ⟨false, false, -1.0⟩ rfl machine
    let events := [.cpu, .bench 0.0, .draw, .press .m, .cpu, .press .space, .bench 0.5]
    s.cycleLabels (events ++ [.bench 1.0]) = ["Cycles/s: 2", "Cycles/s: 0"] ∧
      (s.now events).frameText = "FPS: 2.0" := by
  decide +kernel

end Session

end ChipEight
