import ChipEight.CommandLine

/-!
# How a start from the command line ends

The arguments are looked at first, then the file, and the window is opened last; so a bad rate is
told before any file is read, a bad file before anything is asked of the host, and what is asked
for is asked for only when all is well. What nobody handles is listed as well: a path with a null
character, and a window that cannot be opened for want of a seed or for a rate that no double
holds.
-/
namespace ChipEight

namespace Rate

theorem period_of_lt {rate : Nat} (pos : 0 < rate) (small : rate < Double.limit) :
    period rate = .ok (1.0 / Float.ofInt rate) := by
  have hs : ¬ Double.limit ≤ (rate : Int).natAbs := by simp only [Int.natAbs_natCast]; omega
  have hz : (rate : Int) ≠ 0 := by omega
  simp only [period, Double.ofInt?, hs, hz, ↓reduceIte]

theorem period_of_ge {rate : Nat} (huge : Double.limit ≤ rate) :
    period rate = .error .hugeRate := by
  have hs : Double.limit ≤ (rate : Int).natAbs := by simpa only [Int.natAbs_natCast] using huge
  simp only [period, Double.ofInt?, hs, ↓reduceIte]

end Rate

namespace Window

variable {host : Host} {rate : Nat}

/-- The rate of the timers is fixed, so their clock always starts. -/
theorem timers_start :
    TimerClock.ofRate Settings.timerRate = .ok ⟨1.0 / Float.ofInt 60, (0.0 : Float)⟩ := rfl

/-- A seed and a rate are all that it takes to open a window. -/
theorem openOn_of_seed {random : Xorshift} (seeded : Xorshift.ofClock host.now = .ok random)
    (pos : 0 < rate) (small : rate < Double.limit) (machine : Machine) :
    ∃ lines, openOn host machine rate =
      ⟨.ok (fresh host machine random ⟨1.0 / Float.ofInt 60, 0.0⟩), lines,
        openRequest :: partRequests ++
          [.schedule .cpu (1.0 / Float.ofInt rate), .schedule .timer (1.0 / Float.ofInt 60),
            .schedule .bench 1.0]⟩ := by
  simp only [openOn, seeded, timers_start, Rate.period_of_lt pos small]
  exact ⟨_, rfl⟩

/-- Without a seed or with a rate that no double holds, no window opens. -/
theorem openOn_of_fault (fails : (∃ f, Xorshift.ofClock host.now = .error f) ∨ Double.limit ≤ rate)
    (machine : Machine) : ∃ f, (openOn host machine rate).result = .error f := by
  cases seeded : Xorshift.ofClock host.now with
  | error f => exact ⟨f, by simp only [openOn, seeded]⟩
  | ok random =>
    have huge : Double.limit ≤ rate := by
      rcases fails with ⟨f, hf⟩ | huge
      · rw [seeded] at hf
        cases hf
      · exact huge
    exact ⟨_, by simp only [openOn, seeded, timers_start, Rate.period_of_ge huge]; rfl⟩

end Window

namespace CommandLine

/-- Arguments without a file, or with a text in the place of the rate that is none. -/
def Malformed (args : List String) : Prop :=
  args.length < 2 ∨ ∃ text, args[2]? = some text ∧ Rate.parse text = none

inductive Asks : List String → String → Nat → Prop
  | usual {name path : String} : Asks [name, path] path 500
  | paced {name path text : String} {rate : Nat} {rest : List String}
      (reads : Rate.parse text = some rate) : Asks (name :: path :: text :: rest) path rate

inductive Unloadable (files : Files) (path : String) : Fault → Prop
  | unreadable {cause : ReadFailure} (fails : files path = .error cause) :
    Unloadable files path (.romUnreadable path cause)
  | tooLarge {program : List UInt8} (reads : files path = .ok program)
      (large : 3584 < program.length) :
    Unloadable files path (.romTooLarge program.length 3584)

/-- The texts about a file that cannot be loaded. One that cannot be opened is named a second
time, in quotes. -/
inductive Complaint (files : Files) (path : String) : String → Prop
  | unopened {cause : ReadFailure} (fails : files path = .error cause)
      (named : cause.named = true) :
    Complaint files path ("Unable to read ROM " ++ path ++ ": " ++ ("[Errno " ++
      toString cause.number ++ "] " ++ cause.text ++ (": " ++ Text.Quoted.quoted path)))
  | unread {cause : ReadFailure} (fails : files path = .error cause)
      (unnamed : cause.named = false) :
    Complaint files path ("Unable to read ROM " ++ path ++ ": " ++ ("[Errno " ++
      toString cause.number ++ "] " ++ cause.text))
  | tooLarge {program : List UInt8} (reads : files path = .ok program)
      (large : 3584 < program.length) :
    Complaint files path
      ("ROM is " ++ toString program.length ++ " bytes, program space holds 3584")

def Loadable (files : Files) (path : String) (program : List UInt8) : Prop :=
  files path = .ok program ∧ program.length ≤ 3584

variable {host : Host} {files : Files} {args : List String} {path : String} {rate : Nat}

theorem plan_of_malformed (malformed : Malformed args) : plan args = .help := by
  rcases args with _ | ⟨name, _ | ⟨path, _ | ⟨text, rest⟩⟩⟩
  · rfl
  · rfl
  · simp [Malformed] at malformed
  · rcases malformed with few | ⟨_, third, unread⟩
    · simp only [List.length_cons] at few
      omega
    · cases third
      simp only [plan, unread]

theorem plan_of_asks (asks : Asks args path rate) : plan args = .play path rate := by
  cases asks with
  | usual => rfl
  | paced reads => simp only [plan, reads]

theorem malformed_or_asks (args : List String) :
    Malformed args ∨ ∃ path rate, Asks args path rate := by
  rcases args with _ | ⟨name, _ | ⟨path, _ | ⟨text, rest⟩⟩⟩
  · exact .inl (by simp [Malformed])
  · exact .inl (by simp [Malformed])
  · exact .inr ⟨path, 500, .usual⟩
  · cases reads : Rate.parse text with
    | none => exact .inl (.inr ⟨text, rfl, reads⟩)
    | some rate => exact .inr ⟨path, rate, .paced reads⟩

theorem Asks.rate_pos (asks : Asks args path rate) : 0 < rate := by
  cases asks with
  | usual => decide
  | paced reads => exact Rate.parse_pos reads

structure Programmed (program : List UInt8) (m : Machine) : Prop where
  byte : ∀ a (ha : a < 4096), m.memory.bytes[a] =
    if h : 0x200 ≤ a ∧ a - 0x200 < program.length then program.get ⟨a - 0x200, h.2⟩
    else Machine.initial.memory.bytes[a]
  pc : m.pc = 0x200
  rest : m = { Machine.initial with memory := m.memory, pc := m.pc }

/-- The usage on the output and nothing else. -/
structure ShowsUsage (host : Host) (l : Launch) : Prop where
  code : l.ending.code = some 1
  output : Line.print host.logging l.lines = "Usage: python -m chip8 <rom-file> [cpu-hz]\n"
  complaint : l.complaint = none
  requests : l.requests = []

/-- A complaint on the error stream, before anything is asked of the host. -/
structure Refuses (text : String) (l : Launch) : Prop where
  code : l.ending.code = some 1
  complaint : l.complaint = some text
  requests : l.requests = []

/-- The requests that open a window, schedule a task or run the loop. -/
def begins : Request → Bool
  | .openWindow .. | .schedule .. | .runLoop => true
  | _ => false

/-- A window on a fresh machine with a program, its three tasks, and the host's loop, each of
them once. -/
structure Starts (program : List UInt8) (rate : Nat) (l : Launch) : Prop where
  code : l.ending.code = some 0
  window : ∃ win, l.ending = .running win ∧ Programmed program win.console.vm.toMachine
  complaint : l.complaint = none
  requests : l.requests = Window.openRequest :: Window.partRequests ++
    [.schedule .cpu (1.0 / Float.ofInt rate), .schedule .timer (1.0 / Float.ofInt 60),
      .schedule .bench 1.0, .runLoop]
  begun : l.requests.filter begins = [.openWindow 640 320 "CHIP-8 Emulator" false false,
    .schedule .cpu (1.0 / Float.ofInt rate), .schedule .timer (1.0 / Float.ofInt 60),
    .schedule .bench 1.0, .runLoop]

/-- What keeps a window from being opened. -/
def Unopenable (host : Host) (rate : Nat) : Prop :=
  (∃ f, Xorshift.ofClock host.now = .error f) ∨ Double.limit ≤ rate

inductive Outcome (host : Host) (files : Files) (args : List String) (l : Launch) : Prop
  | usage (malformed : Malformed args) (shows : ShowsUsage host l)
  | nul {path : String} {rate : Nat} (asks : Asks args path rate) (nul : '\x00' ∈ path.toList)
      (crashes : l.ending.code = none)
  | refused {path text : String} {rate : Nat} (asks : Asks args path rate)
      (plain : '\x00' ∉ path.toList) (told : Complaint files path text) (refuses : Refuses text l)
  | unopened {path : String} {rate : Nat} {program : List UInt8} (asks : Asks args path rate)
      (plain : '\x00' ∉ path.toList) (loadable : Loadable files path program)
      (unopenable : Unopenable host rate) (crashes : l.ending.code = none)
  | started {path : String} {rate : Nat} {program : List UInt8} (asks : Asks args path rate)
      (plain : '\x00' ∉ path.toList) (loadable : Loadable files path program)
      (openable : ¬ Unopenable host rate) (starts : Starts program rate l)

/-- The message of a file's fault is the text about the file. -/
theorem complaint_message {f : Fault} (unloadable : Unloadable files path f) :
    Complaint files path f.message := by
  cases unloadable with
  | @unreadable cause fails =>
    cases named : cause.named with
    | true =>
      rw [Fault.message_of_named path named]
      exact .unopened fails named
    | false =>
      rw [Fault.message_of_unnamed path named]
      exact .unread fails named
  | tooLarge reads large =>
    rw [Fault.message_romTooLarge]
    exact .tooLarge reads large

/-- There is no other text about it. -/
theorem exists_unloadable {text : String} (told : Complaint files path text) :
    ∃ f, Unloadable files path f ∧ f.message = text := by
  cases told with
  | unopened fails named => exact ⟨_, .unreadable fails, Fault.message_of_named path named⟩
  | unread fails unnamed => exact ⟨_, .unreadable fails, Fault.message_of_unnamed path unnamed⟩
  | tooLarge reads large => exact ⟨_, .tooLarge reads large, Fault.message_romTooLarge _⟩

theorem loadable_or_unloadable (files : Files) (path : String) :
    (∃ program, Loadable files path program) ∨ ∃ f, Unloadable files path f := by
  cases reads : files path with
  | error cause => exact .inr ⟨_, .unreadable reads⟩
  | ok program =>
    by_cases large : 3584 < program.length
    · exact .inr ⟨_, .tooLarge reads large⟩
    · exact .inl ⟨program, reads, Nat.le_of_not_lt large⟩

theorem load_of_nul (m : Machine) (nul : '\x00' ∈ path.toList) :
    (Rom.load files m path).result = .error .nulInPath := by
  simp [Rom.load, Rom.read, nul]

theorem load_of_unloadable {f : Fault} (m : Machine) (plain : '\x00' ∉ path.toList)
    (unloadable : Unloadable files path f) :
    (Rom.load files m path).result = .error f ∧ f.kind.isRom = true := by
  cases unloadable with
  | unreadable fails => exact ⟨by rw [Rom.load_of_unreadable m plain fails], rfl⟩
  | tooLarge reads large => exact ⟨by rw [Rom.load_of_large m plain reads large]; rfl, rfl⟩

theorem load_of_loadable {program : List UInt8} (plain : '\x00' ∉ path.toList)
    (loadable : Loadable files path program) :
    (Rom.load files Machine.initial path).result = .ok program.length ∧
      Programmed program (Rom.load files Machine.initial path).state := by
  obtain ⟨reads, fits⟩ := loadable
  rw [Rom.load_of_fits Machine.initial plain reads fits]
  exact ⟨rfl, fun a ha => Memory.getElem_put _ _ program a ha, rfl, rfl⟩

theorem usage_of_malformed (malformed : Malformed args) :
    ShowsUsage host (launch host files args) := by
  have h : launch host files args = ⟨.exit 1, [.say usage], none, []⟩ := by
    simp only [launch, plan_of_malformed malformed]
  rw [h]
  exact ⟨rfl, by simp [Line.print, Line.shown]; rfl, rfl, rfl⟩

theorem code_of_nul (asks : Asks args path rate) (nul : '\x00' ∈ path.toList) :
    (launch host files args).ending.code = none := by
  simp [launch, plan_of_asks asks, load_of_nul _ nul, Fault.kind, Kind.isRom, Ending.code]

/-- A file that cannot be loaded ends the start with its message. -/
theorem refuses_of_unloadable {f : Fault} (asks : Asks args path rate)
    (plain : '\x00' ∉ path.toList) (unloadable : Unloadable files path f) :
    Refuses f.message (launch host files args) := by
  obtain ⟨fails, rom⟩ := load_of_unloadable Machine.initial plain unloadable
  have h : launch host files args =
      ⟨.exit 1, (Rom.load files Machine.initial path).lines, some f.message, []⟩ := by
    simp only [launch, plan_of_asks asks, fails, rom, ↓reduceIte]
  rw [h]
  exact ⟨rfl, rfl, rfl⟩

/-- All that is left to do with a file that can be loaded is to open the window. -/
theorem launch_of_loadable {program : List UInt8} (asks : Asks args path rate)
    (plain : '\x00' ∉ path.toList) (loadable : Loadable files path program) :
    launch host files args =
      openWindow host (Rom.load files Machine.initial path).state rate
        (Rom.load files Machine.initial path).lines := by
  simp only [launch, plan_of_asks asks, (load_of_loadable plain loadable).1]

theorem code_of_unopenable (unopenable : Unopenable host rate) (m : Machine) (lines : List Line) :
    (openWindow host m rate lines).ending.code = none := by
  obtain ⟨f, fails⟩ := Window.openOn_of_fault unopenable m
  simp only [openWindow, fails, Ending.code]

theorem starts_of_openable {program : List UInt8} {m : Machine} (openable : ¬ Unopenable host rate)
    (pos : 0 < rate) (programmed : Programmed program m) (lines : List Line) :
    Starts program rate (openWindow host m rate lines) := by
  have small : rate < Double.limit := Nat.lt_of_not_le fun huge => openable (.inr huge)
  cases seeded : Xorshift.ofClock host.now with
  | error f => exact absurd (.inl ⟨f, seeded⟩) openable
  | ok random =>
    obtain ⟨report, opens⟩ := Window.openOn_of_seed seeded pos small m
    simp only [openWindow, opens]
    refine ⟨rfl, ⟨_, rfl, programmed⟩, rfl, ?_, rfl⟩
    simp only [List.append_assoc, List.cons_append, List.nil_append]

/-- Every start ends in one of the five ways. -/
theorem outcome_launch (host : Host) (files : Files) (args : List String) :
    Outcome host files args (launch host files args) := by
  -- The cases come in the order of the checks: arguments, path, file, window.
  rcases malformed_or_asks args with malformed | ⟨path, rate, asks⟩
  · exact .usage malformed (usage_of_malformed malformed)
  by_cases nul : '\x00' ∈ path.toList
  · exact .nul asks nul (code_of_nul asks nul)
  rcases loadable_or_unloadable files path with ⟨program, loadable⟩ | ⟨f, unloadable⟩
  · rw [launch_of_loadable asks nul loadable]
    by_cases unopenable : Unopenable host rate
    · exact .unopened asks nul loadable unopenable (code_of_unopenable unopenable _ _)
    · have programmed := (load_of_loadable nul loadable).2
      exact .started asks nul loadable unopenable
        (starts_of_openable unopenable asks.rate_pos programmed _)
  · exact .refused asks nul (complaint_message unloadable)
      (refuses_of_unloadable asks nul unloadable)

theorem Refuses.not_showsUsage {text : String} {l : Launch} (refuses : Refuses text l) :
    ¬ ShowsUsage host l := by
  intro shows
  cases shows.complaint.symm.trans refuses.complaint

/-- The usage is shown for malformed arguments and for no others. -/
theorem showsUsage_iff : ShowsUsage host (launch host files args) ↔ Malformed args := by
  refine ⟨fun shows => ?_, usage_of_malformed⟩
  have code := shows.code
  cases outcome_launch host files args with
  | usage malformed _ => exact malformed
  | nul _ _ crashes => rw [crashes] at code; cases code
  | refused _ _ _ refuses => exact absurd shows refuses.not_showsUsage
  | unopened _ _ _ _ crashes => rw [crashes] at code; cases code
  | started _ _ _ _ starts => rw [starts.code] at code; cases code

/-- A start that ends refuses a file exactly if there is something to complain of, and with that
text. -/
theorem refuses_iff (returns : (launch host files args).ending.code ≠ none) (text : String) :
    Refuses text (launch host files args) ↔
      ∃ path rate, Asks args path rate ∧ Complaint files path text := by
  constructor
  · intro refuses
    have code := refuses.code
    cases outcome_launch host files args with
    | usage _ shows => exact absurd shows refuses.not_showsUsage
    | nul _ _ crashes => exact absurd crashes returns
    | refused asks _ told refuses' =>
      cases refuses'.complaint.symm.trans refuses.complaint
      exact ⟨_, _, asks, told⟩
    | unopened _ _ _ _ crashes => exact absurd crashes returns
    | started _ _ _ _ starts => rw [starts.code] at code; cases code
  · rintro ⟨path, rate, asks, told⟩
    have plain : '\x00' ∉ path.toList := fun nul => returns (code_of_nul asks nul)
    obtain ⟨f, unloadable, rfl⟩ := exists_unloadable told
    exact refuses_of_unloadable asks plain unloadable

/-- A start comes to no end of its own exactly for a path with a null character, or with a window
that cannot be opened on a good file. -/
theorem code_eq_none_iff : (launch host files args).ending.code = none ↔
    ∃ path rate, Asks args path rate ∧
      ('\x00' ∈ path.toList ∨ (∃ program, Loadable files path program) ∧ Unopenable host rate) := by
  constructor
  · intro code
    cases outcome_launch host files args with
    | usage _ shows => rw [shows.code] at code; cases code
    | nul asks nul _ => exact ⟨_, _, asks, .inl nul⟩
    | refused _ _ _ refuses => rw [refuses.code] at code; cases code
    | unopened asks _ loadable unopenable _ => exact ⟨_, _, asks, .inr ⟨⟨_, loadable⟩, unopenable⟩⟩
    | started _ _ _ _ starts => rw [starts.code] at code; cases code
  · rintro ⟨path, rate, asks, fails⟩
    by_cases nul : '\x00' ∈ path.toList
    · exact code_of_nul asks nul
    · obtain ⟨⟨program, loadable⟩, unopenable⟩ := fails.resolve_left nul
      rw [launch_of_loadable asks nul loadable]
      exact code_of_unopenable unopenable _ _

/-- With malformed arguments it makes no difference what the files are. -/
theorem launch_eq_of_malformed (malformed : Malformed args) (other : Files) :
    launch host other args = launch host files args := by
  simp only [launch, plan_of_malformed malformed]

/-- What follows the third argument is ignored. -/
theorem plan_take (args : List String) : plan (args.take 3) = plan args := by
  rcases args with _ | ⟨name, _ | ⟨path, _ | ⟨text, rest⟩⟩⟩ <;> rfl

/-- A start that ends shows the usage exactly for arguments that are malformed, and then no file
was read. It refuses exactly a file that is unreadable or too large, with the text about it. In
every other case it opens one window on the program that was asked for. Only a path with a null
character and a window that cannot be opened keep it from ending, and what follows the third
argument never matters. In the text about a file that cannot be opened, an ordinary name stands
between single quotes as it is. -/
theorem launch_ends (host : Host) (files : Files) (args : List String) :
    (∀ code, (launch host files args).ending.code = some code →
      (ShowsUsage host (launch host files args) ↔ Malformed args) ∧
      (∀ text, Refuses text (launch host files args) ↔
        ∃ path rate, Asks args path rate ∧ Complaint files path text) ∧
      (¬ Malformed args → (¬ ∃ path rate text, Asks args path rate ∧ Complaint files path text) →
        ∃ path rate program, Asks args path rate ∧ Loadable files path program ∧
          Starts program rate (launch host files args))) ∧
    ((launch host files args).ending.code = none ↔ ∃ path rate, Asks args path rate ∧
      ('\x00' ∈ path.toList ∨
        (∃ program, Loadable files path program) ∧ Unopenable host rate)) ∧
    (Malformed args → ∀ other, launch host other args = launch host files args) ∧
    launch host files (args.take 3) = launch host files args ∧
    ∀ path : String, (∀ c ∈ path.toList, Text.Quoted.Ordinary c) →
      Text.Quoted.quoted path = "'" ++ path ++ "'" := by
  refine ⟨fun code ends => ⟨showsUsage_iff, ?_, ?_⟩, code_eq_none_iff, launch_eq_of_malformed,
    by simp only [launch, plan_take], fun path => Text.Quoted.quoted_of_ordinary⟩
  · exact refuses_iff (by simp only [ends, ne_eq, reduceCtorEq, not_false_eq_true])
  · intro wellFormed loads
    cases outcome_launch host files args with
    | usage malformed _ => exact absurd malformed wellFormed
    | nul _ _ crashes => rw [crashes] at ends; cases ends
    | refused asks _ told _ => exact absurd ⟨_, _, _, asks, told⟩ loads
    | unopened _ _ _ _ crashes => rw [crashes] at ends; cases ends
    | started asks _ loadable _ starts => exact ⟨_, _, _, asks, loadable, starts⟩

end CommandLine

end ChipEight
