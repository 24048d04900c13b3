import ChipEight.Proofs.Session

/-!
# The life of a window

A window is open from the first event on until one closes it, and closed ever after. The beat and
the space bar run one cycle each or do nothing at all, and a word that is no instruction is
passed over while halting is off. Nothing that drives the program fails.
-/
namespace ChipEight

namespace Window

variable {win : Window} {e : Event}

def OneCycle (win : Window) (t : Turn Window Unit) : Prop :=
  t.state.console.vm = win.console.vm.cycle.2 ∧
    t.state.console.vm.cycles = win.console.vm.cycles + 1

/-- What drives the program never fails: its errors close the window instead. -/
theorem result_of_drives (drives : e.Drives) : (win.handle e).result = .ok () := by
  cases win.outcome e with
  | executed _ _ result _ _ => exact result
  | halted _ _ result _ _ => exact result
  | closed _ _ turn => rw [turn]; rfl
  | switched _ _ _ result _ _ => exact result
  | timed dt is _ => subst is; cases drives
  | reported dt is _ => subst is; cases drives
  | drawn is _ => subst is; cases drives

/-- A window is closed after an event if it was before or if the event ends it. -/
theorem exited_handle (win : Window) (e : Event) :
    (win.handle e).state.exited = true ↔ win.exited = true ∨ win.Ends e := by
  have open_of (hs : (win.handle e).state.exited = win.exited) (stays : ¬ win.Ends e) :
      (win.handle e).state.exited = true ↔ win.exited = true ∨ win.Ends e := by
    rw [hs]
    exact ⟨.inl, fun h => h.resolve_right stays⟩
  have closed_of (hs : (win.handle e).state.exited = true) (ends : win.Ends e) :
      (win.handle e).state.exited = true ↔ win.exited = true ∨ win.Ends e :=
    ⟨fun _ => .inr ends, fun _ => hs⟩
  cases win.outcome e with
  | executed _ stays _ state _ => exact open_of (by rw [state]; rfl) stays
  | halted _ ends _ state _ => exact closed_of (by rw [state]; rfl) ends
  | closed _ ends turn => exact closed_of (by rw [turn]; rfl) ends
  | switched _ stays _ _ state _ =>
    obtain ⟨_, _, _, hs⟩ := state
    exact open_of (by rw [hs]) stays
  | timed dt is turn =>
    subst is
    obtain ⟨_, _, _, hs⟩ := win.timerTick_state dt
    exact open_of (by rw [turn, hs]) (stays_of_idle nofun nofun nofun)
  | reported dt is turn =>
    subst is
    obtain ⟨_, _, _, _, hs⟩ := win.bench_state dt
    exact open_of (by rw [turn, hs]) (stays_of_idle nofun nofun nofun)
  | drawn is turn =>
    subst is
    exact open_of (by rw [turn]; rfl) (stays_of_idle nofun nofun nofun)

@[simp] theorem halting_handle (win : Window) (e : Event) :
    (win.handle e).state.halting = win.halting := by
  cases win.moved e with
  | cycled _ halting _ => exact halting
  | idle _ halting _ => exact halting

theorem vm_of_executes (he : win.Executes e) :
    (win.handle e).state.console.vm = win.console.vm.cycle.2 := by
  cases win.moved e with
  | cycled _ _ vm => exact vm
  | idle idle _ _ => exact absurd he idle

theorem cycles_of_idle (idle : ¬ win.Executes e) :
    (win.handle e).state.console.vm.cycles = win.console.vm.cycles := by
  cases win.moved e with
  | cycled executes _ _ => exact absurd executes idle
  | idle _ _ vm =>
    obtain ⟨_, _, _, hv⟩ := vm
    rw [hv]

theorem oneCycle_iff : win.OneCycle (win.handle e) ↔ win.Executes e := by
  constructor
  · rintro ⟨-, hc⟩
    by_contra idle
    rw [cycles_of_idle idle] at hc
    omega
  · intro he
    have hv := vm_of_executes he
    exact ⟨hv, by rw [hv, Vm.cycles_cycle]⟩

/-- Nothing but the key M switches the clock. -/
theorem auto_of_other (he : e ≠ .press .m) : (win.handle e).state.auto = win.auto := by
  cases win.outcome e with
  | executed _ _ _ state _ => rw [state]; rfl
  | halted _ _ _ state _ => rw [state]; rfl
  | closed _ _ turn => rw [turn]; rfl
  | switched idle stays drives _ _ _ =>
    cases e with
    | cpu => rw [cpu_of_idle idle]; rfl
    | press key =>
      cases key with
      | m => exact absurd rfl he
      | space => rw [space_of_idle idle]; rfl
      | _ => rfl
    | release key => cases key <;> rfl
    | step => exact absurd .step idle
    | _ => cases drives
  | timed dt _ turn =>
    obtain ⟨_, _, _, hs⟩ := win.timerTick_state dt
    rw [turn, hs]
  | reported dt _ turn =>
    obtain ⟨_, _, _, _, hs⟩ := win.bench_state dt
    rw [turn, hs]
  | drawn _ turn => rw [turn]; rfl

/-- A word that is no instruction is passed over while halting is off. -/
theorem handle_of_unknown (he : win.Executes e) (hh : win.halting = false) {f : Fault}
    (hc : win.console.vm.cycle.1 = .error f) (hf : f.kind = .unknownOpcode) :
    (∃ lines, win.handle e = ⟨.ok (), win.mapVm fun vm =>
      { vm with pc := vm.pc + 2, cycles := vm.cycles + 1 }, lines, []⟩) ∧
      (win.console.vm.pc + 2).toNat = win.console.vm.pc.toNat + 2 := by
  have mild : ∀ g, win.console.vm.cycle.1 = .error g → ¬ win.Fatal g := by
    intro g hg
    cases Except.error.inj (hc.symm.trans hg)
    rintro (⟨-, hn⟩ | ⟨-, hn⟩)
    · exact hn hf
    · exact absurd (hh.symm.trans hn) Bool.false_ne_true
  obtain ⟨lines, hs⟩ := step_of_mild mild
  rw [handle_of_executes he, hs]
  -- The word has been fetched: a fetch that fails is no unknown opcode.
  have fetched : win.console.vm.cycle.2 = win.console.vm.fetched ∧
      win.console.vm.fetched.pc.toNat = win.console.vm.pc.toNat + 2 := by
    cases win.console.vm.cycle_outcome with
    | stuck _ ends =>
      rw [ends] at hc
      cases hc
      cases hf
    | unknown _ reads _ ends => exact ⟨by rw [ends], Vm.fetched_pc reads⟩
    | refused _ _ _ reads _ _ ends => exact ⟨by rw [ends], Vm.fetched_pc reads⟩
    | done _ _ _ _ _ ends =>
      rw [ends] at hc
      cases hc
  refine ⟨⟨lines, ?_⟩, fetched.2⟩
  rw [cycled, mapVm, fetched.1]
  rfl

end Window

namespace Session

/-- What can be said of a session after some events, and of the event that comes next. -/
structure LifeCycle (s : Session) (events : List Event) : Prop where
  succeeds : ∀ e, e.Drives → ((s.now events).handle e).result = .ok ()
  exited_iff : (s.now events).exited = true ↔
    ∃ before e after, events = before ++ e :: after ∧ (s.now before).Ends e
  stays : (s.now events).exited = true → ∀ later, (s.now (events ++ later)).exited = true
  beat : (s.now events).exited = false → (s.now events).auto = true →
    (s.now events).OneCycle ((s.now events).handle .cpu)
  noBeat : (s.now events).exited = true ∨ (s.now events).auto = false →
    (s.now events).handle .cpu = .quiet (s.now events) ()
  space : (s.now events).OneCycle ((s.now events).handle (.press .space)) ↔
    (s.now events).auto = false
  noSpace : (s.now events).auto = true →
    (s.now events).handle (.press .space) = .quiet (s.now events) ()
  flips : ((s.now events).handle (.press .m)).state.auto = !(s.now events).auto
  unflipped : ∀ e, e ≠ .press .m → ((s.now events).handle e).state.auto = (s.now events).auto
  halting : (s.now events).halting = s.host.halting
  passes : s.host.halting = false → ∀ e f, (s.now events).Executes e →
    (s.now events).console.vm.cycle.1 = .error f → f.kind = .unknownOpcode →
    (∃ lines, (s.now events).handle e = ⟨.ok (), (s.now events).mapVm fun vm =>
      { vm with pc := vm.pc + 2, cycles := vm.cycles + 1 }, lines, []⟩) ∧
      ((s.now events).console.vm.pc + 2).toNat = (s.now events).console.vm.pc.toNat + 2

theorem halting_now (s : Session) (events : List Event) :
    (s.now events).halting = s.host.halting := by
  obtain ⟨random, clock, _, hw, -⟩ := s.opened
  refine s.keeps (P := fun win _ => win.halting = s.host.halting) (by rw [hw]; rfl) ?_ events
  intro win record e h
  rw [Window.halting_handle, h]

/-- A window is closed exactly if one of its events has ended it. -/
theorem exited_now (s : Session) (events : List Event) :
    (s.now events).exited = true ↔
      ∃ before e after, events = before ++ e :: after ∧ (s.now before).Ends e := by
  induction events using List.reverseRecOn with
  | nil =>
    obtain ⟨random, clock, _, hw, -⟩ := s.opened
    simp [hw, Window.fresh]
  | append_singleton events e ih =>
    rw [now_concat, Window.exited_handle, ih]
    simp only [concat_eq_append_cons]
    constructor
    · rintro (⟨before, e', rest, hs, ends⟩ | ends)
      · exact ⟨before, e', rest ++ [e], .inr ⟨rest, rfl, hs⟩, ends⟩
      · exact ⟨events, e, [], .inl ⟨rfl, rfl, rfl⟩, ends⟩
    · rintro ⟨before, e', after, ⟨rfl, rfl, -⟩ | ⟨rest, -, hs⟩, ends⟩
      · exact .inr ends
      · exact .inl ⟨before, e', rest, hs, ends⟩

/-- A session runs its program event by event until something closes it. -/
theorem life_cycle (s : Session) (events : List Event) : s.LifeCycle events := by
  constructor
  case succeeds =>
    intro e drives
    exact Window.result_of_drives drives
  case exited_iff => exact s.exited_now events
  case stays =>
    intro exited later
    obtain ⟨before, e, after, rfl, ends⟩ := (s.exited_now events).mp exited
    exact (s.exited_now _).mpr ⟨before, e, after ++ later, by simp, ends⟩
  case beat =>
    intro running auto
    exact Window.oneCycle_iff.mpr (.beat auto running)
  case noBeat =>
    intro h
    apply Window.cpu_of_idle
    rw [Window.executes_cpu_iff]
    rintro ⟨auto, running⟩
    rcases h with h | h
    · exact absurd (running.symm.trans h) Bool.false_ne_true
    · exact absurd (h.symm.trans auto) Bool.false_ne_true
  case space => exact Window.oneCycle_iff.trans Window.executes_space_iff
  case noSpace =>
    intro auto
    apply Window.space_of_idle
    rw [Window.executes_space_iff, auto]
    exact Bool.noConfusion
  case flips => rfl
  case unflipped =>
    intro e he
    exact Window.auto_of_other he
  case halting => exact s.halting_now events
  case passes =>
    intro hh e f he hc hf
    exact Window.handle_of_unknown he ((s.halting_now events).trans hh) hc hf

-- A word that is no instruction, passed over, then a return to nowhere that waits for the
-- space bar.
example :
    let machine := { Machine.initial with memory := Memory.initial.put 0 [0xFF, 0xFF, 0x00, 0xEE] }
    let s := Session.on ⟨false, false, -1.0⟩ rfl machine
    (s.now [.cpu, .press .m, .cpu]).exited = false ∧
      (s.now [.cpu, .press .m, .cpu, .press .space]).exited = true := by
  decide +kernel

end Session

end ChipEight
