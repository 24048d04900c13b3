import ChipEight.Proofs.Session

/-!
# The gate of the buzzer over whole sessions

Only two things reach the player: an event that closes the window takes it away, and a timer
event with a tick in it opens or closes the gate if the sound timer asks for the other. So the
gate is opened and closed by turns, and nothing is asked of a player that is gone.
-/
namespace ChipEight

namespace Request

def gate? : Request → Option Bool
  | .play => some true
  | .pause => some false
  | _ => none

def isDelete : Request → Bool
  | .deletePlayer => true
  | _ => false

/-- Requests to the player: to play, to pause, to go. -/
def isAudio (r : Request) : Bool := r.gate?.isSome || r.isDelete

def gates (record : List Request) : List Bool := record.filterMap gate?

theorem isDelete_of_isAudio {r : Request} (h : r.isAudio = false) : r.isDelete = false :=
  (Bool.or_eq_false_iff.mp h).2

@[simp] theorem gates_append (record later : List Request) :
    gates (record ++ later) = gates record ++ gates later := List.filterMap_append ..

theorem gates_of_silent {record : List Request} (h : ∀ r ∈ record, r.isAudio = false) :
    gates record = [] := by
  apply List.filterMap_eq_nil_iff.mpr
  intro r hr
  have hg := (Bool.or_eq_false_iff.mp (h r hr)).1
  simpa using hg

end Request

open Request

namespace Buzzer

/-- What is asked of a player to bring the gate to a state. -/
def verb (active : Bool) : PlayerVerb := if active then .play else .pause

/-- With a player the gate follows the timer, and is touched only if it has to move. -/
theorem update_of_player {b : Buzzer} {p : Player} (hp : b.player = some p) (active : Bool) :
    (b.update active).state = { b with playing := active } ∧
      gates (b.update active).requests = (if active = b.playing then [] else [active]) ∧
      ∀ r ∈ (b.update active).requests, r.isDelete = false := by
  cases b with
  | mk player playing =>
    cases hp
    cases active <;> cases playing <;>
      simp [update, enable, disable, Turn.quiet, gates, gate?, isDelete]

theorem update_of_gone {b : Buzzer} (hp : b.player = none) (active : Bool) :
    (b.update active).state = b ∧ (b.update active).requests = [] ∧
      (b.update active).result =
        if active = b.playing then .ok () else .error (.noPlayer (verb active)) := by
  cases b with
  | mk player playing =>
    cases hp
    cases active <;> cases playing <;> simp [update, enable, disable, Turn.quiet, verb]

end Buzzer

namespace Window

variable {win : Window} {e : Event}

/-- A timer event in which the clock has counted a tick. -/
def Ticks (win : Window) (e : Event) (dt : Float) : Prop :=
  e = .timer dt ∧ ∃ n, (win.console.advance dt).result = .ok (n + 1)

inductive Heard (win : Window) (e : Event) (t : Turn Window Unit) : Prop
  | taken (ends : win.Ends e) (exited : t.state.exited = true)
      (buzzer : t.state.buzzer = win.buzzer.delete.state)
      (requests : t.requests = win.close.requests)
  | gated (dt : Float) (ticks : win.Ticks e dt) (exited : t.state.exited = win.exited)
      (result : t.result = (win.buzzer.update t.state.console.vm.timers.active).result)
      (buzzer : t.state.buzzer = (win.buzzer.update t.state.console.vm.timers.active).state)
      (requests : t.requests = (win.buzzer.update t.state.console.vm.timers.active).requests)
  | unheard (still : ∀ dt, ¬ win.Ticks e dt) (exited : t.state.exited = win.exited)
      (buzzer : t.state.buzzer = win.buzzer) (silent : ∀ r ∈ t.requests, r.isAudio = false)

theorem not_ticks {dt : Float} (hn : ∀ n, (win.console.advance dt).result ≠ .ok (n + 1)) :
    ∀ dt', ¬ win.Ticks (.timer dt) dt' := by
  rintro dt' ⟨is, n, hr⟩
  cases is
  exact hn n hr

/-- A timer event passes the sound timer on to the buzzer exactly if the clock has counted a tick.
-/
theorem timerTick_heard (win : Window) (dt : Float) :
    Heard win (.timer dt) (win.timerTick dt) := by
  have hq := win.advance_requests dt
  cases hr : (win.console.advance dt).result with
  | error f =>
    have ht : win.timerTick dt = ⟨.error f, { win with console := (win.console.advance dt).state },
        (win.console.advance dt).lines, []⟩ := by
      simp only [timerTick, hr, hq]
    rw [ht]
    exact .unheard (not_ticks (by simp [hr])) rfl rfl (by simp)
  | ok n =>
    cases n with
    | zero =>
      have ht : win.timerTick dt = ⟨.ok (), { win with console := (win.console.advance dt).state },
          (win.console.advance dt).lines, []⟩ := by
        simp only [timerTick, hr, hq]
      rw [ht]
      exact .unheard (not_ticks (by simp [hr])) rfl rfl (by simp)
    | succ n =>
      have ht : win.timerTick dt =
          ((win.buzzer.update (win.console.advance dt).state.vm.timers.active).lift fun b =>
            { win with console := (win.console.advance dt).state, buzzer := b }).after
            (win.console.advance dt).lines [] := by
        simp only [timerTick, hr, hq]
      rw [ht]
      exact .gated dt ⟨rfl, n, hr⟩ rfl rfl rfl rfl

theorem heard (win : Window) (e : Event) : Heard win e (win.handle e) := by
  cases win.outcome e with
  | executed executes _ _ state requests =>
    have still : ∀ dt, ¬ win.Ticks e dt := by
      rintro dt ⟨rfl, -⟩
      cases executes
    exact .unheard still (by rw [state]; rfl) (by rw [state]; rfl) (by rw [requests]; nofun)
  | halted _ ends _ state requests =>
    exact .taken ends (by rw [state]; rfl) (by rw [state]; rfl) requests
  | closed _ ends turn =>
    rw [turn]
    exact .taken ends rfl rfl rfl
  | switched _ _ drives _ state requests =>
    have still : ∀ dt, ¬ win.Ticks e dt := by
      rintro dt ⟨rfl, -⟩
      cases drives
    obtain ⟨_, _, _, hs⟩ := state
    exact .unheard still (by rw [hs]) (by rw [hs]) (by rw [requests]; nofun)
  | timed dt is turn =>
    subst is
    rw [turn]
    exact win.timerTick_heard dt
  | reported dt is turn =>
    subst is
    obtain ⟨_, _, _, _, hs⟩ := win.bench_state dt
    rw [turn]
    exact .unheard nofun (by rw [hs]) (by rw [hs]) (by rw [bench_requests]; nofun)
  | drawn is turn =>
    subst is
    have silent : ∀ r ∈ win.draw.requests, r.isAudio = false := by
      cases hs : win.console.vm.screen.stale <;> simp [draw, hs, isAudio, gate?, isDelete]
    rw [turn]
    exact .unheard nofun rfl rfl silent

/-- The first `n` of open, close, open, close and so on. -/
def strokes (n : Nat) : List Bool := (List.range n).map (· % 2 == 0)

theorem strokes_succ (n : Nat) : strokes (n + 1) = strokes n ++ [n % 2 == 0] := by
  simp [strokes, List.range_succ]

theorem getElem?_strokes {n i : Nat} {b : Bool} (h : (strokes n)[i]? = some b) :
    b = true ↔ i % 2 = 0 := by
  simp only [strokes, List.getElem?_map, Option.map_eq_some_iff] at h
  obtain ⟨j, hj, rfl⟩ := h
  obtain ⟨-, rfl⟩ := List.getElem?_eq_some_iff.mp hj
  simp

theorem getLast?_strokes (n : Nat) : (strokes n).getLast? = some true ↔ (n % 2 == 1) = true := by
  cases n with
  | zero => simp [strokes]
  | succ n =>
    rw [strokes_succ, List.getLast?_concat]
    simp only [Option.some.injEq, beq_iff_eq]
    omega

/-- What holds of the buzzer and of all that was asked of the player. The number of strokes
made so far tells whether the gate is open, and the player is there until the window closes. -/
structure Gated (win : Window) (record : List Request) : Prop where
  player : win.buzzer.player = none ↔ win.exited = true
  strokes : ∃ n, gates record = strokes n ∧ win.buzzer.playing = (n % 2 == 1)
  kept : win.exited = false → ∀ r ∈ record, r.isDelete = false
  deleted : win.exited = true → ∃ before after, record = before ++ .deletePlayer :: after ∧
    (∀ r ∈ before, r.isDelete = false) ∧ ∀ r ∈ after, r.isAudio = false

theorem Gated.running {record : List Request} (hg : win.Gated record) {p : Player}
    (hp : win.buzzer.player = some p) : win.exited = false := by
  by_contra hx
  rw [hg.player.mpr (Bool.not_eq_false _ ▸ hx)] at hp
  cases hp

/-- Silent requests change nothing. -/
theorem Gated.unheard {record : List Request} (hg : win.Gated record) {win' : Window}
    {later : List Request} (exited : win'.exited = win.exited) (buzzer : win'.buzzer = win.buzzer)
    (silent : ∀ r ∈ later, r.isAudio = false) : win'.Gated (record ++ later) := by
  constructor
  case player => rw [buzzer, exited]; exact hg.player
  case strokes =>
    rw [gates_append, gates_of_silent silent, List.append_nil, buzzer]
    exact hg.strokes
  case kept =>
    intro hx r hr
    rcases List.mem_append.mp hr with hr | hr
    · exact hg.kept (exited ▸ hx) r hr
    · exact isDelete_of_isAudio (silent r hr)
  case deleted =>
    intro hx
    obtain ⟨before, after, rfl, hb, ha⟩ := hg.deleted (exited ▸ hx)
    refine ⟨before, after ++ later, by simp, hb, ?_⟩
    intro r hr
    rcases List.mem_append.mp hr with hr | hr
    · exact ha r hr
    · exact silent r hr

/-- The first event that closes the window takes the player away, a later one finds none. -/
theorem Gated.taken {record : List Request} (hg : win.Gated record) {win' : Window}
    (exited : win'.exited = true) (buzzer : win'.buzzer = win.buzzer.delete.state) :
    win'.Gated (record ++ win.close.requests) := by
  cases hp : win.buzzer.player with
  | none =>
    have gone : win.buzzer.delete = .quiet win.buzzer () := by simp only [Buzzer.delete, hp]
    have silent : ∀ r ∈ win.close.requests, r.isAudio = false := by
      simp [close, gone, Turn.quiet, isAudio, gate?, isDelete]
    exact hg.unheard (exited.trans (hg.player.mp hp).symm) (by rw [buzzer, gone]; rfl) silent
  | some p =>
    have there : win.buzzer.delete =
        ⟨.ok (), { win.buzzer with player := none }, [], [.deletePlayer]⟩ := by
      simp only [Buzzer.delete, hp]
    have running := hg.running hp
    have hc : win.close.requests = [.unschedule .cpu, .unschedule .timer, .unschedule .bench] ++
        .deletePlayer :: [.closeWindow] := by
      simp only [close, there]
      rfl
    have others : ∀ r ∈ ([.unschedule .cpu, .unschedule .timer, .unschedule .bench] : List Request),
        r.isDelete = false := by
      simp [isDelete]
    rw [hc]
    rw [there] at buzzer
    constructor
    case player => simp [buzzer, exited]
    case strokes =>
      obtain ⟨n, hr, hn⟩ := hg.strokes
      exact ⟨n, by rw [gates_append, hr]; exact List.append_nil _, by rw [buzzer]; exact hn⟩
    case kept =>
      intro h
      rw [exited] at h
      cases h
    case deleted =>
      intro _
      refine ⟨record ++ [.unschedule .cpu, .unschedule .timer, .unschedule .bench], [.closeWindow],
        by simp, ?_, by simp [isAudio, gate?, isDelete]⟩
      intro r hr
      rcases List.mem_append.mp hr with hr | hr
      · exact hg.kept running r hr
      · exact others r hr

/-- The gate follows the sound timer as long as there is a player. -/
theorem Gated.gated {record : List Request} (hg : win.Gated record) {win' : Window} {active : Bool}
    (exited : win'.exited = win.exited) (buzzer : win'.buzzer = (win.buzzer.update active).state) :
    win'.Gated (record ++ (win.buzzer.update active).requests) := by
  cases hp : win.buzzer.player with
  | none =>
    obtain ⟨hs, hq, -⟩ := Buzzer.update_of_gone hp active
    rw [hq]
    exact hg.unheard exited (buzzer.trans hs) nofun
  | some p =>
    obtain ⟨hs, hq, hd⟩ := Buzzer.update_of_player hp active
    have running := hg.running hp
    rw [hs] at buzzer
    constructor
    case player => simp [buzzer, hp, exited, running]
    case strokes =>
      obtain ⟨n, hr, hn⟩ := hg.strokes
      rw [gates_append, hq, hr]
      by_cases ha : active = win.buzzer.playing
      · exact ⟨n, by simp [ha], by rw [buzzer, ← hn]; exact ha⟩
      · have he : active = (n % 2 == 0) := by grind
        refine ⟨n + 1, by rw [if_neg ha, strokes_succ, he], ?_⟩
        rw [buzzer]
        simp only [he]
        grind
    case kept =>
      intro hx r hr
      rcases List.mem_append.mp hr with hr | hr
      · exact hg.kept running r hr
      · exact hd r hr
    case deleted =>
      intro hx
      rw [exited, running] at hx
      cases hx

/-- Every event keeps what holds of the buzzer and the requests. -/
theorem Gated.handle {record : List Request} (hg : win.Gated record) (e : Event) :
    (win.handle e).state.Gated (record ++ (win.handle e).requests) := by
  cases win.heard e with
  | taken _ exited buzzer requests => rw [requests]; exact hg.taken exited buzzer
  | gated dt _ exited _ buzzer requests => rw [requests]; exact hg.gated exited buzzer
  | unheard _ exited buzzer silent => exact hg.unheard exited buzzer silent

/-- The player is let go by the event that closes the window, and by no other. -/
theorem Gated.deletes_iff {record : List Request} (hg : win.Gated record) (e : Event) :
    (∃ r ∈ (win.handle e).requests, r.isDelete = true) ↔
      win.exited = false ∧ (win.handle e).state.exited = true := by
  have neither (silent : ∀ r ∈ (win.handle e).requests, r.isDelete = false)
      (exited : (win.handle e).state.exited = win.exited) :
      (∃ r ∈ (win.handle e).requests, r.isDelete = true) ↔
        win.exited = false ∧ (win.handle e).state.exited = true := by
    constructor
    · rintro ⟨r, hr, hd⟩
      exact absurd ((silent r hr).symm.trans hd) Bool.false_ne_true
    · rintro ⟨running, hx⟩
      exact absurd (running.symm.trans (exited.symm.trans hx)) Bool.false_ne_true
  cases win.heard e with
  | taken _ exited _ requests =>
    rw [requests, exited]
    cases hp : win.buzzer.player with
    | none => simp [close, Buzzer.delete, hp, Turn.quiet, isDelete, hg.player.mp hp]
    | some p => simp [close, Buzzer.delete, hp, isDelete, hg.running hp]
  | gated dt _ exited _ _ requests =>
    refine neither ?_ exited
    rw [requests]
    cases hp : win.buzzer.player with
    | none => simp [(Buzzer.update_of_gone hp _).2.1]
    | some p => exact (Buzzer.update_of_player hp _).2.2
  | unheard _ exited _ silent =>
    exact neither (fun r hr => isDelete_of_isAudio (silent r hr)) exited

theorem Ticks.not_ends {dt : Float} (ht : win.Ticks e dt) : ¬ win.Ends e := by
  obtain ⟨rfl, -⟩ := ht
  exact stays_of_idle nofun nofun nofun

/-- A timer event with a tick in it passes the sound timer on to the buzzer. -/
theorem Ticks.gated {dt : Float} (ht : win.Ticks e dt) :
    (win.handle e).result =
        (win.buzzer.update (win.handle e).state.console.vm.timers.active).result ∧
      (win.handle e).state.buzzer =
        (win.buzzer.update (win.handle e).state.console.vm.timers.active).state := by
  cases win.heard e with
  | taken ends _ _ _ => exact absurd ends ht.not_ends
  | gated _ _ _ result buzzer _ => exact ⟨result, buzzer⟩
  | unheard still _ _ _ => exact absurd ht (still dt)

/-- After a tick the gate is open exactly if the sound timer is above zero. -/
theorem Gated.follows {record : List Request} (hg : win.Gated record) {dt : Float}
    (ht : win.Ticks e dt) (running : win.exited = false) :
    (win.handle e).state.buzzer.playing =
      decide (0 < (win.handle e).state.console.vm.timers.sound) := by
  cases hp : win.buzzer.player with
  | none => exact absurd (running.symm.trans (hg.player.mp hp)) Bool.false_ne_true
  | some p =>
    rw [ht.gated.2, (Buzzer.update_of_player hp _).1]
    rfl

/-- Without a tick, or behind the closing, the gate stays as it is. -/
theorem Gated.unmoved {record : List Request} (hg : win.Gated record)
    (h : win.exited = true ∨ ∀ dt, ¬ win.Ticks e dt) :
    (win.handle e).state.buzzer.playing = win.buzzer.playing := by
  cases win.heard e with
  | taken _ _ buzzer _ =>
    rw [buzzer]
    cases hp : win.buzzer.player <;> simp [Buzzer.delete, hp, Turn.quiet]
  | gated dt ticks _ _ buzzer _ =>
    have hp := hg.player.mpr (h.resolve_right fun still => still dt ticks)
    rw [buzzer, (Buzzer.update_of_gone hp _).1]
  | unheard _ _ buzzer _ => rw [buzzer]

end Window

namespace Session

theorem gated_opening (s : Session) : s.window.Gated s.opening := by
  obtain ⟨random, clock, interval, hw, ho⟩ := s.opened
  have silent : ∀ r ∈ s.opening, r.isAudio = false := by
    rw [ho]
    simp [Window.openRequest, Window.partRequests, Buzzer.newRequests, isAudio, gate?, isDelete]
  rw [hw]
  constructor
  case player => simp [Window.fresh, Buzzer.new]
  case strokes => exact ⟨0, gates_of_silent silent, rfl⟩
  case kept =>
    intro _ r hr
    exact isDelete_of_isAudio (silent r hr)
  case deleted => exact nofun

theorem gated_now (s : Session) (events : List Event) :
    (s.now events).Gated (s.record events) :=
  s.keeps s.gated_opening (fun _ _ e hg => hg.handle e) events

/-- What can be said of the gate after some events, and of the event that comes next. -/
structure AudioGate (s : Session) (events : List Event) : Prop where
  alternate : ∀ i b, (gates (s.record events))[i]? = some b → (b = true ↔ i % 2 = 0)
  playing_iff : (s.now events).buzzer.playing = true ↔
    (gates (s.record events)).getLast? = some true
  kept : (s.now events).exited = false → ∀ r ∈ s.record events, r.isDelete = false
  deleted : (s.now events).exited = true → ∃ before after,
    s.record events = before ++ .deletePlayer :: after ∧
      (∀ r ∈ before, r.isDelete = false) ∧ ∀ r ∈ after, r.isAudio = false
  deletes_iff : ∀ e, (∃ r ∈ ((s.now events).handle e).requests, r.isDelete = true) ↔
    (s.now events).exited = false ∧ ((s.now events).handle e).state.exited = true
  follows : ∀ e dt, (s.now events).Ticks e dt → (s.now events).exited = false →
    ((s.now events).handle e).state.buzzer.playing =
      decide (0 < ((s.now events).handle e).state.console.vm.timers.sound)
  unmoved : ∀ e, ((s.now events).exited = true ∨ ∀ dt, ¬ (s.now events).Ticks e dt) →
    ((s.now events).handle e).state.buzzer.playing = (s.now events).buzzer.playing
  late : ∀ e dt, (s.now events).Ticks e dt → (s.now events).exited = true →
    ((s.now events).handle e).result =
      if decide (0 < ((s.now events).handle e).state.console.vm.timers.sound) =
          (s.now events).buzzer.playing then .ok ()
      else .error (.noPlayer (Buzzer.verb
        (0 < ((s.now events).handle e).state.console.vm.timers.sound)))

/-- The gate is opened and closed by turns as the sound timer asks for it, and the player is
let go once. -/
theorem audio_gate (s : Session) (events : List Event) : s.AudioGate events := by
  have hg := s.gated_now events
  obtain ⟨n, hr, hn⟩ := hg.strokes
  constructor
  case alternate =>
    intro i b hb
    rw [hr] at hb
    exact Window.getElem?_strokes hb
  case playing_iff => rw [hr, hn, Window.getLast?_strokes]
  case kept => exact hg.kept
  case deleted => exact hg.deleted
  case deletes_iff => exact hg.deletes_iff
  case follows =>
    intro e dt ht running
    exact hg.follows ht running
  case unmoved =>
    intro e h
    exact hg.unmoved h
  case late =>
    intro e dt ht hx
    rw [ht.gated.1, (Buzzer.update_of_gone (hg.player.mpr hx) _).2.2]
    rfl

-- A sound of two ticks: the first opens the gate, the second closes it.
example :
    let machine := { Machine.initial with memory := Memory.initial.put 0 [0x60, 0x02, 0xF0, 0x18] }
    let s := Session.on ⟨false, true, -1.0⟩ rfl machine
    gates (s.record [.cpu, .cpu, .timer 0.02, .timer 0.02]) = [true, false] := by
  decide +kernel

end Session

end ChipEight
