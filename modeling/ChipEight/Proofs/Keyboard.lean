import Mathlib.Data.List.Nodup
import ChipEight.Proofs.Session

/-!
# The keypad as a mirror of the keyboard

Every key of the keypad stands under one key of the keyboard, and nothing moves it but the events
of that key: no instruction does, not even one that a key has executed. So a key of the keypad is
down exactly if the last event of the key over it was a press.
-/
namespace ChipEight

namespace Key

theorem mem_bindings {key : Key} {k : Digit} (hb : key.bound = some k) : (key, k) ∈ bindings := by
  obtain ⟨before, after, hs, -⟩ := List.lookup_eq_some_iff.mp hb
  rw [hs]
  simp

/-- No two keys of the keyboard stand for the same key of the keypad. -/
theorem bound_inj {key struck : Key} {k : Digit} (hb : key.bound = some k)
    (ho : struck.bound = some k) : struck = key := by
  have distinct : (bindings.map Prod.snd).Nodup := by decide
  have same : (struck, k) = (key, k) :=
    List.inj_on_of_nodup_map distinct (mem_bindings ho) (mem_bindings hb) rfl
  exact congrArg Prod.fst same

theorem exists_bound (k : Digit) : ∃ key : Key, key.bound = some k := by
  have all : ∀ k : Digit, ∃ b ∈ bindings, b.1.bound = some k := by decide
  obtain ⟨b, -, hb⟩ := all k
  exact ⟨b.1, hb⟩

end Key

namespace Event

/-- Whether an event puts a key of the keyboard down or up, if it is an event of that key. -/
def moves? (key : Key) : Event → Option Bool
  | .press struck => if struck = key then some true else none
  | .release struck => if struck = key then some false else none
  | _ => none

/-- The keypad key that an event moves, if it moves one, and whether it goes down. -/
def stroke? : Event → Option (Digit × Bool)
  | .press key => key.bound.map (·, true)
  | .release key => key.bound.map (·, false)
  | _ => none

end Event

def Key.lastMove (key : Key) (events : List Event) : Option Bool :=
  (events.filterMap (Event.moves? key)).getLast?

theorem Key.lastMove_concat (key : Key) (events : List Event) (e : Event) :
    key.lastMove (events ++ [e]) = (e.moves? key).or (key.lastMove events) := by
  unfold lastMove
  rw [List.filterMap_append, List.getLast?_append]
  cases he : e.moves? key with
  | none => rw [List.filterMap_cons_none he]; rfl
  | some down => rw [List.filterMap_cons_some he]; rfl

namespace Keypad

def strike (p : Keypad) : Option (Digit × Bool) → Keypad
  | none => p
  | some (k, down) => p.put k down

theorem get_strike_bound (p : Keypad) {key : Key} {k : Digit} (hb : key.bound = some k)
    (struck : Key) (down : Bool) :
    (p.strike (struck.bound.map (·, down))).get k = if struck = key then down else p.get k := by
  by_cases ho : struck = key
  · rw [ho, hb, if_pos rfl]
    exact p.get_put_same k down
  · rw [if_neg ho]
    cases hj : struck.bound with
    | none => rfl
    | some j =>
      have hne : k ≠ j := by
        rintro rfl
        exact ho (Key.bound_inj hb hj)
      exact p.get_put_other down hne

/-- An event of the key over it moves a keypad key, any other leaves it where it is. -/
theorem get_strike (p : Keypad) {key : Key} {k : Digit} (hb : key.bound = some k) (e : Event) :
    (p.strike e.stroke?).get k = (e.moves? key).getD (p.get k) := by
  cases e with
  | press struck =>
    rw [Event.stroke?, p.get_strike_bound hb, Event.moves?]
    split <;> rfl
  | release struck =>
    rw [Event.stroke?, p.get_strike_bound hb, Event.moves?]
    split <;> rfl
  | _ => rfl

end Keypad

namespace Window

variable {win : Window} {e : Event}

/-- An instruction does not move a key, even if a key has executed it. -/
theorem keypad_of_executes (he : win.Executes e) :
    (win.handle e).state.console.vm.keypad = win.console.vm.keypad := by
  cases win.moved e with
  | cycled _ _ vm => rw [vm, Vm.keypad_cycle]
  | idle idle _ _ => exact absurd he idle

/-- An event strikes the keypad key under its key, if it has one, and does nothing else to the
keypad. -/
theorem keypad_handle (win : Window) (e : Event) :
    (win.handle e).state.console.vm.keypad = win.console.vm.keypad.strike e.stroke? := by
  cases e with
  | cpu =>
    by_cases he : win.Executes .cpu
    · exact keypad_of_executes he
    · rw [cpu_of_idle he]
      rfl
  | step => exact keypad_of_executes .step
  | timer dt =>
    obtain ⟨_, _, _, hs⟩ := win.timerTick_state dt
    change (win.timerTick dt).state.console.vm.keypad = _
    rw [hs]
    rfl
  | bench dt =>
    obtain ⟨_, _, _, _, hs⟩ := win.bench_state dt
    change (win.bench dt).state.console.vm.keypad = _
    rw [hs]
    rfl
  | draw => rfl
  | close => rfl
  | press key =>
    cases key with
    | space =>
      by_cases he : win.Executes (.press .space)
      · exact keypad_of_executes he
      · rw [space_of_idle he]
        rfl
    | _ => rfl
  | release key => cases key <;> rfl

/-- The events of keys that stand over no key of the keypad, and all that are no key events,
leave the keypad alone. -/
theorem keypad_of_unbound
    (unbound : ∀ key, e = .press key ∨ e = .release key → key.bound = none) :
    (win.handle e).state.console.vm.keypad = win.console.vm.keypad := by
  rw [keypad_handle]
  cases e with
  | press key => rw [Event.stroke?, unbound key (.inl rfl)]; rfl
  | release key => rw [Event.stroke?, unbound key (.inr rfl)]; rfl
  | _ => rfl

/-- A keypad key that has moved was moved by an event of its own key. -/
theorem of_keypad_ne {k : Digit} (hne : (win.handle e).state.console.vm.keypad.get k ≠
    win.console.vm.keypad.get k) :
    ∃ key : Key, key.bound = some k ∧ (e = .press key ∨ e = .release key) := by
  obtain ⟨key, hb⟩ := Key.exists_bound k
  refine ⟨key, hb, ?_⟩
  rw [keypad_handle, Keypad.get_strike _ hb] at hne
  cases e with
  | press struck =>
    by_cases ho : struck = key
    · exact .inl (by rw [ho])
    · simp [Event.moves?, ho] at hne
  | release struck =>
    by_cases ho : struck = key
    · exact .inr (by rw [ho])
    · simp [Event.moves?, ho] at hne
  | _ => exact absurd rfl hne

end Window

namespace Session

/-- A key of the keypad whose key on the keyboard was pressed and not let go. -/
def Held (events : List Event) (k : Digit) : Prop :=
  ∃ key : Key, key.bound = some k ∧ key.lastMove events = some true

/-- After any events a keypad key is where the last move of its key has put it. -/
theorem keypad_now (s : Session) {key : Key} {k : Digit} (hb : key.bound = some k)
    (events : List Event) :
    (s.now events).console.vm.keypad.get k = (key.lastMove events).getD false := by
  -- From the last event back: either it moves the key or the keypad is as the others left it.
  induction events using List.reverseRecOn with
  | nil =>
    obtain ⟨random, clock, _, hw, -⟩ := s.opened
    rw [now_nil, hw]
    exact Bank.get_fill false k
  | append_singleton events e ih =>
    rw [now_concat, Window.keypad_handle, Keypad.get_strike _ hb, ih, Key.lastMove_concat]
    cases e.moves? key <;> rfl

theorem keypad_down_iff (s : Session) {key : Key} {k : Digit} (hb : key.bound = some k)
    (events : List Event) :
    (s.now events).console.vm.keypad.get k = true ↔ key.lastMove events = some true := by
  rw [s.keypad_now hb]
  cases key.lastMove events with
  | none => simp
  | some down => simp

theorem keypad_held_iff (s : Session) (events : List Event) (k : Digit) :
    (s.now events).console.vm.keypad.get k = true ↔ Held events k := by
  obtain ⟨key, hb⟩ := Key.exists_bound k
  rw [s.keypad_down_iff hb]
  constructor
  · intro down
    exact ⟨key, hb, down⟩
  · rintro ⟨struck, ho, down⟩
    rwa [Key.bound_inj hb ho] at down

/-- What can be said of the keypad after some events, and of the event that comes next. -/
structure Mirrored (s : Session) (events : List Event) : Prop where
  bound : ∀ k : Digit, ∃! key : Key, key.bound = some k
  down_iff : ∀ (key : Key) k, key.bound = some k →
    ((s.now events).console.vm.keypad.get k = true ↔ key.lastMove events = some true)
  moved : ∀ e k, ((s.now events).handle e).state.console.vm.keypad.get k ≠
      (s.now events).console.vm.keypad.get k →
    ∃ key : Key, key.bound = some k ∧ (e = .press key ∨ e = .release key)
  unmoved : ∀ e, (∀ key, e = .press key ∨ e = .release key → key.bound = none) →
    ((s.now events).handle e).state.console.vm.keypad = (s.now events).console.vm.keypad
  cycle : (s.now events).console.vm.cycle.2.keypad = (s.now events).console.vm.keypad
  first_iff : ∀ k, (s.now events).console.vm.keypad.first = some k ↔
    Held events k ∧ ∀ j < k, ¬ Held events j
  none_iff : (s.now events).console.vm.keypad.first = none ↔ ∀ k, ¬ Held events k

/-- The keypad shows at any time which of its keys are held down on the keyboard. -/
theorem keypad_mirrors (s : Session) (events : List Event) : s.Mirrored events := by
  constructor
  case bound =>
    intro k
    obtain ⟨key, hb⟩ := Key.exists_bound k
    exact ⟨key, hb, fun struck ho => Key.bound_inj hb ho⟩
  case down_iff =>
    intro key k hb
    exact s.keypad_down_iff hb events
  case moved =>
    intro e k hne
    exact Window.of_keypad_ne hne
  case unmoved =>
    intro e unbound
    exact Window.keypad_of_unbound unbound
  case cycle => exact Vm.keypad_cycle _
  case first_iff =>
    intro k
    rw [Keypad.first_eq_some_iff]
    simp only [← Bool.not_eq_true, s.keypad_held_iff]
  case none_iff =>
    rw [Keypad.first_eq_none_iff]
    simp only [← Bool.not_eq_true, s.keypad_held_iff]

-- Two keys are held while the space bar steps over a word that waits for one; the lower of
-- them is let go.
example :
    let machine := { Machine.initial with memory := Memory.initial.put 0 [0xF0, 0x0A] }
    let s := Session.on ⟨false, true, -1.0⟩ rfl machine
    (s.now [.press .w, .press .m, .press .q, .press .space, .release .q]).console.vm.keypad.first =
      some (Digit.of 5) := by
  decide +kernel

end Session

end ChipEight
