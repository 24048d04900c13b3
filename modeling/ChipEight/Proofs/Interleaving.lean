import ChipEight.Proofs.History
import ChipEight.Proofs.Lockstep

/-!
# The order of actions

A tick reaches a program only through the words that look at the timers or set them, a key event
only through those that look at the keypad. As long as no cycle executes such a word, a tick or a
key event may change places with any other action, so every way to fit them into a history gives
the same answers and ends in the same state.
-/
namespace ChipEight

namespace Action

def isTick : Action → Bool
  | .tick => true
  | _ => false

def isKey : Action → Bool
  | .press _ | .release _ => true
  | _ => false

/-- Two histories that put the same two lists together, one of the actions that `p` picks and
one of the others, each in its own order. -/
structure Reordered (p : Action → Bool) (actions other : List Action) : Prop where
  picked : other.filter p = actions.filter p
  rest : other.filter (!p ·) = actions.filter (!p ·)

end Action

namespace Word

/-- The words `Fx07`, `Fx15` and `Fx18`. -/
def timed (w : Word) : Bool := w.family = Digit.of 0xF ∧ w.nn ∈ [0x07, 0x15, 0x18]

/-- The words `Ex9E`, `ExA1` and `Fx0A`. -/
def keyed (w : Word) : Bool :=
  (w.family = Digit.of 0xE ∧ w.nn ∈ [0x9E, 0xA1]) ∨ (w.family = Digit.of 0xF ∧ w.nn = 0x0A)

end Word

namespace Vm

variable {w h : Nat} {vm : Vm w h} {p : Action → Bool} {words : Word → Bool}

/-- Whether an action was a cycle that executed one of the words. -/
def executed (words : Word → Bool) : Except Fault (Option Word) → Bool
  | .ok (some word) => words word
  | _ => false

/-- A history in which no cycle executes one of the words. -/
def Spares (words : Word → Bool) (vm : Vm w h) (actions : List Action) : Prop :=
  ∀ r ∈ vm.results actions, executed words r = false

/-- The results of the actions that `p` does not pick. -/
def answersBut (p : Action → Bool) (vm : Vm w h) : List Action → List (Except Fault (Option Word))
  | [] => []
  | a :: actions =>
    if p a then (vm.perform a).2.answersBut p actions
    else (vm.perform a).1 :: (vm.perform a).2.answersBut p actions

theorem spares_cons {a : Action} {actions : List Action} :
    vm.Spares words (a :: actions) ↔
      executed words (vm.perform a).1 = false ∧ (vm.perform a).2.Spares words actions := by
  simp only [Spares, results, List.forall_mem_cons]

/-- An action that `p` picks may change places with one that it does not, unless that one
executes one of the words. -/
structure Passes (w h : Nat) (p : Action → Bool) (words : Word → Bool) : Prop where
  answer : ∀ (vm : Vm w h) {a b : Action}, p a = true → p b = false →
    ((vm.perform a).2.perform b).1 = (vm.perform b).1
  state : ∀ (vm : Vm w h) {a b : Action}, p a = true → p b = false →
    executed words (vm.perform b).1 = false →
    ((vm.perform a).2.perform b).2 = ((vm.perform b).2.perform a).2

namespace Passes

variable {a : Action} {own : List Action}

/-- Up to the first of the words it makes no difference whether the action comes first. -/
theorem spares_past (hp : Passes w h p words) (ha : p a = true) (hown : ∀ b ∈ own, p b = false) :
    (vm.perform a).2.Spares words own ↔ vm.Spares words own := by
  induction own generalizing vm with
  | nil => simp only [Spares, results]
  | cons b own ih =>
    obtain ⟨hb, hown⟩ := List.forall_mem_cons.mp hown
    rw [spares_cons, spares_cons, hp.answer vm ha hb]
    apply and_congr_right
    intro spared
    rw [hp.state vm ha hb spared]
    exact ih hown

/-- An action that comes before some others may as well come after them. -/
theorem past (hp : Passes w h p words) (ha : p a = true) (hown : ∀ b ∈ own, p b = false)
    (spared : vm.Spares words own) :
    (vm.perform a).2.results own = vm.results own ∧
      (vm.perform a).2.run own = ((vm.run own).perform a).2 := by
  induction own generalizing vm with
  | nil => exact ⟨rfl, rfl⟩
  | cons b own ih =>
    obtain ⟨hb, hown⟩ := List.forall_mem_cons.mp hown
    obtain ⟨first, later⟩ := spares_cons.mp spared
    obtain ⟨answers, state⟩ := ih hown later
    rw [run_cons, run_cons, results, results, hp.answer vm ha hb, hp.state vm ha hb first]
    exact ⟨by rw [answers], state⟩

theorem spares_filter (hp : Passes w h p words) {actions : List Action}
    (spared : vm.Spares words actions) : vm.Spares words (actions.filter (!p ·)) := by
  induction actions generalizing vm with
  | nil => exact spared
  | cons a actions ih =>
    obtain ⟨first, later⟩ := spares_cons.mp spared
    cases ha : p a with
    | true =>
      rw [List.filter_cons_of_neg (by simp [ha])]
      exact (hp.spares_past ha (by simp)).mp (ih later)
    | false =>
      rw [List.filter_cons_of_pos (by simp [ha])]
      exact spares_cons.mpr ⟨first, ih later⟩

/-- All actions that `p` picks may as well come at the end. -/
theorem sorted (hp : Passes w h p words) {actions : List Action}
    (spared : vm.Spares words (actions.filter (!p ·))) :
    vm.answersBut p actions = vm.results (actions.filter (!p ·)) ∧
      vm.run actions = (vm.run (actions.filter (!p ·))).run (actions.filter p) := by
  induction actions generalizing vm with
  | nil => exact ⟨rfl, rfl⟩
  | cons a actions ih =>
    cases ha : p a with
    | true =>
      -- The rest of the history is sorted on the state behind `a`, so what is left is to take
      -- `a` past the actions of that rest that are not picked.
      have hown : ∀ b ∈ actions.filter (!p ·), p b = false := by simp
      rw [List.filter_cons_of_neg (by simp [ha])] at spared ⊢
      obtain ⟨answers, state⟩ := ih ((hp.spares_past ha hown).mpr spared)
      obtain ⟨results, run⟩ := hp.past ha hown spared
      rw [List.filter_cons_of_pos ha, answersBut, if_pos ha, run_cons, run_cons, answers, state,
        results, run]
      exact ⟨rfl, rfl⟩
    | false =>
      rw [List.filter_cons_of_pos (by simp [ha])] at spared ⊢
      obtain ⟨answers, state⟩ := ih (spares_cons.mp spared).2
      rw [List.filter_cons_of_neg (by simp [ha]), answersBut, if_neg (by simp [ha]), run_cons,
        run_cons, results, answers, state]
      exact ⟨rfl, rfl⟩

/-- Both histories come to the same as the one with the picked actions at the end, so they come to
the same. -/
theorem reordered (hp : Passes w h p words) {actions other : List Action}
    (same : Action.Reordered p actions other) (spared : vm.Spares words actions) :
    vm.answersBut p other = vm.answersBut p actions ∧ vm.run other = vm.run actions := by
  have rest : vm.Spares words (actions.filter (!p ·)) := hp.spares_filter spared
  have rest' : vm.Spares words (other.filter (!p ·)) := by rw [same.rest]; exact rest
  obtain ⟨answers, state⟩ := hp.sorted rest
  obtain ⟨answers', state'⟩ := hp.sorted rest'
  rw [answers', state', same.picked, same.rest]
  exact ⟨answers.symm, state.symm⟩

end Passes

/-- A change of the machine that no action notices but a cycle that executes one of the
words. -/
structure Unnoticed (words : Word → Bool) (f : Vm w h → Vm w h) : Prop where
  abreast : ∀ vm : Vm w h, vm.Abreast (f vm)
  counted : ∀ vm, (f vm).counted = f vm.counted
  fetched : ∀ vm, (f vm).fetched = f vm.fetched
  loaded : ∀ (vm : Vm w h) address program pc,
    { f vm with memory := (f vm).memory.put address program, pc := pc } =
      f { vm with memory := vm.memory.put address program, pc := pc }
  after : ∀ (vm : Vm w h) {word op}, Op.decode word = some op → words word = false →
    (f vm).after op = f (vm.after op)

namespace Unnoticed

variable {f : Vm w h → Vm w h}

theorem cycle_answer (hf : Unnoticed words f) (vm : Vm w h) : (f vm).cycle.1 = vm.cycle.1 :=
  ((hf.abreast vm).cycle (R := fun _ _ => True) trivial trivial fun _ _ _ => trivial).1

/-- A cycle that executes none of the words keeps the change as it is. -/
theorem cycle_state (hf : Unnoticed words f)
    (spared : executed words (vm.cycle.1.map some) = false) : (f vm).cycle.2 = f vm.cycle.2 := by
  refine ((hf.abreast vm).cycle (R := fun v v' => v' = f v) (hf.counted vm) (hf.fetched vm) ?_).2
  intro word op reads decodes accepts
  rw [cycle_of_accepted reads decodes accepts] at spared
  rw [hf.fetched, hf.after vm.fetched decodes spared]

theorem load (hf : Unnoticed words f) (vm : Vm w h) (program : List UInt8) :
    (f vm).perform (.load program) =
      ((vm.perform (.load program)).1, f (vm.perform (.load program)).2) := by
  by_cases hp : program.length ≤ Memory.programSpace
  · rw [perform_load_of_le vm hp, perform_load_of_le (f vm) hp, hf.loaded]
  · rw [perform_load_of_gt vm (Nat.lt_of_not_le hp), perform_load_of_gt (f vm) (Nat.lt_of_not_le hp)]

theorem answer (hf : Unnoticed words f) (vm : Vm w h) (b : Action) :
    ((f vm).perform b).1 = (vm.perform b).1 := by
  cases b with
  | load program => rw [hf.load]
  | cycle => exact congrArg (Except.map some) (hf.cycle_answer vm)
  | tick => rfl
  | press key => rw [perform_press, perform_press]
  | release key => rw [perform_release, perform_release]

end Unnoticed

def withKey (vm : Vm w h) (k : Digit) (on : Bool) : Vm w h :=
  { vm with keypad := vm.keypad.put k on }

theorem unnoticed_tick : Unnoticed Word.timed (tick : Vm w h → Vm w h) where
  abreast vm := ⟨rfl, rfl, rfl, rfl⟩
  counted vm := rfl
  fetched vm := rfl
  loaded vm address program pc := rfl
  after vm word op decodes spared := by
    have hs := Op.spelled_of_decode decodes
    cases op with
    | getDelay x | setDelay x | setSound x =>
      obtain ⟨hf, -, hn⟩ := hs
      simp [Word.timed, Digit.of, hf, hn] at spared
    | _ => rfl

theorem unnoticed_withKey (k : Digit) (on : Bool) :
    Unnoticed Word.keyed (fun vm : Vm w h => vm.withKey k on) where
  abreast vm := ⟨rfl, rfl, rfl, rfl⟩
  counted vm := rfl
  fetched vm := rfl
  loaded vm address program pc := rfl
  after vm word op decodes spared := by
    have hs := Op.spelled_of_decode decodes
    cases op with
    | skipKey x | skipNoKey x | waitKey x =>
      obtain ⟨hf, -, hn⟩ := hs
      simp [Word.keyed, Digit.of, hf, hn] at spared
    | _ => rfl

/-- A tick may change places with whatever executes no word of the timers. -/
theorem passes_tick : Passes w h Action.isTick Word.timed where
  answer vm a b ha _ := by
    cases a with
    | tick => exact unnoticed_tick.answer vm b
    | _ => cases ha
  state vm a b ha _ spared := by
    cases a with
    | tick =>
      cases b with
      | load program =>
        change (vm.tick.perform (.load program)).2 = (vm.perform (.load program)).2.tick
        rw [unnoticed_tick.load]
      | cycle => exact unnoticed_tick.cycle_state spared
      | tick => rfl
      | press key => rw [perform_press, perform_press]; rfl
      | release key => rw [perform_release, perform_release]; rfl
    | _ => cases ha

theorem exists_key {a : Action} (ha : a.isKey = true) :
    ∃ k on, ∀ vm : Vm w h, (vm.perform a).2 = vm.withKey k on := by
  cases a with
  | press key => exact ⟨key, true, fun vm => by rw [perform_press]; rfl⟩
  | release key => exact ⟨key, false, fun vm => by rw [perform_release]; rfl⟩
  | _ => cases ha

/-- A key event may change places with whatever executes no word of the keypad and is no key
event. -/
theorem passes_key : Passes w h Action.isKey Word.keyed where
  answer vm a b ha _ := by
    obtain ⟨k, on, hk⟩ := exists_key ha
    rw [hk]
    exact (unnoticed_withKey k on).answer vm b
  state vm a b ha hb spared := by
    obtain ⟨k, on, hk⟩ := exists_key ha
    rw [hk, hk]
    cases b with
    | load program => rw [(unnoticed_withKey k on).load]
    | cycle => exact (unnoticed_withKey k on).cycle_state spared
    | tick => rfl
    | _ => cases hb

/-- The ticks of a history may stand anywhere, if no cycle executes a word of the timers, and
so may its key events, in their order, if none executes a word of the keypad. The other actions
give the same results, and the history ends in the same state. -/
theorem interleaving_irrelevant :
    (∀ (vm : Vm w h) (actions other : List Action), Action.Reordered Action.isTick actions other →
      vm.Spares Word.timed actions →
      vm.answersBut Action.isTick other = vm.answersBut Action.isTick actions ∧
        vm.run other = vm.run actions) ∧
      ∀ (vm : Vm w h) (actions other : List Action), Action.Reordered Action.isKey actions other →
        vm.Spares Word.keyed actions →
        vm.answersBut Action.isKey other = vm.answersBut Action.isKey actions ∧
          vm.run other = vm.run actions := by
  constructor
  · intro vm actions other same spared
    exact passes_tick.reordered same spared
  · intro vm actions other same spared
    exact passes_key.reordered same spared

/-- A register set, a word that is no instruction and a return to nowhere, while both timers
run. -/
def calm : Vm 64 32 :=
  { initial 64 32 ⟨1⟩ with
    memory := Memory.put ⟨Vector.replicate 4096 0⟩ 0 [0x60, 0x05, 0xFF, 0xFF, 0x00, 0xEE]
    timers := ⟨1, 9⟩ }

def among (a b : Action) : List Action := [a, .cycle, b, .cycle, .cycle]

def behind (a b : Action) : List Action := [.cycle, .cycle, .cycle, a, b]

theorem calm_ticks : calm.Spares Word.timed (among .tick .tick) := by
  unfold Spares
  decide +kernel

theorem calm_keys :
    calm.Spares Word.keyed (among (.press (Digit.of 7)) (.release (Digit.of 7))) := by
  unfold Spares
  decide +kernel

/-- Ticks and keys may be put off behind three cycles of which two fail. -/
theorem calm_interleaved :
    (calm.Spares Word.timed (among .tick .tick) ∧
        calm.run (behind .tick .tick) = calm.run (among .tick .tick)) ∧
      calm.Spares Word.keyed (among (.press (Digit.of 7)) (.release (Digit.of 7))) ∧
        calm.run (behind (.press (Digit.of 7)) (.release (Digit.of 7))) =
          calm.run (among (.press (Digit.of 7)) (.release (Digit.of 7))) := by
  have ticks := interleaving_irrelevant.1 calm (among .tick .tick) (behind .tick .tick)
    ⟨rfl, rfl⟩ calm_ticks
  have keys := interleaving_irrelevant.2 calm
    (among (.press (Digit.of 7)) (.release (Digit.of 7)))
    (behind (.press (Digit.of 7)) (.release (Digit.of 7))) ⟨rfl, rfl⟩ calm_keys
  exact ⟨⟨calm_ticks, ticks.2⟩, calm_keys, keys.2⟩

end Vm

end ChipEight
