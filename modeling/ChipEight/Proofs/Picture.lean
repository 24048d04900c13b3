import ChipEight.Proofs.Footprint
import ChipEight.Proofs.Session

/-!
# What the window shows

A frame is the screen turned upside down and enlarged, byte by byte. The image in the window is
replaced at a drawing only if the screen is marked stale, and the mark is set by every
instruction that writes the screen and taken away by nothing but a drawing. So the image always
shows the screen of the drawing, old or new.
-/
namespace ChipEight

namespace Frame

variable {α β : Type}

theorem length_flatMap_of_length {f : α → List β} {k : Nat} {xs : List α}
    (hf : ∀ a ∈ xs, (f a).length = k) : (xs.flatMap f).length = k * xs.length := by
  induction xs with
  | nil => rfl
  | cons a xs ih =>
    have ht := ih fun b hb => hf b (List.mem_cons_of_mem a hb)
    rw [List.flatMap_cons, List.length_append, hf a List.mem_cons_self, ht, List.length_cons,
      Nat.mul_succ, Nat.add_comm]

/-- Blocks of one length, laid end to end, are found at the multiples of that length. -/
theorem block_flatMap {f : α → List β} {k : Nat} {xs : List α} (hf : ∀ a ∈ xs, (f a).length = k)
    {i : Nat} (hi : i < xs.length) : ((xs.flatMap f).drop (k * i)).take k = f xs[i] := by
  induction xs generalizing i with
  | nil => exact absurd hi (Nat.not_lt_zero i)
  | cons a xs ih =>
    have ha := hf a List.mem_cons_self
    rw [List.flatMap_cons]
    cases i with
    | zero =>
      rw [Nat.mul_zero, List.drop_zero, List.take_left' ha]
      rfl
    | succ i =>
      have e : k * (i + 1) = (f a).length + k * i := by rw [ha, Nat.mul_succ, Nat.add_comm]
      rw [e, List.drop_length_add_append]
      exact ih (fun b hb => hf b (List.mem_cons_of_mem a hb)) (Nat.lt_of_succ_lt_succ hi)

/-- A block within a block. -/
theorem take_drop_take {xs : List α} {m a b : Nat} (h : a + b ≤ m) (start : Nat) :
    (((xs.drop start).take m).drop a).take b = (xs.drop (start + a)).take b := by
  rw [List.drop_take, List.take_take, List.drop_drop, Nat.min_eq_left (by omega)]

theorem getElem?_stretch {n : Nat} (hn : 0 < n) (xs : List α) (i : Nat) :
    (stretch n xs)[i]? = xs[i / n]? := by
  induction xs generalizing i with
  | nil => rfl
  | cons x xs ih =>
    have e : stretch n (x :: xs) = List.replicate n x ++ stretch n xs := rfl
    rw [e]
    by_cases hi : i < n
    · rw [List.getElem?_append_left (by rw [List.length_replicate]; exact hi), Nat.div_eq_of_lt hi]
      simp [hi]
    · have hl : n ≤ i := Nat.le_of_not_lt hi
      rw [List.getElem?_append_right (by rw [List.length_replicate]; exact hl),
        List.length_replicate, ih, Nat.div_eq_sub_div hn hl]
      rfl

@[simp] theorem length_pixel (on : Bool) : (pixel on).length = 4 := rfl

end Frame

namespace Display

variable {w h : Nat}

@[simp] theorem length_row (d : Display w h) (y : Fin h) : (d.row y).length = w := by simp [row]

theorem getElem?_row (d : Display w h) (x : Fin w) (y : Fin h) :
    (d.row y)[x.val]? = some (d.pixel x y) := by
  simp [row]

theorem getElem?_rows (d : Display w h) (y : Fin h) : d.rows[y.val]? = some (d.row y) := by
  simp [rows]

@[simp] theorem length_rows (d : Display w h) : d.rows.length = h := by simp [rows]

end Display

namespace Frame

variable {w h : Nat}

theorem length_enlarge (scale : Nat) (d : Display w h) :
    (enlarge scale d.rows).length = scale * h := by
  simp [enlarge, length_stretch]

theorem length_of_mem_enlarge {scale : Nat} {d : Display w h} {row : List Bool}
    (hr : row ∈ enlarge scale d.rows) : row.length = scale * w := by
  simp only [enlarge, stretch, List.mem_flatMap, List.mem_map, List.mem_reverse] at hr
  obtain ⟨_, ⟨line, hl, rfl⟩, hr⟩ := hr
  obtain ⟨y, -, rfl⟩ := List.mem_map.mp hl
  rw [List.eq_of_mem_replicate hr]
  exact (length_stretch scale _).trans (by rw [Display.length_row])

/-- The enlarged screen, bottom row first. -/
theorem getElem?_enlarge {scale : Nat} (hs : 0 < scale) (d : Display w h) {X Y : Nat}
    (hX : X / scale < w) (hY : Y / scale < h) :
    ∃ row, (enlarge scale d.rows)[Y]? = some row ∧
      row[X]? = some (d.pixel ⟨X / scale, hX⟩ (Fin.rev ⟨Y / scale, hY⟩)) := by
  refine ⟨stretch scale (d.row (Fin.rev ⟨Y / scale, hY⟩)), ?_, ?_⟩
  · have e : h - 1 - Y / scale = (Fin.rev ⟨Y / scale, hY⟩).val := by
      rw [Fin.val_rev, Nat.sub_sub, Nat.add_comm]
    rw [enlarge, getElem?_stretch hs, List.getElem?_map, List.getElem?_reverse (by simpa using hY),
      Display.length_rows, e, Display.getElem?_rows]
    rfl
  · rw [getElem?_stretch hs]
    exact d.getElem?_row ⟨X / scale, hX⟩ _

theorem length_bytes_row {scale : Nat} {d : Display w h} (row : List Bool)
    (hr : row ∈ enlarge scale d.rows) : (row.flatMap pixel).length = 4 * (scale * w) := by
  rw [length_flatMap_of_length fun on _ => length_pixel on, length_of_mem_enlarge hr]

/-- Four bytes a pixel of the enlarged screen. -/
theorem length_data (scale : Nat) (d : Display w h) :
    (data scale d).length = 4 * (scale * w) * (scale * h) := by
  rw [data, bytes, length_flatMap_of_length length_bytes_row, length_enlarge]

/-- The four bytes of a window pixel are the color of the screen pixel under it, rows from the
bottom. -/
theorem color_data {scale : Nat} (hs : 0 < scale) (d : Display w h) {X Y : Nat}
    (hX : X / scale < w) (hY : Y / scale < h) :
    ((data scale d).drop (4 * (scale * w) * Y + 4 * X)).take 4 =
      pixel (d.pixel ⟨X / scale, hX⟩ (Fin.rev ⟨Y / scale, hY⟩)) := by
  obtain ⟨row, hr, hp⟩ := getElem?_enlarge hs d hX hY
  obtain ⟨hy, rfl⟩ := List.getElem?_eq_some_iff.mp hr
  obtain ⟨hx, hp⟩ := List.getElem?_eq_some_iff.mp hp
  have width := length_of_mem_enlarge (List.getElem_mem hy)
  rw [← take_drop_take (show 4 * X + 4 ≤ 4 * (scale * w) by omega), data, bytes,
    block_flatMap length_bytes_row hy, block_flatMap (fun on _ => length_pixel on) hx, hp]

end Frame

structure Picture where
  format : String
  /-- The number of bytes to a row. -/
  pitch : Nat
  data : List UInt8

/-- A picture of a screen, ten times as large, its rows counted from the bottom. -/
structure Picture.Shows (p : Picture) (d : Display 64 32) : Prop where
  format : p.format = "RGBA"
  pitch : p.pitch = 640 * 4
  size : p.data.length = 640 * 320 * 4
  color : ∀ X Y (hX : X < 640) (hY : Y < 320),
    (p.data.drop (p.pitch * Y + 4 * X)).take 4 =
      let v := UInt8.ofNat (255 * (d.pixel ⟨X / 10, by omega⟩ ⟨31 - Y / 10, by omega⟩).toNat)
      [v, v, v, 255]

theorem Frame.shows (d : Display 64 32) :
    Picture.Shows ⟨format, Settings.windowWidth * 4, data Settings.scale d⟩ d where
  format := rfl
  pitch := rfl
  size := length_data Settings.scale d
  color X Y hX hY := by
    have hx : X / 10 < 64 := by omega
    have hy : Y / 10 < 32 := by omega
    have row : Fin.rev ⟨Y / 10, hy⟩ = ⟨31 - Y / 10, by omega⟩ := by
      apply Fin.ext
      simp only [Fin.val_rev]
      omega
    have hc := color_data (show 0 < Settings.scale by decide) d hx hy
    rw [row] at hc
    refine hc.trans ?_
    cases d.pixel ⟨X / 10, hx⟩ ⟨31 - Y / 10, by omega⟩ <;> rfl

namespace Request

def picture? : Request → Option Picture
  | .setImage format pitch data => some ⟨format, pitch, data⟩
  | _ => none

/-- The pictures that the image was given, the latest one last. -/
def pictures (record : List Request) : List Picture := record.filterMap picture?

@[simp] theorem pictures_append (record later : List Request) :
    pictures (record ++ later) = pictures record ++ pictures later := List.filterMap_append ..

end Request

open Request

namespace Vm

variable {w h : Nat} {vm : Vm w h}

theorem stale_of_paints {word : Word} (hc : vm.cycle.1 = .ok word) (hp : word.Paints) :
    vm.cycle.2.screen.stale = true := by
  cases hp with
  | clear ho =>
    have hs : Op.clear.Spelled word := ho
    rw [(after_of_spelled hc hs).2]
    rfl
  | draw hf =>
    have hs : (Op.draw word.x word.y word.n).Spelled word := ⟨hf, rfl, rfl, rfl⟩
    rw [(after_of_spelled hc hs).2]
    rfl

/-- A cycle that executes no such word leaves the screen and its mark alone. -/
theorem screen_of_not_paints (hn : ∀ word, vm.cycle.1 = .ok word → ¬ word.Paints) :
    vm.cycle.2.screen = vm.screen := by
  cases vm.cycle_outcome with
  | stuck _ ends => rw [ends]; rfl
  | unknown _ _ _ ends => rw [ends]; rfl
  | refused _ _ _ _ _ _ ends => rw [ends]; rfl
  | done word op _ decodes _ ends =>
    by_contra hne
    apply hn word (by rw [ends])
    apply vm.fetched.paints_of_screenAfter (Op.spelled_of_decode decodes)
    rw [ends] at hne
    exact hne

end Vm

namespace Window

variable {win : Window} {e : Event}

/-- An event at which a clearing or a drawing instruction is executed. -/
def Paints (win : Window) (e : Event) : Prop :=
  win.Executes e ∧ ∃ word, win.console.vm.cycle.1 = .ok word ∧ word.Paints

inductive Seen (win : Window) (e : Event) (t : Turn Window Unit) : Prop
  | drawn (is : e = .draw) (turn : t = win.draw)
  | painted (other : e ≠ .draw) (paints : win.Paints e)
      (stale : t.state.console.vm.screen.stale = true)
  | unseen (other : e ≠ .draw) (blank : ¬ win.Paints e)
      (screen : t.state.console.vm.screen = win.console.vm.screen)
      (silent : pictures t.requests = [])

theorem pictures_close (win : Window) : pictures win.close.requests = [] := by
  cases hp : win.buzzer.player <;> simp [close, Buzzer.delete, hp, Turn.quiet, pictures, picture?]

theorem cycled_seen (he : win.Executes e) {t : Turn Window Unit}
    (screen : t.state.console.vm.screen = win.console.vm.cycle.2.screen)
    (silent : pictures t.requests = []) : Seen win e t := by
  have other : e ≠ .draw := by
    rintro rfl
    cases he
  by_cases hp : win.Paints e
  · have hp' := hp
    obtain ⟨-, word, hc, hw⟩ := hp'
    exact .painted other hp (by rw [screen]; exact Vm.stale_of_paints hc hw)
  · have same : win.console.vm.cycle.2.screen = win.console.vm.screen :=
      Vm.screen_of_not_paints fun word hc hw => hp ⟨he, word, hc, hw⟩
    exact .unseen other hp (screen.trans same) silent

theorem idle_seen (idle : ¬ win.Executes e) (other : e ≠ .draw) {t : Turn Window Unit}
    (screen : t.state.console.vm.screen = win.console.vm.screen)
    (silent : pictures t.requests = []) : Seen win e t :=
  .unseen other (fun paints => idle paints.1) screen silent

theorem pictures_timerTick (win : Window) (dt : Float) :
    pictures (win.timerTick dt).requests = [] := by
  have update (b : Buzzer) (active : Bool) : pictures (b.update active).requests = [] := by
    cases b with
    | mk player playing =>
      cases player <;> cases active <;> cases playing <;> rfl
  have advance := win.advance_requests dt
  simp only [timerTick]
  cases (win.console.advance dt).result with
  | error f => rw [advance]; rfl
  | ok n =>
    cases n with
    | zero => rw [advance]; rfl
    | succ n => simp [Turn.after, Turn.lift, advance, update]

theorem seen (win : Window) (e : Event) : Seen win e (win.handle e) := by
  cases win.outcome e with
  | executed he _ _ state requests =>
    exact cycled_seen he (by rw [state]; rfl) (by rw [requests]; rfl)
  | halted he _ _ state requests =>
    exact cycled_seen he (by rw [state]; rfl) (by rw [requests]; exact pictures_close _)
  | closed idle ends turn =>
    have other : e ≠ .draw := by
      rintro rfl
      exact stays_of_idle idle nofun nofun ends
    exact idle_seen idle other (by rw [turn]; rfl) (by rw [turn]; exact pictures_close win)
  | switched idle _ drives _ state requests =>
    have other : e ≠ .draw := by
      rintro rfl
      cases drives
    obtain ⟨_, _, _, hs⟩ := state
    exact idle_seen idle other (by rw [hs]) (by rw [requests]; rfl)
  | timed dt is turn =>
    subst is
    obtain ⟨_, _, _, hs⟩ := win.timerTick_state dt
    have idle : ¬ win.Executes (.timer dt) := nofun
    rw [turn]
    exact idle_seen idle nofun (by rw [hs]) (win.pictures_timerTick dt)
  | reported dt is turn =>
    subst is
    obtain ⟨_, _, _, _, hs⟩ := win.bench_state dt
    have idle : ¬ win.Executes (.bench dt) := nofun
    rw [turn]
    exact idle_seen idle nofun (by rw [hs]) (by rw [bench_requests]; rfl)
  | drawn is turn => exact .drawn is turn

/-- A drawing gives the image the picture of a stale screen, and nothing otherwise. -/
theorem pictures_draw (win : Window) : pictures win.draw.requests =
    if win.console.vm.screen.stale then
      [⟨Frame.format, Settings.windowWidth * 4, Frame.data Settings.scale win.console.vm.screen⟩]
    else [] := by
  simp only [draw]
  cases win.console.vm.screen.stale <;> rfl

/-- Whatever a drawing gives to the image, it does so before the image is shown. -/
theorem blit_draw (win : Window) : ∃ before after,
    win.draw.requests = before ++ .blit 0 0 :: after ∧
      pictures before = pictures win.draw.requests := by
  refine ⟨_, [.drawLabel win.frameText, .drawLabel win.cycleText], rfl, ?_⟩
  rw [pictures_draw]
  cases win.console.vm.screen.stale <;> rfl

/-- An image whose screen is not stale shows that screen. -/
def Shown (win : Window) (record : List Request) : Prop :=
  win.console.vm.screen.stale = false →
    ∃ p, (pictures record).getLast? = some p ∧ p.Shows win.console.vm.screen

/-- Every event keeps an image that is not stale in step with the screen. -/
theorem Shown.handle {record : List Request} (hs : win.Shown record) (e : Event) :
    (win.handle e).state.Shown (record ++ (win.handle e).requests) := by
  intro fresh
  rw [pictures_append]
  cases win.seen e with
  | drawn is turn =>
    rw [turn, pictures_draw]
    cases stale : win.console.vm.screen.stale with
    | true =>
      have hp := Frame.shows win.console.vm.screen
      exact ⟨_, List.getLast?_concat .., hp.format, hp.pitch, hp.size, hp.color⟩
    | false =>
      obtain ⟨p, hl, hp⟩ := hs stale
      exact ⟨p, by simpa using hl, hp.format, hp.pitch, hp.size, hp.color⟩
  | painted _ _ stale =>
    rw [stale] at fresh
    cases fresh
  | unseen _ _ screen silent =>
    rw [screen] at fresh ⊢
    obtain ⟨p, hl, hp⟩ := hs fresh
    exact ⟨p, by rw [silent, List.append_nil]; exact hl, hp⟩

end Window

namespace Session

theorem shown_now (s : Session) (events : List Event) : (s.now events).Shown (s.record events) := by
  refine s.keeps ?_ (fun _ _ e hs => hs.handle e) events
  obtain ⟨random, clock, _, hw, -⟩ := s.opened
  intro fresh
  rw [hw] at fresh
  cases fresh

/-- The screen was never drawn, or it was painted and not drawn since. -/
def Undrawn (s : Session) (events : List Event) : Prop :=
  .draw ∉ events ∨ ∃ before e later,
    events = before ++ e :: later ∧ .draw ∉ later ∧ (s.now before).Paints e

theorem not_undrawn_draw (s : Session) (events : List Event) : ¬ s.Undrawn (events ++ [.draw]) := by
  rintro (hd | ⟨before, e, later, hs, hd, paints⟩)
  · exact hd (by simp)
  · rcases concat_eq_append_cons.mp hs with ⟨rfl, rfl, -⟩ | ⟨rest, rfl, -⟩
    · cases paints.1
    · exact hd (by simp)

theorem undrawn_paints (s : Session) {events : List Event} {e : Event}
    (paints : (s.now events).Paints e) : s.Undrawn (events ++ [e]) :=
  .inr ⟨events, e, [], rfl, nofun, paints⟩

/-- An event that neither draws nor paints leaves open what was open. -/
theorem undrawn_concat (s : Session) {events : List Event} {e : Event} (other : e ≠ .draw)
    (blank : ¬ (s.now events).Paints e) : s.Undrawn (events ++ [e]) ↔ s.Undrawn events := by
  have mem (xs : List Event) : .draw ∉ xs ++ [e] ↔ .draw ∉ xs := by
    simp [Ne.symm other]
  constructor
  · rintro (hd | ⟨before, x, later, hs, hd, paints⟩)
    · exact .inl ((mem events).mp hd)
    · rcases concat_eq_append_cons.mp hs with ⟨rfl, rfl, -⟩ | ⟨rest, rfl, rfl⟩
      · exact absurd paints blank
      · exact .inr ⟨before, x, rest, rfl, (mem rest).mp hd, paints⟩
  · rintro (hd | ⟨before, x, later, rfl, hd, paints⟩)
    · exact .inl ((mem events).mpr hd)
    · exact .inr ⟨before, x, later ++ [e], by simp, (mem later).mpr hd, paints⟩

/-- The mark tells whether the screen is yet to be drawn. -/
theorem stale_iff (s : Session) (events : List Event) :
    (s.now events).console.vm.screen.stale = true ↔ s.Undrawn events := by
  induction events using List.reverseRecOn with
  | nil =>
    obtain ⟨random, clock, _, hw, -⟩ := s.opened
    rw [now_nil, hw]
    exact ⟨fun _ => .inl nofun, fun _ => rfl⟩
  | append_singleton events e ih =>
    rw [now_concat]
    cases (s.now events).seen e with
    | drawn is turn =>
      subst is
      rw [turn]
      exact ⟨nofun, fun h => absurd h (s.not_undrawn_draw events)⟩
    | painted _ paints stale => exact ⟨fun _ => s.undrawn_paints paints, fun _ => stale⟩
    | unseen other blank screen _ => rw [screen, ih, s.undrawn_concat other blank]

/-- What can be said of a drawing after some events. -/
structure Drawing (s : Session) (events : List Event) : Prop where
  picture : ∃ p, (pictures (s.record (events ++ [.draw]))).getLast? = some p ∧
    p.Shows (s.now (events ++ [.draw])).console.vm.screen
  blit : ∃ before after, ((s.now events).handle .draw).requests = before ++ .blit 0 0 :: after ∧
    pictures (s.record events ++ before) = pictures (s.record (events ++ [.draw]))
  uploads_iff : pictures ((s.now events).handle .draw).requests ≠ [] ↔ s.Undrawn events

/-- Every drawing shows the screen as it is, and replaces the image only if it has to. -/
theorem drawing_shows (s : Session) (events : List Event) : s.Drawing events := by
  have hd : (s.now events).handle .draw = (s.now events).draw := rfl
  constructor
  case picture =>
    refine s.shown_now (events ++ [Event.draw]) ?_
    rw [now_concat, hd]
    rfl
  case blit =>
    obtain ⟨before, after, hr, hb⟩ := (s.now events).blit_draw
    refine ⟨before, after, hr, ?_⟩
    rw [record_concat, hd, pictures_append, pictures_append, hb]
  case uploads_iff =>
    rw [hd, Window.pictures_draw]
    refine Iff.trans ?_ (s.stale_iff events)
    cases (s.now events).console.vm.screen.stale <;> simp

end Session

end ChipEight
