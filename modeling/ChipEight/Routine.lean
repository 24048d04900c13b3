import ChipEight.Fault

/-!
# Routines

A routine is a computation on a state that may fail on the way. What a routine has done before it
fails stays done, so one that is to leave nothing half done has to make its checks before its
writes.
-/
namespace ChipEight

abbrev Routine (σ α : Type) := ExceptT Fault (StateM σ) α

namespace Routine

variable {σ α β : Type}

/-- Run from a state: the result or the fault, and the state left behind. -/
def on (r : Routine σ α) (s : σ) : Except Fault α × σ := (ExceptT.run r).run s

/-- An operation that is refused as a whole or done as a whole. -/
def attempt (f : σ → Except Fault (α × σ)) : Routine σ α := ExceptT.mk fun s =>
  match f s with
  | .error e => (.error e, s)
  | .ok (a, t) => (.ok a, t)

@[simp] theorem on_pure (a : α) (s : σ) : on (pure a) s = (.ok a, s) := rfl
@[simp] theorem on_throw (f : Fault) (s : σ) : on (throw f : Routine σ α) s = (.error f, s) := rfl
@[simp] theorem on_get (s : σ) : on (get : Routine σ σ) s = (.ok s, s) := rfl
@[simp] theorem on_modify (f : σ → σ) (s : σ) : on (modify f) s = (.ok (), f s) := rfl

/-- An operation that is refused leaves the state as it was. -/
@[simp] theorem on_attempt (f : σ → Except Fault (α × σ)) (s : σ) :
    (attempt f).on s = match f s with
      | .error e => (.error e, s)
      | .ok (a, t) => (.ok a, t) := rfl

/-- A routine goes on from the state that the one before has left, unless that one has failed. -/
@[simp] theorem on_bind (r : Routine σ α) (k : α → Routine σ β) (s : σ) :
    (r >>= k).on s = match r.on s with
      | (.error e, t) => (.error e, t)
      | (.ok a, t) => (k a).on t := by
  simp only [on, ExceptT.run, StateT.run, bind, ExceptT.bind, ExceptT.mk, StateT.bind]
  cases r s with
  | mk result t => cases result <;> rfl

end Routine

end ChipEight
