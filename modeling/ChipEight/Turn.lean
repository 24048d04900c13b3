import ChipEight.Fault
import ChipEight.Request

/-!
# Turns

A turn is what an action leaves behind: a result, a new state, lines to print and requests to the
host. A failing action may have changed the state and made requests before it failed.
-/
namespace ChipEight

/-- A line of output. Notes are shown only while logging is on. -/
inductive Line where
  | note (text : String)
  | say (text : String)
  deriving DecidableEq, Repr

namespace Line

def shown (logging : Bool) : Line → Option String
  | .note text => if logging then some text else none
  | .say text => some text

/-- The lines that are shown, each ended by a newline. -/
def print (logging : Bool) (lines : List Line) : String :=
  String.join ((lines.filterMap (shown logging)).map (· ++ "\n"))

end Line

/-- One action: the state is the one after it, whether it succeeded or not. -/
structure Turn (σ α : Type) where
  result : Except Fault α
  state : σ
  lines : List Line
  requests : List Request

namespace Turn

variable {σ τ α : Type}

def quiet (state : σ) (result : α) : Turn σ α := ⟨.ok result, state, [], []⟩

/-- A turn of a part, seen from the whole that it belongs to. -/
def lift (t : Turn σ α) (embed : σ → τ) : Turn τ α :=
  ⟨t.result, embed t.state, t.lines, t.requests⟩

/-- Put lines and requests in front. -/
def after (t : Turn σ α) (lines : List Line) (requests : List Request) : Turn σ α :=
  { t with lines := lines ++ t.lines, requests := requests ++ t.requests }

@[simp] theorem lift_state (t : Turn σ α) (embed : σ → τ) :
    (t.lift embed).state = embed t.state := rfl
@[simp] theorem after_state (t : Turn σ α) (lines : List Line) (requests : List Request) :
    (t.after lines requests).state = t.state := rfl

end Turn

end ChipEight
