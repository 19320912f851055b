/-
  NetBoard.Outcome
  ────────────────
  **THE RESULT OF A STEP.**

  One step of a layer gives its new state, says whether it made progress, and
  lists what it logged.  Steps are put together so that progress of any part
  is progress of the whole, and lines keep their order.
-/
import NetBoard.Log

namespace NetBoard

/-- What one step did to a state. -/
structure Outcome (σ : Type) where
  state : σ
  progress : Bool := false
  log : List Log.Line := []
  deriving Repr, DecidableEq, Inhabited

namespace Outcome

variable {σ τ : Type}

/-- Nothing was done. -/
def idle (s : σ) : Outcome σ := { state := s }

/-- Something was done. -/
def moved (s : σ) (log : List Log.Line := []) : Outcome σ := { state := s, progress := true, log }

/-- Continue from the state of a first part. -/
def andThen (o : Outcome σ) (f : σ → Outcome σ) : Outcome σ :=
  let next := f o.state
  { state := next.state, progress := o.progress || next.progress, log := o.log ++ next.log }

/-- The same outcome, seen as one of a larger state. -/
def map (f : σ → τ) (o : Outcome σ) : Outcome τ :=
  { state := f o.state, progress := o.progress, log := o.log }

/-- The same outcome, with progress as the step reports it. -/
def report (progress : Bool) (o : Outcome σ) : Outcome σ := { o with progress }

@[simp] theorem state_map (f : σ → τ) (o : Outcome σ) : (o.map f).state = f o.state := rfl

@[simp] theorem progress_map (f : σ → τ) (o : Outcome σ) :
    (o.map f).progress = o.progress := rfl

@[simp] theorem progress_andThen (o : Outcome σ) (f : σ → Outcome σ) :
    (o.andThen f).progress = (o.progress || (f o.state).progress) := rfl

@[simp] theorem state_andThen (o : Outcome σ) (f : σ → Outcome σ) :
    (o.andThen f).state = (f o.state).state := rfl

/-! ## Repeated steps. -/

/-- The answers of `n` steps in a row. -/
def repeated (step : σ → Outcome σ) (n : Nat) (s : σ) : σ × List Bool × List Log.Line :=
  let (s, answers, logs) := (List.range n).foldl (fun (s, answers, logs) _ =>
    let o := step s
    (o.state, o.progress :: answers, o.log :: logs)) (s, [], [])
  (s, answers.reverse, logs.reverse.flatten)

/-- Step until a step makes no progress, at most `rounds` times: the final
state, the number of steps that made progress, and the log. -/
def settle (step : σ → Outcome σ) (rounds : Nat) (s : σ) : σ × Nat × List Log.Line :=
  go rounds s 0 []
where
  go : Nat → σ → Nat → List (List Log.Line) → σ × Nat × List Log.Line
    | 0, s, done, logs => (s, done, logs.reverse.flatten)
    | left + 1, s, done, logs =>
      let o := step s
      if o.progress then go left o.state (done + 1) (o.log :: logs)
      else (o.state, done, (o.log :: logs).reverse.flatten)

end Outcome
end NetBoard
