/-
  NetBoard.Log
  ────────────
  **THE LOG.**

  Every layer returns the lines it wants to say together with its new state;
  nothing is printed inside the protocol code.  A line carries the level from
  which it is shown, the name of the part that speaks, and its text.
-/
import NetBoard.Text.Scan

namespace NetBoard.Log

/-! ## §1. Levels. -/

/-- Always shown. -/
def info : Nat := 0
/-- Shown from level one: a layer came up. -/
def low : Nat := 1
/-- Shown from level two: something was dropped. -/
def medium : Nat := 2
/-- Shown from level three: a packet was handled. -/
def high : Nat := 3
/-- Shown from level five: every frame and state change. -/
def extensive : Nat := 5

/-! ## §2. Lines. -/

/-- One line of the log. -/
structure Line where
  /-- The least verbosity that shows the line. -/
  level : Nat
  /-- The part of the board that speaks. -/
  source : String
  text : String
  deriving Repr, DecidableEq, Inhabited

/-- The line as printed, without a time stamp. -/
def Line.render (l : Line) : String := l.source ++ ": " ++ l.text

/-- The rows the line takes when printed: one more than it has line breaks.  A
carriage return in front of a break belongs to the break. -/
def Line.rows (l : Line) : List String :=
  (Text.split '\n' l.render.toList).map fun row =>
    String.ofList (if row.getLast? = some '\r' then row.dropLast else row)

/-! ## §3. Verbosity. -/

/-- What the operator wants to see. -/
structure Verbosity where
  level : Nat
  /-- The clock of the time stamps: 1 is UTC, any other the local one. -/
  timeZone : Nat
  /-- The form of the time stamps: 0 for none, 2 for the long one, any other for the short one. -/
  timeFormat : Nat
  deriving Repr, DecidableEq, Inhabited

/-- Only unconditional lines, with short local time stamps. -/
def Verbosity.quiet : Verbosity := ⟨info, 0, 1⟩

/-- Does this verbosity show the line? -/
def Verbosity.shows (v : Verbosity) (l : Line) : Bool := l.level ≤ v.level

/-- Are lines preceded by the time in brackets? -/
def Verbosity.stamps (v : Verbosity) : Bool := v.timeFormat != 0

/-- The lines shown, in order. -/
def Verbosity.filter (v : Verbosity) (ls : List Line) : List Line := ls.filter v.shows

end NetBoard.Log
