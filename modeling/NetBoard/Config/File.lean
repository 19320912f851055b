/-
  NetBoard.Config.File
  ────────────────────
  **CONFIGURATION FILES.**

  A configuration file is a TOML document with settings of the program and a
  section for every board.

  Main definitions:

      Config.parse — the configuration in a text
-/
import NetBoard.Config.Board
import NetBoard.Log

namespace NetBoard

open Toml (Reader)

/-! ## §1. Reading. -/

/-- What a configuration file says. -/
structure Config where
  /-- The verbosity of the log. -/
  debug : Option Nat := none
  timeZone : Option String := none
  timeFormat : Option String := none
  /-- The file for the process number of a daemon. -/
  pid : Option String := none
  workingDir : Option String := none
  mainLog : Option String := none
  errorLog : Option String := none
  board : Option (List Config.BoardSection) := none
  deriving Repr, DecidableEq, Inhabited

namespace Config

/-- The configuration of a value. -/
def read : Reader Config := fun v => do
  let e ← Reader.record
    ["debug", "time_zone", "time_format", "pid", "working_dir", "main_log", "error_log", "board"] v
  return {
    debug := ← e.optional "debug" (Reader.unsigned 8)
    timeZone := ← e.optional "time_zone" Reader.text
    timeFormat := ← e.optional "time_format" Reader.text
    pid := ← e.optional "pid" Reader.text
    workingDir := ← e.optional "working_dir" Reader.text
    mainLog := ← e.optional "main_log" Reader.text
    errorLog := ← e.optional "error_log" Reader.text
    board := ← e.optional "board" (Reader.many BoardSection.read) }

/-- The configuration in a text. -/
def parse (text : String) : Except Fault Config :=
  match (Toml.parse text).bind fun entries => read (.table false entries) with
  | some c => .ok c
  | none => .error (.config "cannot parse configuration file")

/-! ## §2. Settings of the program. -/

/-- The verbosity of the log. -/
def debugLevel (c : Config) : Nat := c.debug.getD Log.info

/-- The clock of the time stamps: 1 is UTC, 0 the local one. -/
def clock (c : Config) : Nat := if c.timeZone = some "utc" then 1 else 0

/-- The form of the time stamps: 0 for none, 1 for the short one, 2 for the long one. -/
def stamp (c : Config) : Nat :=
  match c.timeFormat with
  | some "short" => 1
  | some "rfc2822" => 2
  | _ => 0

/-- The file for the process number of a daemon. -/
def pidFile (c : Config) : String := c.pid.getD "/var/run/retherd.pid"

/-- The directory a daemon works in. -/
def directory (c : Config) : String := c.workingDir.getD "/tmp"

/-- The file for the log of a daemon. -/
def mainLogFile (c : Config) : String := c.mainLog.getD "/var/log/retherd.log"

/-- The file for the errors of a daemon. -/
def errorLogFile (c : Config) : String := c.errorLog.getD "/var/log/retherd-error.log"

/-- The sections of the boards, in order. -/
def boards (c : Config) : List BoardSection := c.board.getD []

end Config
end NetBoard
