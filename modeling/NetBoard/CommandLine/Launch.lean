/-
  NetBoard.CommandLine.Launch
  ───────────────────────────
  **WHAT THE PROGRAM IS ASKED TO DO.**

  A launch is what the command line says; a plan is what will be done, once
  the configuration file has been read.
-/
import NetBoard.Config.File

namespace NetBoard

/-- What the command line says. -/
structure Launch where
  interface : Option String := none
  mode : UInt8
  conf : Option String := none
  debug : Option UInt8 := none
  deriving Repr, DecidableEq, Inhabited

/-- The modes of operation. -/
inductive Launch.Mode where
  /-- Show the frames on an interface. -/
  | sniffer
  /-- Run the boards of the configuration file. -/
  | boards
  /-- Run them detached. -/
  | daemon
  deriving Repr, DecidableEq, Inhabited

/-- What will be done. -/
inductive Launch.Plan where
  | sniff (interface : String) (verbosity : Log.Verbosity)
  | serve (config : Config) (detached : Bool) (verbosity : Log.Verbosity)
  deriving Repr, DecidableEq, Inhabited

namespace Launch

/-- The interface to listen on. -/
def interfaceName (l : Launch) : String := l.interface.getD ""

/-- The configuration file. -/
def confPath (l : Launch) : String := l.conf.getD "/etc/retherd/retherd.conf"

/-- The mode, if there is one of this number. -/
def mode? (l : Launch) : Except Fault Mode :=
  match l.mode with
  | 0 => .ok .sniffer
  | 1 => .ok .boards
  | 2 => .ok .daemon
  | m => .error (.config s!"unknown operation mode {m}")

/-- The file needed to make a plan. -/
def file? (l : Launch) : Option String :=
  match l.mode? with
  | .ok .boards | .ok .daemon => some l.confPath
  | _ => none

/-- The verbosity: the command line goes before the configuration file. -/
def verbosity (l : Launch) (c : Config) : Log.Verbosity where
  level := (l.debug.map UInt8.toNat).getD c.debugLevel
  timeZone := c.clock
  timeFormat := c.stamp

/-- The plan, given the text of the configuration file or the reason why it
could not be read. -/
def plan (l : Launch) (content : Except String String) : Except Fault Plan := do
  let serve (detached : Bool) : Except Fault Plan := do
    let text ← content.mapError Fault.io
    let c ← Config.parse text
    return .serve c detached (l.verbosity c)
  match ← l.mode? with
  | .sniffer => return .sniff l.interfaceName (l.verbosity {})
  | .boards => serve false
  | .daemon => serve true

end Launch
end NetBoard
