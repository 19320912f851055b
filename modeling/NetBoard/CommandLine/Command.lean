/-
  NetBoard.CommandLine.Command
  ────────────────────────────
  **THE COMMAND LINE OF THE PROGRAM.**

  A command line asks for the version, for help, or for a launch.  The
  program's answer is a report: what it prints and its exit status.  Frames
  are exchanged through a raw socket, which is outside this library: a launch
  that comes so far reports that there is none.

  Main definitions:

      Command.parse   — the command of a command line
      Command.report  — the answer to a command line
-/
import NetBoard.CommandLine.Launch
import NetBoard.CommandLine.Program

namespace NetBoard

open CommandLine

/-! ## §1. Commands. -/

/-- What a command line asks for. -/
inductive Command where
  | version
  | help
  | launch (l : Launch)
  deriving Repr, DecidableEq, Inhabited

namespace Command

/-- The argument of a flag as a number of eight bits. -/
def number (settings : List Setting) (long what : String) : Except String (Option UInt8) :=
  match argument? settings long with
  | none => .ok none
  | some s =>
    match Text.octet? 10 s.toList with
    | some n => .ok (some n)
    | none => .error s!"invalid {what} {Text.quoted s}"

/-- The launch asked for by these flags, or what is wrong with them. -/
def launchOf (settings : List Setting) : Except String Launch := do
  let mode ← match ← number settings "mode" "operation mode" with
    | none => .error "no operation mode specified (-m)"
    | some m =>
      if m ≤ 2 then .ok m else .error s!"unknown operation mode {m}, expected 0, 1 or 2"
  -- the mode is judged before the interface, and that before the verbosity
  let interface := argument? settings "iface"
  if mode = 0 ∧ interface = none then .error "the sniffer needs an interface (-i)"
  else
    let debug ← number settings "debug" "debugging level"
    return { interface, mode, conf := argument? settings "conf", debug }

/-- The command of a command line, or what is wrong with it.  A command line
without words asks for help. -/
def parse (words : List String) : Except String Command := do
  let settings ← (CommandLine.parse Program.flags words).mapError Misuse.message
  if has settings "version" then return .version
  else if has settings "help" || words.isEmpty then return .help
  else return .launch (← launchOf settings)

/-! ## §2. Reports. -/

/-- What the program prints, and its exit status. -/
structure Report where
  status : UInt32 := 0
  output : String := ""
  errors : String := ""
  deriving Repr, DecidableEq, Inhabited

/-- An error after some output. -/
def Report.failed (output reason : String) : Report where
  status := 1
  output := output
  errors := s!"Error: {reason}\n"

/-- What is printed before a launch. -/
def greeting : String := s!"{Program.banner}\nStarting {Program.name} v{Program.version}\n"

/-- The fault of a launch: of its plan, or that nothing can be exchanged. -/
def launchFault (l : Launch) (content : Except String String) : Fault :=
  match l.plan content with
  | .error f => f
  | .ok _ => .io "raw sockets are not available"

/-- The answer to a command line, given the text of the file it needs or the
reason why it could not be read. -/
def report (words : List String) (content : Except String String) : Report :=
  match parse words with
  | .error reason => .failed "" reason
  | .ok .version => { output := s!"{Program.name} v{Program.version}\n" }
  | .ok .help => { output := Program.help }
  | .ok (.launch l) =>
    .failed greeting s!"boards stopped on error: {(launchFault l content).message}"

/-- The file a command line needs to be answered. -/
def file? (words : List String) : Option String :=
  match parse words with
  | .ok (.launch l) => l.file?
  | _ => none

end Command
end NetBoard
