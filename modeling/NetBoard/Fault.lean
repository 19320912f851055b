/-
  NetBoard.Fault
  ──────────────
  **WHAT CAN GO WRONG WHILE A BOARD IS BUILT OR RUN.**

  A fault is a cause; its wording is in `Fault.message` alone.  Errors of a
  single frame are never faults: the layer that sees them counts them.
-/
import NetBoard.Text.Number

namespace NetBoard

/-- The causes for which building or running a board is refused. -/
inductive Fault where
  /-- A second subscriber asked for an Ethernet type. -/
  | etherTypeTaken (type : UInt16)
  /-- A second subscriber asked for an IP protocol. -/
  | protocolTaken (protocol : UInt16)
  /-- A second subscriber asked for a UDP port. -/
  | portTaken (port : UInt16)
  /-- The bus width, in octets, is not one of 1, 2, 4 and 8. -/
  | unsupportedWidth (width : Nat)
  /-- A parameter or a configuration file is refused, with the reason. -/
  | config (reason : String)
  /-- The operating system refused an operation, with its own text. -/
  | io (reason : String)
  deriving Repr, DecidableEq, Inhabited

namespace Fault

/-- The text shown to the operator. -/
def message : Fault → String
  | etherTypeTaken t => s!"ethernet type {Text.hexTagged 4 t.toNat} already assigned"
  | protocolTaken p => s!"protocol {Text.hexTagged 2 p.toNat} already assigned"
  | portTaken p => s!"port {Text.hexTagged 1 p.toNat} already assigned"
  | unsupportedWidth w => s!"invalid data width of {w} byte(s), expected 1, 2, 4 or 8"
  | config reason => s!"configuration error: {reason}"
  | io reason => s!"i/o error: {reason}"

/-- The text of the cause below the fault: only the operating system has one. -/
def source? : Fault → Option String
  | io reason => some reason
  | _ => none

end Fault
end NetBoard
