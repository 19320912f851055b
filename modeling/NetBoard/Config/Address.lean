/-
  NetBoard.Config.Address
  ───────────────────────
  **ADDRESSES AS AN OPERATOR WRITES THEM.**

  Hardware addresses are six groups of two characters between colons, internet
  addresses four decimal numbers between dots.  A group is read as a
  hexadecimal number, so a plus sign may take the place of its first digit.
-/
import NetBoard.Address
import NetBoard.Fault
import NetBoard.Text.Quoted
import NetBoard.Text.Scan

namespace NetBoard

/-! ## §1. Hardware addresses. -/

/-- One group of a hardware address. -/
def MacAddress.group? (cs : List Char) : Option UInt8 :=
  if cs.length = 2 then Text.octet? 16 cs else none

/-- The hardware address written by a text. -/
def MacAddress.ofText? (s : String) : Option MacAddress :=
  match (Text.split ':' s.toList).mapM group? with
  | some [a, b, c, d, e, f] => some ⟨a, b, c, d, e, f⟩
  | _ => none

/-- The hardware address written by a text, or the reason why there is none. -/
def MacAddress.parse (s : String) : Except Fault MacAddress :=
  match ofText? s with
  | some m => .ok m
  | none => .error (.config s!"invalid MAC address {Text.quoted s}")

/-! ## §2. Internet addresses. -/

/-- One number of an internet address: at most three digits, without leading zeros. -/
def Ipv4.group? (cs : List Char) : Option UInt8 :=
  if 3 < cs.length ∨ (cs.head? = some '0' ∧ 1 < cs.length) then none
  else match Text.digits? 10 cs with
    | some n => if n < 256 then some (UInt8.ofNat n) else none
    | none => none

/-- The internet address written by a text. -/
def Ipv4.ofText? (s : String) : Option Ipv4 :=
  match (Text.split '.' s.toList).mapM group? with
  | some [a, b, c, d] => some ⟨a, b, c, d⟩
  | _ => none

/-- The internet address written by a text, or the reason why there is none. -/
def Ipv4.parse (s : String) : Except Fault Ipv4 :=
  match ofText? s with
  | some a => .ok a
  | none => .error (.config s!"invalid IPv4 address {Text.quoted s}")

end NetBoard
