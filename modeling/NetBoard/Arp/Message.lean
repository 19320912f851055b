/-
  NetBoard.Arp.Message
  ────────────────────
  **ADDRESS RESOLUTION MESSAGES.**

  The message of the protocol for IPv4 over Ethernet, its 28-octet header, and
  what a resolver is asked and answers.
-/
import NetBoard.Ethernet.Frame
import NetBoard.Text.Record

namespace NetBoard.Arp

/-! ## §1. On the wire. -/

/-- The header, which is the whole message. -/
def header : Header where
  fields :=
    [⟨"hwtype", 0, 0, 16⟩, ⟨"proto", 2, 0, 16⟩, ⟨"hwsize", 4, 0, 8⟩, ⟨"protosize", 5, 0, 8⟩,
     ⟨"opcode", 6, 0, 16⟩, ⟨"sender_mac", 8, 0, 48⟩, ⟨"sender_ip", 14, 0, 32⟩,
     ⟨"target_mac", 18, 0, 48⟩, ⟨"target_ip", 24, 0, 32⟩]
  length := 28

/-- What a message is for. -/
inductive Operation where
  /-- Who has the target address? -/
  | request
  /-- The sender has its address. -/
  | reply
  deriving Repr, DecidableEq, Inhabited

namespace Operation

/-- The number of the operation. -/
def code : Operation → Nat
  | request => 1
  | reply => 2

/-- The operation of a number. -/
def ofCode? : Nat → Option Operation
  | 1 => some request
  | 2 => some reply
  | _ => none

/-- The name in messages. -/
def name : Operation → String
  | request => "request"
  | reply => "reply"

theorem ofCode?_code (o : Operation) : ofCode? o.code = some o := by
  cases o <;> rfl

end Operation

/-- A message between IPv4 stations on Ethernet. -/
structure Message where
  operation : Operation
  senderMac : MacAddress
  senderIp : Ipv4
  targetMac : MacAddress
  targetIp : Ipv4
  deriving Repr, DecidableEq, Inhabited

namespace Message

/-- The header of a message. -/
def fields (m : Message) : Fields :=
  (((((((((({} : Fields).set "hwtype" 1).set "proto" 0x0800).set "hwsize" 6).set
    "protosize" 4).set "opcode" m.operation.code).set "sender_mac" m.senderMac.toNat).set
    "sender_ip" m.senderIp.toNat).set "target_mac" m.targetMac.toNat).set
    "target_ip" m.targetIp.toNat)

/-- The message of a header; none if it is not about IPv4 on Ethernet or its operation is unknown. -/
def ofFields? (values : Fields) : Option Message :=
  if values.get "hwtype" = 1 ∧ values.get "proto" = 0x0800 ∧ values.get "hwsize" = 6
      ∧ values.get "protosize" = 4 then
    (Operation.ofCode? (values.get "opcode")).map fun operation =>
      { operation
        senderMac := values.mac "sender_mac"
        senderIp := values.ip "sender_ip"
        targetMac := values.mac "target_mac"
        targetIp := values.ip "target_ip" }
  else none

end Message

/-! ## §2. Between resolver and asker. -/

/-- The answer to a lookup. -/
structure Answer where
  /-- The address that was asked for. -/
  ip : Ipv4
  /-- Its hardware address; none if the lookup failed. -/
  mac : Option MacAddress
  deriving Repr, DecidableEq, Inhabited

/-- The answer in log lines; a failed one shows a zero hardware address. -/
def Answer.text (a : Answer) : String :=
  Text.record "ArpResponse"
    [("ip_address", Text.octets a.ip.octets),
     ("mac_address", Text.octets (a.mac.getD (.ofNat 0)).octets),
     ("failed", toString a.mac.isNone)]

/-- The pipes between the resolver and its asker. -/
structure Table where
  /-- Addresses to look up. -/
  lookups : Pipe Ipv4
  answers : Pipe Answer
  deriving Repr, DecidableEq, Inhabited

/-- One lookup and one answer at a time. -/
def Table.make : Table := ⟨.make 1, .make 1⟩

end NetBoard.Arp
