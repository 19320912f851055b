/-
  NetBoard.Dhcp.Message
  ─────────────────────
  **HOST CONFIGURATION MESSAGES.**

  A message is a fixed part of 236 octets, a magic number, and a list of
  options.  The client writes discoveries and requests, and reads offers and
  acknowledgements.

  Main definitions:

      options        — the options of a list that is properly ended
      Reply.read?    — the reply in a datagram, if it is one to this exchange
      solicitation   — the octets of a discovery or a request
-/
import NetBoard.Udp.Packet

namespace NetBoard.Dhcp

/-! ## §1. Numbers of the standard. -/

/-- The port servers listen on. -/
def serverPort : UInt16 := 67

/-- The port clients listen on. -/
def clientPort : UInt16 := 68

/-- The octets before the magic number. -/
def fixedLength : Nat := 236

/-- Where the options start. -/
def optionsStart : Nat := fixedLength + 4

/-- The fewest octets of a reply: its fixed part, the magic number and room
for the type of the message. -/
def minReplyLength : Nat := optionsStart + 4

/-- The number that announces options. -/
def magicCookie : Nat := 0x63825363

namespace Code

def pad : UInt8 := 0
def subnetMask : UInt8 := 1
def router : UInt8 := 3
def requestedAddress : UInt8 := 50
def leaseTime : UInt8 := 51
def messageType : UInt8 := 53
def server : UInt8 := 54
def parameterList : UInt8 := 55
def clientIdentifier : UInt8 := 61
def close : UInt8 := 255

end Code

/-- What a message is. -/
inductive Kind where
  | discover
  | offer
  | request
  | ack
  deriving Repr, DecidableEq, Inhabited

/-- The number of a kind. -/
def Kind.code : Kind → UInt8
  | discover => 1
  | offer => 2
  | request => 3
  | ack => 5

/-! ## §2. Options. -/

/-- An option: its code and its value. -/
structure Item where
  code : UInt8
  value : Bytes
  deriving Repr, DecidableEq, Inhabited

/-- The options in `bs`: padding is skipped, and the list must be closed
before the octets end.  What follows the close does not matter. -/
def options (bs : Bytes) : Option (List Item) := go [] bs
where
  go (found : List Item) : Bytes → Option (List Item)
    | [] => none
    | code :: rest =>
      -- padding and the close are the only items without a length
      if code = Code.pad then go found rest
      else if code = Code.close then some found.reverse
      else
        match rest with
        | [] => none
        | length :: rest =>
          let value := rest.take length.toNat
          if value.length < length.toNat then none
          else go (⟨code, value⟩ :: found) (rest.drop length.toNat)
  termination_by bs => bs.length
  decreasing_by all_goals simp only [List.length_drop, List.length_cons]; omega

/-- The value of the last option of a code that has at least `least` octets. -/
def value? (items : List Item) (code : UInt8) (least : Nat) : Option Bytes :=
  (items.reverse.find? fun i => i.code == code && decide (least ≤ i.value.length)).map (·.value)

/-- The first four octets of a value as a number. -/
def word (value : Bytes) : Nat := Bytes.toNatBE (value.take 4)

/-- The first four octets of a value as an address. -/
def address (value : Bytes) : Ipv4 := .ofNat (word value)

/-! ## §3. Replies. -/

/-- What a server offers or acknowledges. -/
structure Reply where
  kind : Kind
  /-- The address for the client. -/
  ip : Ipv4
  server : Ipv4
  subnetMask : Ipv4
  gateway : Ipv4
  /-- Seconds. -/
  leaseTime : Nat
  deriving Repr, DecidableEq, Inhabited

namespace Reply

/-- The kind of a reply, from the value of its message type. -/
def kind? (value : Bytes) : Option Kind :=
  match value.head? with
  | some 2 => some .offer
  | some 5 => some .ack
  | _ => none

/-- Is the fixed part that of a reply to this client and exchange? -/
def addressedTo (mac : MacAddress) (xid : UInt32) (bs : Bytes) : Bool :=
  bs.head? == some 2 && word (bs.drop 4) == xid.toNat && (bs.drop 28).take 6 == mac.octets
    && word (bs.drop fixedLength) == magicCookie

/-- The reply of a fixed part and its options.  A server that does not name
itself in an option is known by its place in the fixed part. -/
def ofItems? (bs : Bytes) (items : List Item) : Option Reply := do
  let kind ← (value? items Code.messageType 1).bind kind?
  let subnetMask ← value? items Code.subnetMask 4
  let gateway ← value? items Code.router 4
  let leaseTime ← value? items Code.leaseTime 4
  let server := (value? items Code.server 4).getD (bs.drop 20)
  return {
    kind
    ip := address (bs.drop 16)
    server := address server
    subnetMask := address subnetMask
    gateway := address gateway
    leaseTime := word leaseTime }

/-- The reply in a datagram that reached a port of `width` lanes. -/
def read? (mac : MacAddress) (xid : UInt32) (width : Nat) (p : Udp.UserPacket) : Option Reply :=
  if p.srcPort ≠ serverPort ∨ p.length < minReplyLength then none
  else
    let bs := p.bytes width
    if bs.length < minReplyLength ∨ !addressedTo mac xid bs then none
    else (options (bs.drop optionsStart)).bind (ofItems? bs)

end Reply

/-! ## §4. Solicitations. -/

/-- The octets of an option. -/
def Item.encode (i : Item) : Bytes := i.code :: UInt8.ofNat i.value.length :: i.value

/-- The fixed part of a message to any server; the answer is wanted as a broadcast. -/
def fixedPart (mac : MacAddress) (xid : UInt32) : Bytes :=
  [1, 1, 6, 0] ++ Bytes.ofNatBE 4 xid.toNat ++ [0, 0, 0x80, 0] ++ List.replicate 16 0
    ++ mac.octets ++ List.replicate 202 0

/-- The options of a discovery, or of a request for what was offered. -/
def solicitationItems (mac : MacAddress) (accepted : Option Reply) : List Item :=
  let kind : Kind := if accepted.isSome then .request else .discover
  let naming : List Item := match accepted with
    | none => []
    | some offer =>
      [⟨Code.requestedAddress, offer.ip.octets⟩, ⟨Code.server, offer.server.octets⟩]
  [⟨Code.messageType, [kind.code]⟩, ⟨Code.clientIdentifier, mac.octets⟩,
   ⟨Code.parameterList, [Code.subnetMask, Code.router]⟩] ++ naming

/-- The octets of a discovery, or of a request for what was offered. -/
def solicitation (mac : MacAddress) (xid : UInt32) (accepted : Option Reply) : Bytes :=
  fixedPart mac xid ++ Bytes.ofNatBE 4 magicCookie
    ++ (solicitationItems mac accepted).flatMap Item.encode ++ [Code.close]

@[simp] theorem length_fixedPart (mac : MacAddress) (xid : UInt32) :
    (fixedPart mac xid).length = fixedLength := by
  simp only [fixedPart, List.length_append, List.length_replicate, Bytes.length_ofNatBE,
    MacAddress.octets, List.length_cons, List.length_nil, fixedLength]

end NetBoard.Dhcp
