/-
  NetBoard.Proofs.Dhcp.Message
  ────────────────────────────
  **WHAT MESSAGES SAY.**

  The messages of both sides are read in the same way: a fixed part with the
  direction, the number of the exchange and the hardware address, the magic
  number, and the options.  What the client writes is read back as what it
  meant, and what it accepts as a reply says all that the client relies on.

  Main definitions:

      Begins     — the fixed part and the magic number
      Solicits   — a discovery, or a request for an offer
      Answers    — a reply of a server

  Main statements:

      compose_solicits   — what the client sends
      read?_eq_some_iff  — what is checked of a reply
      read?_answers      — what the client accepts
-/
import NetBoard.Dhcp.Client
import NetBoard.Proofs.Address
import NetBoard.Proofs.Dhcp.Options
import NetBoard.Proofs.Udp.Datagram

namespace NetBoard.Dhcp

open scoped Power

open Udp (UserPacket)

/-! ## §1. Messages. -/

/-- The value of an option of a message. -/
def option? (bs : Bytes) (code : UInt8) (least : Nat) : Option Bytes :=
  (options (bs.drop optionsStart)).bind fun items => value? items code least

/-- The fixed part of a message of this client and exchange, and the magic number. -/
structure Begins (direction : UInt8) (mac : MacAddress) (xid : UInt32) (bs : Bytes) : Prop where
  direction : bs.head? = some direction
  xid : word (bs.drop 4) = xid.toNat
  mac : (bs.drop 28).take 6 = mac.octets
  cookie : word (bs.drop fixedLength) = magicCookie

/-- A discovery, or a request that names the address and the server of an offer. -/
structure Solicits (mac : MacAddress) (xid : UInt32) (width : Nat) (accepted : Option Reply)
    (p : UserPacket) : Prop where
  target : p.ip = ⟨255, 255, 255, 255⟩
  dstPort : p.dstPort = serverPort
  begins : Begins 1 mac xid (p.bytes width)
  kind : option? (p.bytes width) Code.messageType 1 =
    some [(if accepted.isSome then Kind.request else Kind.discover).code]
  ip : option? (p.bytes width) Code.requestedAddress 4 = accepted.map (·.ip.octets)
  server : option? (p.bytes width) Code.server 4 = accepted.map (·.server.octets)

/-- A reply of this kind to the client and exchange, and what the client takes from it. -/
structure Answers (mac : MacAddress) (xid : UInt32) (width : Nat) (kind : Kind) (r : Reply)
    (p : UserPacket) : Prop where
  srcPort : p.srcPort = serverPort
  length : minReplyLength ≤ (p.bytes width).length
  begins : Begins 2 mac xid (p.bytes width)
  kind : (option? (p.bytes width) Code.messageType 1).bind List.head? = some kind.code
  ip : r.ip = address ((p.bytes width).drop 16)
  server : r.server =
    address ((option? (p.bytes width) Code.server 4).getD ((p.bytes width).drop 20))

/-! ## §2. What the client sends. -/

/-- Addresses and single octets fit, and none of the codes means something else. -/
theorem formed_solicitationItems (mac : MacAddress) (accepted : Option Reply) :
    ∀ i ∈ solicitationItems mac accepted, i.Formed := by
  have hsix : mac.octets.length < 256 := by show 6 < 256; decide
  have hfour (ip : Ipv4) : ip.octets.length < 256 := by show 4 < 256; decide
  have hknown : ∀ code ∈ [Code.messageType, Code.clientIdentifier, Code.parameterList,
      Code.requestedAddress, Code.server], code ≠ Code.pad ∧ code ≠ Code.close := by
    simp only [List.forall_mem_cons, List.not_mem_nil, false_implies, implies_true, and_true]
    decide
  have hcodes : ∀ i ∈ solicitationItems mac accepted, i.code ∈ [Code.messageType,
      Code.clientIdentifier, Code.parameterList, Code.requestedAddress, Code.server] := by
    cases accepted <;> simp [solicitationItems]
  have hvalues : ∀ i ∈ solicitationItems mac accepted, i.value.length < 256 := by
    cases accepted with
    | none => simp [solicitationItems, hsix]
    | some offer => simp [solicitationItems, hsix, hfour]
  intro i hi
  obtain ⟨hpad, hclose⟩ := hknown i.code (hcodes i hi)
  exact ⟨hpad, hclose, hvalues i hi⟩

theorem word_ofNatBE {v : Nat} (hv : v < 2 ^ (32 : Nat)) (rest : Bytes) :
    word (Bytes.ofNatBE 4 v ++ rest) = v := by
  unfold word
  rw [List.take_left' (Bytes.length_ofNatBE 4 v), Bytes.toNatBE_ofNatBE]
  exact Nat.mod_eq_of_lt hv

theorem begins_solicitation (mac : MacAddress) (xid : UInt32) (accepted : Option Reply) :
    Begins 1 mac xid (solicitation mac xid accepted) := by
  let options := (solicitationItems mac accepted).flatMap Item.encode ++ [Code.close]
  have hparts : solicitation mac xid accepted =
      fixedPart mac xid ++ (Bytes.ofNatBE 4 magicCookie ++ options) := by
    unfold solicitation
    simp only [options, List.append_assoc]
  refine ⟨?_, ?_, ?_, ?_⟩
  · rw [hparts]
    rfl
  · let rest := [0, 0, 0x80, 0] ++ List.replicate 16 0 ++ mac.octets ++ List.replicate 202 0
    have hxid : (fixedPart mac xid).drop 4 = Bytes.ofNatBE 4 xid.toNat ++ rest := by
      unfold fixedPart
      simp only [rest, List.append_assoc]
      exact List.drop_left' rfl
    rw [hparts, List.drop_append_of_le_length (by rw [length_fixedPart]; decide), hxid,
      List.append_assoc, word_ofNatBE xid.toNat_lt]
  · have hmac : (fixedPart mac xid).drop 28 = mac.octets ++ List.replicate 202 0 := by
      unfold fixedPart
      rw [List.append_assoc]
      exact List.drop_left' rfl
    rw [hparts, List.drop_append_of_le_length (by rw [length_fixedPart]; decide), hmac,
      List.append_assoc]
    exact List.take_left' rfl
  · rw [hparts, List.drop_left' (length_fixedPart mac xid), word_ofNatBE (by decide)]

theorem compose_solicits {c : Client} (hw : 0 < c.width) (h8 : c.width ≤ 8)
    (accepted : Option Reply) : Solicits c.mac c.xid c.width accepted (c.compose accepted) := by
  have hbytes : (c.compose accepted).bytes c.width = solicitation c.mac c.xid accepted :=
    UserPacket.bytes_ofBytes hw h8 _ _ _ _
  have hoptions : (solicitation c.mac c.xid accepted).drop optionsStart =
      (solicitationItems c.mac accepted).flatMap Item.encode ++ [Code.close] := by
    unfold solicitation
    rw [List.append_assoc]
    refine List.drop_left' ?_
    rw [List.length_append, length_fixedPart, Bytes.length_ofNatBE]
    rfl
  have hread (code : UInt8) (least : Nat) : option? ((c.compose accepted).bytes c.width) code least =
      value? (solicitationItems c.mac accepted) code least := by
    unfold option?
    rw [hbytes, hoptions, options_encode (formed_solicitationItems c.mac accepted)]
    rfl
  refine ⟨rfl, rfl, hbytes ▸ begins_solicitation c.mac c.xid accepted, ?_, ?_, ?_⟩
  · rw [hread]
    cases accepted <;> rfl
  · rw [hread]
    cases accepted <;> rfl
  · rw [hread]
    cases accepted <;> rfl

/-! ## §3. What the client accepts. -/

theorem kind?_eq_some_iff {value : Bytes} {kind : Kind} : Reply.kind? value = some kind ↔
    kind = .offer ∧ value.head? = some 2 ∨ kind = .ack ∧ value.head? = some 5 := by
  unfold Reply.kind?
  split
  · next h => simp [h, eq_comm]
  · next h => simp [h, eq_comm]
  · next hoffer hack =>
    simp only [reduceCtorEq, false_iff]
    rintro (⟨-, h⟩ | ⟨-, h⟩)
    · exact hoffer h
    · exact hack h

theorem addressedTo_iff {mac : MacAddress} {xid : UInt32} {bs : Bytes} :
    Reply.addressedTo mac xid bs = true ↔ Begins 2 mac xid bs := by
  simp only [Reply.addressedTo, Bool.and_eq_true, beq_iff_eq]
  constructor
  · rintro ⟨⟨⟨hdirection, hxid⟩, hmac⟩, hcookie⟩
    exact ⟨hdirection, hxid, hmac, hcookie⟩
  · rintro ⟨hdirection, hxid, hmac, hcookie⟩
    exact ⟨⟨⟨hdirection, hxid⟩, hmac⟩, hcookie⟩

section Reading

variable {mac : MacAddress} {xid : UInt32} {width : Nat} {p : UserPacket} {r : Reply}

/-- All that is checked of a reply, in turn. -/
theorem read?_eq_some_iff : Reply.read? mac xid width p = some r ↔
    p.srcPort = serverPort ∧ minReplyLength ≤ p.length ∧
      minReplyLength ≤ (p.bytes width).length ∧ Begins 2 mac xid (p.bytes width) ∧
      ∃ items, options ((p.bytes width).drop optionsStart) = some items ∧
        Reply.ofItems? (p.bytes width) items = some r := by
  unfold Reply.read?
  dsimp only
  rw [Option.ite_none_left_eq_some, Option.ite_none_left_eq_some, Option.bind_eq_some_iff,
    not_or, not_or, not_not, Nat.not_lt, Nat.not_lt, ← addressedTo_iff, Bool.not_eq_true',
    Bool.not_eq_false, and_assoc, and_assoc]

/-- Whatever is accepted came from a server, is for this client and exchange, and
has its address and server where a reply has them. -/
theorem read?_answers (hread : Reply.read? mac xid width p = some r) :
    Answers mac xid width r.kind r p := by
  obtain ⟨hport, -, hlength, hbegins, items, hoptions, hitems⟩ := read?_eq_some_iff.mp hread
  have hoption (code : UInt8) (least : Nat) : option? (p.bytes width) code least =
      value? items code least := by
    unfold option?
    rw [hoptions]
    rfl
  unfold Reply.ofItems? at hitems
  simp only [Option.bind_eq_bind, Option.bind_eq_some_iff, Option.pure_def,
    Option.some.injEq] at hitems
  obtain ⟨kind, ⟨value, hvalue, hkind⟩, -, -, -, -, -, -, rfl⟩ := hitems
  refine ⟨hport, hlength, hbegins, ?_, rfl, ?_⟩
  · rw [hoption, hvalue]
    obtain ⟨rfl, hcode⟩ | ⟨rfl, hcode⟩ := kind?_eq_some_iff.mp hkind
    · exact hcode
    · exact hcode
  · rw [hoption]

end Reading

end NetBoard.Dhcp
