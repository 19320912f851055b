/-
  NetBoard.Proofs.Dhcp.Replies
  ────────────────────────────
  **WHICH REPLIES THE CLIENT ACCEPTS.**

  A reply is accepted by what stands in its octets alone: the fixed part names
  the client and the exchange, the options form a list, and the list has what
  a lease needs.  Nothing depends on the order of the options, on padding
  between them, or on octets behind the close.  What a reply says is where the
  client looks for it: in the last option of its code that is long enough.

  Main definitions:

      Says       — what a fixed part and options tell the client
      Sufficient — options that say what a lease needs
      Accepts    — a datagram with a reply to a client, and the options in it

  Main statements:

      ofItems?_eq_some_iff    — the reader finds what is said
      exists_ofItems?_iff     — when anything is
      replies_follow_grammar  — accepted is what the grammar describes
-/
import NetBoard.Proofs.Dhcp.Message

namespace NetBoard.Dhcp

open Udp (UserPacket)

/-! ## §1. What a reply says. -/

/-- What a fixed part and options tell the client. -/
structure Says (bs : Bytes) (items : List Item) (r : Reply) : Prop where
  kind : ∃ value, Latest items Code.messageType 1 value ∧
    (r.kind = .offer ∧ value.head? = some 2 ∨ r.kind = .ack ∧ value.head? = some 5)
  ip : r.ip.octets = (bs.drop 16).take 4
  subnetMask : ∃ value, Latest items Code.subnetMask 4 value ∧ r.subnetMask.octets = value.take 4
  gateway : ∃ value, Latest items Code.router 4 value ∧ r.gateway.octets = value.take 4
  leaseTime : ∃ value, Latest items Code.leaseTime 4 value ∧
    r.leaseTime = Bytes.toNatBE (value.take 4)
  /-- A server that does not name itself in an option does so in the fixed part. -/
  server : (∃ value, Latest items Code.server 4 value ∧ r.server.octets = value.take 4) ∨
    (∀ i ∈ items, i.code = Code.server → i.value.length < 4) ∧
      r.server.octets = (bs.drop 20).take 4

/-- Options that say what a lease needs. -/
structure Sufficient (items : List Item) : Prop where
  kind : ∃ value, Latest items Code.messageType 1 value ∧
    (value.head? = some 2 ∨ value.head? = some 5)
  subnetMask : ∃ i ∈ items, i.code = Code.subnetMask ∧ 4 ≤ i.value.length
  router : ∃ i ∈ items, i.code = Code.router ∧ 4 ≤ i.value.length
  leaseTime : ∃ i ∈ items, i.code = Code.leaseTime ∧ 4 ≤ i.value.length

section Values

variable {bs value : Bytes} {items : List Item} {ip : Ipv4} {r : Reply}

/-- The first octets of a value are those of its address. -/
theorem address_eq_iff (hlong : 4 ≤ value.length) :
    address value = ip ↔ ip.octets = value.take 4 := by
  constructor
  · rintro rfl
    have hfour : (value.take 4).length = 4 := List.length_take_of_le hlong
    unfold address word
    rw [Ipv4.octets_ofNat]
    calc Bytes.ofNatBE 4 (Bytes.toNatBE (value.take 4))
        = Bytes.ofNatBE (value.take 4).length (Bytes.toNatBE (value.take 4)) := by rw [hfour]
      _ = value.take 4 := Bytes.ofNatBE_toNatBE _
  · intro hoctets
    unfold address word
    rw [← hoctets]
    exact Ipv4.ofNat_toNat ip

theorem Latest.length_le {code : UInt8} {least : Nat} (h : Latest items code least value) :
    least ≤ value.length := by
  obtain ⟨-, -, -, hlong, -⟩ := h
  exact hlong

/-- An option that holds an address, where it is found. -/
theorem exists_address_iff {code : UInt8} :
    (∃ value, value? items code 4 = some value ∧ address value = ip) ↔
      ∃ value, Latest items code 4 value ∧ ip.octets = value.take 4 := by
  simp only [value?_eq_some_iff]
  refine exists_congr fun value => and_congr_right fun hlatest => ?_
  exact address_eq_iff hlatest.length_le

/-- The reader finds the reply that is said, and no other. -/
theorem ofItems?_eq_some_iff (hlong : 24 ≤ bs.length) :
    Reply.ofItems? bs items = some r ↔ Says bs items r := by
  have hip : 4 ≤ (bs.drop 16).length := by rw [List.length_drop]; omega
  have hsi : 4 ≤ (bs.drop 20).length := by rw [List.length_drop]; omega
  have hserver : address ((value? items Code.server 4).getD (bs.drop 20)) = r.server ↔
      (∃ value, Latest items Code.server 4 value ∧ r.server.octets = value.take 4) ∨
        (∀ i ∈ items, i.code = Code.server → i.value.length < 4) ∧
          r.server.octets = (bs.drop 20).take 4 := by
    rw [← exists_address_iff, ← value?_eq_none_iff]
    cases value? items Code.server 4 with
    | none => simp [address_eq_iff hsi]
    | some value => simp
  unfold Reply.ofItems?
  simp only [Option.bind_eq_bind, Option.bind_eq_some_iff, Option.pure_def, Option.some.injEq]
  constructor
  · rintro ⟨kind, ⟨kindValue, hkindValue, hkind⟩, mask, hmask, router, hrouter, lease, hlease, rfl⟩
    exact {
      kind := ⟨kindValue, value?_eq_some_iff.mp hkindValue, kind?_eq_some_iff.mp hkind⟩
      ip := (address_eq_iff hip).mp rfl
      subnetMask := exists_address_iff.mp ⟨mask, hmask, rfl⟩
      gateway := exists_address_iff.mp ⟨router, hrouter, rfl⟩
      leaseTime := ⟨lease, value?_eq_some_iff.mp hlease, rfl⟩
      server := hserver.mp rfl }
  · intro h
    obtain ⟨kindValue, hkindValue, hkind⟩ := h.kind
    obtain ⟨mask, hmask, hmaskValue⟩ := exists_address_iff.mpr h.subnetMask
    obtain ⟨router, hrouter, hrouterValue⟩ := exists_address_iff.mpr h.gateway
    obtain ⟨lease, hlease, hleaseValue⟩ := h.leaseTime
    refine ⟨r.kind, ⟨kindValue, value?_eq_some_iff.mpr hkindValue, kind?_eq_some_iff.mpr hkind⟩,
      mask, hmask, router, hrouter, lease, value?_eq_some_iff.mpr hlease, ?_⟩
    rw [(address_eq_iff hip).mpr h.ip, hserver.mpr h.server, hmaskValue, hrouterValue]
    unfold word
    rw [← hleaseValue]

/-- Something is said exactly if the options that are needed are there. -/
theorem exists_ofItems?_iff :
    (∃ r, Reply.ofItems? bs items = some r) ↔ Sufficient items := by
  unfold Reply.ofItems?
  simp only [Option.bind_eq_bind, Option.bind_eq_some_iff, Option.pure_def, Option.some.injEq]
  constructor
  · rintro ⟨r, kind, ⟨value, hvalue, hkind⟩, mask, hmask, router, hrouter, lease, hlease, -⟩
    have hhead := kind?_eq_some_iff.mp hkind
    exact {
      kind := ⟨value, value?_eq_some_iff.mp hvalue, hhead.imp And.right And.right⟩
      subnetMask := exists_value?_iff.mp ⟨mask, hmask⟩
      router := exists_value?_iff.mp ⟨router, hrouter⟩
      leaseTime := exists_value?_iff.mp ⟨lease, hlease⟩ }
  · intro h
    obtain ⟨value, hvalue, hhead⟩ := h.kind
    obtain ⟨mask, hmask⟩ := exists_value?_iff.mpr h.subnetMask
    obtain ⟨router, hrouter⟩ := exists_value?_iff.mpr h.router
    obtain ⟨lease, hlease⟩ := exists_value?_iff.mpr h.leaseTime
    obtain ⟨kind, hkind⟩ : ∃ kind, Reply.kind? value = some kind := by
      simp only [kind?_eq_some_iff]
      obtain hoffer | hack := hhead
      · exact ⟨.offer, .inl ⟨rfl, hoffer⟩⟩
      · exact ⟨.ack, .inr ⟨rfl, hack⟩⟩
    exact ⟨_, kind, ⟨value, value?_eq_some_iff.mpr hvalue, hkind⟩, mask, hmask, router, hrouter,
      lease, hlease, rfl⟩

end Values

/-! ## §2. Which replies are accepted. -/

/-- A datagram with a reply to a client, and the options in it. -/
structure Accepts (c : Client) (p : UserPacket) (items : List Item) : Prop where
  srcPort : p.srcPort = 67
  announced : 244 ≤ p.length
  carried : 244 ≤ (p.bytes c.width).length
  direction : (p.bytes c.width).head? = some 2
  xid : Bytes.toNatBE (((p.bytes c.width).drop 4).take 4) = c.xid.toNat
  mac : ((p.bytes c.width).drop 28).take 6 = c.mac.octets
  cookie : Bytes.toNatBE (((p.bytes c.width).drop 236).take 4) = 0x63825363
  closed : Closed ((p.bytes c.width).drop 240) items
  sufficient : Sufficient items

/-- The datagrams that are accepted, by what the reader checks. -/
theorem accepts_iff {c : Client} {p : UserPacket} {items : List Item} :
    Accepts c p items ↔
      p.srcPort = serverPort ∧ minReplyLength ≤ p.length ∧
        minReplyLength ≤ (p.bytes c.width).length ∧ Begins 2 c.mac c.xid (p.bytes c.width) ∧
        options ((p.bytes c.width).drop optionsStart) = some items ∧ Sufficient items := by
  rw [options_eq_some_iff]
  constructor
  · intro h
    exact ⟨h.srcPort, h.announced, h.carried, ⟨h.direction, h.xid, h.mac, h.cookie⟩, h.closed,
      h.sufficient⟩
  · rintro ⟨hport, hannounced, hcarried, hbegins, hclosed, hsufficient⟩
    exact {
      srcPort := hport
      announced := hannounced
      carried := hcarried
      direction := hbegins.direction
      xid := hbegins.xid
      mac := hbegins.mac
      cookie := hbegins.cookie
      closed := hclosed
      sufficient := hsufficient }

/-- The reply that is read is the one that is said in an accepted datagram. -/
theorem read?_eq_some_iff_accepts {c : Client} {p : UserPacket} {r : Reply} :
    Reply.read? c.mac c.xid c.width p = some r ↔
      ∃ items, Accepts c p items ∧ Says (p.bytes c.width) items r := by
  rw [read?_eq_some_iff]
  constructor
  · rintro ⟨hport, hannounced, hcarried, hbegins, items, hoptions, hitems⟩
    have hlong : 24 ≤ (p.bytes c.width).length := Nat.le_trans (by decide) hcarried
    refine ⟨items, accepts_iff.mpr ⟨hport, hannounced, hcarried, hbegins, hoptions, ?_⟩,
      (ofItems?_eq_some_iff hlong).mp hitems⟩
    exact exists_ofItems?_iff.mp ⟨r, hitems⟩
  · rintro ⟨items, haccepts, hsays⟩
    have hlong : 24 ≤ (p.bytes c.width).length := Nat.le_trans (by decide) haccepts.carried
    obtain ⟨hport, hannounced, hcarried, hbegins, hoptions, -⟩ := accepts_iff.mp haccepts
    exact ⟨hport, hannounced, hcarried, hbegins, items, hoptions,
      (ofItems?_eq_some_iff hlong).mpr hsays⟩

/-- **A client accepts exactly the replies of the grammar.**  It reads a reply in a
datagram if the datagram is one, with all that a lease needs; the reply is what
the fixed part and the options say; and options that end too early are none. -/
theorem replies_follow_grammar (c : Client) (p : UserPacket) :
    let bs := p.bytes c.width
    let read := Reply.read? c.mac c.xid c.width p
    (read.isSome ↔ ∃ items, Accepts c p items) ∧
    (∀ r, read = some r ↔ ∃ items, Accepts c p items ∧ Says bs items r) ∧
    (Broken (bs.drop 240) → read = none) := by
  intro bs read
  have hread (r : Reply) : read = some r ↔ ∃ items, Accepts c p items ∧ Says bs items r :=
    read?_eq_some_iff_accepts
  refine ⟨?_, hread, ?_⟩
  · rw [Option.isSome_iff_exists]
    constructor
    · rintro ⟨r, hr⟩
      obtain ⟨items, haccepts, -⟩ := (hread r).mp hr
      exact ⟨items, haccepts⟩
    · rintro ⟨items, haccepts⟩
      have hlong : 24 ≤ bs.length := Nat.le_trans (by decide) haccepts.carried
      obtain ⟨r, hitems⟩ := exists_ofItems?_iff.mpr haccepts.sufficient
      exact ⟨r, (hread r).mpr ⟨items, haccepts, (ofItems?_eq_some_iff hlong).mp hitems⟩⟩
  · intro hbroken
    rw [Option.eq_none_iff_forall_ne_some]
    intro r hr
    obtain ⟨items, haccepts, -⟩ := (hread r).mp hr
    cases (options_eq_none_iff.mpr hbroken).symm.trans (options_eq_some_iff.mpr haccepts.closed)

/-- An offer with padding, a router that is too short behind one that is not, octets
behind the close, and no option that names the server. -/
example :
    let fixed := [2, 1, 6, 0, 0, 0, 0, 7] ++ List.replicate 8 0 ++ [10, 0, 0, 9, 10, 0, 0, 1] ++
      List.replicate 4 0 ++ [16, 226, 213, 0, 0, 1] ++ List.replicate 202 0
    let options := [53, 1, 2, 0, 1, 4, 255, 0, 0, 0, 3, 4, 10, 0, 0, 2, 3, 1, 9, 51, 4, 0, 0, 14, 16,
      255, 53]
    let packet :=
      UserPacket.ofBytes ⟨10, 0, 0, 1⟩ 67 68 (fixed ++ [0x63, 0x82, 0x53, 0x63] ++ options) 4
    Reply.read? ⟨16, 226, 213, 0, 0, 1⟩ 7 4 packet = some {
      kind := .offer, ip := ⟨10, 0, 0, 9⟩, server := ⟨10, 0, 0, 1⟩
      subnetMask := ⟨255, 0, 0, 0⟩, gateway := ⟨10, 0, 0, 2⟩, leaseTime := 3600 } := by
  decide +kernel

end NetBoard.Dhcp
