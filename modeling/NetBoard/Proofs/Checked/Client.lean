/-
  NetBoard.Proofs.Checked.Client
  ──────────────────────────────
  **HOST CONFIGURATION, CHECKED.**

  A reply is read at fixed places only when it is as long as its fixed part,
  the magic number and room for a message type; an option is read only when
  its length allows it, and never behind the end of the datagram.  The client
  reads the options in one pass by their places and keeps the latest value of
  each; that is what the list of all options says in the end.

  Main definitions:

      Found                — what the options up to a place say
      Client.Formed        — the port has a supported width, and so the client

  Main statements:

      scan!_eq             — the pass over the options
      Reply.read!_eq       — reading any datagram at all
      Station.Formed.step! — a step of the client
-/
import NetBoard.Dhcp.Client
import NetBoard.Proofs.Checked.Transport

namespace NetBoard.Dhcp

open Checked

/-! ## §1. Numbers and addresses. -/

/-- The address at a place of the datagram. -/
def address! (bs : Bytes) (i : Nat) : Checked Ipv4 := do return .ofNat (← wordAt bs i)

variable {bs : Bytes} {i : Nat}

/-- Four octets that are there are read as one number. -/
theorem word_ok (h : i + 4 ≤ bs.length) : wordAt bs i = .ok (word (bs.drop i)) := wordAt_ok h

/-- They are read as one address. -/
theorem address!_eq (h : i + 4 ≤ bs.length) : address! bs i = .ok (address (bs.drop i)) := by
  rw [address!, wordAt_ok h]
  rfl

/-! ## §2. Options. -/

/-- What the options up to some place say. -/
structure Found where
  kind : Option UInt8 := none
  subnetMask : Option Ipv4 := none
  gateway : Option Ipv4 := none
  leaseTime : Option Nat := none
  server : Ipv4

namespace Found

/-- Read an option; a later one replaces an earlier one, but for one that is too short. -/
def note! (f : Found) (i : Item) : Checked Found := do
  let n := i.value.length
  if i.code = Code.messageType ∧ 1 ≤ n then return { f with kind := some (← index i.value 0) }
  else if i.code = Code.subnetMask ∧ 4 ≤ n then
    let subnetMask ← address! i.value 0
    return { f with subnetMask := some subnetMask }
  else if i.code = Code.router ∧ 4 ≤ n then
    let gateway ← address! i.value 0
    return { f with gateway := some gateway }
  else if i.code = Code.leaseTime ∧ 4 ≤ n then
    let leaseTime ← wordAt i.value 0
    return { f with leaseTime := some leaseTime }
  else if i.code = Code.server ∧ 4 ≤ n then
    let server ← address! i.value 0
    return { f with server }
  else return f

/-- The reply, if nothing is missing. -/
def reply? (f : Found) (ip : Ipv4) : Option Reply := do
  let kind ← f.kind.bind fun code => Reply.kind? [code]
  let subnetMask ← f.subnetMask
  let gateway ← f.gateway
  let leaseTime ← f.leaseTime
  return { kind, ip, server := f.server, subnetMask, gateway, leaseTime }

/-- What a list of options says, the latest one first. -/
def ofItems (unnamed : Ipv4) (found : List Item) : Found where
  kind := (value? found.reverse Code.messageType 1).bind List.head?
  subnetMask := (value? found.reverse Code.subnetMask 4).map address
  gateway := (value? found.reverse Code.router 4).map address
  leaseTime := (value? found.reverse Code.leaseTime 4).map word
  server := ((value? found.reverse Code.server 4).map address).getD unnamed

end Found

/-- Read the options from a place on. -/
def scan! (bs : Bytes) (i : Nat) (f : Found) : Checked (Option Found) := do
  if i < bs.length then
    let code ← index bs i
    if code = Code.pad then scan! bs (i + 1) f
    else if code = Code.close then return some f
    else
      -- the length and the value are asked for, not taken for granted
      match bs[i + 1]? with
      | none => return none
      | some length =>
        if i + 2 + length.toNat ≤ bs.length then
          let value ← slice bs (i + 2) (i + 2 + length.toNat)
          scan! bs (i + 2 + length.toNat) (← f.note! ⟨code, value⟩)
        else return none
  else return none
termination_by bs.length - i

/-- The latest option of a code replaces what was found, if it is long enough. -/
theorem value?_cons (i : Item) (found : List Item) (code : UInt8) (least : Nat) :
    value? (i :: found).reverse code least =
      if i.code = code ∧ least ≤ i.value.length then some i.value
      else value? found.reverse code least := by
  unfold value?
  rw [List.reverse_reverse, List.reverse_reverse, List.find?_cons]
  by_cases hfits : i.code = code ∧ least ≤ i.value.length
  · rw [if_pos hfits]
    simp [hfits.1, hfits.2]
  · rw [if_neg hfits]
    have hmiss : (i.code == code && decide (least ≤ i.value.length)) = false := by
      simpa using hfits
    rw [hmiss]

/-- The codes that are read are different ones. -/
theorem Code.nodup_read :
    [Code.messageType, Code.subnetMask, Code.router, Code.leaseTime, Code.server].Nodup := by
  decide

/-- One option more says what the list with it says. -/
theorem Found.note!_eq (unnamed : Ipv4) (found : List Item) (i : Item) :
    (ofItems unnamed found).note! i = .ok (ofItems unnamed (i :: found)) := by
  have hcodes := Code.nodup_read
  simp only [List.nodup_cons, List.mem_cons, List.not_mem_nil, or_false, not_or] at hcodes
  have hvalue : ∀ {i : Item}, 4 ≤ i.value.length → address! i.value 0 = .ok (address i.value) ∧
      wordAt i.value 0 = .ok (word i.value) := fun h => ⟨address!_eq h, word_ok h⟩
  unfold note! ofItems
  simp only [value?_cons]
  split
  · next h =>
    obtain ⟨a, rest, hcons⟩ := List.exists_cons_of_length_pos h.2
    simp [h, hcodes, hcons, index]
  split
  · next h => simp [h, hcodes, hvalue]
  split
  · next h => simp [h, hcodes, hvalue]
  split
  · next h => simp [h, hcodes, hvalue]
  split
  · next h => simp [h, hvalue]
  · simp [*]
    rfl

/-- The pass over the options finds what the list of all of them says. -/
theorem scan!_eq (unnamed : Ipv4) (bs : Bytes) (i : Nat) (found : List Item) :
    scan! bs i (Found.ofItems unnamed found) =
      .ok ((options.go found (bs.drop i)).map fun items => Found.ofItems unnamed items.reverse) := by
  unfold scan!
  by_cases hi : i < bs.length
  · rw [if_pos hi, index_ok (List.getElem?_eq_getElem hi), ok_bind, List.drop_eq_getElem_cons hi]
    unfold options.go
    by_cases hpad : bs[i] = Code.pad
    · rw [if_pos hpad, if_pos hpad]
      exact scan!_eq unnamed bs (i + 1) found
    rw [if_neg hpad, if_neg hpad]
    by_cases hclose : bs[i] = Code.close
    · rw [if_pos hclose, if_pos hclose, Option.map_some, List.reverse_reverse]
      rfl
    rw [if_neg hclose, if_neg hclose]
    cases hlength : bs[i + 1]? with
    | none =>
      rw [List.drop_eq_nil_of_le (List.getElem?_eq_none_iff.1 hlength)]
      rfl
    | some length =>
      obtain ⟨hnext, hget⟩ := List.getElem?_eq_some_iff.1 hlength
      -- that the value ends inside is asked here of the end, there of the octets taken
      rw [List.drop_eq_getElem_cons hnext, hget]
      dsimp only
      rw [List.length_take, List.length_drop]
      by_cases hend : i + 2 + length.toNat ≤ bs.length
      · have hvalue : (bs.take (i + 2 + length.toNat)).drop (i + 2) =
            (bs.drop (i + 1 + 1)).take length.toNat := by
          rw [List.drop_take, Nat.add_sub_cancel_left]
        rw [if_pos hend, if_neg (by omega), slice_ok (Nat.le_add_right _ _) hend, ok_bind, hvalue,
          Found.note!_eq, ok_bind, List.drop_drop]
        exact scan!_eq unnamed bs (i + 2 + length.toNat) _
      · rw [if_neg hend, if_pos (by omega)]
        rfl
  · rw [if_neg hi, List.drop_eq_nil_of_le (Nat.le_of_not_lt hi)]
    unfold options.go
    rfl
termination_by bs.length - i

/-! ## §3. Replies. -/

namespace Reply

/-- Direction, number, client and magic number stand at fixed places. -/
def addressedTo! (mac : MacAddress) (xid : UInt32) (bs : Bytes) : Checked Bool := do
  let direction ← index bs 0
  let number ← wordAt bs 4
  let client ← slice bs 28 (28 + 6)
  let cookie ← wordAt bs fixedLength
  return direction == 2 && number == xid.toNat && client == mac.octets && cookie == magicCookie

/-- The lengths are tested before anything is read, and the server's address before the options. -/
def read! (mac : MacAddress) (xid : UInt32) (width : Nat) (p : Udp.UserPacket) :
    Checked (Option Reply) := do
  if p.srcPort ≠ serverPort ∨ p.length < minReplyLength then return none
  else
    let bs ← p.bytes! width
    if bs.length < minReplyLength then return none
    else if !(← addressedTo! mac xid bs) then return none
    else
      match ← scan! bs optionsStart { server := ← address! bs 20 } with
      | none => return none
      | some found => return found.reply? (← address! bs 16)

/-- Behind the test of the length all four places are inside of the datagram. -/
theorem addressedTo!_eq (mac : MacAddress) (xid : UInt32) {bs : Bytes}
    (hlen : minReplyLength ≤ bs.length) :
    addressedTo! mac xid bs = .ok (addressedTo mac xid bs) := by
  unfold minReplyLength optionsStart fixedLength at hlen
  obtain ⟨direction, rest, rfl⟩ := List.exists_cons_of_length_pos (show 0 < bs.length by omega)
  unfold addressedTo! addressedTo fixedLength
  rw [index_ok rfl, ok_bind, word_ok (by omega), ok_bind, slice_ok (by omega) (by omega), ok_bind,
    word_ok (by omega), List.drop_take]
  rfl

/-- What was found gives the reply of the list of options. -/
theorem reply?_ofItems (bs : Bytes) (items : List Item) :
    (Found.ofItems (address (bs.drop 20)) items.reverse).reply? (address (bs.drop 16)) =
      ofItems? bs items := by
  have hkind : (value? items Code.messageType 1).bind kind? =
      ((value? items Code.messageType 1).bind List.head?).bind fun code => kind? [code] := by
    cases value? items Code.messageType 1 with
    | none => rfl
    | some value => cases value <;> rfl
  unfold Found.reply? Found.ofItems ofItems?
  rw [List.reverse_reverse, hkind]
  dsimp only
  cases value? items Code.subnetMask 4 <;> cases value? items Code.router 4 <;>
    cases value? items Code.leaseTime 4 <;> cases value? items Code.server 4 <;> rfl

/-- Whatever datagram comes, it is read without harm. -/
theorem read!_eq {width : Nat} (hw : SupportedWidth width) (mac : MacAddress) (xid : UInt32)
    (p : Udp.UserPacket) : read! mac xid width p = .ok (read? mac xid width p) := by
  unfold read! read?
  by_cases hheader : p.srcPort ≠ serverPort ∨ p.length < minReplyLength
  · rw [if_pos hheader, if_pos hheader]
    rfl
  rw [if_neg hheader, if_neg hheader, p.bytes!_eq hw, ok_bind]
  dsimp only
  by_cases hshort : (p.bytes width).length < minReplyLength
  · rw [if_pos hshort, if_pos (.inl hshort)]
    rfl
  have hlen : minReplyLength ≤ (p.bytes width).length := Nat.le_of_not_lt hshort
  have hfixed : 20 + 4 ≤ (p.bytes width).length := Nat.le_trans (by decide) hlen
  have hip : 16 + 4 ≤ (p.bytes width).length := Nat.le_trans (by decide) hlen
  rw [if_neg hshort, addressedTo!_eq mac xid hlen, ok_bind]
  by_cases hother : (!addressedTo mac xid (p.bytes width)) = true
  · rw [if_pos hother, if_pos (.inr hother)]
    rfl
  rw [if_neg hother, if_neg (not_or.2 ⟨hshort, hother⟩), address!_eq hfixed, ok_bind]
  show (scan! (p.bytes width) optionsStart (Found.ofItems (address ((p.bytes width).drop 20)) []) >>=
    _) = _
  rw [scan!_eq, ok_bind]
  show _ = Except.ok ((options.go [] ((p.bytes width).drop optionsStart)).bind _)
  cases options.go [] ((p.bytes width).drop optionsStart) with
  | none => rfl
  | some items =>
    rw [Option.map_some, Option.bind_some, ← reply?_ofItems]
    dsimp only
    rw [address!_eq hip]
    rfl

end Reply

/-! ## §4. Solicitations. -/

/-- Overwrite octets from a place on. -/
def store! (bs : Bytes) (i : Nat) (octets : Bytes) : Checked Bytes := do
  discard (slice bs i (i + octets.length))
  return bs.take i ++ octets ++ bs.drop (i + octets.length)

/-- The fixed part is written into as many zeros. -/
def fixedPart! (mac : MacAddress) (xid : UInt32) : Checked Bytes := do
  let bs ← store! (List.replicate fixedLength 0) 0 [1, 1, 6]
  let bs ← store! bs 4 (Bytes.ofNatBE 4 xid.toNat)
  let bs ← store! bs 10 [0x80, 0]
  store! bs 28 mac.octets

/-- What is overwritten lies inside. -/
theorem store!_eq (before old new after : Bytes) (h : new.length = old.length) :
    store! (before ++ (old ++ after)) before.length new = .ok (before ++ (new ++ after)) := by
  have hend : before.length + new.length ≤ (before ++ (old ++ after)).length := by
    rw [List.length_append, List.length_append]
    omega
  rw [store!, slice_ok (Nat.le_add_right _ _) hend]
  show Except.ok _ = _
  rw [List.take_left, List.drop_append, Nat.add_sub_cancel_left, h, List.drop_left,
    List.drop_eq_nil_of_le (Nat.le_add_right _ _), List.nil_append, List.append_assoc]

/-- The fixed part has room for every field that is written. -/
theorem fixedPart!_eq (mac : MacAddress) (xid : UInt32) :
    fixedPart! mac xid = .ok (fixedPart mac xid) := by
  let zeros (n : Nat) : Bytes := List.replicate n 0
  have hzeros : ∀ m n, zeros (m + n) = zeros m ++ zeros n :=
    fun m n => List.replicate_append_replicate.symm
  let number := Bytes.ofNatBE 4 xid.toNat
  let head := [1, 1, 6, 0] ++ number ++ [0, 0]
  have hkind : store! (zeros (3 + 233)) 0 [1, 1, 6] = .ok ([1, 1, 6] ++ zeros 233) := by
    rw [hzeros]
    exact store!_eq [] (zeros 3) [1, 1, 6] (zeros 233) rfl
  have hnumber : store! ([1, 1, 6] ++ zeros (1 + (4 + 228))) 4 number =
      .ok ([1, 1, 6, 0] ++ (number ++ zeros 228)) := by
    rw [hzeros, hzeros]
    exact store!_eq [1, 1, 6, 0] (zeros 4) number (zeros 228) rfl
  have hflags : store! ([1, 1, 6, 0] ++ (number ++ zeros (2 + (2 + 224)))) 10 [0x80, 0] =
      .ok (head ++ ([0x80, 0] ++ zeros 224)) := by
    rw [hzeros, hzeros]
    exact store!_eq head (zeros 2) [0x80, 0] (zeros 224) rfl
  have hmac : store! (head ++ ([0x80, 0] ++ zeros (16 + (6 + 202)))) 28 mac.octets =
      .ok ((head ++ [0x80, 0] ++ zeros 16) ++ (mac.octets ++ zeros 202)) := by
    rw [hzeros, hzeros]
    exact store!_eq (head ++ [0x80, 0] ++ zeros 16) (zeros 6) mac.octets (zeros 202) rfl
  show store! (zeros (3 + 233)) 0 [1, 1, 6] >>= _ = _
  rw [hkind, ok_bind]
  show store! ([1, 1, 6] ++ zeros (1 + (4 + 228))) 4 number >>= _ = _
  rw [hnumber, ok_bind]
  show store! ([1, 1, 6, 0] ++ (number ++ zeros (2 + (2 + 224)))) 10 [0x80, 0] >>= _ = _
  rw [hflags, ok_bind]
  show store! (head ++ ([0x80, 0] ++ zeros (16 + (6 + 202)))) 28 mac.octets = _
  rw [hmac]
  rfl

/-- The options are put behind the fixed part, and not written into it. -/
def solicitation! (mac : MacAddress) (xid : UInt32) (accepted : Option Reply) : Checked Bytes := do
  let bs ← fixedPart! mac xid
  return bs ++ Bytes.ofNatBE 4 magicCookie
    ++ (solicitationItems mac accepted).flatMap Item.encode ++ [Code.close]

/-- Any solicitation is made, with an offer or without one. -/
theorem solicitation!_eq (mac : MacAddress) (xid : UInt32) (accepted : Option Reply) :
    solicitation! mac xid accepted = .ok (solicitation mac xid accepted) := by
  rw [solicitation!, fixedPart!_eq]
  rfl

/-! ## §5. The client. -/

namespace Client

/-- A solicitation to everybody, on the bus of the port. -/
def compose! (c : Client) (accepted : Option Reply) : Checked Udp.UserPacket := do
  let bs ← solicitation! c.mac c.xid accepted
  Udp.UserPacket.ofBytes! ⟨255, 255, 255, 255⟩ clientPort serverPort bs c.width

/-- The width of the port is supported. -/
def Formed (c : Client) : Prop := SupportedWidth c.width

/-- A client is built on a port of four octets a cycle only. -/
theorem formed_make? {mac : MacAddress} {width timeout retry : Nat} {c : Client}
    (h : make? mac width timeout retry = .ok c) : c.Formed := by
  unfold make? at h
  split at h
  · next hwidth =>
    cases h
    exact hwidth ▸ Or.inr (Or.inr (Or.inl rfl))
  · cases h

/-- Any solicitation is put on the bus. -/
theorem Formed.compose! {c : Client} (hc : c.Formed) (accepted : Option Reply) :
    c.compose! accepted = .ok (c.compose accepted) := by
  rw [Client.compose!, solicitation!_eq, ok_bind, Udp.UserPacket.ofBytes!_eq hc]
  rfl

end Client

namespace Station

/-- A packet is put into the hold, which must be free. -/
def send! (s : Station) (packet : Udp.UserPacket) : Checked Station := do
  let (heldOut, outbound) ← Checked.send s.client.heldOut packet s.link.outbound
  return { s with client := { s.client with heldOut }, link := { s.link with outbound } }

/-- The next datagram, if it is a reply of this kind; others are counted. -/
def hear! (s : Station) (kind : Kind) : Checked (Outcome (Station × Option Reply)) := do
  match s.link.inbound.take with
  | none => return .idle (s, none)
  | some (packet, inbound) =>
    let c := s.client
    let runt := if packet.length < minReplyLength then 1 else 0
    let stats := { c.stats with runts := c.stats.runts + runt }
    let s := { s with link := { s.link with inbound }, client := { c with stats } }
    match (← Reply.read! c.mac c.xid c.width packet).filter (·.kind == kind) with
    | some reply => return .moved (s, some reply)
    | none =>
      let stats := { stats with dropped := stats.dropped + 1 }
      return .moved ({ s with client := { c with stats } }, none)
        [⟨Log.medium, Client.source, s!"unexpected message from {packet.ip.text} dropped"⟩]

/-- What the client does in its phase. -/
def act! (now : Nat) (s : Station) : Checked (Outcome (Station × Phase)) := do
  match s.client.phase with
  | .idle =>
    return s.drain.map fun s =>
      let c := s.client
      if c.wantsExchange now then
        ({ s with client := { c with renewing := false, xid := c.xid + 1, started := some now } },
          .sendDiscover)
      else (s, .idle)
  | .sendDiscover =>
    let s ← s.send! (← s.client.compose! none)
    let stats := { s.client.stats with discovers := s.client.stats.discovers + 1 }
    return .idle ({ s with client := { s.client with stats } }, .receiveOffer)
  | .receiveOffer =>
    let o ← s.hear! .offer
    match o.state with
    | (s, none) => return o.map fun _ => (s, .receiveOffer)
    | (s, some offer) =>
      let stats := { s.client.stats with offers := s.client.stats.offers + 1 }
      return (o.map fun _ => ({ s with client := { s.client with offer := some offer, stats } },
        Phase.sendRequest)).andThen fun next =>
        { state := next
          log := [⟨Log.high, Client.source,
            s!"offer of {offer.ip.text} from {offer.server.text}"⟩] }
  | .sendRequest =>
    let s ← s.send! (← s.client.compose! s.client.offer)
    let stats := { s.client.stats with requests := s.client.stats.requests + 1 }
    return .idle ({ s with client := { s.client with stats } }, .receiveAck)
  | .receiveAck =>
    let o ← s.hear! .ack
    match o.state with
    | (s, some ack) =>
      match s.client.offer with
      | some offer =>
        let (s, log) := s.bind now offer ack
        return (o.map fun _ => (s, Phase.idle)).andThen fun next => { state := next, log }
      | none => return o.map fun _ => (s, .receiveAck)
    | (s, none) => return o.map fun _ => (s, .receiveAck)

/-- The phase changes with what was done. -/
def advance! (now : Nat) (s : Station) : Checked (Outcome Station) := do
  let o ← s.act! now
  let (next, phase) := o.state
  if phase = next.client.phase then return o.map (·.1)
  else
    let (client, log) := next.client.enter phase
    return { state := { next with client }, progress := true, log := o.log ++ log }

/-- An exchange that takes too long is given up. -/
def proceed! (now : Nat) (s : Station) : Checked (Outcome Station) :=
  if s.client.isOverdue now then return s.giveUp now else s.advance! now

/-- The packet that is held goes first. -/
def step! (now : Nat) (s : Station) : Checked (Outcome Station) :=
  afterHeld s.client.heldOut s.link.outbound
    (fun heldOut outbound =>
      { s with client := { s.client with heldOut }, link := { s.link with outbound } })
    (proceed! now) s

/-- The client of the station is formed. -/
abbrev Formed (s : Station) : Prop := s.client.Formed

variable {s : Station} {now : Nat}

/-- Into a free hold any packet is sent. -/
theorem send!_eq (hfree : s.client.heldOut = none) (packet : Udp.UserPacket) :
    s.send! packet = .ok (s.send packet) := by
  rw [send!, send_ok hfree]
  rfl

/-- Any datagram is read, as a reply or not. -/
theorem Formed.hear! (hs : s.Formed) (kind : Kind) :
    Runs (fun next => next.1.Formed) (s.hear! kind) (s.hear kind) := by
  unfold Station.hear! hear
  cases s.link.inbound.take with
  | none => exact .pure hs
  | some taken =>
    obtain ⟨packet, inbound⟩ := taken
    dsimp only
    rw [Reply.read!_eq hs, ok_bind]
    cases (Reply.read? s.client.mac s.client.xid s.client.width packet).filter (·.kind == kind) with
    | some reply => exact .pure hs
    | none => exact .pure hs

/-- Both packets are made while the hold is free. -/
theorem Formed.act! (hs : s.Formed) (hfree : s.client.heldOut = none) (now : Nat) :
    Runs (fun next => next.1.Formed) (s.act! now) (s.act now) := by
  unfold Station.act! act
  cases s.client.phase with
  | idle =>
    refine .pure ?_
    show (ite _ _ _ : Station × Phase).1.Formed
    split
    · exact hs
    · exact hs
  | sendDiscover =>
    dsimp only
    rw [Client.Formed.compose! hs, ok_bind, send!_eq hfree]
    exact .pure hs
  | receiveOffer =>
    obtain ⟨hok, hkept⟩ := hs.hear! .offer
    dsimp only
    rw [hok, ok_bind]
    cases hheard : (s.hear .offer).state with
    | mk t offer =>
      rw [hheard] at hkept
      cases offer with
      | none => exact .pure hkept
      | some offer => exact .pure hkept
  | sendRequest =>
    dsimp only
    rw [Client.Formed.compose! hs, ok_bind, send!_eq hfree]
    exact .pure hs
  | receiveAck =>
    obtain ⟨hok, hkept⟩ := hs.hear! .ack
    dsimp only
    rw [hok, ok_bind]
    cases hheard : (s.hear .ack).state with
    | mk t ack =>
      rw [hheard] at hkept
      cases ack with
      | none => exact .pure hkept
      | some ack =>
        dsimp only
        cases t.client.offer with
        | none => exact .pure hkept
        | some offer => exact .pure hkept

/-- At any time the client goes on or gives up. -/
theorem Formed.proceed! (hs : s.Formed) (hfree : s.client.heldOut = none) :
    Runs Formed (s.proceed! now) (s.proceed now) := by
  unfold Station.proceed! proceed
  split
  · exact .pure hs
  · obtain ⟨hok, hkept⟩ := hs.act! hfree now
    unfold Station.advance! advance
    rw [hok, ok_bind]
    dsimp only
    split
    · exact .pure hkept
    · exact .pure hkept

/-- A step is the rest of it behind the hold. -/
theorem step_eq (now : Nat) (s : Station) :
    s.step now = Outcome.afterHeld s.client.heldOut s.link.outbound
      (fun heldOut outbound =>
        { s with client := { s.client with heldOut }, link := { s.link with outbound } })
      (proceed now) s := by
  unfold step Outcome.afterHeld
  grind

/-- No datagram and no time stops the client. -/
theorem Formed.step! (hs : s.Formed) : Runs Formed (s.step! now) (s.step now) := by
  rw [Station.step!, step_eq]
  refine Runs.afterHeld (·.client.heldOut) hs (fun _ => ?_) fun _ hs hfree => hs.proceed! hfree
  exact ⟨hs, rfl⟩

end Station
end NetBoard.Dhcp
