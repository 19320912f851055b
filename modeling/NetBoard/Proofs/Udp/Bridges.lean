/-
  NetBoard.Proofs.Udp.Bridges
  ───────────────────────────
  **DATAGRAMS BETWEEN USERS AND CROSSBAR.**

  A datagram is eight octets of header and what follows them; at a user's port it
  is beats and a count, which the user may have put as it likes.  A bridge moves
  datagrams on, converts them, and keeps them in order on both ways.  All bridges
  step before the crossbar does, each between its own user and its own port.

  Main definitions:

      received?, Packet.sent?   — a datagram as octets, read and written
      Bridge.Station.arriving, leaving
                                — what is between a user and the crossbar
      Layer.seat?               — a bridge with its port of the crossbar

  Main statements:

      ofFields_decode           — what is read from the octets
      Bridge.ofUser_eq          — what a user sends, however the beats are put
      Bridge.Station.step_passed
                                — a step of a bridge moves datagrams to the front
      stepBridges_seat          — every bridge takes its step at its own port
-/
import NetBoard.Proofs.Settling.Transport

namespace NetBoard.Udp

open Outcome

/-! ## §1. Datagrams as octets. -/

/-- The datagram in what the IP layer has received: eight octets of header or more,
and a length that covers the header and is there. -/
def received? (p : Ip.Packet) : Option Packet :=
  let field (i : Nat) := Bytes.toNatBE ((p.payload.drop i).take 2)
  if 8 ≤ p.payload.length ∧ 8 ≤ field 4 ∧ field 4 ≤ p.payload.length then
    some
      { ip := p.ip
        srcPort := UInt16.ofNat (field 0)
        dstPort := UInt16.ofNat (field 2)
        payload := (p.payload.take (field 4)).drop 8 }
  else none

/-- What the IP layer is given for a datagram, unless it is too long for one. -/
def Packet.sent? (p : Packet) : Option Ip.Packet :=
  if 65507 < p.payload.length then none
  else some
    { ip := p.ip
      protocol := 17
      payload := Bytes.ofNatBE 2 p.srcPort.toNat ++ Bytes.ofNatBE 2 p.dstPort.toNat ++
        Bytes.ofNatBE 2 (8 + p.payload.length) ++ [0, 0] ++ p.payload }

/-- The datagram of a user's packet on a port of `width` lanes: as many octets as
the user has counted, or as there are. -/
def UserPacket.datagram (p : UserPacket) (width : Nat) : Packet :=
  ⟨p.ip, p.srcPort, p.dstPort, p.bytes width⟩

/-- A header is its four numbers, one behind the other. -/
theorem Packet.carried_eq (p : Packet) (hsize : ¬65507 < p.payload.length) :
    p.sent? = some p.carried := by
  have hheader : header.encode p.fields =
      Bytes.ofNatBE 2 p.srcPort.toNat ++ Bytes.ofNatBE 2 p.dstPort.toNat ++
        Bytes.ofNatBE 2 (8 + p.payload.length) ++ [0, 0] := by
    rw [Header.encode_inRow (by decide)]
    simp [header, fields, headerLength, Fields.get_set_of_ne, Header.Field.span, Nat.add_comm]
    rfl
  rw [Packet.sent?, if_neg hsize, carried, octets, hheader]
  rfl

/-- A user's octets are sent as they are, however the beats are put. -/
theorem Bridge.ofUser_eq {b : Bridge} (hb : b.Formed) (p : UserPacket) :
    b.ofUser p = p.datagram b.stride.target := by
  obtain ⟨hsource, -⟩ := hb
  have hbytes : Beat.toBytes b.stride.source (b.stride.reverse.convert p.data) =
      Beat.toBytes b.stride.target p.data :=
    Stride.toBytes_convert (s := b.stride.reverse) hsource.fits p.data
  unfold ofUser UserPacket.datagram UserPacket.bytes
  rw [hbytes]

/-- A field of the header is the number at its place. -/
theorem get_decode_header {bs : Bytes} (hlen : 8 ≤ bs.length) {f : Header.Field}
    (hf : f ∈ header.fields) :
    (header.decode (bs.take 8)).get f.name = Bytes.toNatBE ((bs.drop f.byte).take 2) := by
  have hwhole : ∀ f ∈ header.fields, f.offset = 0 ∧ f.width = 8 * f.span ∧ f.span = 2 ∧
      f.byte + 2 ≤ 8 := by decide
  obtain ⟨hoffset, hwidth, hspan, hin⟩ := hwhole f hf
  have hfits : f.Fits (bs.take 8).length := by
    rw [List.length_take, Nat.min_eq_left hlen]
    exact header_sound.1 f hf
  rw [Header.get_decode header_sound hf, Header.Field.read_whole hfits hoffset hwidth, hspan,
    List.drop_take, List.take_take, Nat.min_eq_left (by omega)]

/-- **What is read from the octets.** -/
theorem ofFields_decode (p : Ip.Packet) (hlen : 8 ≤ p.payload.length) :
    (Packet.ofFields p.ip (header.decode (p.payload.take 8)) (p.payload.drop 8)).toOption =
      received? p := by
  let field (i : Nat) := Bytes.toNatBE ((p.payload.drop i).take 2)
  have hsrc : (header.decode (p.payload.take 8)).get "src_port" = field 0 :=
    get_decode_header hlen (f := ⟨"src_port", 0, 0, 16⟩) (by decide)
  have hdst : (header.decode (p.payload.take 8)).get "dst_port" = field 2 :=
    get_decode_header hlen (f := ⟨"dst_port", 2, 0, 16⟩) (by decide)
  have hlength : (header.decode (p.payload.take 8)).get "length" = field 4 :=
    get_decode_header hlen (f := ⟨"length", 4, 0, 16⟩) (by decide)
  unfold Packet.ofFields received?
  dsimp only
  -- the length counts the header, of which eight octets are behind us
  rw [hsrc, hdst, hlength, List.length_drop]
  by_cases hfits : 8 ≤ field 4 ∧ field 4 ≤ p.payload.length
  · rw [if_neg (by unfold headerLength; omega), if_pos ⟨hlen, hfits⟩, List.drop_take]
    rfl
  · rw [if_pos (by unfold headerLength; omega), if_neg fun h => hfits h.2]
    rfl

/-! ## §2. Bridges. -/

namespace Bridge

/-- What a user receives is a matter of the widths. -/
theorem toUser_congr {b b' : Bridge} (h : b'.stride = b.stride) : b'.toUser = b.toUser := by
  funext p
  unfold toUser
  rw [h]

theorem ofUser_congr {b b' : Bridge} (h : b'.stride = b.stride) : b'.ofUser = b.ofUser := by
  funext p
  unfold ofUser
  rw [h]

namespace Station

/-- What is on its way to the user behind its port of the crossbar, the oldest first. -/
def arriving (s : Bridge.Station) : List UserPacket :=
  s.bridge.user.inbound.items ++ s.bridge.heldIn.toList ++
    s.link.inbound.items.map s.bridge.toUser

/-- What has been taken from the user and not yet by the crossbar. -/
def leaving (s : Bridge.Station) : List Packet :=
  s.link.outbound.items ++ s.bridge.heldOut.toList

/-- What a step does to a bridge: it takes `packets` from the user. -/
structure Passed (s s' : Bridge.Station) (packets : List UserPacket) : Prop where
  stride : s'.bridge.stride = s.bridge.stride
  closed : s'.bridge.user.inbound.closed = s.bridge.user.inbound.closed
  arriving : s.bridge.user.inbound.closed = false → s'.arriving = s.arriving
  /-- A user that has gone is given nothing more. -/
  gone : s.bridge.user.inbound.closed = true →
    s'.bridge.user.inbound.items = s.bridge.user.inbound.items
  asked : s.bridge.user.outbound.items = packets ++ s'.bridge.user.outbound.items
  leaving : s'.leaving = s.leaving ++ packets.map s.bridge.ofUser
  inbound : s'.link.inbound.closed = s.link.inbound.closed
  outbound : s'.link.outbound.closed = s.link.outbound.closed

variable {s s' s'' : Bridge.Station} {first second : List UserPacket}

theorem Passed.refl (s : Bridge.Station) : Passed s s [] :=
  ⟨rfl, rfl, fun _ => rfl, fun _ => rfl, rfl, (List.append_nil _).symm, rfl, rfl⟩

theorem Passed.trans (h : Passed s s' first) (h' : Passed s' s'' second) :
    Passed s s'' (first ++ second) where
  stride := h'.stride.trans h.stride
  closed := h'.closed.trans h.closed
  arriving := fun hopen => (h'.arriving (h.closed.trans hopen)).trans (h.arriving hopen)
  gone := fun hclosed => (h'.gone (h.closed.trans hclosed)).trans (h.gone hclosed)
  asked := by rw [h.asked, h'.asked, List.append_assoc]
  leaving := by
    rw [h'.leaving, h.leaving, ofUser_congr h.stride, List.map_append, List.append_assoc]
  inbound := h'.inbound.trans h.inbound
  outbound := h'.outbound.trans h.outbound

/-- With nothing held the next datagram goes to the user, or is held before its pipe. -/
theorem deliverNext_passed (hheld : s.bridge.heldIn = none) : Passed s s.deliverNext.state [] := by
  unfold deliverNext
  cases htake : s.link.inbound.take with
  | none => exact .refl s
  | some taken =>
    obtain ⟨packet, inbound⟩ := taken
    obtain ⟨hitems, -, hends⟩ := Pipe.take_eq_some htake
    let user := s.bridge.user.inbound
    refine ⟨rfl, closed_flush _ user, fun hopen => ?_, fun hclosed => ?_, rfl,
      (List.append_nil _).symm, hends, rfl⟩
    · have hsent := (sendOrHold_items hopen (s.bridge.toUser packet)).1
      show (sendOrHold (s.bridge.toUser packet) user).2.items ++
        (sendOrHold (s.bridge.toUser packet) user).1.toList ++
          inbound.items.map s.bridge.toUser = _
      rw [hsent, arriving, hheld, hitems]
      simp
    · show (sendOrHold (s.bridge.toUser packet) user).2.items = _
      rw [sendOrHold, flush_of_closed hclosed]

/-- What is held goes first. -/
theorem deliver_passed (s : Bridge.Station) : Passed s s.deliver.state [] := by
  rw [deliver_eq]
  unfold Outcome.afterHeld
  cases hheld : s.bridge.heldIn with
  | none => exact deliverNext_passed hheld
  | some packet =>
    dsimp only
    have hitems := fun hopen => (flush_items (p := s.bridge.user.inbound) hopen (some packet)).1
    have hends := closed_flush (some packet) s.bridge.user.inbound
    have hlost := fun hclosed => flush_of_closed (p := s.bridge.user.inbound) hclosed packet
    obtain hfull | ⟨inbound, hleft⟩ := flush_cases packet s.bridge.user.inbound
    · rw [hfull]
      exact .refl s
    · rw [hleft] at hitems hends hlost ⊢
      let flushed : Bridge.Station := { s with
        bridge := { s.bridge with heldIn := none, user := { s.bridge.user with inbound } } }
      have hflushed : Passed s flushed [] := by
        refine ⟨rfl, hends, fun hopen => ?_, fun hclosed => ?_, rfl, (List.append_nil _).symm,
          rfl, rfl⟩
        · show inbound.items ++ [] ++ _ = s.bridge.user.inbound.items ++ s.bridge.heldIn.toList ++ _
          rw [hheld]
          exact congrArg (· ++ _) (hitems hopen)
        · have hsame : inbound = s.bridge.user.inbound := by
            have hpipe := hlost hclosed
            simpa using hpipe
          show inbound.items = _
          rw [hsame]
      exact hflushed.trans (deliverNext_passed (s := flushed) rfl)

/-- With nothing held the user's next datagram goes to the crossbar, or is held
before its pipe. -/
theorem collectNext_passed (hopen : s.link.outbound.closed = false)
    (hheld : s.bridge.heldOut = none) : ∃ packets, Passed s s.collectNext.state packets := by
  unfold collectNext
  cases htake : s.bridge.user.outbound.take with
  | none => exact ⟨[], .refl s⟩
  | some taken =>
    obtain ⟨packet, outbound⟩ := taken
    obtain ⟨hsent, hends⟩ := sendOrHold_items hopen (s.bridge.ofUser packet)
    refine ⟨[packet], rfl, rfl, fun _ => rfl, fun _ => rfl, (Pipe.take_eq_some htake).1, ?_, rfl,
      hends.trans hopen.symm⟩
    rw [leaving, leaving, hheld]
    exact hsent.trans (congrArg (· ++ _) (List.append_nil _).symm)

/-- What is held goes first. -/
theorem collect_passed (hopen : s.link.outbound.closed = false) :
    ∃ packets, Passed s s.collect.state packets := by
  rw [collect_eq]
  unfold Outcome.afterHeld
  cases hheld : s.bridge.heldOut with
  | none => exact collectNext_passed hopen hheld
  | some packet =>
    dsimp only
    have hflush := flush_items hopen (some packet)
    obtain hfull | ⟨outbound, hleft⟩ := flush_cases packet s.link.outbound
    · rw [hfull]
      exact ⟨[], .refl s⟩
    · rw [hleft] at hflush ⊢
      obtain ⟨hitems, hends⟩ := hflush
      let flushed : Bridge.Station :=
        { bridge := { s.bridge with heldOut := none }, link := { s.link with outbound } }
      have hflushed : Passed s flushed [] := by
        refine ⟨rfl, rfl, fun _ => rfl, fun _ => rfl, rfl, ?_, rfl, hends.trans hopen.symm⟩
        rw [leaving, leaving, hheld]
        exact hitems.trans (List.append_nil _).symm
      obtain ⟨packets, hnext⟩ := collectNext_passed (s := flushed) hends rfl
      exact ⟨packets, hflushed.trans hnext⟩

/-- **A step of a bridge** moves datagrams to the front on both ways. -/
theorem step_passed (hopen : s.link.outbound.closed = false) :
    ∃ packets, Passed s s.step.state packets := by
  have hdeliver := s.deliver_passed
  obtain ⟨packets, hcollect⟩ := collect_passed (hdeliver.outbound.trans hopen)
  exact ⟨packets, hdeliver.trans hcollect⟩

end Station
end Bridge

/-! ## §3. All bridges. -/

namespace Layer

variable {bridges : List Bridge} {xb : Crossbar Packet}

/-- The bridge of a port, with its port of the crossbar. -/
def seatOf? (bridges : List Bridge) (xb : Crossbar Packet) (port : UInt16) :
    Option Bridge.Station :=
  (bridges.find? (·.port == port)).bind fun b => (xb.link? port).map fun link => ⟨b, link⟩

theorem seatOf?_eq_some {port : UInt16} {t : Bridge.Station} :
    seatOf? bridges xb port = some t ↔
      bridges.find? (·.port == port) = some t.bridge ∧ xb.link? port = some t.link := by
  obtain ⟨b, link⟩ := t
  unfold seatOf?
  rw [Option.bind_eq_some_iff]
  constructor
  · rintro ⟨found, hfind, hlink⟩
    obtain ⟨_, hfound, hsame⟩ := Option.map_eq_some_iff.1 hlink
    obtain ⟨rfl, rfl⟩ := Bridge.Station.mk.inj hsame
    exact ⟨hfind, hfound⟩
  · rintro ⟨hfind, hlink⟩
    exact ⟨b, hfind, by rw [hlink]; rfl⟩

theorem seatOf?_cons_self (b : Bridge) (rest : List Bridge) (xb : Crossbar Packet) :
    seatOf? (b :: rest) xb b.port = (xb.link? b.port).map fun link => ⟨b, link⟩ := by
  unfold seatOf?
  rw [List.find?_cons_of_pos (by simp)]
  rfl

theorem seatOf?_cons_of_ne {b : Bridge} {port : UInt16} (h : b.port ≠ port) (rest : List Bridge)
    (xb : Crossbar Packet) : seatOf? (b :: rest) xb port = seatOf? rest xb port := by
  unfold seatOf?
  rw [List.find?_cons_of_neg (by simpa using h)]

/-- The bridges touch nothing of the crossbar but the pipes of its ports. -/
theorem stepBridges_crossbar (bridges : List Bridge) (xb : Crossbar Packet) :
    ∃ ports, (stepBridges bridges xb).state.2 = { xb with ports } := by
  induction bridges generalizing xb with
  | nil => exact ⟨xb.ports, rfl⟩
  | cons b rest ih =>
    unfold stepBridges
    cases xb.link? b.port with
    | none => exact ih xb
    | some link =>
      obtain ⟨ports, hports⟩ := ih (xb.setLink b.port (Bridge.Station.step ⟨b, link⟩).state.link)
      exact ⟨ports, hports⟩

/-- A port without a bridge is left alone. -/
theorem link?_stepBridges {port : UInt16} (hport : port ∉ bridges.map (·.port)) :
    (stepBridges bridges xb).state.2.link? port = xb.link? port := by
  induction bridges generalizing xb with
  | nil => rfl
  | cons b rest ih =>
    rw [List.map_cons, List.mem_cons, not_or] at hport
    unfold stepBridges
    cases xb.link? b.port with
    | none => exact ih hport.2
    | some link =>
      refine (ih hport.2).trans ?_
      rw [Crossbar.link?_setLink]
      simp [hport.1]

/-- **Every bridge takes its step at its own port.** -/
theorem stepBridges_seat (hports : (bridges.map (·.port)).Nodup) (port : UInt16) :
    seatOf? (stepBridges bridges xb).state.1 (stepBridges bridges xb).state.2 port =
      (seatOf? bridges xb port).map (·.step.state) := by
  induction bridges generalizing xb with
  | nil => rfl
  | cons b rest ih =>
    obtain ⟨hfresh, hrest⟩ := List.nodup_cons.1 hports
    unfold stepBridges
    cases hlink : xb.link? b.port with
    | none =>
      show seatOf? (b :: (stepBridges rest xb).state.1) (stepBridges rest xb).state.2 port = _
      by_cases hport : b.port = port
      · -- without a port of the crossbar there is no seat, before or after
        subst hport
        rw [seatOf?_cons_self, seatOf?_cons_self, link?_stepBridges hfresh, hlink]
        rfl
      · rw [seatOf?_cons_of_ne hport, seatOf?_cons_of_ne hport]
        exact ih hrest
    | some link =>
      dsimp only
      have hstays : (Bridge.Station.step ⟨b, link⟩).state.bridge.port = b.port :=
        Bridge.Station.step_port ⟨b, link⟩
      by_cases hport : b.port = port
      · -- the others do not come back to it
        subst hport
        have hset : (xb.setLink b.port (Bridge.Station.step ⟨b, link⟩).state.link).link? b.port =
            some (Bridge.Station.step ⟨b, link⟩).state.link := by
          rw [Crossbar.link?_setLink, hlink]
          simp
        rw [seatOf?_cons_self b, hlink, ← hstays, seatOf?_cons_self, hstays,
          link?_stepBridges hfresh, hset]
        rfl
      · have hother : (xb.setLink b.port (Bridge.Station.step ⟨b, link⟩).state.link).link? port =
            xb.link? port := by
          rw [Crossbar.link?_setLink]
          simp [Ne.symm hport]
        rw [seatOf?_cons_of_ne (hstays ▸ hport), seatOf?_cons_of_ne hport, ih hrest]
        unfold seatOf?
        rw [hother]

/-- Ports and widths stay. -/
theorem frame_stepBridges (bridges : List Bridge) (xb : Crossbar Packet) :
    (stepBridges bridges xb).state.1.map (fun b => (b.port, b.stride)) =
      bridges.map fun b => (b.port, b.stride) := by
  induction bridges generalizing xb with
  | nil => rfl
  | cons b rest ih =>
    unfold stepBridges
    cases xb.link? b.port with
    | none => exact congrArg (_ :: ·) (ih xb)
    | some link =>
      exact congrArg₂ (· :: ·) (Prod.ext (Bridge.Station.step_port ⟨b, link⟩)
        (Bridge.Station.step_stride ⟨b, link⟩)) (ih _)

/-- The bridge of a port of the layer, with its port of the crossbar. -/
def seat? (l : Layer) (port : UInt16) : Option Bridge.Station := seatOf? l.bridges l.crossbar port

/-! ## §4. The users. -/

/-- Replacing the pipes of one user, the seats of the others stay. -/
theorem seat?_setUser (l : Layer) (port : UInt16) (user : Link UserPacket) (other : UInt16) :
    (l.setUser port user).seat? other = (l.seat? other).map fun t =>
      if other = port then { t with bridge := { t.bridge with user } } else t := by
  let replace (b : Bridge) : Bridge := if b.port == port then { b with user } else b
  have hport : ∀ b, (replace b).port = b.port := by
    intro b
    show (if b.port == port then { b with user } else b : Bridge).port = _
    split <;> rfl
  have hkey : ((·.port == other) ∘ replace) = (·.port == other) := by
    funext b
    rw [Function.comp_apply, hport]
  show ((l.bridges.map replace).find? (·.port == other)).bind _ = _
  rw [List.find?_map, hkey, seat?, seatOf?]
  cases hfind : l.bridges.find? (·.port == other) with
  | none => rfl
  | some b =>
    have hb : b.port = other := by simpa using List.find?_some hfind
    show (l.crossbar.link? other).map _ = ((l.crossbar.link? other).map _).map _
    rw [Option.map_map]
    refine congrArg (fun f => (l.crossbar.link? other).map f) (funext fun link => ?_)
    show (⟨if b.port == port then _ else _, link⟩ : Bridge.Station) = if other = port then _ else _
    by_cases hother : other = port
    · simp [hb, hother]
    · simp [hb, hother]

/-- Widths are not the users'. -/
theorem widths_setUser (l : Layer) (port : UInt16) (user : Link UserPacket) :
    (l.setUser port user).widths = l.widths := by
  unfold widths setUser
  rw [List.map_map]
  refine List.map_congr_left fun b _ => ?_
  dsimp only [Function.comp_apply]
  split <;> rfl

/-! ## §5. Opening ports. -/

/-- The bridge of a port that has just been opened. -/
def fresh (l : Layer) (port : UInt16) (width : Nat) : Bridge :=
  { port, stride := ⟨l.width, width⟩, user := .make l.depth }

/-- The layer with a port that has just been opened. -/
def joined (l : Layer) (crossbar : Crossbar Packet) (port : UInt16) (width : Nat) : Layer :=
  { l with crossbar, bridges := l.bridges ++ [l.fresh port width] }

/-- **All that the opening of a port can do.** -/
inductive Opens (l : Layer) (port : UInt16) (width : Nat) : Opening → Prop
  /-- The user's width is not supported. -/
  | unfit : ¬SupportedWidth width → Opens l port width ⟨l, some (.unsupportedWidth width), []⟩
  /-- The port has a user, or had one that could not be served. -/
  | taken : SupportedWidth width → port ∈ l.crossbar.keys →
      Opens l port width ⟨l, some (l.crossbar.kind.taken port), []⟩
  /-- The layer's own width is not supported, which is found out last. -/
  | stranded {crossbar : Crossbar Packet} {log : List Log.Line} : SupportedWidth width →
      ¬SupportedWidth l.width → l.crossbar.register port = .ok (crossbar, log) →
      Opens l port width
        ⟨{ l with crossbar := crossbar.abandon port }, some (.unsupportedWidth l.width), log⟩
  | joined {crossbar : Crossbar Packet} {log log' : List Log.Line} : SupportedWidth width →
      SupportedWidth l.width → l.crossbar.register port = .ok (crossbar, log) →
      Opens l port width ⟨l.joined crossbar port width, none, log'⟩

theorem openPort_opens (l : Layer) (port : UInt16) (width : Nat) :
    Opens l port width (l.openPort port width) := by
  unfold openPort
  cases hwidth : checkWidth width with
  | error fault =>
    obtain ⟨hunfit, rfl⟩ := checkWidth_eq_error_iff.1 hwidth
    exact .unfit hunfit
  | ok user =>
    obtain ⟨huser, rfl⟩ := checkWidth_eq_ok_iff.1 hwidth
    dsimp only
    cases hregister : l.crossbar.register port with
    | error fault =>
      unfold Crossbar.register at hregister
      split at hregister
      · next hhas =>
        cases hregister
        exact .taken huser ((Crossbar.has_iff_mem _ _).1 hhas)
      · cases hregister
    | ok made =>
      -- the port is registered by now, whatever comes of the layer's own width
      dsimp only
      cases hsource : checkWidth l.width with
      | error fault =>
        obtain ⟨hunfit, rfl⟩ := checkWidth_eq_error_iff.1 hsource
        simp only [Stride.make?, hsource]
        exact .stranded huser hunfit hregister
      | ok source =>
        obtain ⟨hown, rfl⟩ := checkWidth_eq_ok_iff.1 hsource
        simp only [Stride.make?, hsource, hwidth]
        exact .joined huser hown hregister

/-- A port is opened, unless it is taken or the user's width is not supported. -/
theorem openPort_cases {l : Layer} (hw : SupportedWidth l.width) (port : UInt16) (width : Nat) :
    ((l.openPort port width).layer = l ∧ (SupportedWidth width → port ∈ l.crossbar.keys)) ∨
      ∃ crossbar log, l.crossbar.register port = .ok (crossbar, log) ∧
        (l.openPort port width).layer = l.joined crossbar port width := by
  have hopens := l.openPort_opens port width
  generalize l.openPort port width = o at hopens
  cases hopens with
  | unfit hunfit => exact .inl ⟨rfl, fun hwidth => absurd hwidth hunfit⟩
  | taken _ hmem => exact .inl ⟨rfl, fun _ => hmem⟩
  | stranded _ hown _ => exact absurd hw hown
  | joined _ _ hregister => exact .inr ⟨_, _, hregister, rfl⟩

theorem width_openPort (l : Layer) (port : UInt16) (width : Nat) :
    (l.openPort port width).layer.width = l.width := by
  have hopens := l.openPort_opens port width
  generalize l.openPort port width = o at hopens
  cases hopens <;> rfl

/-- A free port of a supported width is opened. -/
theorem widths_openPort {l : Layer} (hw : SupportedWidth l.width) {port : UInt16} {width : Nat}
    (hwidth : SupportedWidth width) (hfree : port ∉ l.crossbar.keys) :
    (l.openPort port width).layer.widths = l.widths ++ [(port, width)] ∧
      (l.openPort port width).layer.crossbar.keys = l.crossbar.keys ++ [port] := by
  obtain ⟨-, htaken⟩ | ⟨crossbar, log, hregister, hopened⟩ := openPort_cases hw port width
  · exact absurd (htaken hwidth) hfree
  · rw [hopened]
    exact ⟨List.map_append, (Crossbar.keys_register hregister).1⟩

/-- A port that has been opened has its seat, and the others keep theirs. -/
theorem seat?_joined {l : Layer} {port : UInt16} {crossbar : Crossbar Packet}
    {log : List Log.Line} (hl : l.Orderly)
    (hregister : l.crossbar.register port = .ok (crossbar, log)) (width : Nat) (other : UInt16) :
    (l.joined crossbar port width).seat? other =
      if other = port then some ⟨l.fresh port width, .make l.crossbar.depth⟩
      else l.seat? other := by
  obtain ⟨-, hfree⟩ := Crossbar.keys_register hregister
  have hlink : crossbar.link? other = _ := Crossbar.link?_register hregister other
  show ((l.bridges ++ [l.fresh port width]).find? (·.port == other)).bind
    (fun b => (crossbar.link? other).map fun link => (⟨b, link⟩ : Bridge.Station)) = _
  rw [hlink, List.find?_append, seat?, seatOf?]
  by_cases hother : other = port
  · subst hother
    have hnone : l.bridges.find? (·.port == other) = none := by
      rw [List.find?_eq_none]
      intro old hold hport
      have hmem := hl.registered _ (List.mem_map_of_mem hold)
      rw [show old.port = other by simpa using hport] at hmem
      exact hfree hmem
    rw [hnone, if_pos rfl, if_pos rfl]
    simp [fresh]
  · have hnone : [l.fresh port width].find? (·.port == other) = none := by
      simpa [fresh] using Ne.symm hother
    rw [if_neg hother, if_neg hother, hnone, Option.or_none]

/-- Ports are opened one after the other, with their widths. -/
def openAll (l : Layer) (ports : List (UInt16 × Nat)) : Layer :=
  ports.foldl (fun l p => (l.openPort p.1 p.2).layer) l

/-- A layer with ports opened one after the other. -/
def opened (width depth : Nat) (ports : List (UInt16 × Nat)) : Layer :=
  (make width depth).openAll ports

/-- Ports that differ, of supported widths, are all opened. -/
theorem widths_openAll {l : Layer} (hw : SupportedWidth l.width) {ports : List (UInt16 × Nat)}
    (hdistinct : (ports.map (·.1)).Nodup) (hwidths : ∀ p ∈ ports, SupportedWidth p.2)
    (hfree : ∀ p ∈ ports, p.1 ∉ l.crossbar.keys) : (l.openAll ports).widths = l.widths ++ ports := by
  induction ports generalizing l with
  | nil => exact (List.append_nil _).symm
  | cons p ports ih =>
    obtain ⟨hfresh, hrest⟩ := List.nodup_cons.1 hdistinct
    have hp := List.mem_cons_self (a := p) (l := ports)
    have hlater : ∀ q ∈ ports, q ∈ p :: ports := fun q hq => List.mem_cons_of_mem p hq
    obtain ⟨hopened, hkeys⟩ := widths_openPort hw (hwidths p hp) (hfree p hp)
    have hnext : ∀ q ∈ ports, q.1 ∉ (l.openPort p.1 p.2).layer.crossbar.keys := by
      intro q hq
      rw [hkeys, List.mem_append, List.mem_singleton, not_or]
      refine ⟨hfree q (hlater q hq), fun heq => hfresh ?_⟩
      show p.1 ∈ ports.map (·.1)
      exact heq ▸ List.mem_map_of_mem hq
    refine (ih ((width_openPort l p.1 p.2).symm ▸ hw) hrest
      (fun q hq => hwidths q (hlater q hq)) hnext).trans ?_
    rw [hopened, List.append_assoc]
    rfl

end Layer

end NetBoard.Udp
