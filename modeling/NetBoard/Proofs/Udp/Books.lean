/-
  NetBoard.Proofs.Udp.Books
  ─────────────────────────
  **WHAT HAS PASSED EACH PLACE OF THE UDP LAYER.**

  On both ways a datagram passes five places: the user's pipe, the slot of the
  bridge, the pipes and the slot of the crossbar, and the slot of the layer.  Each
  of them can be full while the others move.  The books say what has passed each
  place; they agree with the places if what has passed one and not the next is
  between the two, and every part of a step keeps them so.

  Main definitions:

      Station.Wired       — what of a layer and its pipes never changes
      Books               — what has passed each of the places
      Kept                — the books of a layer and its places agree

  Main statements:

      Kept.bridge         — the bridges keep the books
      Kept.exchange       — so does the crossbar
      Kept.transmit, Kept.receive
                          — and what the layer sends and takes
      Kept.step           — a step of the layer keeps the books
-/
import NetBoard.Proofs.Udp.Bridges

namespace NetBoard.Udp

open Outcome
open Crossbar.History (ofKey ofKey_append)

/-! ## §1. Places and books. -/

/-- What of a layer and its pipes never changes: every port has a bridge and a place
at the crossbar, and all pipes but the users' have both their ends. -/
structure Station.Wired (s : Station) : Prop where
  formed : s.layer.Formed
  orderly : s.layer.Orderly
  seated : ∀ port ∈ s.layer.crossbar.keys, port ∈ s.layer.bridges.map (·.port)
  known : s.layer.crossbar.HeldKnown
  inbox : s.layer.crossbar.inbox.closed = false
  outbox : s.layer.crossbar.outbox.closed = false
  reaches : ∀ port, s.layer.crossbar.reaches port = true
  sends : ∀ port, s.layer.crossbar.sends port = true
  outbound : s.link.outbound.closed = false

/-- What has passed each of the places, the oldest first. -/
structure Books where
  /-- The ports that are open, with their widths. -/
  widths : List (UInt16 × Nat) := []
  /-- The IP datagrams that were given to the layer. -/
  arrived : List Ip.Packet := []
  /-- Those that it has taken. -/
  taken : List Ip.Packet := []
  /-- The datagrams that the crossbar has taken from the layer. -/
  dispatched : List Packet := []
  /-- What the users have received, each with its port. -/
  seen : List (UInt16 × UserPacket) := []
  /-- What the users have sent, each with its port. -/
  sent : List (UInt16 × UserPacket) := []
  /-- The datagrams that the crossbar has taken from the bridges, each with its port. -/
  won : List (UInt16 × Packet) := []
  /-- The datagrams that the layer has taken from the crossbar. -/
  collected : List Packet := []
  /-- The IP datagrams that have left. -/
  departed : List Ip.Packet := []

/-- The books of one port, and what the crossbar holds for it. -/
structure Account where
  dispatched : List Packet
  held : List Packet
  seen : List UserPacket
  sent : List UserPacket
  won : List Packet

/-- The books of one port among those of the layer. -/
def Books.account (k : Books) (xb : Crossbar Packet) (port : UInt16) : Account where
  dispatched := k.dispatched.filter (·.dstPort == port)
  held := xb.heldFor port
  seen := ofKey port k.seen
  sent := ofKey port k.sent
  won := ofKey port k.won

/-- The books of a port and its places agree. -/
structure Served (x : Account) (t : Bridge.Station) : Prop where
  delivered : t.bridge.user.inbound.closed = false →
    x.dispatched.map t.bridge.toUser = x.seen ++ (t.arriving ++ x.held.map t.bridge.toUser)
  /-- A user that has gone was given the first ones. -/
  gone : t.bridge.user.inbound.closed = true →
    x.seen ++ t.bridge.user.inbound.items <+: x.dispatched.map t.bridge.toUser
  asked : ∃ packets, x.sent = packets ++ t.bridge.user.outbound.items ∧
    packets.map t.bridge.ofUser = x.won ++ t.leaving

/-- **The books and the places agree**: what has passed one place and not the next
is between the two. -/
structure Kept (s : Station) (k : Books) : Prop where
  wired : s.Wired
  widths : s.layer.widths = k.widths
  arrived : k.arrived = k.taken ++ s.link.inbound.items
  accepted : k.taken.filterMap received? =
    k.dispatched ++ (s.layer.crossbar.inbox.items ++ s.layer.heldIn.toList)
  invalid : s.layer.stats.invalid = k.taken.countP fun p => (received? p).isNone
  unknown : s.layer.crossbar.stats.unknown =
    k.dispatched.countP fun p => !s.layer.crossbar.has p.dstPort
  served : ∀ port t, s.layer.seat? port = some t → Served (k.account s.layer.crossbar port) t
  unserved : ∀ port, s.layer.seat? port = none → ofKey port k.sent = [] ∧ ofKey port k.won = []
  selected : k.won.map (·.2) =
    k.collected ++ (s.layer.crossbar.outbox.items ++ s.layer.crossbar.heldOut.toList)
  departed : k.collected.filterMap Packet.sent? =
    k.departed ++ (s.link.outbound.items ++ s.layer.heldOut.toList)
  oversize : s.layer.stats.txOversize = k.collected.countP fun p => p.sent?.isNone

variable {s : Station} {k : Books} {port : UInt16} {t t' : Bridge.Station}

/-- A port at the crossbar has its bridge. -/
theorem Station.Wired.seat (hs : s.Wired) {link : Link Packet}
    (h : s.layer.crossbar.link? port = some link) :
    ∃ b, s.layer.seat? port = some ⟨b, link⟩ := by
  have hkey : port ∈ s.layer.crossbar.keys := by
    rw [← Crossbar.has_iff_mem, Crossbar.has_eq_isSome, h]
    rfl
  have hfound : (s.layer.bridges.find? (·.port == port)).isSome = true := by
    obtain ⟨b, hb, hport⟩ := List.mem_map.1 (hs.seated port hkey)
    rw [List.find?_isSome]
    exact ⟨b, hb, by simpa using hport⟩
  obtain ⟨b, hfind⟩ := Option.isSome_iff_exists.1 hfound
  exact ⟨b, Layer.seatOf?_eq_some.2 ⟨hfind, h⟩⟩

/-- A bridge has its seat. -/
theorem Station.Wired.seat_of_mem (hs : s.Wired) {b : Bridge} (hb : b ∈ s.layer.bridges) :
    ∃ link, s.layer.crossbar.link? b.port = some link ∧ s.layer.seat? b.port = some ⟨b, link⟩ := by
  have hkey := hs.orderly.registered _ (List.mem_map_of_mem hb)
  rw [← Crossbar.has_iff_mem, Crossbar.has_eq_isSome] at hkey
  obtain ⟨link, hlink⟩ := Option.isSome_iff_exists.1 hkey
  obtain ⟨b', hseat⟩ := hs.seat hlink
  obtain ⟨hfind, -⟩ := Layer.seatOf?_eq_some.1 hseat
  have hport : b'.port = b.port := by simpa using List.find?_some hfind
  have hmem := List.mem_of_find?_eq_some hfind
  obtain rfl := List.inj_on_of_nodup_map hs.orderly.bridges hmem hb hport
  exact ⟨link, hlink, hseat⟩

/-- Its pipes have both their ends. -/
theorem Station.Wired.open_seat (hs : s.Wired) (h : s.layer.seat? port = some t) :
    t.link.inbound.closed = false ∧ t.link.outbound.closed = false := by
  obtain ⟨-, hlink⟩ := Layer.seatOf?_eq_some.1 h
  have hreaches := hs.reaches port
  have hsends := hs.sends port
  rw [Crossbar.reaches_of_link hlink] at hreaches
  rw [Crossbar.sends_of_link hlink] at hsends
  exact ⟨by simpa using hreaches, by simpa using hsends⟩

/-- What the layer sends and takes passes between its own pipes, and leaves the ports. -/
theorem Station.Wired.of_ports (hs : s.Wired) {s' : Station}
    (hbridges : s'.layer.bridges = s.layer.bridges)
    (hports : s'.layer.crossbar.ports = s.layer.crossbar.ports)
    (hheld : s'.layer.crossbar.heldIn = s.layer.crossbar.heldIn)
    (hwrites : s'.layer.packetizer.Writes header) (hreads : s'.layer.depacketizer.Reads header)
    (hinbox : s'.layer.crossbar.inbox.closed = false)
    (houtbox : s'.layer.crossbar.outbox.closed = false)
    (houtbound : s'.link.outbound.closed = false) : s'.Wired := by
  have hkeys : s'.layer.crossbar.keys = s.layer.crossbar.keys := congrArg (List.map _) hports
  have hlink : ∀ port, s'.layer.crossbar.link? port = s.layer.crossbar.link? port := by
    intro port
    unfold Crossbar.link?
    rw [hports]
  exact
    { formed := ⟨hwrites, hreads, hbridges ▸ hs.formed.bridges⟩
      orderly :=
        ⟨hkeys ▸ hs.orderly.distinct, hbridges ▸ hs.orderly.bridges,
          hkeys ▸ hbridges ▸ hs.orderly.registered⟩
      seated := hkeys ▸ hbridges ▸ hs.seated
      known := fun item hitem =>
        (Crossbar.has_congr hkeys _).trans (hs.known item (hheld.symm.trans hitem))
      inbox := hinbox
      outbox := houtbox
      reaches := fun port => by
        rw [Crossbar.reaches, Crossbar.inbound?, hlink]
        exact hs.reaches port
      sends := fun port => by
        rw [Crossbar.sends, hlink]
        exact hs.sends port
      outbound := houtbound }

/-! ## §2. One step. -/

/-- The step of a bridge keeps the books of its port. -/
theorem Served.passed {x : Account} {packets : List UserPacket} (h : Served x t)
    (hpassed : Bridge.Station.Passed t t' packets) : Served x t' where
  delivered := fun hopen => by
    have hbefore := hpassed.closed.symm.trans hopen
    rw [Bridge.toUser_congr hpassed.stride, h.delivered hbefore, hpassed.arriving hbefore]
  gone := fun hclosed => by
    have hbefore := hpassed.closed.symm.trans hclosed
    rw [Bridge.toUser_congr hpassed.stride, hpassed.gone hbefore]
    exact h.gone hbefore
  asked := by
    obtain ⟨before, hsent, hwon⟩ := h.asked
    refine ⟨before ++ packets, ?_, ?_⟩
    · rw [hsent, hpassed.asked, List.append_assoc]
    · rw [Bridge.ofUser_congr hpassed.stride, List.map_append, hwon, hpassed.leaving,
        List.append_assoc]

/-- The bridges leave all pipes with their ends. -/
theorem Station.Wired.bridge (hs : s.Wired) : s.bridge.state.Wired := by
  let bridges := s.layer.bridges
  let xb := s.layer.crossbar
  let next := Layer.stepBridges bridges xb
  obtain ⟨ports, hports⟩ := Layer.stepBridges_crossbar bridges xb
  have hsame := (Layer.stepBridges_pays none bridges hs.orderly.distinct).kept
  have hhas : ∀ port, next.state.2.has port = xb.has port := Crossbar.has_congr hsame.keys
  -- a port that is there after was there before, with the same ends
  have hends : ∀ port, next.state.2.reaches port = true ∧ next.state.2.sends port = true := by
    intro port
    cases hlink : next.state.2.link? port with
    | none =>
      constructor
      · rw [Crossbar.reaches, Crossbar.inbound?, hlink]
        rfl
      · rw [Crossbar.sends, hlink]
        rfl
    | some link' =>
      obtain ⟨link, hbefore⟩ : ∃ link, xb.link? port = some link := by
        rw [← Option.isSome_iff_exists, ← Crossbar.has_eq_isSome, ← hhas,
          Crossbar.has_eq_isSome, hlink]
        rfl
      obtain ⟨b, hseat⟩ := hs.seat hbefore
      obtain ⟨hin, hout⟩ := hs.open_seat hseat
      obtain ⟨packets, hpassed⟩ := Bridge.Station.step_passed hout
      have hafter : Layer.seatOf? next.state.1 next.state.2 port =
          (s.layer.seat? port).map (·.step.state) :=
        Layer.stepBridges_seat hs.orderly.bridges port
      rw [hseat, Option.map_some] at hafter
      obtain ⟨-, hstepped⟩ := Layer.seatOf?_eq_some.1 hafter
      refine ⟨(Crossbar.reaches_of_link hstepped).trans ?_,
        (Crossbar.sends_of_link hstepped).trans ?_⟩
      · rw [hpassed.inbound, hin]
        rfl
      · rw [hpassed.outbound, hout]
        rfl
  refine
    { formed := ⟨hs.formed.packetizer, hs.formed.depacketizer, fun b hb => ?_⟩
      orderly := hs.orderly.of_samePorts hsame
      seated := ?_
      known := fun item hitem => ?_
      inbox := ?_
      outbox := ?_
      reaches := fun port => (hends port).1
      sends := fun port => (hends port).2
      outbound := hs.outbound }
  · have hmem : (b.port, b.stride) ∈ bridges.map fun b => (b.port, b.stride) :=
      Layer.frame_stepBridges bridges xb ▸ List.mem_map_of_mem hb
    obtain ⟨before, hbefore, hframe⟩ := List.mem_map.1 hmem
    have hformed := hs.formed.bridges before hbefore
    rwa [Bridge.Formed, (Prod.mk.inj hframe).2] at hformed
  · show ∀ port ∈ next.state.2.keys, port ∈ next.state.1.map (·.port)
    rw [hsame.keys, hsame.bridges]
    exact hs.seated
  · have hheld : next.state.2.heldIn = xb.heldIn := by rw [hports]
    exact (hhas _).trans (hs.known item (hheld.symm.trans hitem))
  · show next.state.2.inbox.closed = false
    rw [hports]
    exact hs.inbox
  · show next.state.2.outbox.closed = false
    rw [hports]
    exact hs.outbox

/-- **The bridges keep the books.** -/
theorem Kept.bridge (hk : Kept s k) : Kept s.bridge.state k := by
  let bridges := s.layer.bridges
  let xb := s.layer.crossbar
  let next := Layer.stepBridges bridges xb
  have hs := hk.wired
  obtain ⟨ports, hports⟩ := Layer.stepBridges_crossbar bridges xb
  have hhas : ∀ port, next.state.2.has port = xb.has port :=
    Crossbar.has_congr (Layer.stepBridges_pays none bridges hs.orderly.distinct).kept.keys
  have hseats : ∀ port,
      s.bridge.state.layer.seat? port = (s.layer.seat? port).map (·.step.state) :=
    Layer.stepBridges_seat hs.orderly.bridges
  refine
    { wired := hs.bridge
      widths := ?_
      arrived := hk.arrived
      accepted := ?_
      invalid := hk.invalid
      unknown := ?_
      served := fun port t' hseat => ?_
      unserved := fun port hseat => ?_
      selected := ?_
      departed := hk.departed
      oversize := hk.oversize }
  · rw [← hk.widths]
    have hwidths := congrArg (List.map fun frame => (frame.1, frame.2.target))
      (Layer.frame_stepBridges bridges xb)
    rwa [List.map_map, List.map_map] at hwidths
  · show _ = k.dispatched ++ (next.state.2.inbox.items ++ _)
    rw [hports]
    exact hk.accepted
  · show next.state.2.stats.unknown = k.dispatched.countP fun p => !next.state.2.has p.dstPort
    simp only [hhas]
    rw [hports]
    exact hk.unknown
  · rw [hseats] at hseat
    obtain ⟨t, hbefore, rfl⟩ := Option.map_eq_some_iff.1 hseat
    obtain ⟨packets, hpassed⟩ := Bridge.Station.step_passed (hs.open_seat hbefore).2
    have haccount : k.account next.state.2 port = k.account xb port := by
      unfold Books.account Crossbar.heldFor
      rw [hports]
    show Served (k.account next.state.2 port) _
    rw [haccount]
    exact (hk.served port t hbefore).passed hpassed
  · rw [hseats] at hseat
    exact hk.unserved port (Option.map_eq_none_iff.1 hseat)
  · show _ = k.collected ++ (next.state.2.outbox.items ++ next.state.2.heldOut.toList)
    rw [hports]
    exact hk.selected

/-- What the crossbar moves for a port joins what is on its way to the bridge, and
leaves what is on its way from it. -/
theorem Served.exchanged {xb xb' : Crossbar Packet} {new : List Packet}
    {won : List (UInt16 × Packet)} {link' : Link Packet} (h : Served (k.account xb port) t)
    (hx : Crossbar.Exchanged xb xb' new won) (hlink : xb.link? port = some t.link)
    (hlink' : xb'.link? port = some link') (hreaches : xb.reaches port = true) :
    Served ({ k with dispatched := k.dispatched ++ new, won := k.won ++ won }.account xb' port)
      { t with link := link' } where
  delivered := fun hopen => by
    have hway := hx.way port hreaches
    have hfor : xb.isFor port = fun p => p.dstPort == port := Crossbar.isFor_of_link hlink
    rw [Crossbar.wayTo, Crossbar.wayTo, Crossbar.given_of_link hlink,
      Crossbar.given_of_link hlink', hfor] at hway
    -- what the crossbar holds for the port is seen as its bridge will convert it
    have harriving := congrArg (List.map t.bridge.toUser) hway
    simp only [List.map_append] at harriving
    show ((k.dispatched ++ new).filter _).map t.bridge.toUser = ofKey port k.seen ++
      (t.bridge.user.inbound.items ++ t.bridge.heldIn.toList ++
        link'.inbound.items.map t.bridge.toUser ++ _)
    have hbefore : (k.dispatched.filter (·.dstPort == port)).map t.bridge.toUser =
        ofKey port k.seen ++ (t.arriving ++ (xb.heldFor port).map t.bridge.toUser) :=
      h.delivered hopen
    rw [List.filter_append, List.map_append, hbefore,
      List.append_assoc (t.bridge.user.inbound.items ++ _)]
    refine Eq.trans ?_ (congrArg (fun way => ofKey port k.seen ++
      (t.bridge.user.inbound.items ++ t.bridge.heldIn.toList ++ way)) harriving.symm)
    simp only [Bridge.Station.arriving, List.append_assoc]
  gone := fun hclosed => by
    show _ <+: ((k.dispatched ++ new).filter _).map t.bridge.toUser
    rw [List.filter_append, List.map_append]
    exact (h.gone hclosed).trans (List.prefix_append _ _)
  asked := by
    obtain ⟨packets, hsent, hwon⟩ := h.asked
    have hunsent := hx.unsent port
    rw [Crossbar.unsent_of_link hlink, Crossbar.unsent_of_link hlink'] at hunsent
    refine ⟨packets, hsent, ?_⟩
    show _ = ofKey port (k.won ++ won) ++ (link'.outbound.items ++ t.bridge.heldOut.toList)
    rw [hwon, ofKey_append, Bridge.Station.leaving, hunsent]
    simp only [Books.account, ofKey, List.append_assoc]

/-- The crossbar leaves them too. -/
theorem Station.Wired.exchanged (hs : s.Wired) {xb' : Crossbar Packet} {new : List Packet}
    {won : List (UInt16 × Packet)} (hx : Crossbar.Exchanged s.layer.crossbar xb' new won) :
    Wired { s with layer := { s.layer with crossbar := xb' } } where
  formed := ⟨hs.formed.packetizer, hs.formed.depacketizer, hs.formed.bridges⟩
  orderly := hs.orderly.of_samePorts (t := (s.layer.bridges, xb')) ⟨rfl, hx.keys⟩
  seated := fun port hport => hs.seated port (hx.keys ▸ hport)
  known := hx.held
  inbox := hx.closed.trans hs.inbox
  outbox := hx.opened
  reaches := fun port => (hx.reaches port).trans (hs.reaches port)
  sends := fun port => (hx.sends port).trans (hs.sends port)
  outbound := hs.outbound

/-- **The crossbar keeps the books**, with what it takes from either side. -/
theorem Kept.exchange (hk : Kept s k) :
    ∃ new won, Kept s.exchange.state
      { k with dispatched := k.dispatched ++ new, won := k.won ++ won } := by
  let xb := s.layer.crossbar
  have hs := hk.wired
  obtain ⟨new, won, hx⟩ := Crossbar.step_exchanged hs.known hs.orderly.distinct hs.outbox
  have hwired : s.exchange.state.Wired := hs.exchanged hx
  have hhas : ∀ port, xb.step.state.has port = xb.has port := Crossbar.has_congr hx.keys
  have hsome : ∀ port, (xb.step.state.link? port).isSome = (xb.link? port).isSome := by
    intro port
    rw [← Crossbar.has_eq_isSome, hhas, Crossbar.has_eq_isSome]
  refine ⟨new, won, ?_⟩
  refine
    { wired := hwired
      widths := hk.widths
      arrived := hk.arrived
      accepted := ?_
      invalid := hk.invalid
      unknown := ?_
      served := fun port t' hseat => ?_
      unserved := fun port hseat => ?_
      selected := ?_
      departed := hk.departed
      oversize := hk.oversize }
  · rw [hk.accepted, hx.inbox, List.append_assoc, List.append_assoc]
    rfl
  · show xb.step.state.stats.unknown =
      (k.dispatched ++ new).countP fun p => !xb.step.state.has p.dstPort
    simp only [hhas]
    rw [hx.unknown, hk.unknown, List.countP_append]
    rfl
  · obtain ⟨b, link'⟩ := t'
    obtain ⟨hfind, hlink'⟩ := Layer.seatOf?_eq_some.1 hseat
    have hafter : (xb.step.state.link? port).isSome = true := Option.isSome_iff_exists.2 ⟨_, hlink'⟩
    obtain ⟨link, hlink⟩ := Option.isSome_iff_exists.1 ((hsome port).symm.trans hafter)
    have hbefore : s.layer.seat? port = some ⟨b, link⟩ :=
      Layer.seatOf?_eq_some.2 ⟨hfind, hlink⟩
    exact (hk.served port _ hbefore).exchanged hx hlink hlink' (hs.reaches port)
  · -- nobody is at the port, so nothing is taken from it
    have hnone : xb.link? port = none := by
      rw [← Option.not_isSome_iff_eq_none, ← hsome]
      intro hafter
      obtain ⟨link', hlink'⟩ := Option.isSome_iff_exists.1 hafter
      obtain ⟨b, hseated⟩ := hwired.seat hlink'
      exact Option.some_ne_none _ (hseated.symm.trans hseat)
    have hbefore : s.layer.seat? port = none := by
      rw [Layer.seat?, Layer.seatOf?, show s.layer.crossbar.link? port = none from hnone]
      simp
    have hunsent := hx.unsent port
    rw [Crossbar.unsent, hnone] at hunsent
    obtain ⟨hsent, hwon⟩ := hk.unserved port hbefore
    refine ⟨hsent, ?_⟩
    rw [ofKey_append, hwon]
    exact (List.append_eq_nil_iff.1 hunsent.symm).1
  · show (k.won ++ won).map (·.2) = k.collected ++
      (xb.step.state.outbox.items ++ xb.step.state.heldOut.toList)
    rw [List.map_append, hk.selected, hx.outgoing, List.append_assoc]

/-- With nothing held the next datagram of the crossbar leaves, or is counted as too long. -/
theorem Kept.transmitNext (hk : Kept s k) (hheld : s.layer.heldOut = none) :
    ∃ packets, Kept s.transmitNext.state { k with collected := k.collected ++ packets } := by
  have hs := hk.wired
  unfold Station.transmitNext
  dsimp only
  cases htake : s.layer.crossbar.outbox.take with
  | none =>
    refine ⟨[], ?_⟩
    rw [List.append_nil]
    exact hk
  | some taken =>
    obtain ⟨packet, outbox⟩ := taken
    obtain ⟨hitems, -, hends⟩ := Pipe.take_eq_some htake
    have hdeparted := hk.departed
    rw [hheld, Option.toList_none, List.append_nil] at hdeparted
    have hselected : k.won.map (·.2) = k.collected ++ [packet] ++
        (outbox.items ++ s.layer.crossbar.heldOut.toList) := by
      rw [hk.selected, hitems, List.append_assoc]
      rfl
    refine ⟨[packet], ?_⟩
    dsimp only
    by_cases hlong : maxPayloadLength < packet.payload.length
    · -- counted as oversize: nothing leaves, and nothing is owed
      have hnone : packet.sent? = none := if_pos hlong
      rw [if_pos hlong]
      refine { hk with
        wired := hs.of_ports rfl rfl rfl hs.formed.packetizer hs.formed.depacketizer hs.inbox
          (hends.trans hs.outbox) hs.outbound
        selected := hselected
        departed := ?_
        oversize := ?_ }
      · show (k.collected ++ [packet]).filterMap _ =
          k.departed ++ (s.link.outbound.items ++ s.layer.heldOut.toList)
        rw [List.filterMap_append, hk.departed]
        simp [hnone]
      · show s.layer.stats.txOversize + 1 = (k.collected ++ [packet]).countP _
        rw [List.countP_append, hk.oversize]
        simp [hnone]
    · -- behind its header, in the pipe to the IP layer or held in front of it
      have hsent : packet.sent? = some packet.carried := packet.carried_eq hlong
      have hoctets := hs.formed.packetizer.octets header_sound packet.fields packet.payload
      have hnext := hs.formed.packetizer.next header_sound packet.fields packet.payload
      obtain ⟨hout, hopen⟩ := sendOrHold_items hs.outbound packet.carried
      rw [if_neg hlong, hoctets]
      refine { hk with
        wired := hs.of_ports rfl rfl rfl hnext hs.formed.depacketizer hs.inbox
          (hends.trans hs.outbox) hopen
        selected := hselected
        departed := ?_
        oversize := ?_ }
      · show (k.collected ++ [packet]).filterMap _ = k.departed ++
          ((sendOrHold packet.carried s.link.outbound).2.items ++
            (sendOrHold packet.carried s.link.outbound).1.toList)
        rw [List.filterMap_append, hdeparted, hout]
        simp [hsent]
      · show s.layer.stats.txOversize = (k.collected ++ [packet]).countP _
        rw [List.countP_append, hk.oversize]
        simp [hsent]

/-- What is held goes first. -/
theorem Kept.transmit (hk : Kept s k) :
    ∃ packets, Kept s.transmit.state { k with collected := k.collected ++ packets } := by
  have hs := hk.wired
  rw [s.transmit_eq]
  unfold Outcome.afterHeld
  cases hheld : s.layer.heldOut with
  | none => exact hk.transmitNext hheld
  | some packet =>
    dsimp only
    have hflush := flush_items hs.outbound (some packet)
    obtain hfull | ⟨outbound, hleft⟩ := flush_cases packet s.link.outbound
    · rw [hfull]
      refine ⟨[], ?_⟩
      rw [List.append_nil]
      exact hk
    · rw [hleft] at hflush ⊢
      obtain ⟨hitems, hopen⟩ := hflush
      let flushed : Station :=
        { layer := { s.layer with heldOut := none }, link := { s.link with outbound } }
      have hflushed : Kept flushed k := { hk with
        wired := hs.of_ports rfl rfl rfl hs.formed.packetizer hs.formed.depacketizer hs.inbox
          hs.outbox hopen
        departed := by
          have hdeparted := hk.departed
          rw [hheld] at hdeparted
          exact hdeparted.trans (congrArg (k.departed ++ ·) hitems.symm) }
      exact hflushed.transmitNext rfl

/-- What the layer makes of an IP datagram: it passes on the datagram in it, or counts it. -/
theorem Station.accept_received (hs : s.layer.Formed) (p : Ip.Packet) :
    ∃ depacketizer : Depacketizer, depacketizer.Reads header ∧
      (s.accept p).state =
        match received? p with
        | none =>
          { s with layer := { s.layer with
              depacketizer
              stats := { s.layer.stats with invalid := s.layer.stats.invalid + 1 } } }
        | some packet =>
          { s with layer := { s.layer with
              depacketizer
              heldIn := (sendOrHold packet s.layer.crossbar.inbox).1
              crossbar := { s.layer.crossbar with
                inbox := (sendOrHold packet s.layer.crossbar.inbox).2 }
              stats := { s.layer.stats with rxDatagrams := s.layer.stats.rxDatagrams + 1 } } } := by
  have hpacket : (s.layer.depacketizer.depacketize p.payload).2 =
      if p.payload.length < 8 then none
      else some (header.decode (p.payload.take 8), p.payload.drop 8) :=
    hs.depacketizer.packet (by decide) p.payload
  refine ⟨(s.layer.depacketizer.depacketize p.payload).1,
    hs.depacketizer.next (by decide) p.payload, ?_⟩
  unfold accept
  dsimp only
  rw [hpacket]
  by_cases hshort : p.payload.length < 8
  · have hnone : received? p = none := if_neg fun h => absurd h.1 (Nat.not_le.2 hshort)
    rw [if_pos hshort, hnone]
    rfl
  · have hread := ofFields_decode p (Nat.le_of_not_lt hshort)
    rw [if_neg hshort]
    dsimp only
    cases hresult : Packet.ofFields p.ip (header.decode (p.payload.take 8)) (p.payload.drop 8) with
    | error length =>
      rw [hresult] at hread
      rw [← hread]
      rfl
    | ok packet =>
      rw [hresult] at hread
      rw [← hread]
      rfl

/-- With nothing held the next IP datagram is taken. -/
theorem Kept.receiveNext (hk : Kept s k) (hheld : s.layer.heldIn = none) :
    ∃ packets, Kept s.receiveNext.state { k with taken := k.taken ++ packets } := by
  have hs := hk.wired
  unfold Station.receiveNext
  cases htake : s.link.inbound.take with
  | none =>
    refine ⟨[], ?_⟩
    rw [List.append_nil]
    exact hk
  | some taken =>
    obtain ⟨p, inbound⟩ := taken
    have harrived : k.arrived = k.taken ++ [p] ++ inbound.items := by
      rw [hk.arrived, (Pipe.take_eq_some htake).1, List.append_assoc]
      rfl
    have haccepted := hk.accepted
    rw [hheld, Option.toList_none, List.append_nil] at haccepted
    let next : Station := { s with link := { s.link with inbound } }
    obtain ⟨depacketizer, hreads, haccept⟩ := Station.accept_received (s := next) hs.formed p
    refine ⟨[p], ?_⟩
    dsimp only
    show Kept (next.accept p).state _
    rw [haccept]
    cases hreceived : received? p with
    | none =>
      -- counted as invalid: nothing goes on to the crossbar
      refine { hk with
        wired := hs.of_ports rfl rfl rfl hs.formed.packetizer hreads hs.inbox hs.outbox hs.outbound
        arrived := harrived
        accepted := ?_
        invalid := ?_ }
      · show (k.taken ++ [p]).filterMap _ =
          k.dispatched ++ (s.layer.crossbar.inbox.items ++ s.layer.heldIn.toList)
        rw [List.filterMap_append, hk.accepted]
        simp [hreceived]
      · show s.layer.stats.invalid + 1 = (k.taken ++ [p]).countP _
        rw [List.countP_append, hk.invalid]
        simp [hreceived]
    | some packet =>
      obtain ⟨hin, hopen⟩ := sendOrHold_items hs.inbox packet
      refine { hk with
        wired := hs.of_ports rfl rfl rfl hs.formed.packetizer hreads hopen hs.outbox hs.outbound
        arrived := harrived
        accepted := ?_
        invalid := ?_ }
      · show (k.taken ++ [p]).filterMap _ = k.dispatched ++
          ((sendOrHold packet s.layer.crossbar.inbox).2.items ++
            (sendOrHold packet s.layer.crossbar.inbox).1.toList)
        rw [List.filterMap_append, haccepted, hin]
        simp [hreceived]
      · show s.layer.stats.invalid = (k.taken ++ [p]).countP _
        rw [List.countP_append, hk.invalid]
        simp [hreceived]

/-- What is held goes first. -/
theorem Kept.receive (hk : Kept s k) :
    ∃ packets, Kept s.receive.state { k with taken := k.taken ++ packets } := by
  have hs := hk.wired
  rw [s.receive_eq]
  unfold Outcome.afterHeld
  cases hheld : s.layer.heldIn with
  | none => exact hk.receiveNext hheld
  | some packet =>
    dsimp only
    have hflush := flush_items hs.inbox (some packet)
    obtain hfull | ⟨inbox, hleft⟩ := flush_cases packet s.layer.crossbar.inbox
    · rw [hfull]
      refine ⟨[], ?_⟩
      rw [List.append_nil]
      exact hk
    · rw [hleft] at hflush ⊢
      obtain ⟨hitems, hopen⟩ := hflush
      let flushed : Station := { s with
        layer := { s.layer with heldIn := none, crossbar := { s.layer.crossbar with inbox } } }
      have hflushed : Kept flushed k := { hk with
        wired := hs.of_ports rfl rfl rfl hs.formed.packetizer hs.formed.depacketizer hopen
          hs.outbox hs.outbound
        accepted := by
          have haccepted := hk.accepted
          rw [hheld] at haccepted
          exact haccepted.trans (congrArg (k.dispatched ++ ·) hitems.symm) }
      exact hflushed.receiveNext rfl

/-- **A step of the layer keeps the books.** -/
theorem Kept.step (hk : Kept s k) :
    ∃ taken dispatched won collected,
      Kept s.step.state { k with taken, dispatched, won, collected } := by
  obtain ⟨new, won, hexchanged⟩ := hk.bridge.exchange
  obtain ⟨collected, htransmitted⟩ := hexchanged.transmit
  obtain ⟨taken, hreceived⟩ := htransmitted.receive
  exact ⟨_, _, _, _, hreceived⟩

end NetBoard.Udp
