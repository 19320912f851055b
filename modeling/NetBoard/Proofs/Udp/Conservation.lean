/-
  NetBoard.Proofs.Udp.Conservation
  ────────────────────────────────
  **EVERY DATAGRAM BETWEEN ITS USER AND THE IP LAYER.**

  In whatever order users, layer and IP layer move, what a user receives are the
  datagrams for its port, and what the IP layer receives are the users' datagrams
  behind their headers, in order and once each, but for those that are inside.

  Main definitions:

      History             — a layer with all that went in and out of it
      Request             — a user's packet, with its port

  Main statements:

      Kept.setUser        — what a user does keeps the books
      Kept.openPort       — so does the opening of a port, before anything happens
      History.run_conserved
                          — a run keeps the books
      Kept.due, Kept.requests
                          — what the users receive and what they have sent
      History.datagrams_conserved
                          — the law of both ways, over every run
-/
import NetBoard.Proofs.Udp.Books

namespace NetBoard.Udp

open Crossbar.History (ofKey ofKey_append ofKey_singleton ofKey_snoc_of_ne ofKey_snoc_self
  mem_ofKey)

variable {s : Station} {k : Books} {port : UInt16} {t : Bridge.Station}

/-! ## §1. The users. -/

theorem Station.Wired.setUser (hs : s.Wired) (port : UInt16) (user : Link UserPacket) :
    Wired { s with layer := s.layer.setUser port user } :=
  { hs with
    formed := hs.formed.setUser port user
    orderly := hs.orderly.setUser port user
    seated := by
      show ∀ p ∈ s.layer.crossbar.keys, p ∈ (s.layer.setUser port user).bridges.map (·.port)
      rw [Layer.ports_setUser]
      exact hs.seated }

/-- A user has its seat. -/
theorem Station.Wired.seat_of_user (hs : s.Wired) {user : Link UserPacket}
    (h : s.layer.user? port = some user) :
    ∃ t, s.layer.seat? port = some t ∧ t.bridge.user = user := by
  obtain ⟨b, hfind, rfl⟩ := Option.map_eq_some_iff.1 h
  obtain rfl : b.port = port := by simpa using List.find?_some hfind
  obtain ⟨link, -, hseat⟩ := hs.seat_of_mem (List.mem_of_find?_eq_some hfind)
  exact ⟨⟨b, link⟩, hseat, rfl⟩

/-- **What a user does keeps the books**, if it keeps those of its port. -/
theorem Kept.setUser (hk : Kept s k) (hseat : s.layer.seat? port = some t)
    {user : Link UserPacket} {seen sent : List (UInt16 × UserPacket)}
    (hother : ∀ other ≠ port, ofKey other seen = ofKey other k.seen ∧
      ofKey other sent = ofKey other k.sent)
    (hport : Served ({ k with seen, sent }.account s.layer.crossbar port)
      { t with bridge := { t.bridge with user } }) :
    Kept { s with layer := s.layer.setUser port user } { k with seen, sent } :=
  { hk with
    wired := hk.wired.setUser port user
    widths := (s.layer.widths_setUser port user).trans hk.widths
    served := fun other t' hafter => by
      rw [Layer.seat?_setUser] at hafter
      obtain ⟨before, hbefore, rfl⟩ := Option.map_eq_some_iff.1 hafter
      by_cases heq : other = port
      · subst heq
        obtain rfl := Option.some.inj (hbefore.symm.trans hseat)
        rw [if_pos rfl]
        exact hport
      · rw [if_neg heq]
        have hserved := hk.served other before hbefore
        obtain ⟨hseen, hsame⟩ := hother other heq
        rw [Books.account, ← hseen, ← hsame] at hserved
        exact hserved
    unserved := fun other hafter => by
      rw [Layer.seat?_setUser, Option.map_eq_none_iff] at hafter
      have hne : other ≠ port := by
        rintro rfl
        exact Option.some_ne_none t (hseat.symm.trans hafter)
      obtain ⟨hbefore, hwon⟩ := hk.unserved other hafter
      exact ⟨(hother other hne).2.trans hbefore, hwon⟩ }

/-- What a user receives is no longer on its way. -/
theorem Served.seen {x : Account} (h : Served x t) {p : UserPacket} {inbound : Pipe UserPacket}
    (htake : t.bridge.user.inbound.take = some (p, inbound)) :
    Served { x with seen := x.seen ++ [p] }
      { t with bridge := { t.bridge with user := { t.bridge.user with inbound } } } := by
  obtain ⟨hitems, -, hends⟩ := Pipe.take_eq_some htake
  refine ⟨fun hopen => ?_, fun hclosed => ?_, h.asked⟩
  · have hdelivered := h.delivered (hends.symm.trans hopen)
    rw [Bridge.Station.arriving, hitems] at hdelivered
    refine hdelivered.trans ?_
    simp only [Bridge.Station.arriving, List.append_assoc]
    rfl
  · have hgone := h.gone (hends.symm.trans hclosed)
    rw [hitems] at hgone
    show x.seen ++ [p] ++ inbound.items <+: _
    rw [List.append_assoc]
    exact hgone

/-- What a user sends is the last in its pipe. -/
theorem Served.sent {x : Account} (h : Served x t) {p : UserPacket} {outbound : Pipe UserPacket}
    (hoffer : t.bridge.user.outbound.offer p = (.sent, outbound)) :
    Served { x with sent := x.sent ++ [p] }
      { t with bridge := { t.bridge with user := { t.bridge.user with outbound } } } := by
  obtain ⟨packets, hsent, hwon⟩ := h.asked
  refine ⟨h.delivered, h.gone, packets, ?_, hwon⟩
  show x.sent ++ [p] = packets ++ outbound.items
  rw [hsent, (Pipe.offer_sent hoffer).1, List.append_assoc]

/-- A user that goes keeps what it has. -/
theorem Served.abandon {x : Account} (h : Served x t) :
    Served x { t with bridge := { t.bridge with user := t.bridge.user.abandon } } := by
  refine ⟨fun hopen => Bool.noConfusion hopen, fun _ => ?_, h.asked⟩
  show x.seen ++ t.bridge.user.inbound.items <+: x.dispatched.map t.bridge.toUser
  cases hends : t.bridge.user.inbound.closed with
  | true => exact h.gone hends
  | false =>
    rw [h.delivered hends]
    refine ⟨t.bridge.heldIn.toList ++ t.link.inbound.items.map t.bridge.toUser ++
      x.held.map t.bridge.toUser, ?_⟩
    simp only [Bridge.Station.arriving, List.append_assoc]

/-! ## §2. Opening ports. -/

/-- The books of a layer with which nothing has happened. -/
def Books.blank (l : Layer) : Books := { widths := l.widths }

section Opening

variable {crossbar : Crossbar Packet} {log : List Log.Line}

/-- A port that has just been opened has both ends of its pipes. -/
theorem Station.Wired.joined (hs : s.Wired)
    (hregister : s.layer.crossbar.register port = .ok (crossbar, log)) {width : Nat}
    (hopened : (s.layer.openPort port width).layer = s.layer.joined crossbar port width) :
    Wired { s with layer := s.layer.joined crossbar port width } := by
  obtain ⟨-, hmade⟩ := Crossbar.register_eq hregister
  obtain ⟨hkeys, -⟩ := Crossbar.keys_register hregister
  have hlink := Crossbar.link?_register hregister
  dsimp only at hmade hkeys hlink
  refine
    { formed := hopened ▸ Layer.formed_openPort hs.formed port width
      orderly := hopened ▸ hs.orderly.openPort port width
      seated := fun other hother => ?_
      known := fun item hitem => ?_
      inbox := ?_
      outbox := ?_
      reaches := fun other => ?_
      sends := fun other => ?_
      outbound := hs.outbound }
  · show other ∈ (s.layer.bridges ++ [s.layer.fresh port width]).map (·.port)
    rw [show (s.layer.joined crossbar port width).crossbar.keys = _ from hkeys,
      List.mem_append] at hother
    rw [List.map_append, List.mem_append]
    exact hother.imp_left (hs.seated other)
  · have hheld : crossbar.heldIn = s.layer.crossbar.heldIn := by rw [hmade]
    have hknown := hs.known item (hheld.symm.trans hitem)
    rw [Crossbar.has_iff_mem] at hknown ⊢
    show _ ∈ crossbar.keys
    rw [hkeys]
    exact List.mem_append_left _ hknown
  · show crossbar.inbox.closed = false
    rw [hmade]
    exact hs.inbox
  · show crossbar.outbox.closed = false
    rw [hmade]
    exact hs.outbox
  · show (crossbar.inbound? other).all _ = true
    rw [Crossbar.inbound?, hlink]
    by_cases hother : other = port
    · rw [if_pos hother]
      rfl
    · rw [if_neg hother]
      exact hs.reaches other
  · show (crossbar.link? other).all _ = true
    rw [hlink]
    by_cases hother : other = port
    · rw [if_pos hother]
      rfl
    · rw [if_neg hother]
      exact hs.sends other

/-- Opening a port keeps the books, as long as nothing has happened. -/
theorem Kept.openPort (hk : Kept s (.blank s.layer)) (hw : SupportedWidth s.layer.width)
    (port : UInt16) (width : Nat) :
    Kept { s with layer := (s.layer.openPort port width).layer }
      (.blank (s.layer.openPort port width).layer) := by
  have hs := hk.wired
  obtain ⟨hrefused, -⟩ | ⟨crossbar, log, hregister, hopened⟩ :=
    Layer.openPort_cases hw port width
  · rw [hrefused]
    exact hk
  · have hwired := hs.joined hregister hopened
    obtain ⟨-, hmade⟩ := Crossbar.register_eq hregister
    obtain ⟨-, hfree⟩ := Crossbar.keys_register hregister
    dsimp only at hmade
    rw [hopened]
    refine
      { hk with
        wired := hwired
        widths := rfl
        accepted := ?_
        unknown := ?_
        served := fun other t hseat => ?_
        unserved := fun _ _ => ⟨rfl, rfl⟩
        selected := ?_ }
    · show _ = [] ++ (crossbar.inbox.items ++ _)
      rw [hmade]
      exact hk.accepted
    · show crossbar.stats.unknown = 0
      rw [hmade]
      exact hk.unknown
    · have hheld : crossbar.heldFor other = s.layer.crossbar.heldFor other := by
        rw [Crossbar.heldFor, Crossbar.heldFor, hmade]
      show Served (Books.account {} crossbar other) t
      rw [Books.account, hheld]
      rw [Layer.seat?_joined hs.orderly hregister] at hseat
      by_cases hother : other = port
      · rw [if_pos hother] at hseat
        obtain rfl := Option.some.inj hseat
        rw [hother, hs.known.heldFor_of_free hfree]
        exact ⟨fun _ => rfl, fun hclosed => Bool.noConfusion hclosed, [], rfl, rfl⟩
      · rw [if_neg hother] at hseat
        exact hk.served other t hseat
    · show _ = [] ++ (crossbar.outbox.items ++ crossbar.heldOut.toList)
      rw [hmade]
      exact hk.selected

end Opening

/-- Before a port is opened there is nothing to be kept. -/
theorem kept_make {width : Nat} (hw : SupportedWidth width) (depth ipDepth : Nat) :
    Kept ⟨.make width depth, .make ipDepth⟩ (.blank (.make width depth)) := by
  have hwired : Station.Wired ⟨.make width depth, .make ipDepth⟩ :=
    { formed := Layer.formed_make hw depth
      orderly := ⟨List.nodup_nil, List.nodup_nil, fun _ hport => absurd hport List.not_mem_nil⟩
      seated := fun _ hport => absurd hport List.not_mem_nil
      known := fun _ hheld => nomatch hheld
      inbox := rfl
      outbox := rfl
      reaches := fun _ => rfl
      sends := fun _ => rfl
      outbound := rfl }
  exact
    { wired := hwired
      widths := rfl
      arrived := rfl
      accepted := rfl
      invalid := rfl
      unknown := rfl
      served := fun _ _ hseat => nomatch hseat
      unserved := fun _ _ => ⟨rfl, rfl⟩
      selected := rfl
      departed := rfl
      oversize := rfl }

/-- So does the opening of many ports, one after the other. -/
theorem Kept.openAll {l : Layer} {link : Link Ip.Packet} (hw : SupportedWidth l.width)
    (hk : Kept ⟨l, link⟩ (.blank l)) (ports : List (UInt16 × Nat)) :
    Kept ⟨l.openAll ports, link⟩ (.blank (l.openAll ports)) := by
  induction ports generalizing l with
  | nil => exact hk
  | cons p ports ih =>
    exact ih ((Layer.width_openPort _ p.1 p.2).symm ▸ hw) (hk.openPort hw p.1 p.2)

/-! ## §3. Runs. -/

/-- What can happen to a layer whose ports are open. -/
inductive Event where
  /-- The IP layer has received a datagram, and offers it. -/
  | arrive (p : Ip.Packet)
  /-- The IP layer takes a datagram to be sent. -/
  | depart
  /-- A user offers a datagram. -/
  | send (port : UInt16) (p : UserPacket)
  /-- A user takes a datagram. -/
  | receive (port : UInt16)
  /-- The user of a port goes. -/
  | abandon (port : UInt16)
  | step
  deriving Repr, DecidableEq

/-- A layer, with all that went in and out of it, the oldest first. -/
structure History where
  station : Station
  /-- The IP datagrams that found room. -/
  arrived : List Ip.Packet := []
  /-- What the users have received, each with its port. -/
  seen : List (UInt16 × UserPacket) := []
  /-- What the users have sent and found room, each with its port. -/
  sent : List (UInt16 × UserPacket) := []
  /-- The IP datagrams that have left. -/
  departed : List Ip.Packet := []

namespace History

/-- What one event does. -/
def next (h : History) (event : Event) : History :=
  let s := h.station
  let l := s.layer
  match event with
  | .arrive p =>
    match s.link.inbound.offer p with
    | (.sent, inbound) =>
      { h with station := { s with link := { s.link with inbound } }, arrived := h.arrived ++ [p] }
    | _ => h
  | .depart =>
    match s.link.outbound.take with
    | none => h
    | some (p, outbound) =>
      { h with
        station := { s with link := { s.link with outbound } }, departed := h.departed ++ [p] }
  | .send port p =>
    match l.user? port with
    | none => h
    | some user =>
      match user.outbound.offer p with
      | (.sent, outbound) =>
        { h with
          station := { s with layer := l.setUser port { user with outbound } }
          sent := h.sent ++ [(port, p)] }
      | _ => h
  | .receive port =>
    match l.user? port with
    | none => h
    | some user =>
      match user.inbound.take with
      | none => h
      | some (p, inbound) =>
        { h with
          station := { s with layer := l.setUser port { user with inbound } }
          seen := h.seen ++ [(port, p)] }
  | .abandon port => { h with station := { s with layer := l.abandon port } }
  | .step => { h with station := s.step.state }

/-- The layer has kept its books, and the ports that were open. -/
def Conserved (widths : List (UInt16 × Nat)) (h : History) : Prop :=
  ∃ taken dispatched won collected, Kept h.station
    { widths, taken, dispatched, won, collected
      arrived := h.arrived, seen := h.seen, sent := h.sent, departed := h.departed }

variable {h : History} {widths : List (UInt16 × Nat)}

/-- A datagram of the IP layer joins those that arrived and those in its pipe. -/
theorem next_arrive (hc : h.Conserved widths) (p : Ip.Packet) :
    (h.next (.arrive p)).Conserved widths := by
  obtain ⟨taken, dispatched, won, collected, hk⟩ := hc
  unfold next
  dsimp only
  split
  · next inbound hoffer =>
    have harrived : h.arrived ++ [p] = taken ++ inbound.items := by
      rw [(Pipe.offer_sent hoffer).1, ← List.append_assoc]
      exact congrArg (· ++ [p]) hk.arrived
    exact ⟨taken, dispatched, won, collected,
      { hk with wired := { hk.wired with }, arrived := harrived }⟩
  · exact ⟨taken, dispatched, won, collected, hk⟩

/-- A datagram in the pipe to the IP layer joins those that have left. -/
theorem next_depart (hc : h.Conserved widths) : (h.next .depart).Conserved widths := by
  obtain ⟨taken, dispatched, won, collected, hk⟩ := hc
  unfold next
  dsimp only
  split
  · exact ⟨taken, dispatched, won, collected, hk⟩
  · next p outbound htake =>
    obtain ⟨hitems, -, hends⟩ := Pipe.take_eq_some htake
    have hdeparted : collected.filterMap Packet.sent? =
        h.departed ++ [p] ++ (outbound.items ++ h.station.layer.heldOut.toList) := by
      have hbefore := hk.departed
      rw [hitems] at hbefore
      rw [hbefore, List.append_assoc]
      rfl
    exact ⟨taken, dispatched, won, collected,
      { hk with
        wired := { hk.wired with outbound := hends.trans hk.wired.outbound }
        departed := hdeparted }⟩

/-- A datagram of a user joins those sent and those in its pipe. -/
theorem next_send (hc : h.Conserved widths) (port : UInt16) (p : UserPacket) :
    (h.next (.send port p)).Conserved widths := by
  obtain ⟨taken, dispatched, won, collected, hk⟩ := hc
  unfold next
  dsimp only
  cases huser : h.station.layer.user? port with
  | none => exact ⟨taken, dispatched, won, collected, hk⟩
  | some user =>
    obtain ⟨t, hseat, rfl⟩ := hk.wired.seat_of_user huser
    dsimp only
    split
    · next outbound hoffer =>
      refine ⟨taken, dispatched, won, collected, hk.setUser hseat (fun other hother =>
        ⟨rfl, ofKey_snoc_of_ne hother _ _⟩) ?_⟩
      rw [Books.account, ofKey_snoc_self]
      exact (hk.served port t hseat).sent hoffer
    · exact ⟨taken, dispatched, won, collected, hk⟩

/-- The first datagram in the pipe of a user joins those it has seen. -/
theorem next_receive (hc : h.Conserved widths) (port : UInt16) :
    (h.next (.receive port)).Conserved widths := by
  obtain ⟨taken, dispatched, won, collected, hk⟩ := hc
  unfold next
  dsimp only
  cases huser : h.station.layer.user? port with
  | none => exact ⟨taken, dispatched, won, collected, hk⟩
  | some user =>
    obtain ⟨t, hseat, rfl⟩ := hk.wired.seat_of_user huser
    dsimp only
    split
    · exact ⟨taken, dispatched, won, collected, hk⟩
    · next p inbound htake =>
      refine ⟨taken, dispatched, won, collected, hk.setUser hseat (fun other hother =>
        ⟨ofKey_snoc_of_ne hother _ _, rfl⟩) ?_⟩
      rw [Books.account, ofKey_snoc_self]
      exact (hk.served port t hseat).seen htake

/-- To a user that goes nothing is added any more. -/
theorem next_abandon (hc : h.Conserved widths) (port : UInt16) :
    (h.next (.abandon port)).Conserved widths := by
  obtain ⟨taken, dispatched, won, collected, hk⟩ := hc
  refine ⟨taken, dispatched, won, collected, ?_⟩
  show Kept { h.station with layer := h.station.layer.abandon port } _
  unfold Layer.abandon
  cases huser : h.station.layer.user? port with
  | none => exact hk
  | some user =>
    obtain ⟨t, hseat, rfl⟩ := hk.wired.seat_of_user huser
    exact hk.setUser hseat (fun _ _ => ⟨rfl, rfl⟩) (hk.served port t hseat).abandon

/-- **Every event keeps the books.** -/
theorem next_conserved (hc : h.Conserved widths) (event : Event) :
    (h.next event).Conserved widths := by
  cases event with
  | arrive p => exact next_arrive hc p
  | depart => exact next_depart hc
  | send port p => exact next_send hc port p
  | receive port => exact next_receive hc port
  | abandon port => exact next_abandon hc port
  | step =>
    obtain ⟨taken, dispatched, won, collected, hk⟩ := hc
    exact hk.step

/-- A run of a layer. -/
def run (h : History) (events : List Event) : History := events.foldl next h

/-- **A run keeps the books.** -/
theorem run_conserved (hc : h.Conserved widths) (events : List Event) :
    (h.run events).Conserved widths := by
  induction events generalizing h with
  | nil => exact hc
  | cons event events ih => exact ih (next_conserved hc event)

/-- A layer with ports opened one after the other, before anything has happened. -/
def start (width depth ipDepth : Nat) (ports : List (UInt16 × Nat)) : History where
  station := ⟨.opened width depth ports, .make ipDepth⟩

end History

/-! ## §4. The law. -/

namespace Layer

/-- What was read from the octets and not yet dispatched. -/
def entered (l : Layer) : List Packet := l.crossbar.inbox.items ++ l.heldIn.toList

/-- What is in the layer on its way to the user of a bridge, the oldest first. -/
def arriving (l : Layer) (b : Bridge) : List UserPacket :=
  b.user.inbound.items ++ b.heldIn.toList ++
    (l.crossbar.wayTo b.port ++ l.entered.filter (·.dstPort == b.port)).map b.toUser

/-- What was taken from the users' ports and has not yet got its header. -/
def leaving (l : Layer) : List Packet := l.crossbar.outbox.items ++ l.crossbar.heldOut.toList

end Layer

/-- A user's packet, with its port and the lanes of the port. -/
structure Request where
  port : UInt16
  width : Nat
  packet : UserPacket
  deriving Repr, DecidableEq

/-- The datagram that is asked for. -/
def Request.datagram (r : Request) : Packet := r.packet.datagram r.width

/-- **What the users receive.** -/
theorem Kept.due (hk : Kept s k) {b : Bridge} (hb : b ∈ s.layer.bridges) :
    let due := ((k.taken.filterMap received?).filter (·.dstPort == b.port)).map fun p =>
      UserPacket.ofBytes p.ip p.srcPort p.dstPort p.payload b.stride.target
    (b.user.inbound.closed = false → due = ofKey b.port k.seen ++ s.layer.arriving b) ∧
      (b.user.inbound.closed = true → ofKey b.port k.seen ++ b.user.inbound.items <+: due) := by
  intro due
  obtain ⟨link, hlink, hseat⟩ := hk.wired.seat_of_mem hb
  have hserved := hk.served _ _ hseat
  have hdue : due = (k.dispatched.filter (·.dstPort == b.port)).map b.toUser ++
      (s.layer.entered.filter (·.dstPort == b.port)).map b.toUser := by
    have huser : b.toUser = fun p =>
        UserPacket.ofBytes p.ip p.srcPort p.dstPort p.payload b.stride.target :=
      funext (Bridge.toUser_eq (hk.wired.formed.bridges b hb))
    show ((k.taken.filterMap received?).filter _).map _ = _
    rw [hk.accepted, List.filter_append, List.map_append, huser]
    rfl
  refine ⟨fun hopen => ?_, fun hclosed => ?_⟩
  · have hdelivered := hserved.delivered hopen
    rw [hdue]
    refine (congrArg (· ++ _) hdelivered).trans ?_
    simp only [Layer.arriving, Bridge.Station.arriving, Crossbar.wayTo,
      Crossbar.given_of_link hlink, List.map_append, List.append_assoc]
    rfl
  · rw [hdue]
    exact (hserved.gone hclosed).trans (List.prefix_append _ _)

/-- Records that were taken from several queues, one after the other, are the first
ones of each queue. -/
theorem exists_lift {α β : Type} (f : UInt16 → α → β) (won : List (UInt16 × β))
    (queue : UInt16 → List α) (left : UInt16 → List β)
    (h : ∀ key, (queue key).map (f key) = ofKey key won ++ left key) :
    ∃ lifted : List (UInt16 × α), lifted.map (fun r => (r.1, f r.1 r.2)) = won ∧
      ∀ key, ∃ rest, queue key = ofKey key lifted ++ rest ∧ rest.map (f key) = left key := by
  induction won generalizing queue with
  | nil => exact ⟨[], rfl, fun key => ⟨queue key, rfl, h key⟩⟩
  | cons record won ih =>
    obtain ⟨port, item⟩ := record
    have hcons : ∀ {γ : Type} (key : UInt16) (x : γ) (xs : List (UInt16 × γ)),
        ofKey key ((port, x) :: xs) = (if port = key then [x] else []) ++ ofKey key xs := by
      intro γ key x xs
      rw [← ofKey_singleton, ← ofKey_append]
      rfl
    have hport := h port
    rw [hcons, if_pos rfl] at hport
    obtain ⟨x, xs, hqueue, rfl, hxs⟩ := List.map_eq_cons_iff.1 hport
    -- the queue of this port goes on without its first record
    obtain ⟨lifted, hlifted, hrest⟩ := ih (fun key => if key = port then xs else queue key) (by
      intro key
      by_cases hkey : key = port
      · rw [if_pos hkey, hkey]
        exact hxs
      · rw [if_neg hkey, h key, hcons, if_neg (Ne.symm hkey)]
        rfl)
    refine ⟨(port, x) :: lifted, by rw [List.map_cons, hlifted], fun key => ?_⟩
    obtain ⟨rest, hkept, hleft⟩ := hrest key
    refine ⟨rest, ?_, hleft⟩
    rw [hcons, List.append_assoc, ← hkept]
    by_cases hkey : key = port
    · rw [if_pos hkey, if_pos hkey.symm, hkey, hqueue]
      rfl
    · rw [if_neg hkey, if_neg (Ne.symm hkey)]
      rfl

namespace Layer

variable {l : Layer}

/-- The lanes of the user of a port. -/
def lanes (l : Layer) (port : UInt16) : Nat :=
  ((l.seat? port).map (·.bridge.stride.target)).getD 0

/-- What the user of a port has sent and its bridge has not taken. -/
def asked (l : Layer) (port : UInt16) : List UserPacket :=
  ((l.seat? port).map (·.bridge.user.outbound.items)).getD []

/-- What the bridge of a port has taken and the crossbar has not. -/
def between (l : Layer) (port : UInt16) : List Packet := ((l.seat? port).map (·.leaving)).getD []

/-- The lanes of a port that is open. -/
theorem lanes_mem (h : l.seat? port = some t) : (port, l.lanes port) ∈ l.widths := by
  obtain ⟨hfind, -⟩ := seatOf?_eq_some.1 h
  have hport : t.bridge.port = port := by simpa using List.find?_some hfind
  rw [lanes, h]
  exact List.mem_map.2 ⟨t.bridge, List.mem_of_find?_eq_some hfind, by simp [hport]⟩

end Layer

/-- The books of a port, with the datagrams as their user has asked for them. -/
theorem Kept.asked (hk : Kept s k) (port : UInt16) :
    ∃ packets, ofKey port k.sent = packets ++ s.layer.asked port ∧
      packets.map (·.datagram (s.layer.lanes port)) = ofKey port k.won ++ s.layer.between port := by
  unfold Layer.asked Layer.lanes Layer.between
  cases hseat : s.layer.seat? port with
  | none =>
    obtain ⟨hsent, hwon⟩ := hk.unserved port hseat
    exact ⟨[], by simp [hsent], by simp [hwon]⟩
  | some t =>
    obtain ⟨packets, hsent, hwon⟩ := (hk.served port t hseat).asked
    have hmem := List.mem_of_find?_eq_some (Layer.seatOf?_eq_some.1 hseat).1
    rw [funext (Bridge.ofUser_eq (hk.wired.formed.bridges _ hmem))] at hwon
    exact ⟨packets, hsent, hwon⟩

/-- **What the users have sent**: the datagrams that were taken from their ports, in the
order in which they were taken, are the first ones of every user. -/
theorem Kept.requests (hk : Kept s k) :
    ∃ won : List Request,
      (∀ r ∈ won, (r.port, r.width) ∈ s.layer.widths) ∧
      (∀ b ∈ s.layer.bridges, ∃ rest,
        ofKey b.port k.sent =
          (won.filter (·.port == b.port)).map (·.packet) ++ rest ++ b.user.outbound.items ∧
        rest.map (·.datagram b.stride.target) =
          s.layer.crossbar.unsent b.port ++ b.heldOut.toList) ∧
      won.map (·.datagram) = k.collected ++ s.layer.leaving := by
  choose queue hsent hwon using hk.asked
  obtain ⟨lifted, hlifted, hrest⟩ :=
    exists_lift (fun port p => p.datagram (s.layer.lanes port)) k.won queue _ hwon
  refine ⟨lifted.map fun r => ⟨r.1, s.layer.lanes r.1, r.2⟩, ?_, ?_, ?_⟩
  · intro r hr
    obtain ⟨⟨port, p⟩, hp, rfl⟩ := List.mem_map.1 hr
    cases hseat : s.layer.seat? port with
    | none =>
      -- from a port where nobody is nothing was taken
      have hmem : (port, p.datagram (s.layer.lanes port)) ∈ k.won := by
        rw [← hlifted]
        exact List.mem_map.2 ⟨_, hp, rfl⟩
      have hfor := mem_ofKey hmem
      rw [(hk.unserved port hseat).2] at hfor
      exact absurd hfor List.not_mem_nil
    | some t => exact Layer.lanes_mem hseat
  · intro b hb
    obtain ⟨link, hlink, hseat⟩ := hk.wired.seat_of_mem hb
    obtain ⟨rest, hkept, hleft⟩ := hrest b.port
    refine ⟨rest, ?_, ?_⟩
    · rw [hsent, hkept, Layer.asked, hseat, List.filter_map, List.map_map]
      rfl
    · rw [Layer.lanes, Layer.between, hseat] at hleft
      rw [Crossbar.unsent_of_link hlink]
      exact hleft
  · have hselected := hk.selected
    rw [← hlifted, List.map_map] at hselected
    rw [List.map_map]
    exact hselected

/-- Whether a port is open is seen at the crossbar. -/
theorem Station.Wired.has_eq (hs : s.Wired) (port : UInt16) :
    s.layer.crossbar.has port = decide (port ∈ s.layer.widths.map (·.1)) := by
  have hports : s.layer.widths.map (·.1) = s.layer.bridges.map (·.port) := by
    rw [Layer.widths, List.map_map]
    rfl
  rw [Bool.eq_iff_iff, Crossbar.has_iff_mem, decide_eq_true_iff, hports]
  exact ⟨hs.seated port, hs.orderly.registered port⟩

namespace History

/-- **Datagrams are conserved**, on a layer of a supported width with any ports open, and
whatever the IP layer and the users offer and take, in whatever order.

Of the IP datagrams that were taken each is counted as invalid, or counted as unknown,
or for a port that is open; and what is due to a user it has received, in order and once
each, but for what is still inside.  Of the packets of users each was taken once, per
port in order, and as a datagram it has left, or is still inside, or was too long and
counted as oversize; `won` has them in the order in which they left their ports. -/
theorem datagrams_conserved {width : Nat} (hw : SupportedWidth width) (depth ipDepth : Nat)
    (ports : List (UInt16 × Nat)) (events : List Event) :
    let h := (start width depth ipDepth ports).run events
    let l := h.station.layer
    let link := h.station.link
    let isOpen := fun port => decide (port ∈ l.widths.map (·.1))
    ((ports.map (·.1)).Nodup → (∀ p ∈ ports, SupportedWidth p.2) → l.widths = ports) ∧
    (∃ taken, h.arrived = taken ++ link.inbound.items ∧
      l.stats.invalid = taken.countP (fun p => (received? p).isNone) ∧
      l.crossbar.stats.unknown + l.entered.countP (fun p => !isOpen p.dstPort) =
        (taken.filterMap received?).countP (fun p => !isOpen p.dstPort) ∧
      ∀ b ∈ l.bridges,
        let due := ((taken.filterMap received?).filter (·.dstPort == b.port)).map fun p =>
          UserPacket.ofBytes p.ip p.srcPort p.dstPort p.payload b.stride.target
        (b.user.inbound.closed = false → due = ofKey b.port h.seen ++ l.arriving b) ∧
          (b.user.inbound.closed = true → ofKey b.port h.seen ++ b.user.inbound.items <+: due)) ∧
    (∀ p ∈ h.sent, isOpen p.1) ∧
    ∃ won : List Request,
      (∀ r ∈ won, (r.port, r.width) ∈ l.widths) ∧
      (∀ b ∈ l.bridges, ∃ rest,
        ofKey b.port h.sent =
          (won.filter (·.port == b.port)).map (·.packet) ++ rest ++ b.user.outbound.items ∧
        rest.map (·.datagram b.stride.target) = l.crossbar.unsent b.port ++ b.heldOut.toList) ∧
      won.filterMap (·.datagram.sent?) = h.departed ++ (link.outbound.items ++ l.heldOut.toList) ++
        l.leaving.filterMap Packet.sent? ∧
      l.stats.txOversize + l.leaving.countP (·.sent?.isNone) =
        won.countP fun r => 65507 < r.datagram.payload.length := by
  intro h l link isOpen
  have hc : h.Conserved (Layer.opened width depth ports).widths :=
    run_conserved ⟨[], [], [], [], (kept_make hw depth ipDepth).openAll hw ports⟩ events
  obtain ⟨taken, dispatched, won, collected, hk⟩ := hc
  have hs := hk.wired
  refine ⟨fun hdistinct hwidths => ?_, ⟨taken, hk.arrived, hk.invalid, ?_, fun b hb => hk.due hb⟩,
    fun p hp => ?_, ?_⟩
  · exact hk.widths.trans
      (Layer.widths_openAll hw hdistinct hwidths fun _ _ => List.not_mem_nil)
  · have hunknown := hk.unknown
    simp only [hs.has_eq] at hunknown
    rw [hk.accepted, List.countP_append]
    exact congrArg (· + _) hunknown
  · cases hseat : l.seat? p.1 with
    | none =>
      have hfor := mem_ofKey hp
      rw [(hk.unserved p.1 hseat).1] at hfor
      exact absurd hfor List.not_mem_nil
    | some t => exact decide_eq_true (List.mem_map.2 ⟨_, Layer.lanes_mem hseat, rfl⟩)
  · obtain ⟨won, hopen, husers, hwon⟩ := hk.requests
    refine ⟨won, hopen, husers, ?_, ?_⟩
    · have hsent := congrArg (List.filterMap Packet.sent?) hwon
      rw [List.filterMap_append, hk.departed, List.filterMap_map] at hsent
      exact hsent
    · have hlong := congrArg (List.countP (·.sent?.isNone)) hwon
      rw [List.countP_append, List.countP_map] at hlong
      rw [show l.stats.txOversize = _ from hk.oversize]
      refine hlong.symm.trans (List.countP_congr fun r _ => ?_)
      show (Packet.sent? _).isNone = true ↔ _
      unfold Packet.sent?
      by_cases hlong : 65507 < r.datagram.payload.length
      · simp [hlong]
      · simp [hlong]

/-- A datagram for a user, one for nobody and one that is too short, while both users
send: the first three octets, the second none in nine. -/
def crossings : List Event :=
  let other : Ipv4 := ⟨10, 0, 0, 2⟩
  [.arrive ⟨other, 17, [0, 5, 0, 7, 0, 10, 0, 0, 1, 2, 3]⟩,
    .arrive ⟨other, 17, [0, 5, 0, 8, 0, 8, 0, 0]⟩, .arrive ⟨other, 17, [1, 2, 3]⟩,
    .send 9 (.ofBytes other 9 5 [4, 5, 6] 8), .send 7 ⟨other, 7, 5, 9, []⟩,
    .step, .step, .step, .step, .receive 7, .depart, .depart]

/-- One is received, two are sent, and the others are counted. -/
theorem datagrams_conserved_crossings :
    let h := (start 4 1 3 [(7, 1), (9, 8)]).run crossings
    SupportedWidth 4 ∧
      h.seen.map (fun (port, p) => (port, p.length, p.bytes 1)) = [(7, 2, [1, 2])] ∧
      h.departed.map (·.payload) =
        [[0, 7, 0, 5, 0, 8, 0, 0], [0, 9, 0, 5, 0, 11, 0, 0, 4, 5, 6]] ∧
      h.station.layer.widths = [(7, 1), (9, 8)] ∧
      h.station.layer.stats.invalid = h.arrived.countP fun p => (received? p).isNone := by
  intro h
  have hwidth : SupportedWidth 4 := .inr (.inr (.inl rfl))
  have hseen : h.seen.map (fun (port, p) => (port, p.length, p.bytes 1)) = [(7, 2, [1, 2])] := by
    decide +kernel
  have hdeparted : h.departed.map (·.payload) =
      [[0, 7, 0, 5, 0, 8, 0, 0], [0, 9, 0, 5, 0, 11, 0, 0, 4, 5, 6]] := by
    decide +kernel
  have hempty : h.station.link.inbound.items = [] := by decide +kernel
  obtain ⟨hopened, ⟨taken, harrived, hinvalid, -⟩, -⟩ :=
    datagrams_conserved hwidth 1 3 [(7, 1), (9, 8)] crossings
  have hwidths : h.station.layer.widths = [(7, 1), (9, 8)] := by
    refine hopened (by decide) fun p hp => ?_
    obtain rfl | hp := List.mem_cons.1 hp
    · exact .inl rfl
    · rw [List.mem_singleton.1 hp]
      exact .inr (.inr (.inr rfl))
  refine ⟨hwidth, hseen, hdeparted, hwidths, hinvalid.trans ?_⟩
  rw [show h.arrived = taken ++ h.station.link.inbound.items from harrived, hempty,
    List.append_nil]

end History

end NetBoard.Udp
