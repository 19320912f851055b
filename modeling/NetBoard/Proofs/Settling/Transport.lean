/-
  NetBoard.Proofs.Settling.Transport
  ──────────────────────────────────
  **THE UDP LAYER AND ITS BRIDGES SETTLE.**

  A bridge takes one datagram up and one down.  All bridges step before the
  crossbar does; what the crossbar moves without a word is not in the pipes of
  its subscribers, so it gives no bridge anything to do.

  Main definitions:

      Udp.Layer.Orderly       — what a step keeps of the layer
      Udp.Station.load        — what waits in the layer and in its pipes

  Main statements:

      Bridge.Station.step_pays, stepBridges_pays
                              — the steps of the bridges pay
      load_setUser            — what waits in one user's pipes, and the rest
      Udp.Station.step_settles
                              — a step of the UDP layer settles
-/
import NetBoard.Proofs.Datapath.Transport
import NetBoard.Proofs.Settling.Crossbar

namespace NetBoard.Udp

open Load Outcome

/-- The places of the crossbar of ports. -/
def crossing : Crossing where
  inbox := .udpInbox
  given := .udpGiven
  asked := .udpAsked
  outbox := .udpOutbox
  inbox_given := by decide
  inbox_asked := by decide
  asked_outbox := by decide

/-! ## §1. Bridges. -/

namespace Bridge

/-- What waits in a bridge and in its user's pipes. -/
def load (b : Bridge) : Load :=
  lane .userGiven b.heldIn b.user.inbound + b.user.outbound.load .userAsked +
    hold .udpAsked b.heldOut

namespace Station

/-- What waits in a bridge and in all its pipes. -/
def load (s : Station) : Load :=
  s.link.inbound.load .udpGiven + lane .userGiven s.bridge.heldIn s.bridge.user.inbound +
    s.bridge.user.outbound.load .userAsked + lane .udpAsked s.bridge.heldOut s.link.outbound

theorem load_eq (s : Station) : s.load = s.bridge.load + s.link.load .udpGiven .udpAsked := by
  unfold load Bridge.load Link.load
  rw [lane_eq .udpAsked]
  abel

theorem deliverNext_pays (s : Station) : Pays (fun _ => True) load s s.deliverNext := by
  unfold deliverNext
  cases htake : s.link.inbound.take with
  | none => exact .idle trivial
  | some taken =>
    obtain ⟨packet, inbound⟩ := taken
    have htaken := take_less (k := .udpGiven) htake
    exact .moved trivial (((htaken.add (.later (by decide) _ _)).add .refl).add .refl).lt

theorem deliver_pays (s : Station) : Pays (fun _ => True) load s s.deliver := by
  rw [deliver_eq]
  exact .afterHeld .userGiven trivial (fun _ _ => trivial)
    (fun _ _ h => (((UpTo.refl.less h).add .refl).add .refl).lt) fun t _ => t.deliverNext_pays

theorem collectNext_pays (s : Station) : Pays (fun _ => True) load s s.collectNext := by
  unfold collectNext
  cases htake : s.bridge.user.outbound.take with
  | none => exact .idle trivial
  | some taken =>
    obtain ⟨packet, outbound⟩ := taken
    have htaken := take_less (k := .userAsked) htake
    exact .moved trivial ((UpTo.refl.less htaken).add (.later (by decide) _ _)).lt

theorem collect_pays (s : Station) : Pays (fun _ => True) load s s.collect := by
  rw [collect_eq]
  exact .afterHeld .udpAsked trivial (fun _ _ => trivial) (fun _ _ h => (UpTo.refl.less h).lt)
    fun t _ => t.collectNext_pays

/-- **A step of a bridge pays.** -/
theorem step_pays (s : Station) : Pays (fun _ => True) load s s.step :=
  s.deliver_pays.andThen fun t _ => t.collect_pays

end Station
end Bridge

/-! ## §2. All bridges. -/

namespace Layer

/-- What waits in the bridges and in the crossbar that they share. -/
def shared (held : Option Packet) (t : List Bridge × Crossbar Packet) : Load :=
  (t.1.map Bridge.load).sum + t.2.load crossing held

theorem shared_cons (held : Option Packet) (b : Bridge) (bridges : List Bridge)
    (xb : Crossbar Packet) :
    shared held (b :: bridges, xb) = b.load + shared held (bridges, xb) := by
  unfold shared
  rw [List.map_cons, List.sum_cons, add_assoc]

/-- The same ports, with bridges and without. -/
structure SamePorts (t u : List Bridge × Crossbar Packet) : Prop where
  bridges : t.1.map (·.port) = u.1.map (·.port)
  keys : t.2.keys = u.2.keys

/-- The first bridge takes its step between its user and the crossbar. -/
theorem firstBridge_pays (held : Option Packet) (b : Bridge) (rest : List Bridge)
    {xb : Crossbar Packet} (hx : xb.keys.Nodup) {link : Link Packet}
    (hlink : xb.link? b.port = some link) :
    Pays (fun _ => True) (shared held) (b :: rest, xb)
      ((Bridge.Station.step ⟨b, link⟩).map fun t =>
        (t.bridge :: rest, xb.setLink b.port t.link)) := by
  obtain ⟨others, hothers⟩ := Crossbar.load_setLink crossing held hx hlink
  refine Pays.map _ ((rest.map Bridge.load).sum + others) (Bridge.Station.step_pays ⟨b, link⟩)
    (fun _ _ => trivial) (fun t => ?_) ?_
  · rw [shared_cons, t.load_eq]
    unfold shared
    rw [hothers]
    show t.bridge.load +
      ((rest.map Bridge.load).sum + (others + t.link.load .udpGiven .udpAsked)) = _
    abel
  · show (b :: rest, xb.setLink b.port link) = _
    rw [Crossbar.setLink_self hx hlink]

/-- The steps of the bridges pay. -/
theorem stepBridges_pays (held : Option Packet) (bridges : List Bridge) {xb : Crossbar Packet}
    (hx : xb.keys.Nodup) :
    Pays (SamePorts · (bridges, xb)) (shared held) (bridges, xb) (stepBridges bridges xb) := by
  induction bridges generalizing xb with
  | nil => exact .idle ⟨rfl, rfl⟩
  | cons b rest ih =>
    unfold stepBridges
    cases hlink : xb.link? b.port with
    | none =>
      exact Pays.map (fun (t : List Bridge × Crossbar Packet) => (b :: t.1, t.2)) b.load (ih hx)
        (fun t ht => ⟨congrArg (b.port :: ·) ht.bridges, ht.keys⟩)
        (fun t => shared_cons held b t.1 t.2) rfl
    | some link =>
      dsimp only
      have hfirst := firstBridge_pays held b rest hx hlink
      have hport : (Bridge.Station.step ⟨b, link⟩).state.bridge.port = b.port :=
        Bridge.Station.step_port ⟨b, link⟩
      have hhonest := (Bridge.Station.step_pays ⟨b, link⟩).honest
      generalize Bridge.Station.step ⟨b, link⟩ = o at hfirst hport hhonest
      have hkeys : (xb.setLink b.port o.state.link).keys = xb.keys := Crossbar.keys_setLink xb _ _
      -- and then the others, with the crossbar as the first one left it
      have hnext := ih (hkeys.symm ▸ hx)
      generalize stepBridges rest (xb.setLink b.port o.state.link) = next at hnext
      have hsecond : Spends (fun _ => True) (shared held)
          (o.state.bridge :: rest, xb.setLink b.port o.state.link)
          (next.map fun t => (o.state.bridge :: t.1, t.2)) :=
        hnext.toSpends.map _ o.state.bridge.load (fun _ _ => trivial)
          (fun t => shared_cons held _ t.1 t.2) rfl
      refine ⟨⟨⟨?_, hnext.kept.keys.trans hkeys⟩, hsecond.le.trans hfirst.le, fun hprogress => ?_⟩,
        fun hidle => ?_⟩
      · show o.state.bridge.port :: next.state.1.map (·.port) = b.port :: rest.map (·.port)
        rw [hport, hnext.kept.bridges]
      · obtain hmoved | hmoved := Bool.or_eq_true_iff.1 hprogress
        · exact hsecond.le.trans_lt (hfirst.lt hmoved)
        · exact (hsecond.lt hmoved).trans_le hfirst.le
      · obtain ⟨hstill, hrest⟩ := Bool.or_eq_false_iff.1 hidle
        obtain rfl := hhonest hstill
        obtain rfl := hnext.honest hrest
        show idle (b :: rest, xb.setLink b.port link) = idle (b :: rest, xb)
        rw [Crossbar.setLink_self hx hlink]

/-- Whether the bridges have anything to do is seen in the pipes of the subscribers. -/
theorem progress_stepBridges {bridges : List Bridge} {xb xb' : Crossbar Packet}
    (h : xb'.ports = xb.ports) :
    (stepBridges bridges xb').progress = (stepBridges bridges xb).progress := by
  induction bridges generalizing xb xb' with
  | nil => rfl
  | cons b rest ih =>
    have hlink : xb'.link? b.port = xb.link? b.port := by
      unfold Crossbar.link?
      rw [h]
    unfold stepBridges
    rw [hlink]
    cases xb.link? b.port with
    | none => exact ih h
    | some link =>
      dsimp only
      refine congrArg _ (ih ?_)
      unfold Crossbar.setLink
      rw [h]

/-- What a step keeps of the layer: every port has one subscriber and one bridge. -/
structure Orderly (l : Layer) : Prop where
  distinct : l.crossbar.keys.Nodup
  bridges : (l.bridges.map (·.port)).Nodup
  registered : ∀ port ∈ l.bridges.map (·.port), port ∈ l.crossbar.keys

/-- What waits in the layer. -/
def load (l : Layer) : Load := shared l.heldIn (l.bridges, l.crossbar) + hold .ipAsked l.heldOut

theorem Orderly.of_samePorts {l : Layer} (hl : l.Orderly) {t : List Bridge × Crossbar Packet}
    (h : SamePorts t (l.bridges, l.crossbar)) :
    Orderly { l with bridges := t.1, crossbar := t.2 } where
  distinct := by
    show t.2.keys.Nodup
    rw [h.keys]
    exact hl.distinct
  bridges := by
    show (t.1.map (·.port)).Nodup
    rw [h.bridges]
    exact hl.bridges
  registered := by
    show ∀ port ∈ t.1.map (·.port), port ∈ t.2.keys
    rw [h.bridges, h.keys]
    exact hl.registered

/-! ## §3. The users. -/

section Users

variable {l : Layer} {port : UInt16} {old : Link UserPacket}

theorem setUser_eq (l : Layer) (port : UInt16) (user : Link UserPacket) :
    l.setUser port user =
      { l with
        bridges := replaceKeyed (·.port) (fun b user => { b with user }) port user l.bridges } :=
  rfl

/-- Replacing the pipes of a user keeps the ports. -/
theorem ports_setUser (l : Layer) (port : UInt16) (user : Link UserPacket) :
    (l.setUser port user).bridges.map (·.port) = l.bridges.map (·.port) := by
  unfold setUser
  rw [List.map_map]
  refine List.map_congr_left fun b _ => ?_
  dsimp only [Function.comp_apply]
  split <;> rfl

theorem Orderly.setUser (hl : l.Orderly) (port : UInt16) (user : Link UserPacket) :
    (l.setUser port user).Orderly :=
  hl.of_samePorts (t := ((l.setUser port user).bridges, l.crossbar)) ⟨ports_setUser l port user, rfl⟩

/-- A port that is opened was free before. -/
theorem Orderly.openPort (hl : l.Orderly) (port : UInt16) (width : Nat) :
    (l.openPort port width).layer.Orderly := by
  unfold Layer.openPort
  cases checkWidth width with
  | error fault => exact hl
  | ok width =>
    dsimp only
    cases hregister : l.crossbar.register port with
    | error fault => exact hl
    | ok made =>
      obtain ⟨crossbar, log⟩ := made
      obtain ⟨hkeys, hfree⟩ := Crossbar.keys_register hregister
      have hdistinct := Crossbar.distinct_register hl.distinct hregister
      have hregistered : ∀ p ∈ l.bridges.map (·.port), p ∈ crossbar.keys := fun p hp => by
        rw [hkeys]
        exact List.mem_append_left _ (hl.registered p hp)
      dsimp only
      cases Stride.make? l.width width with
      | error fault =>
        have habandoned := Crossbar.keys_abandon crossbar port
        exact ⟨habandoned ▸ hdistinct, hl.bridges, fun p hp => habandoned ▸ hregistered p hp⟩
      | ok stride =>
        refine ⟨hdistinct, ?_, fun p hp => ?_⟩
        · rw [List.map_append]
          refine List.nodup_append.2 ⟨hl.bridges, List.nodup_singleton _, ?_⟩
          intro p hp q hq heq
          obtain rfl := List.mem_singleton.1 hq
          exact hfree (heq ▸ hl.registered p hp)
        · rw [List.map_append, List.mem_append] at hp
          obtain hp | hp := hp
          · exact hregistered p hp
          · rw [List.mem_singleton.1 hp, hkeys]
            exact List.mem_append_right _ (List.mem_singleton_self port)

/-- Putting back a user's pipes changes nothing. -/
theorem setUser_self (hl : l.Orderly) (h : l.user? port = some old) : l.setUser port old = l := by
  obtain ⟨b, hfind, rfl⟩ := Option.map_eq_some_iff.1 h
  rw [setUser_eq, replaceKeyed_self hl.bridges hfind rfl]

/-- What waits in the pipes of one user, and in the rest of the layer. -/
theorem load_setUser (hl : l.Orderly) (h : l.user? port = some old) :
    ∃ rest, ∀ user, (l.setUser port user).load = rest + user.load .userGiven .userAsked := by
  obtain ⟨b, hfind, rfl⟩ := Option.map_eq_some_iff.1 h
  have hweight : ∀ (b : Bridge) (user : Link UserPacket), Bridge.load { b with user } =
      hold .userGiven b.heldIn + hold .udpAsked b.heldOut + user.load .userGiven .userAsked := by
    intro b user
    unfold Bridge.load Link.load
    rw [lane_eq]
    abel
  obtain ⟨rest, hrest⟩ := sum_replaceKeyed Bridge.load (Link.load .userGiven .userAsked)
    (fun b : Bridge => hold .userGiven b.heldIn + hold .udpAsked b.heldOut) hweight hl.bridges hfind
  refine ⟨rest + l.crossbar.load crossing l.heldIn + hold .ipAsked l.heldOut, fun user => ?_⟩
  rw [setUser_eq]
  unfold Layer.load shared
  dsimp only
  rw [hrest]
  abel

end Users
end Layer

/-! ## §4. The layer. -/

namespace Station

/-- What waits in the layer and in its pipes. -/
def load (s : Station) : Load :=
  s.link.inbound.load .ipGiven + Layer.shared s.layer.heldIn (s.layer.bridges, s.layer.crossbar) +
    lane .ipAsked s.layer.heldOut s.link.outbound

theorem load_eq (s : Station) : s.load = s.layer.load + s.link.load .ipGiven .ipAsked := by
  unfold load Layer.load Link.load
  rw [lane_eq]
  abel

/-- The layer of the station is in order. -/
def Orderly (s : Station) : Prop := s.layer.Orderly

variable {s : Station}

theorem bridge_pays (hs : s.Orderly) : Pays Orderly load s s.bridge := by
  refine Pays.map
    (fun t => { s with layer := { s.layer with bridges := t.1, crossbar := t.2 } })
    (s.link.inbound.load .ipGiven + lane .ipAsked s.layer.heldOut s.link.outbound)
    (Layer.stepBridges_pays s.layer.heldIn s.layer.bridges hs.distinct) ?_ (fun t => ?_) rfl
  · intro t ht
    exact Layer.Orderly.of_samePorts hs ht
  · show s.link.inbound.load .ipGiven + Layer.shared s.layer.heldIn t + _ = _
    abel

theorem exchange_settles (hs : s.Orderly) : Settles Orderly load exchange s := by
  refine Settles.map (fun s : Station => s.layer.crossbar)
    (fun s crossbar => { s with layer := { s.layer with crossbar } })
    (s.link.inbound.load .ipGiven + (s.layer.bridges.map Bridge.load).sum +
      lane .ipAsked s.layer.heldOut s.link.outbound)
    (Crossbar.step_settles crossing s.layer.heldIn ⟨rfl, hs.distinct⟩) ?_ (fun xb => ?_) rfl
    (fun _ => rfl) fun _ => rfl
  · intro xb hxb
    exact Layer.Orderly.of_samePorts hs (t := (s.layer.bridges, xb)) ⟨rfl, hxb.keys_eq⟩
  · show s.link.inbound.load .ipGiven +
      ((s.layer.bridges.map Bridge.load).sum + xb.load crossing s.layer.heldIn) + _ = _
    abel

/-- The crossbar moves nothing without a word that a bridge could take. -/
theorem bridge_exchange (hs : s.Orderly) (hbridge : s.bridge = .idle s)
    (hidle : s.exchange.progress = false) :
    s.exchange.state.bridge = .idle s.exchange.state := by
  have hports : s.exchange.state.layer.crossbar.ports = s.layer.crossbar.ports :=
    Crossbar.ports_step_of_idle ⟨rfl, hs.distinct⟩ hidle
  refine (bridge_pays (exchange_settles hs).kept).honest ?_
  show (Layer.stepBridges s.layer.bridges s.exchange.state.layer.crossbar).progress = false
  rw [Layer.progress_stepBridges hports]
  exact congrArg Outcome.progress hbridge

theorem transmitNext_pays (hs : s.Orderly) : Pays Orderly load s s.transmitNext := by
  unfold transmitNext
  dsimp only
  cases htake : s.layer.crossbar.outbox.take with
  | none => exact .idle hs
  | some taken =>
    obtain ⟨packet, outbox⟩ := taken
    have houtbox := Crossbar.load_outbox_less crossing s.layer.heldIn htake
    dsimp only
    split
    · refine .moved ⟨hs.distinct, hs.bridges, hs.registered⟩ ?_
      exact ((UpTo.refl.less (UpTo.refl.less houtbox)).add .refl).lt
    · refine .moved ⟨hs.distinct, hs.bridges, hs.registered⟩ ?_
      exact ((UpTo.refl.less (UpTo.refl.less houtbox)).add (.later (by decide) _ _)).lt

theorem transmit_pays (hs : s.Orderly) : Pays Orderly load s s.transmit := by
  rw [transmit_eq]
  exact .afterHeld .ipAsked hs (fun _ _ => ⟨hs.distinct, hs.bridges, hs.registered⟩)
    (fun _ _ h => (UpTo.refl.less h).lt) fun _ ht => transmitNext_pays ht

theorem receiveNext_pays (hs : s.Orderly) : Pays Orderly load s s.receiveNext := by
  unfold receiveNext
  cases htake : s.link.inbound.take with
  | none => exact .idle hs
  | some taken =>
    obtain ⟨packet, inbound⟩ := taken
    have htaken := take_less (k := .ipGiven) htake
    unfold accept
    dsimp only
    split
    · refine .moved ⟨hs.distinct, hs.bridges, hs.registered⟩ ?_
      exact ((htaken.add .refl).add .refl).lt
    · split
      · refine .moved ⟨hs.distinct, hs.bridges, hs.registered⟩ ?_
        exact ((htaken.add .refl).add .refl).lt
      · refine .moved ⟨hs.distinct, hs.bridges, hs.registered⟩ ?_
        exact ((htaken.add (UpTo.refl.add (Crossbar.load_inbox_upTo (by decide)))).add .refl).lt

theorem receive_pays (hs : s.Orderly) : Pays Orderly load s s.receive := by
  rw [receive_eq]
  exact .afterHeld .udpInbox hs (fun _ _ => ⟨hs.distinct, hs.bridges, hs.registered⟩)
    (fun _ _ h => ((UpTo.refl.less (UpTo.refl.less (Crossbar.load_inbox_less h))).add .refl).lt)
    fun _ ht => receiveNext_pays ht

/-- The bridges and the crossbar. -/
theorem turn_settles (hs : s.Orderly) :
    Settles Orderly load (fun s => s.bridge.andThen exchange) s :=
  Settles.after (bridge_pays hs).settles (fun _ ht => exchange_settles ht)
    fun _ ht => bridge_exchange ht

/-- **A step of the UDP layer settles.** -/
theorem step_settles (hs : s.Orderly) : Settles Orderly load step s :=
  ((turn_settles hs).andThen fun _ ht => transmit_pays ht).andThen fun _ ht => receive_pays ht

/-- Without progress nothing happens outside the layer. -/
theorem step_idle (hs : s.Orderly) (hidle : s.step.progress = false) :
    ∃ layer, s.step.state = { s with layer } := by
  have hturn := turn_settles hs
  obtain ⟨hidle, hreceived⟩ :=
    Pays.andThen_state (receive_pays (hturn.andThen fun _ ht => transmit_pays ht).kept) hidle
  obtain ⟨-, hstill⟩ := Pays.andThen_state (transmit_pays hturn.kept) hidle
  exact ⟨_, hreceived.trans hstill⟩

end Station
end NetBoard.Udp
