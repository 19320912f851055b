/-
  NetBoard.Proofs.Settling.Stack
  ──────────────────────────────
  **A STACK COMES TO REST.**

  The MAC, the IP layer, the UDP layer and the bus endpoint can move something
  without a word about it; but nothing of that is in the pipes between the
  layers, so it gives no layer below anything to do, and the layers above have
  seen it already.  So a step without progress leaves a stack at rest.  And every
  step with progress makes the load of the whole stack less.

  Main definitions:

      Stack.load    — all that waits in a stack
      Stack.Wired   — what keeps its parts apart

  Main statements:

      wired_build         — every stack that is built is wired
      Wired.act           — and stays so, whatever happens to it
      step_rests          — after a step without progress it is at rest
      step_spends         — a step with progress makes the load less
      repeated_after_idle — a step that answers no has settled the stack
      settling_ends       — some step answers no
-/
import NetBoard.Proofs.Checked.Stack
import NetBoard.Proofs.Settling.Network
import NetBoard.Proofs.Settling.Transport
import NetBoard.Proofs.Settling.Users

namespace NetBoard

open Load Outcome

namespace Stack

/-! ## §1. What waits in a stack. -/

/-- What waits in a part that a stack may not have. -/
def part {α : Type} (load : α → Load) (o : Option α) : Load := (o.map load).getD 0

/-- What waits in a stack.  The subscribers' pipes are in the crossbars they subscribe to. -/
def load (now : Nat) (s : Stack) : Load :=
  s.mac.load + s.resolver.load + s.table.load + s.ip.load + part Icmp.Echo.load s.icmp +
    s.udp.load + part (Dhcp.Client.load now) s.dhcp + part Etherbone.Endpoint.load s.etherbone +
    part Streamer.load s.streamer

/-- What keeps the parts of a stack apart: every key has one subscriber.  The
client has the times of the settings, and the streamer sends what it has. -/
structure Wired (c : Settings) (s : Stack) : Prop where
  mac : s.mac.Distinct
  ip : s.ip.Orderly
  udp : s.udp.Orderly
  dhcp : ∀ client, s.dhcp = some client →
    client.timeout = c.dhcpTimeout ∧ client.retry = c.dhcpRetry
  streamer : ∀ streamer, s.streamer = some streamer → streamer.Sends ∧ streamer.Looped

variable {c : Settings} {s : Stack} {now : Nat}

section Links

variable {type port : UInt16} {protocol : UInt8}

/-- Pipes that are put back as they were change nothing. -/
theorem setMacLink_self (hs : s.Wired c) {old : Link Ethernet.Frame}
    (h : s.mac.crossbar.link? type = some old) : s.setMacLink type old = s := by
  unfold setMacLink
  rw [Crossbar.setLink_self hs.mac h]

theorem setIpLink_self (hs : s.Wired c) {old : Link Ip.Packet}
    (h : s.ip.crossbar.link? protocol.toUInt16 = some old) : s.setIpLink protocol old = s := by
  unfold setIpLink
  rw [Crossbar.setLink_self hs.ip.distinct h]

theorem setUdpLink_self (hs : s.Wired c) {old : Link Udp.UserPacket}
    (h : s.udp.user? port = some old) : s.setUdpLink port old = s := by
  unfold setUdpLink
  rw [Udp.Layer.setUser_self hs.udp h]

/-- Other pipes of a subscriber leave the stack wired. -/
theorem Wired.setMacLink (hs : s.Wired c) (type : UInt16) (link : Link Ethernet.Frame) :
    (s.setMacLink type link).Wired c where
  mac := (congrArg List.Nodup (Crossbar.keys_setLink s.mac.crossbar type link)).mpr hs.mac
  ip := hs.ip
  udp := hs.udp
  dhcp := hs.dhcp
  streamer := hs.streamer

theorem Wired.setIpLink (hs : s.Wired c) (protocol : UInt8) (link : Link Ip.Packet) :
    (s.setIpLink protocol link).Wired c where
  mac := hs.mac
  ip := {
    distinct := (congrArg List.Nodup
      (Crossbar.keys_setLink s.ip.crossbar protocol.toUInt16 link)).mpr hs.ip.distinct
    size_pos := hs.ip.size_pos
    fragments := hs.ip.fragments }
  udp := hs.udp
  dhcp := hs.dhcp
  streamer := hs.streamer

theorem Wired.setUdpLink (hs : s.Wired c) (port : UInt16) (link : Link Udp.UserPacket) :
    (s.setUdpLink port link).Wired c :=
  { hs with udp := hs.udp.setUser port link }

end Links

/-! ## §2. The step of each layer. -/

/-- The MAC settles; what it moves without a word is its own. -/
theorem stepMac_settles (now : Nat) (hs : s.Wired c) : Settles (Wired c) (load now) stepMac s := by
  refine Settles.map Stack.mac (fun s mac => { s with mac })
    (s.resolver.load + s.table.load + s.ip.load + part Icmp.Echo.load s.icmp +
      s.udp.load + part (Dhcp.Client.load now) s.dhcp + part Etherbone.Endpoint.load s.etherbone +
      part Streamer.load s.streamer)
    (Ethernet.Mac.step_settles hs.mac) (fun mac hmac => { hs with mac := hmac }) (fun mac => ?_) rfl
    (fun _ => rfl) fun _ => rfl
  unfold load
  abel

/-- The resolver pays. -/
theorem stepArp_pays (now : Nat) (hs : s.Wired c) :
    Pays (Wired c) (load now) s (s.stepArp now) := by
  unfold stepArp
  cases hlink : s.mac.crossbar.link? Ethernet.typeArp with
  | none => exact .idle hs
  | some link =>
    dsimp only
    obtain ⟨rest, hrest⟩ := Ethernet.Mac.load_setLink hs.mac hlink
    refine Pays.map _ (rest + s.ip.load + part Icmp.Echo.load s.icmp + s.udp.load +
        part (Dhcp.Client.load now) s.dhcp + part Etherbone.Endpoint.load s.etherbone +
        part Streamer.load s.streamer)
      (Arp.Station.step_pays ⟨s.resolver, link, s.table, s.localIp⟩ now) (fun t _ => ?_)
      (fun t => ?_) (setMacLink_self hs hlink)
    · exact Wired.setMacLink (s := { s with resolver := t.resolver, table := t.table })
        ⟨hs.mac, hs.ip, hs.udp, hs.dhcp, hs.streamer⟩ _ _
    · rw [t.load_eq]
      unfold load setMacLink
      dsimp only
      rw [hrest]
      abel

/-- Without progress the IP layer moves something only inside. -/
theorem stepIp_idle (hs : s.Wired c) (hidle : s.stepIp.progress = false) :
    ∃ ip, s.stepIp.state = { s with ip } ∧
      ({ s with ip } : Stack).stepIp = .idle { s with ip } := by
  unfold stepIp at hidle ⊢
  dsimp only
  cases hlink : s.mac.crossbar.link? Ethernet.typeIp with
  | none => exact ⟨s.ip, rfl, rfl⟩
  | some link =>
    rw [hlink] at hidle
    have hip : (⟨s.ip, link, s.table, s.localIp⟩ : Ip.Station).Orderly := hs.ip
    obtain ⟨ip, hstate⟩ := Ip.Station.step_idle hip hidle
    have hsettled := (Ip.Station.step_settles hip).settled hidle
    rw [hstate] at hsettled
    have hput : ({ s with ip, table := s.table } : Stack).setMacLink Ethernet.typeIp link =
        { s with ip } :=
      congrArg (fun t : Stack => { t with ip }) (setMacLink_self hs hlink)
    refine ⟨ip, ?_, ?_⟩
    · dsimp only [state_map]
      rw [hstate]
      exact hput
    · dsimp only at hsettled ⊢
      rw [hsettled]
      exact congrArg Outcome.idle hput

/-- The IP layer settles; what it moves without a word is its own. -/
theorem stepIp_settles (now : Nat) (hs : s.Wired c) : Settles (Wired c) (load now) stepIp s where
  toSpends := by
    unfold stepIp
    cases hlink : s.mac.crossbar.link? Ethernet.typeIp with
    | none => exact (Pays.idle hs).toSpends
    | some link =>
      dsimp only
      obtain ⟨rest, hrest⟩ := Ethernet.Mac.load_setLink hs.mac hlink
      have hip : (⟨s.ip, link, s.table, s.localIp⟩ : Ip.Station).Orderly := hs.ip
      refine Spends.map _ (rest + s.resolver.load + part Icmp.Echo.load s.icmp + s.udp.load +
          part (Dhcp.Client.load now) s.dhcp + part Etherbone.Endpoint.load s.etherbone +
          part Streamer.load s.streamer)
        (Ip.Station.step_settles hip).toSpends (fun t ht => ?_) (fun t => ?_)
        (setMacLink_self hs hlink)
      · exact Wired.setMacLink (s := { s with ip := t.layer, table := t.table })
          ⟨hs.mac, ht, hs.udp, hs.dhcp, hs.streamer⟩ _ _
      · rw [t.load_eq]
        unfold load setMacLink
        dsimp only
        rw [hrest]
        abel
  settled hidle := by
    obtain ⟨ip, hstate, hsettled⟩ := stepIp_idle hs hidle
    rw [hstate]
    exact hsettled

/-- The echo service pays, if it is there. -/
theorem stepIcmp_pays (now : Nat) (hs : s.Wired c) : Pays (Wired c) (load now) s s.stepIcmp := by
  unfold stepIcmp
  cases hicmp : s.icmp with
  | none => exact .idle hs
  | some echo =>
    cases hlink : s.ip.crossbar.link? Icmp.protocol.toUInt16 with
    | none => exact .idle hs
    | some link =>
      dsimp only
      obtain ⟨rest, hrest⟩ := Ip.Layer.load_setLink hs.ip hlink
      have hself : ({ s with icmp := some echo } : Stack).setIpLink Icmp.protocol link = s := by
        rw [← hicmp]
        exact setIpLink_self hs hlink
      refine Pays.map _ (s.mac.load + s.resolver.load + s.table.load + rest + s.udp.load +
          part (Dhcp.Client.load now) s.dhcp + part Etherbone.Endpoint.load s.etherbone +
          part Streamer.load s.streamer)
        (Icmp.Station.step_pays ⟨echo, link⟩) (fun t _ => ?_) (fun t => ?_) hself
      · exact Wired.setIpLink (s := { s with icmp := some t.echo })
          ⟨hs.mac, hs.ip, hs.udp, hs.dhcp, hs.streamer⟩ _ _
      · rw [t.load_eq]
        unfold load setIpLink
        dsimp only
        rw [hrest]
        show _ + t.echo.load + _ + _ + _ + _ = _
        abel

/-- Without progress the UDP layer moves something only inside. -/
theorem stepUdp_idle (hs : s.Wired c) (hidle : s.stepUdp.progress = false) :
    ∃ udp, s.stepUdp.state = { s with udp } ∧
      ({ s with udp } : Stack).stepUdp = .idle { s with udp } := by
  unfold stepUdp at hidle ⊢
  dsimp only
  cases hlink : s.ip.crossbar.link? Udp.protocol.toUInt16 with
  | none => exact ⟨s.udp, rfl, rfl⟩
  | some link =>
    rw [hlink] at hidle
    have hudp : (⟨s.udp, link⟩ : Udp.Station).Orderly := hs.udp
    obtain ⟨udp, hstate⟩ := Udp.Station.step_idle hudp hidle
    have hsettled := (Udp.Station.step_settles hudp).settled hidle
    rw [hstate] at hsettled
    have hput : ({ s with udp } : Stack).setIpLink Udp.protocol link = { s with udp } :=
      congrArg (fun t : Stack => { t with udp }) (setIpLink_self hs hlink)
    refine ⟨udp, ?_, ?_⟩
    · dsimp only [state_map]
      rw [hstate]
      exact hput
    · dsimp only at hsettled ⊢
      rw [hsettled]
      exact congrArg Outcome.idle hput

/-- The UDP layer settles; what it moves without a word is its own. -/
theorem stepUdp_settles (now : Nat) (hs : s.Wired c) :
    Settles (Wired c) (load now) stepUdp s where
  toSpends := by
    unfold stepUdp
    cases hlink : s.ip.crossbar.link? Udp.protocol.toUInt16 with
    | none => exact (Pays.idle hs).toSpends
    | some link =>
      dsimp only
      obtain ⟨rest, hrest⟩ := Ip.Layer.load_setLink hs.ip hlink
      have hudp : (⟨s.udp, link⟩ : Udp.Station).Orderly := hs.udp
      refine Spends.map _ (s.mac.load + s.resolver.load + s.table.load + rest +
          part Icmp.Echo.load s.icmp + part (Dhcp.Client.load now) s.dhcp +
          part Etherbone.Endpoint.load s.etherbone + part Streamer.load s.streamer)
        (Udp.Station.step_settles hudp).toSpends (fun t ht => ?_) (fun t => ?_)
        (setIpLink_self hs hlink)
      · exact Wired.setIpLink (s := { s with udp := t.layer })
          ⟨hs.mac, hs.ip, ht, hs.dhcp, hs.streamer⟩ _ _
      · rw [t.load_eq]
        unfold load setIpLink
        dsimp only
        rw [hrest]
        abel
  settled hidle := by
    obtain ⟨udp, hstate, hsettled⟩ := stepUdp_idle hs hidle
    rw [hstate]
    exact hsettled

/-- What becomes of the client keeps the stack wired. -/
theorem Wired.client (hs : s.Wired c) {t : Dhcp.Station} (ht : t.Timed c.dhcpTimeout c.dhcpRetry) :
    (({ s with dhcp := some t.client, localIp := t.localIp } : Stack).setUdpLink
      Dhcp.clientPort t.link).Wired c := by
  refine Wired.setUdpLink (s := { s with dhcp := some t.client, localIp := t.localIp })
    ⟨hs.mac, hs.ip, hs.udp, fun client hclient => ?_, hs.streamer⟩ _ _
  obtain rfl := Option.some.inj hclient
  exact ht

/-- The client is honest; that it pays needs a time that is not zero. -/
theorem stepDhcp_honest (now : Nat) (hs : s.Wired c) : Honest (Wired c) s (s.stepDhcp now) := by
  unfold stepDhcp
  cases hdhcp : s.dhcp with
  | none => exact ⟨hs, fun _ => rfl⟩
  | some client =>
    cases hlink : s.udp.user? Dhcp.clientPort with
    | none => exact ⟨hs, fun _ => rfl⟩
    | some link =>
      have hclient : (⟨client, link, s.localIp⟩ : Dhcp.Station).Timed c.dhcpTimeout c.dhcpRetry :=
        hs.dhcp client hdhcp
      have hstep : Honest (Dhcp.Station.Timed c.dhcpTimeout c.dhcpRetry) ⟨client, link, s.localIp⟩
          (Dhcp.Station.step now ⟨client, link, s.localIp⟩) :=
        ⟨Dhcp.Station.step_timed hclient, Dhcp.Station.step_honest now _⟩
      refine hstep.map _ (fun t ht => hs.client ht) ?_
      rw [← hdhcp]
      exact setUdpLink_self hs hlink

/-- The client is the only part that could go on for ever. -/
theorem stepDhcp_spends (htimes : c.dhcpTimeout ≠ 0 ∨ c.dhcpRetry ≠ 0) (now : Nat)
    (hs : s.Wired c) : Spends (Wired c) (load now) s (s.stepDhcp now) := by
  unfold stepDhcp
  cases hdhcp : s.dhcp with
  | none => exact (Pays.idle hs).toSpends
  | some client =>
    cases hlink : s.udp.user? Dhcp.clientPort with
    | none => exact (Pays.idle hs).toSpends
    | some link =>
      dsimp only
      obtain ⟨rest, hrest⟩ := Udp.Layer.load_setUser hs.udp hlink
      have hclient : (⟨client, link, s.localIp⟩ : Dhcp.Station).Timed c.dhcpTimeout c.dhcpRetry :=
        hs.dhcp client hdhcp
      refine Spends.map _ (s.mac.load + s.resolver.load + s.table.load + s.ip.load +
          part Icmp.Echo.load s.icmp + rest + part Etherbone.Endpoint.load s.etherbone +
          part Streamer.load s.streamer)
        (Dhcp.Station.step_pays htimes hclient).toSpends (fun t ht => hs.client ht) (fun t => ?_) ?_
      · rw [t.load_eq]
        unfold load setUdpLink
        dsimp only
        rw [hrest]
        show _ + t.client.load now + _ + _ = _
        abel
      · rw [← hdhcp]
        exact setUdpLink_self hs hlink

/-- Without progress the endpoint at most puts a record away. -/
theorem stepEtherbone_idle (hs : s.Wired c) (hidle : s.stepEtherbone.progress = false) :
    ∃ etherbone, s.stepEtherbone.state = { s with etherbone } ∧
      ({ s with etherbone } : Stack).stepEtherbone = .idle { s with etherbone } := by
  cases hendpoint : s.etherbone with
  | none =>
    have hstay : s.stepEtherbone = .idle s := by
      unfold stepEtherbone
      rw [hendpoint]
    exact ⟨s.etherbone, congrArg Outcome.state hstay, hstay⟩
  | some endpoint =>
    cases hlink : s.udp.user? endpoint.port with
    | none =>
      have hstay : s.stepEtherbone = .idle s := by
        unfold stepEtherbone
        rw [hendpoint]
        dsimp only
        rw [hlink]
      exact ⟨s.etherbone, congrArg Outcome.state hstay, hstay⟩
    | some link =>
      unfold stepEtherbone at hidle ⊢
      rw [hendpoint] at hidle ⊢
      dsimp only at hidle ⊢
      rw [hlink] at hidle ⊢
      obtain ⟨inbound, hstate⟩ := Etherbone.Station.step_idle hidle
      have hsettled := (Etherbone.Station.step_settles ⟨endpoint, link⟩).settled hidle
      rw [hstate] at hsettled
      have hput : ({ s with etherbone := some { endpoint with inbound } } : Stack).setUdpLink
          endpoint.port link = { s with etherbone := some { endpoint with inbound } } :=
        congrArg (fun t : Stack => { t with etherbone := some { endpoint with inbound } })
          (setUdpLink_self hs hlink)
      refine ⟨some { endpoint with inbound }, ?_, ?_⟩
      · dsimp only [state_map]
        rw [hstate]
        exact hput
      · dsimp only at hsettled ⊢
        rw [hlink]
        dsimp only
        rw [hsettled]
        exact congrArg Outcome.idle hput

/-- The endpoint settles, if it is there. -/
theorem stepEtherbone_settles (now : Nat) (hs : s.Wired c) :
    Settles (Wired c) (load now) stepEtherbone s where
  toSpends := by
    unfold stepEtherbone
    cases hendpoint : s.etherbone with
    | none => exact (Pays.idle hs).toSpends
    | some endpoint =>
      dsimp only
      cases hlink : s.udp.user? endpoint.port with
      | none => exact (Pays.idle hs).toSpends
      | some link =>
        dsimp only
        obtain ⟨rest, hrest⟩ := Udp.Layer.load_setUser hs.udp hlink
        refine Spends.map _ (s.mac.load + s.resolver.load + s.table.load + s.ip.load +
            part Icmp.Echo.load s.icmp + rest + part (Dhcp.Client.load now) s.dhcp +
            part Streamer.load s.streamer)
          (Etherbone.Station.step_settles ⟨endpoint, link⟩).toSpends (fun t _ => ?_)
          (fun t => ?_) ?_
        · exact Wired.setUdpLink (s := { s with etherbone := some t.endpoint })
            ⟨hs.mac, hs.ip, hs.udp, hs.dhcp, hs.streamer⟩ _ _
        · rw [t.load_eq]
          unfold load setUdpLink
          dsimp only
          rw [hrest]
          show _ + t.endpoint.load + _ = _
          abel
        · rw [← hendpoint]
          exact setUdpLink_self hs hlink
  settled hidle := by
    obtain ⟨etherbone, hstate, hsettled⟩ := stepEtherbone_idle hs hidle
    rw [hstate]
    exact hsettled

/-- The streamer pays, if it is there. -/
theorem stepStreamer_pays (now : Nat) (hs : s.Wired c) :
    Pays (Wired c) (load now) s s.stepStreamer := by
  unfold stepStreamer
  cases hstreamer : s.streamer with
  | none => exact .idle hs
  | some streamer =>
    dsimp only
    cases hlink : s.udp.user? streamer.port with
    | none => exact .idle hs
    | some link =>
      dsimp only
      obtain ⟨rest, hrest⟩ := Udp.Layer.load_setUser hs.udp hlink
      have htidy : (⟨streamer, link⟩ : Streamer.Station).Tidy :=
        ⟨(hs.streamer streamer hstreamer).1, (hs.streamer streamer hstreamer).2⟩
      refine Pays.map _ (s.mac.load + s.resolver.load + s.table.load + s.ip.load +
          part Icmp.Echo.load s.icmp + rest + part (Dhcp.Client.load now) s.dhcp +
          part Etherbone.Endpoint.load s.etherbone)
        (Streamer.Station.step_pays htidy) (fun t ht => ?_) (fun t => ?_) ?_
      · refine Wired.setUdpLink (s := { s with streamer := some t.streamer })
          ⟨hs.mac, hs.ip, hs.udp, hs.dhcp, fun _ h => ?_⟩ _ _
        obtain rfl := Option.some.inj h
        exact ⟨ht.sends, ht.looped⟩
      · rw [t.load_eq]
        unfold load setUdpLink
        dsimp only
        rw [hrest]
        show _ + t.streamer.load = _
        abel
      · rw [← hstreamer]
        exact setUdpLink_self hs hlink

/-! ## §3. What a layer looks at. -/

section Apart

variable (ip : Ip.Layer) (udp : Udp.Layer) (etherbone : Option Etherbone.Endpoint)

theorem stepMac_apart : Apart stepMac fun t => { t with ip, udp, etherbone } := fun _ => rfl

theorem stepArp_apart (now : Nat) : Apart (stepArp now) fun t => { t with ip, udp, etherbone } := by
  intro s
  unfold stepArp
  dsimp only
  cases s.mac.crossbar.link? Ethernet.typeArp <;> rfl

theorem stepIp_apart : Apart stepIp fun t => { t with udp, etherbone } := by
  intro s
  unfold stepIp
  dsimp only
  cases s.mac.crossbar.link? Ethernet.typeIp <;> rfl

theorem stepIcmp_apart : Apart stepIcmp fun t => { t with udp, etherbone } := by
  intro s
  obtain ⟨_, _, _, _, ip, icmp, _, _, _, _⟩ := s
  unfold stepIcmp
  dsimp only
  cases icmp <;> cases ip.crossbar.link? Icmp.protocol.toUInt16 <;> rfl

theorem stepUdp_apart : Apart stepUdp fun t => { t with etherbone } := by
  intro s
  unfold stepUdp
  dsimp only
  cases s.ip.crossbar.link? Udp.protocol.toUInt16 <;> rfl

theorem stepDhcp_apart (now : Nat) : Apart (stepDhcp now) fun t => { t with etherbone } := by
  intro s
  obtain ⟨_, _, _, _, _, _, udp, dhcp, _, _⟩ := s
  unfold stepDhcp
  dsimp only
  cases dhcp <;> cases udp.user? Dhcp.clientPort <;> rfl

end Apart

/-! ## §4. A step of the stack. -/

/-- What a step without progress leaves behind: the same, but for what the layers
moved inside.  No layer has anything to do then. -/
structure Resting (now : Nat) (s : Stack) : Prop where
  mac : s.stepMac = .idle s
  arp : s.stepArp now = .idle s
  ip : s.stepIp = .idle s
  icmp : s.stepIcmp = .idle s
  udp : s.stepUdp = .idle s
  dhcp : s.stepDhcp now = .idle s
  etherbone : s.stepEtherbone = .idle s
  streamer : s.stepStreamer = .idle s

/-- A step of a stack at rest does nothing at all. -/
theorem Resting.step (h : s.Resting now) : s.step now = .idle s :=
  andThen_idle (andThen_idle (andThen_idle (andThen_idle (andThen_idle (andThen_idle (andThen_idle
    h.mac h.arp) h.ip) h.icmp) h.udp) h.dhcp) h.etherbone) h.streamer

/-- What the parts without a word have left behind is for none of the others. -/
theorem resting_of_step (hs : s.Wired c) (hidle : (s.step now).progress = false) :
    (s.step now).state.Resting now := by
  unfold step at hidle ⊢
  simp only [progress_andThen, state_andThen, Bool.or_eq_false_iff] at hidle ⊢
  obtain ⟨⟨⟨⟨⟨⟨⟨hframed, hresolved⟩, hrouted⟩, hechoed⟩, hdelivered⟩, hleased⟩, hserved⟩,
    hstreamed⟩ := hidle
  -- first the steps one by one
  have hmac := (stepMac_settles now hs).settled hframed
  have hs := (stepMac_settles now hs).kept
  generalize s.stepMac.state = s at *
  have harp := (stepArp_pays now hs).honest hresolved
  rw [harp] at hrouted hechoed hdelivered hleased hserved hstreamed ⊢
  obtain ⟨ip, hstate, hip⟩ := stepIp_idle hs hrouted
  have hs := (stepIp_settles now hs).kept
  dsimp only [Outcome.idle] at hechoed hdelivered hleased hserved hstreamed ⊢
  rw [hstate] at hs hechoed hdelivered hleased hserved hstreamed ⊢
  have hicmp := (stepIcmp_pays now hs).honest hechoed
  rw [hicmp] at hdelivered hleased hserved hstreamed ⊢
  obtain ⟨udp, hstate, hudp⟩ := stepUdp_idle hs hdelivered
  have hs := (stepUdp_settles now hs).kept
  dsimp only [Outcome.idle] at hleased hserved hstreamed ⊢
  rw [hstate] at hs hleased hserved hstreamed ⊢
  have hdhcp := (stepDhcp_honest now hs).honest hleased
  rw [hdhcp] at hserved hstreamed ⊢
  obtain ⟨etherbone, hstate, hetherbone⟩ := stepEtherbone_idle hs hserved
  have hs := (stepEtherbone_settles now hs).kept
  dsimp only [Outcome.idle] at hstreamed ⊢
  rw [hstate] at hs hstreamed ⊢
  have hstreamer := (stepStreamer_pays now hs).honest hstreamed
  rw [hstreamer]
  -- and none of them looks at what is moved after it
  exact {
    mac := (stepMac_apart ip udp etherbone).idle (s := s) hmac
    arp := (stepArp_apart ip udp etherbone now).idle (s := s) harp
    ip := (stepIp_apart udp etherbone).idle (s := { s with ip }) hip
    icmp := (stepIcmp_apart udp etherbone).idle (s := { s with ip }) hicmp
    udp := (stepUdp_apart etherbone).idle (s := { s with ip, udp }) hudp
    dhcp := (stepDhcp_apart etherbone now).idle (s := { s with ip, udp }) hdhcp
    etherbone := hetherbone
    streamer := hstreamer }

/-- Steps only move what is in the pipes. -/
theorem Wired.step (hs : s.Wired c) (now : Nat) : (s.step now).state.Wired c := by
  have hip := (stepIp_settles now (stepArp_pays now (stepMac_settles now hs).kept).kept).kept
  have hudp := (stepUdp_settles now (stepIcmp_pays now hip).kept).kept
  have hetherbone := (stepEtherbone_settles now (stepDhcp_honest now hudp).kept).kept
  unfold Stack.step
  simp only [state_andThen]
  exact (stepStreamer_pays now hetherbone).kept

/-- **After a step without progress the stack is at rest.** -/
theorem step_rests (now : Nat) (hs : s.Wired c) : Rests (Wired c) (step now) s :=
  ⟨hs.step now, fun hidle => (resting_of_step hs hidle).step⟩

/-- **A step never adds to the load, and one with progress makes it less**, unless
the client has no time for an exchange and none between two of them. -/
theorem step_spends (htimes : c.dhcpTimeout ≠ 0 ∨ c.dhcpRetry ≠ 0) (now : Nat) (hs : s.Wired c) :
    Spends (Wired c) (load now) s (s.step now) := by
  unfold step
  exact (((((((stepMac_settles now hs).toSpends.andThen
    fun _ h => (stepArp_pays now h).toSpends).andThen
    fun _ h => (stepIp_settles now h).toSpends).andThen
    fun _ h => (stepIcmp_pays now h).toSpends).andThen
    fun _ h => (stepUdp_settles now h).toSpends).andThen
    fun _ h => stepDhcp_spends htimes now h).andThen
    fun _ h => (stepEtherbone_settles now h).toSpends).andThen
    fun _ h => (stepStreamer_pays now h).toSpends

/-! ## §5. The world around a stack. -/

/-- Users only move packets into their pipes and out of them. -/
theorem Wired.actUser (hs : s.Wired c) (port : UInt16)
    (act : Link Udp.UserPacket → Link Udp.UserPacket × Answer) :
    (s.actUser port act).1.Wired c := by
  unfold Stack.actUser
  cases s.udp.user? port with
  | none => exact hs
  | some link => exact hs.setUdpLink port (act link).1

/-- What keeps the streamer tidy keeps the stack wired. -/
theorem Wired.actStream (hs : s.Wired c) {act : Streamer → Streamer × Answer}
    (hact : ∀ streamer : Streamer, streamer.Sends ∧ streamer.Looped →
      (act streamer).1.Sends ∧ (act streamer).1.Looped) :
    (s.actStream act).1.Wired c := by
  unfold Stack.actStream
  cases hstreamer : s.streamer with
  | none => exact hs
  | some streamer =>
    refine { hs with streamer := fun next hnext => ?_ }
    obtain rfl := Option.some.inj hnext
    exact hact streamer (hs.streamer streamer hstreamer)

/-- What the world does keeps a stack wired. -/
theorem Wired.act (hs : s.Wired c) (a : Action) : (s.act a).1.Wired c := by
  cases a with
  | send bs => exact { hs with mac := hs.mac }
  | take =>
    unfold Stack.act
    dsimp only
    cases s.mac.wireOut.take with
    | none => exact hs
    | some taken => exact { hs with mac := hs.mac }
  | openPort port width => exact { hs with udp := hs.udp.openPort port width }
  | userSend port packet => exact hs.actUser port _
  | userTake port => exact hs.actUser port _
  | abandon port =>
    refine { hs with udp := ?_ }
    show (s.udp.abandon port).Orderly
    unfold Udp.Layer.abandon
    cases s.udp.user? port with
    | none => exact hs.udp
    | some user => exact hs.udp.setUser port user.abandon
  | write bs =>
    refine hs.actStream fun streamer hstreamer => ?_
    split
    · exact hstreamer
    · exact hstreamer
  | read n =>
    refine hs.actStream fun streamer hstreamer => ?_
    split
    · next hreadable =>
      -- in loopback nothing is read
      have hplain : streamer.loopback = false := by simpa [Streamer.isReadable] using hreadable
      exact ⟨hstreamer.1, fun hloop => absurd (hplain.symm.trans hloop) Bool.false_ne_true⟩
    · exact hstreamer
  | step now => exact hs.step now

/-! ## §6. Construction. -/

/-- A new MAC has no subscribers yet. -/
theorem builds_distinct (address : MacAddress) (width : Nat) (bareWire : Bool)
    (gapOctets depth : Nat) :
    Builds Ethernet.Mac.Distinct (Ethernet.Mac.make? address width bareWire gapOctets depth) := by
  unfold Ethernet.Mac.make?
  cases checkWidth width with
  | error fault => exact .error fault
  | ok width => exact .ok List.nodup_nil

/-- The MAC refuses a key that is taken. -/
theorem builds_distinct_register {mac : Ethernet.Mac} (hm : mac.Distinct) (type : UInt16) :
    Builds (·.1.Distinct) (mac.register type) := by
  unfold Ethernet.Mac.register
  cases hregister : mac.crossbar.register type with
  | error fault => exact .error fault
  | ok made => exact .ok (Crossbar.distinct_register hm hregister)

/-- So does the IP layer. -/
theorem builds_orderly_register {l : Ip.Layer} (hl : l.Orderly) (protocol : UInt8) :
    Builds (·.1.Orderly) (l.register protocol) := by
  unfold Ip.Layer.register
  cases hregister : l.crossbar.register protocol.toUInt16 with
  | error fault => exact .error fault
  | ok made =>
    exact .ok ⟨Crossbar.distinct_register hl.distinct hregister, hl.size_pos, hl.fragments⟩

/-- Each layer below the users registers once. -/
theorem builds_wired_core (c : Settings) : Builds (·.1.Wired c) (buildCore c) := by
  unfold buildCore
  by_cases hentries : c.arp.entries = 0
  · simp only [if_pos hentries]
    exact .error _
  · simp only [if_neg hentries]
    refine (builds_distinct c.mac c.width c.bareWire c.gap c.depth).bind fun mac hmac => ?_
    refine (builds_distinct_register hmac Ethernet.typeArp).bind fun made hmac => ?_
    refine (builds_distinct_register hmac Ethernet.typeIp).bind fun made hmac => ?_
    have hip : (Ip.Layer.make c.mac c.mtu c.promiscuous c.width c.depth).Orderly :=
      ⟨List.nodup_nil, lt_of_lt_of_le (by decide) (le_max_left 8 _), fun h => nomatch h⟩
    have hudp : (Udp.Layer.make c.width c.depth).Orderly :=
      ⟨List.nodup_nil, List.nodup_nil, fun port hport => nomatch hport⟩
    cases c.withIcmp with
    | true =>
      refine (builds_orderly_register hip Icmp.protocol).bind fun made hip => ?_
      refine (builds_orderly_register hip Udp.protocol).bind fun made hip => ?_
      exact .ok ⟨hmac, hip, hudp, fun _ h => (nomatch h), fun _ h => (nomatch h)⟩
    | false =>
      simp only [Bool.false_eq_true, if_false, pure_bind]
      refine (builds_orderly_register hip Udp.protocol).bind fun made hip => ?_
      exact .ok ⟨hmac, hip, hudp, fun _ h => (nomatch h), fun _ h => (nomatch h)⟩

/-- Every stack that is built is wired. -/
theorem wired_build {built : Stack × List Log.Line} (h : build c = .ok built) :
    built.1.Wired c := by
  refine (?_ : Builds (fun made => made.1.Wired c) (build c)) built h
  refine builds_kept ?_ (builds_wired_core c) ?_ ?_ ?_
  · exact fun s port width hs => { hs with udp := hs.udp.openPort port width }
  · intro s client hs hmade
    have hclient := Dhcp.Client.times_make? hmade
    exact { hs with dhcp := fun _ h => Option.some.inj h ▸ hclient }
  · exact fun s p endpoint hs _ => { hs with mac := hs.mac }
  · intro s p made hs hmade
    have hstreamer := Streamer.tidy_make? hmade
    exact { hs with streamer := fun _ h => Option.some.inj h ▸ hstreamer }

/-! ## §7. Every run. -/

/-- The stack after what the world has done to it. -/
def reached (s : Stack) (actions : List Action) : Stack := actions.foldl (fun s a => (s.act a).1) s

/-- Whatever the world has done, the stack is wired. -/
theorem Wired.reached (hs : s.Wired c) (actions : List Action) : (s.reached actions).Wired c := by
  induction actions generalizing s with
  | nil => exact hs
  | cons a rest ih => exact ih (hs.act a)

/-- **A step that answers no has settled the stack.**  Whatever has happened to a
stack that could be built: after a step without progress any number of further
steps at that time make none, and leave all of the stack as it is. -/
theorem repeated_after_idle {built : Stack × List Log.Line} (h : build c = .ok built)
    (actions : List Action) (now n : Nat)
    (hidle : ((built.1.reached actions).step now).progress = false) :
    let t := ((built.1.reached actions).step now).state
    Outcome.repeated (step now) n t = (t, List.replicate n false, []) :=
  repeated_of_idle ((step_rests now ((wired_build h).reached actions)).settled hidle) n

/-- Nobody takes the frames of a user who sends faster than the wire.  At last
everything on the way down is full; the step that finds it so still moves a
packet in a crossbar, and says nothing of it. -/
theorem repeated_after_idle_full :
    let c : Settings := { ip := none, depth := 1 }
    let packet : Udp.UserPacket :=
      { ip := ⟨255, 255, 255, 255⟩, srcPort := 7, dstPort := 9, length := 1
        data := [⟨0x0a, true, 1⟩] }
    let actions : List Action :=
      [.openPort 7 1] ++ (List.replicate 10 [.userSend 7 packet, .step 0]).flatten ++
        List.replicate 3 (.step 0)
    ∃ built, build c = .ok built ∧
      let s := built.1.reached actions
      let t := (s.step 0).state
      (s.step 0).progress = false ∧ t ≠ s ∧
        Outcome.repeated (step 0) 3 t = (t, [false, false, false], []) := by
  intro c packet actions
  have hmoved : (build c).toOption.map (fun built =>
      let s := built.1.reached actions
      ((s.step 0).progress, decide ((s.step 0).state = s))) = some (false, false) := by
    decide +kernel
  cases hbuilt : build c with
  | error fault =>
    rw [hbuilt] at hmoved
    cases hmoved
  | ok built =>
    rw [hbuilt] at hmoved
    obtain ⟨hidle, hne⟩ := Prod.mk.inj (Option.some.inj hmoved)
    exact ⟨built, rfl, hidle, of_decide_eq_false hne,
      repeated_after_idle hbuilt actions 0 3 hidle⟩

/-- **Settling ends.**  Whatever has happened to a stack that could be built, unless
its client has no time for an exchange and none between two of them: steps at
one time make progress a number of times, and then one makes none. -/
theorem settling_ends (htimes : ¬ (c.dhcpTimeout = 0 ∧ c.dhcpRetry = 0))
    {built : Stack × List Log.Line} (h : build c = .ok built) (actions : List Action) (now : Nat) :
    ∃ k, (Outcome.repeated (step now) (k + 1) (built.1.reached actions)).2.1 =
      List.replicate k true ++ [false] :=
  exists_repeated_idle (fun _ ht => step_spends (not_and_or.1 htimes) now ht)
    ((wired_build h).reached actions)

/-- A client whose exchange is over before it can send anything, and a streamer
whose datagram waits for an address nobody knows. -/
theorem settling_ends_unanswered :
    let c : Settings :=
      { ip := none, dhcpTimeout := 0, dhcpRetry := 5
        streamer := some { remote := some ⟨192, 168, 1, 100⟩ } }
    ¬ (c.dhcpTimeout = 0 ∧ c.dhcpRetry = 0) ∧ ∃ built, build c = .ok built ∧
      let s := built.1.reached [.write [1, 2, 3]]
      (s.step 7).progress = true ∧
        ∃ k, (Outcome.repeated (step 7) (k + 1) s).2.1 = List.replicate k true ++ [false] := by
  intro c
  have htimes : ¬ (c.dhcpTimeout = 0 ∧ c.dhcpRetry = 0) := by decide
  have hmoves : ((build c).toOption.map fun built =>
      ((built.1.reached [.write [1, 2, 3]]).step 7).progress) = some true := by
    decide +kernel
  cases hbuilt : build c with
  | error fault =>
    rw [hbuilt] at hmoves
    cases hmoves
  | ok built =>
    rw [hbuilt] at hmoves
    exact ⟨htimes, built, rfl, Option.some.inj hmoves, settling_ends htimes hbuilt _ 7⟩

/-- Without the two times the client starts one exchange after the other. -/
example :
    let c : Settings := { ip := none, dhcpTimeout := 0, dhcpRetry := 0 }
    ((build c).toOption.map fun built => (Outcome.repeated (step 7) 20 built.1).2.1) =
      some (List.replicate 20 true) := by
  decide +kernel

end Stack
end NetBoard
