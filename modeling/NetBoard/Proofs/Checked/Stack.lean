/-
  NetBoard.Proofs.Checked.Stack
  ─────────────────────────────
  **NOTHING STOPS A BOARD.**

  A stack that could be built can be stepped for ever: whatever octets arrive on
  the wire, whatever datagrams the users hand over, and whenever it is stepped
  or polled, no operation of any layer fails.  All that a step needs of the layers
  is true of them when they are built, and every step keeps it; what the world
  does between two steps only moves items into pipes and out of them.

  Main definitions:

      Stack.Formed   — what a step needs of the layers
      Stack.step!    — one step of every layer, checked
      Stack.poll!    — steps until nothing moves any more, checked
      Stack.Event    — an action of the world, or a poll

  Main statements:

      formed_build         — every stack that is built has it
      Formed.step!         — no step fails, and each keeps it
      Formed.after!        — nor does anything else that happens to a stack
      no_operation_fails   — nor does any sequence of events
-/
import NetBoard.Proofs.Checked.Client
import NetBoard.Proofs.Checked.Endpoint
import NetBoard.Proofs.Checked.Network
import NetBoard.Proofs.Checked.Resolver
import NetBoard.Proofs.Checked.Streamer
import NetBoard.Proofs.Datapath.Stack

namespace NetBoard

open scoped Power

open Checked

/-! ## §1. Repeated steps. -/

namespace Checked

variable {σ : Type} {inv : σ → Prop}

/-- Step until a step makes no progress, and count the steps that made some. -/
def settle (step : σ → Checked (Outcome σ)) :
    Nat → σ → Nat → List (List Log.Line) → Checked (σ × Nat × List Log.Line)
  | 0, s, done, logs => return (s, done, logs.reverse.flatten)
  | left + 1, s, done, logs => do
    let o ← step s
    if o.progress then settle step left o.state (← add 64 done 1) (o.log :: logs)
    else return (o.state, done, (o.log :: logs).reverse.flatten)

/-- If each step runs, so does their repetition, while its count fits. -/
theorem settle_ok {f : σ → Checked (Outcome σ)} {g : σ → Outcome σ}
    (h : ∀ s, inv s → Runs inv (f s) (g s)) (rounds : Nat) {done : Nat}
    (hbound : done + rounds < 2 ^ (64 : Nat)) {s : σ} (hs : inv s) (logs : List (List Log.Line)) :
    settle f rounds s done logs = .ok (Outcome.settle.go g rounds s done logs) ∧
      inv (Outcome.settle.go g rounds s done logs).1 := by
  induction rounds generalizing s done logs with
  | zero => exact ⟨rfl, hs⟩
  | succ left ih =>
    obtain ⟨hok, hkept⟩ := h s hs
    unfold settle Outcome.settle.go
    rw [hok, ok_bind]
    dsimp only
    split
    · rw [add_ok (by omega)]
      exact ih (by omega) hkept _
    · exact ⟨rfl, hkept⟩

end Checked

namespace Stack

/-! ## §2. The layers of a stack. -/

/-- What a step needs of the layers. -/
structure Formed (s : Stack) : Prop where
  mac : s.mac.Formed
  resolver : s.resolver.Formed
  ip : s.ip.Ready
  icmp : ∀ echo ∈ s.icmp, echo.Formed
  udp : s.udp.Formed
  dhcp : ∀ client ∈ s.dhcp, client.Formed
  etherbone : ∀ endpoint ∈ s.etherbone, endpoint.Ready
  streamer : ∀ streamer ∈ s.streamer, streamer.Formed

/-- Media access. -/
def stepMac! (s : Stack) : Checked (Outcome Stack) := map (fun mac => { s with mac }) s.mac.step!

/-- Address resolution, on its port of the MAC. -/
def stepArp! (now : Nat) (s : Stack) : Checked (Outcome Stack) :=
  match s.mac.crossbar.link? Ethernet.typeArp with
  | none => return .idle s
  | some link =>
    map (fun t =>
        { s with resolver := t.resolver, table := t.table }.setMacLink Ethernet.typeArp t.link)
      (Arp.Station.step! now ⟨s.resolver, link, s.table, s.localIp⟩)

/-- The IP layer, on its port of the MAC. -/
def stepIp! (s : Stack) : Checked (Outcome Stack) :=
  match s.mac.crossbar.link? Ethernet.typeIp with
  | none => return .idle s
  | some link =>
    map (fun t => { s with ip := t.layer, table := t.table }.setMacLink Ethernet.typeIp t.link)
      (Ip.Station.step! ⟨s.ip, link, s.table, s.localIp⟩)

/-- The echo service, if there is one, on its port of the IP layer. -/
def stepIcmp! (s : Stack) : Checked (Outcome Stack) :=
  match s.icmp, s.ip.crossbar.link? Icmp.protocol.toUInt16 with
  | some echo, some link =>
    map (fun t => { s with icmp := some t.echo }.setIpLink Icmp.protocol t.link)
      (Icmp.Station.step! ⟨echo, link⟩)
  | _, _ => return .idle s

/-- The UDP layer, on its port of the IP layer. -/
def stepUdp! (s : Stack) : Checked (Outcome Stack) :=
  match s.ip.crossbar.link? Udp.protocol.toUInt16 with
  | none => return .idle s
  | some link =>
    map (fun t => { s with udp := t.layer }.setIpLink Udp.protocol t.link)
      (Udp.Station.step! ⟨s.udp, link⟩)

/-- The client, if there is one, on its port of the UDP layer. -/
def stepDhcp! (now : Nat) (s : Stack) : Checked (Outcome Stack) :=
  match s.dhcp, s.udp.user? Dhcp.clientPort with
  | some client, some link =>
    map (fun t =>
        { s with dhcp := some t.client, localIp := t.localIp }.setUdpLink Dhcp.clientPort t.link)
      (Dhcp.Station.step! now ⟨client, link, s.localIp⟩)
  | _, _ => return .idle s

/-- The endpoint, if there is one, on its port of the UDP layer. -/
def stepEtherbone! (s : Stack) : Checked (Outcome Stack) :=
  match s.etherbone with
  | none => return .idle s
  | some endpoint =>
    match s.udp.user? endpoint.port with
    | none => return .idle s
    | some link =>
      map (fun t => { s with etherbone := some t.endpoint }.setUdpLink endpoint.port t.link)
        (Etherbone.Station.step! ⟨endpoint, link⟩)

/-- The streamer, if there is one, on its port of the UDP layer. -/
def stepStreamer! (s : Stack) : Checked (Outcome Stack) :=
  match s.streamer with
  | none => return .idle s
  | some streamer =>
    match s.udp.user? streamer.port with
    | none => return .idle s
    | some link =>
      map (fun t => { s with streamer := some t.streamer }.setUdpLink streamer.port t.link)
        (Streamer.Station.step! ⟨streamer, link⟩)

variable {s : Stack}

/-! ### Pipes of the subscribers. -/

/-- Other pipes of a subscriber change nothing that a step of the MAC needs. -/
theorem Formed.setMacLink (hs : s.Formed) (type : UInt16) (link : Link Ethernet.Frame) :
    (s.setMacLink type link).Formed :=
  { hs with mac := ⟨hs.mac.1, hs.mac.2, hs.mac.3, hs.mac.4⟩ }

/-- They change nothing that a step of the IP layer needs. -/
theorem Formed.setIpLink (hs : s.Formed) (protocol : UInt8) (link : Link Ip.Packet) :
    (s.setIpLink protocol link).Formed :=
  { hs with ip := ⟨⟨hs.ip.packetizer, hs.ip.depacketizer⟩, hs.ip.size⟩ }

/-- They change nothing that a step of the UDP layer needs. -/
theorem Formed.setUdpLink (hs : s.Formed) (port : UInt16) (link : Link Udp.UserPacket) :
    (s.setUdpLink port link).Formed :=
  { hs with udp := hs.udp.setUser port link }

/-! ### Steps of the layers. -/

variable {now : Nat}

/-- The MAC is stepped. -/
theorem Formed.stepMac! (hs : s.Formed) : Runs Formed s.stepMac! s.stepMac :=
  hs.mac.step!.map fun _ hmac => { hs with mac := hmac }

/-- The resolver is stepped, with whatever lookups the IP layer has made. -/
theorem Formed.stepArp! (hs : s.Formed) : Runs Formed (s.stepArp! now) (s.stepArp now) := by
  unfold Stack.stepArp! stepArp
  cases s.mac.crossbar.link? Ethernet.typeArp with
  | none => exact .pure hs
  | some link =>
    have hstation : (⟨s.resolver, link, s.table, s.localIp⟩ : Arp.Station).Formed := hs.resolver
    refine hstation.step!.map fun t ht => Formed.setMacLink ?_ Ethernet.typeArp t.link
    exact { hs with resolver := ht }

/-- The IP layer is stepped, with whatever answers it was given. -/
theorem Formed.stepIp! (hs : s.Formed) : Runs Formed s.stepIp! s.stepIp := by
  unfold Stack.stepIp! stepIp
  cases s.mac.crossbar.link? Ethernet.typeIp with
  | none => exact .pure hs
  | some link =>
    have hstation : (⟨s.ip, link, s.table, s.localIp⟩ : Ip.Station).Ready := hs.ip
    refine hstation.step!.map fun t ht => Formed.setMacLink ?_ Ethernet.typeIp t.link
    exact { hs with ip := ht }

/-- The echo service is stepped, if it is there. -/
theorem Formed.stepIcmp! (hs : s.Formed) : Runs Formed s.stepIcmp! s.stepIcmp := by
  unfold Stack.stepIcmp! stepIcmp
  cases hicmp : s.icmp with
  | none => exact .pure hs
  | some echo =>
    cases s.ip.crossbar.link? Icmp.protocol.toUInt16 with
    | none => exact .pure hs
    | some link =>
      have hstation : (⟨echo, link⟩ : Icmp.Station).Formed := hs.icmp echo hicmp
      refine hstation.step!.map fun t ht => Formed.setIpLink ?_ Icmp.protocol t.link
      exact { hs with icmp := fun _ hmem => Option.some.inj hmem ▸ ht }

/-- The UDP layer is stepped, with all its ports. -/
theorem Formed.stepUdp! (hs : s.Formed) : Runs Formed s.stepUdp! s.stepUdp := by
  unfold Stack.stepUdp! stepUdp
  cases s.ip.crossbar.link? Udp.protocol.toUInt16 with
  | none => exact .pure hs
  | some link =>
    have hstation : (⟨s.udp, link⟩ : Udp.Station).Formed := hs.udp
    refine hstation.step!.map fun t ht => Formed.setIpLink ?_ Udp.protocol t.link
    exact { hs with udp := ht }

/-- The client is stepped, if it is there; it may set the address of the stack. -/
theorem Formed.stepDhcp! (hs : s.Formed) : Runs Formed (s.stepDhcp! now) (s.stepDhcp now) := by
  unfold Stack.stepDhcp! stepDhcp
  cases hdhcp : s.dhcp with
  | none => exact .pure hs
  | some client =>
    cases s.udp.user? Dhcp.clientPort with
    | none => exact .pure hs
    | some link =>
      have hstation : (⟨client, link, s.localIp⟩ : Dhcp.Station).Formed := hs.dhcp client hdhcp
      refine hstation.step!.map fun t ht => Formed.setUdpLink ?_ Dhcp.clientPort t.link
      exact { hs with dhcp := fun _ hmem => Option.some.inj hmem ▸ ht }

/-- The endpoint is stepped, if it is there. -/
theorem Formed.stepEtherbone! (hs : s.Formed) : Runs Formed s.stepEtherbone! s.stepEtherbone := by
  unfold Stack.stepEtherbone! stepEtherbone
  cases hetherbone : s.etherbone with
  | none => exact .pure hs
  | some endpoint =>
    dsimp only
    cases s.udp.user? endpoint.port with
    | none => exact .pure hs
    | some link =>
      have hstation : (⟨endpoint, link⟩ : Etherbone.Station).Ready :=
        hs.etherbone endpoint hetherbone
      refine hstation.step!.map fun t ht => Formed.setUdpLink ?_ endpoint.port t.link
      exact { hs with etherbone := fun _ hmem => Option.some.inj hmem ▸ ht }

/-- The streamer is stepped, if it is there. -/
theorem Formed.stepStreamer! (hs : s.Formed) : Runs Formed s.stepStreamer! s.stepStreamer := by
  unfold Stack.stepStreamer! stepStreamer
  cases hstreamer : s.streamer with
  | none => exact .pure hs
  | some streamer =>
    dsimp only
    cases s.udp.user? streamer.port with
    | none => exact .pure hs
    | some link =>
      have hstation : (⟨streamer, link⟩ : Streamer.Station).Formed := hs.streamer streamer hstreamer
      refine hstation.step!.map fun t ht => Formed.setUdpLink ?_ streamer.port t.link
      exact { hs with streamer := fun _ hmem => Option.some.inj hmem ▸ ht }

/-! ## §3. Steps of the stack. -/

/-- The layers from the wire up, each on the pipes that the one before left. -/
def step! (now : Nat) (s : Stack) : Checked (Outcome Stack) :=
  andThen (andThen (andThen (andThen (andThen (andThen (andThen s.stepMac! (stepArp! now)) stepIp!)
    stepIcmp!) stepUdp!) (stepDhcp! now)) stepEtherbone!) stepStreamer!

/-- At most as many steps as the count of them can have. -/
def poll! (now : Nat) (s : Stack) : Checked (Stack × Nat × List Log.Line) := do
  let (s, rounds, log) ← settle (step! now) maxRounds s 0 []
  let busy :=
    if rounds = maxRounds then
      [⟨Log.medium, source, s!"stack still busy after {rounds} rounds"⟩]
    else []
  return (s, rounds, log ++ busy)

/-- **A step of the stack** does not fail, and the next one will not either. -/
theorem Formed.step! (hs : s.Formed) : Runs Formed (s.step! now) (s.step now) :=
  ((((((hs.stepMac!.andThen fun _ hs => hs.stepArp!).andThen fun _ hs => hs.stepIp!).andThen
    fun _ hs => hs.stepIcmp!).andThen fun _ hs => hs.stepUdp!).andThen
    fun _ hs => hs.stepDhcp!).andThen fun _ hs => hs.stepEtherbone!).andThen
    fun _ hs => hs.stepStreamer!

/-- A poll is a number of steps that fits its bits. -/
theorem Formed.poll! (hs : s.Formed) (now : Nat) :
    s.poll! now = .ok (s.poll now) ∧ (s.poll now).1.Formed := by
  have hstep : ∀ s : Stack, s.Formed → Runs Formed (s.step! now) (s.step now) :=
    fun _ hs => hs.step!
  have hbound : 0 + maxRounds < 2 ^ 64 := by decide
  obtain ⟨hok, hkept⟩ := settle_ok hstep maxRounds hbound hs []
  unfold Stack.poll! poll
  rw [hok]
  exact ⟨rfl, hkept⟩

/-! ## §4. The world around a stack. -/

/-- Of all actions only a step computes; the others move items of pipes, or open
and close a port. -/
def act! (s : Stack) : Action → Checked (Stack × Answer)
  | .step now => do
    let o ← s.step! now
    return (o.state, .stepped o.progress o.log)
  | a => return s.act a

/-- What can happen to a stack. -/
inductive Event where
  | act (a : Action)
  /-- Step until nothing moves any more. -/
  | poll (now : Nat)

/-- The stack after an event. -/
def after (s : Stack) : Event → Stack
  | .act a => (s.act a).1
  | .poll now => (s.poll now).1

/-- The stack after an event, if no operation failed. -/
def after! (s : Stack) : Event → Checked Stack
  | .act a => do return (← s.act! a).1
  | .poll now => do return (← s.poll! now).1

/-- Users only move packets into their pipes and out of them. -/
theorem Formed.actUser (hs : s.Formed) (port : UInt16)
    (act : Link Udp.UserPacket → Link Udp.UserPacket × Answer) :
    (s.actUser port act).1.Formed := by
  unfold Stack.actUser
  cases s.udp.user? port with
  | none => exact hs
  | some link => exact hs.setUdpLink port (act link).1

/-- What keeps the streamer formed keeps the stack formed. -/
theorem Formed.actStream (hs : s.Formed) {act : Streamer → Streamer × Answer}
    (hact : ∀ streamer : Streamer, streamer.Formed → (act streamer).1.Formed) :
    (s.actStream act).1.Formed := by
  unfold Stack.actStream
  cases hstreamer : s.streamer with
  | none => exact hs
  | some streamer =>
    have hnext := hact streamer (hs.streamer streamer hstreamer)
    exact { hs with streamer := fun _ hmem => Option.some.inj hmem ▸ hnext }

/-- What the world does keeps the layers formed. -/
theorem Formed.act (hs : s.Formed) (a : Action) : (s.act a).1.Formed := by
  cases a with
  | send bs => exact { hs with mac := ⟨hs.mac.1, hs.mac.2, hs.mac.3, hs.mac.4⟩ }
  | take =>
    unfold Stack.act
    dsimp only
    cases s.mac.wireOut.take with
    | none => exact hs
    | some taken => exact { hs with mac := ⟨hs.mac.1, hs.mac.2, hs.mac.3, hs.mac.4⟩ }
  | openPort port width => exact { hs with udp := Udp.Layer.formed_openPort hs.udp port width }
  | userSend port packet => exact hs.actUser port _
  | userTake port => exact hs.actUser port _
  | abandon port =>
    refine { hs with udp := ?_ }
    show (s.udp.abandon port).Formed
    unfold Udp.Layer.abandon
    cases s.udp.user? port with
    | none => exact hs.udp
    | some user => exact hs.udp.setUser port user.abandon
  | write bs =>
    refine hs.actStream fun streamer hstreamer => ?_
    split
    · exact hstreamer.write bs
    · exact hstreamer
  | read n =>
    refine hs.actStream fun streamer hstreamer => ?_
    split
    · exact ⟨hstreamer.width, hstreamer.opened⟩
    · exact hstreamer
  | step now => exact hs.step!.kept

/-- No event fails, and after each of them the layers are formed. -/
theorem Formed.after! (hs : s.Formed) (e : Event) :
    s.after! e = .ok (s.after e) ∧ (s.after e).Formed := by
  cases e with
  | act a =>
    refine ⟨?_, hs.act a⟩
    cases a with
    | step now =>
      unfold Stack.after! Stack.act!
      dsimp only
      rw [hs.step!.ok]
      rfl
    | _ => rfl
  | poll now =>
    obtain ⟨hok, hkept⟩ := hs.poll! now
    refine ⟨?_, hkept⟩
    unfold Stack.after!
    dsimp only
    rw [hok]
    rfl

/-! ## §5. Construction. -/

/-- If anything is built, it has the property. -/
def Builds {α : Type} (P : α → Prop) (r : Except Fault α) : Prop := ∀ a, r = .ok a → P a

namespace Builds

variable {α β : Type} {P : α → Prop} {Q : β → Prop}

/-- What is made has the property. -/
theorem ok {a : α} (h : P a) : Builds P (.ok a) := fun _ hmade => Except.ok.inj hmade ▸ h

/-- Nothing is made. -/
theorem error (fault : Fault) : Builds P (.error fault) := fun _ hmade => nomatch hmade

/-- What is made of something that has its property. -/
theorem bind {r : Except Fault α} {f : α → Except Fault β} (hr : Builds P r)
    (hf : ∀ a, P a → Builds Q (f a)) : Builds Q (r >>= f) := by
  cases r with
  | error fault => exact .error fault
  | ok a => exact hf a (hr a rfl)

end Builds

/-- A MAC is built on a supported width only. -/
theorem builds_mac (address : MacAddress) (width : Nat) (bareWire : Bool) (gapOctets depth : Nat) :
    Builds (fun mac => mac.Formed ∧ SupportedWidth width)
      (Ethernet.Mac.make? address width bareWire gapOctets depth) := by
  intro mac hmade
  refine ⟨(Ethernet.Mac.formed_make? hmade).1, ?_⟩
  unfold Ethernet.Mac.make? at hmade
  cases hwidth : checkWidth width with
  | error fault =>
    rw [hwidth] at hmade
    cases hmade
  | ok checked => exact (checkWidth_eq_ok_iff.1 hwidth).1

/-- A new subscriber of the MAC changes nothing that a step needs. -/
theorem builds_register {mac : Ethernet.Mac} (hm : mac.Formed) (type : UInt16) :
    Builds (·.1.Formed) (mac.register type) := by
  unfold Ethernet.Mac.register
  cases mac.crossbar.register type with
  | error fault => exact .error fault
  | ok registered => exact .ok ⟨hm.1, hm.2, hm.3, hm.4⟩

/-- A new subscriber of the IP layer changes nothing either. -/
theorem builds_subscribe {l : Ip.Layer} (hl : l.Ready) (protocol : UInt8) :
    Builds (·.1.Ready) (l.register protocol) := by
  unfold Ip.Layer.register
  cases l.crossbar.register protocol.toUInt16 with
  | error fault => exact .error fault
  | ok registered => exact .ok ⟨⟨hl.packetizer, hl.depacketizer⟩, hl.size⟩

/-- The layers below the users, with the bound on requests that the machine's numbers give. -/
theorem builds_core {c : Settings} (hmax : c.arp.maxRequests < 2 ^ (64 : Nat)) :
    Builds (·.1.Formed) (buildCore c) := by
  unfold buildCore
  by_cases hentries : c.arp.entries = 0
  · simp only [if_pos hentries]
    exact .error _
  · simp only [if_neg hentries]
    refine (builds_mac c.mac c.width c.bareWire c.gap c.depth).bind ?_
    rintro mac ⟨hmac, hw⟩
    refine (builds_register hmac Ethernet.typeArp).bind ?_
    rintro ⟨mac, arpLog⟩ hmac
    refine (builds_register hmac Ethernet.typeIp).bind ?_
    rintro ⟨mac, ipLog⟩ hmac
    have hip := Ip.Layer.ready_make hw c.mac c.mtu c.promiscuous c.depth
    have hresolver := Arp.Resolver.formed_make hw hmax c.mac
    have hudp := Udp.Layer.formed_make hw c.depth
    -- a part that is not there yet
    have hnone : ∀ {α : Type} {P : α → Prop}, ∀ a ∈ (none : Option α), P a :=
      fun a hmem => absurd hmem (Option.not_mem_none a)
    cases c.withIcmp with
    | true =>
      have hicmp := Icmp.Echo.formed_make hw c.echoDepth
      refine (builds_subscribe hip Icmp.protocol).bind ?_
      rintro ⟨ip, icmpLog⟩ hip
      refine (builds_subscribe hip Udp.protocol).bind ?_
      rintro ⟨ip, udpLog⟩ hip
      refine .ok ?_
      exact ⟨hmac, hresolver, hip, fun _ hmem => Option.some.inj hmem ▸ hicmp, hudp, hnone, hnone,
        hnone⟩
    | false =>
      simp only [Bool.false_eq_true, if_false, pure_bind]
      refine (builds_subscribe hip Udp.protocol).bind ?_
      rintro ⟨ip, udpLog⟩ hip
      refine .ok ?_
      exact ⟨hmac, hresolver, hip, hnone, hudp, hnone, hnone, hnone⟩

section Parts

/-! What holds of the layers that every board has, and stays so when a port is
opened or a part is added, holds of every stack that is built. -/

variable {c : Settings} {P : Stack → Prop}
  (hopen : ∀ (s : Stack) (port : UInt16) (width : Nat), P s → P (s.openPort port width).1)

include hopen

/-- A port that the stack opens for itself. -/
theorem builds_openOwn (hs : P s) (port : UInt16) (width : Nat) :
    Builds (fun made => P made.1) (s.openOwn port width) := by
  have hopened := hopen s port width hs
  unfold openOwn
  cases hmade : s.openPort port width with
  | mk opened rest =>
    obtain ⟨fault, log⟩ := rest
    rw [hmade] at hopened
    cases fault with
    | none => exact .ok hopened
    | some fault => exact .error fault

/-- With the client, if no address is set. -/
theorem builds_dhcp (hs : P s)
    (hadd : ∀ (s : Stack) (client : Dhcp.Client), P s →
      Dhcp.Client.make? c.mac Dhcp.Client.portWidth c.dhcpTimeout c.dhcpRetry = .ok client →
      P { s with dhcp := some client }) :
    Builds (fun made => P made.1) (addDhcp c s) := by
  unfold addDhcp
  cases c.ip.isSome with
  | true => exact .ok hs
  | false =>
    refine (builds_openOwn hopen hs _ _).bind fun opened hs => ?_
    refine Builds.bind (fun _ hmade => hmade) fun client hmade => ?_
    exact .ok (hadd _ client hs hmade)

/-- With the endpoint, if there is to be one. -/
theorem builds_etherbone (hs : P s)
    (hadd : ∀ (s : Stack) (p : Etherbone.Parameters) (endpoint : Etherbone.Endpoint), P s →
      Etherbone.Endpoint.make? p.port Etherbone.busWidth (.make p.base p.size) p.bufferDepth =
        .ok endpoint →
      P { s with etherbone := some endpoint }) :
    Builds (fun made => P made.1) (addEtherbone c s) := by
  unfold addEtherbone
  cases c.etherbone with
  | none => exact .ok hs
  | some p =>
    refine (builds_openOwn hopen hs _ _).bind fun opened hs => ?_
    refine Builds.bind (fun _ hmade => hmade) fun endpoint hmade => ?_
    exact .ok (hadd _ p endpoint hs hmade)

/-- With the streamer, if there is to be one. -/
theorem builds_streamer (hs : P s)
    (hadd : ∀ (s : Stack) (p : Streamer.Parameters) (made : Streamer × List Log.Line), P s →
      Streamer.make? 1 p = .ok made → P { s with streamer := some made.1 }) :
    Builds (fun made => P made.1) (addStreamer c s) := by
  unfold addStreamer
  cases c.streamer with
  | none => exact .ok hs
  | some p =>
    refine (builds_openOwn hopen hs _ _).bind fun opened hs => ?_
    refine Builds.bind (fun _ hmade => hmade) fun made hmade => ?_
    exact .ok (hadd _ p made hs hmade)

/-- The whole stack, from the layers of every board and each of the parts. -/
theorem builds_kept (hcore : Builds (fun made => P made.1) (buildCore c))
    (hdhcp : ∀ (s : Stack) (client : Dhcp.Client), P s →
      Dhcp.Client.make? c.mac Dhcp.Client.portWidth c.dhcpTimeout c.dhcpRetry = .ok client →
      P { s with dhcp := some client })
    (hetherbone : ∀ (s : Stack) (p : Etherbone.Parameters) (endpoint : Etherbone.Endpoint), P s →
      Etherbone.Endpoint.make? p.port Etherbone.busWidth (.make p.base p.size) p.bufferDepth =
        .ok endpoint →
      P { s with etherbone := some endpoint })
    (hstreamer : ∀ (s : Stack) (p : Streamer.Parameters) (made : Streamer × List Log.Line), P s →
      Streamer.make? 1 p = .ok made → P { s with streamer := some made.1 }) :
    Builds (fun made => P made.1) (build c) := by
  unfold build
  refine hcore.bind fun made hs => ?_
  refine (builds_dhcp hopen hs hdhcp).bind fun made hs => ?_
  refine (builds_etherbone hopen hs hetherbone).bind fun made hs => ?_
  refine (builds_streamer hopen hs hstreamer).bind fun made hs => ?_
  exact .ok hs

end Parts

/-- Every stack that is built is formed. -/
theorem formed_build {c : Settings} (hmax : c.arp.maxRequests < 2 ^ (64 : Nat))
    {built : Stack × List Log.Line} (h : build c = .ok built) : built.1.Formed := by
  refine (?_ : Builds (·.1.Formed) (build c)) built h
  refine builds_kept ?_ (builds_core hmax) ?_ ?_ ?_
  · exact fun s port width hs => { hs with udp := Udp.Layer.formed_openPort hs.udp port width }
  · intro s client hs hmade
    have hclient := Dhcp.Client.formed_make? hmade
    exact { hs with dhcp := fun _ hmem => Option.some.inj hmem ▸ hclient }
  · intro s p endpoint hs hmade
    have hendpoint := Etherbone.Endpoint.ready_make? hmade
    exact { hs with etherbone := fun _ hmem => Option.some.inj hmem ▸ hendpoint }
  · intro s p made hs hmade
    have hstreamer := Streamer.formed_make? (Or.inl rfl) hmade
    exact { hs with streamer := fun _ hmem => Option.some.inj hmem ▸ hstreamer }

/-! ## §6. Every run. -/

/-- **Nothing stops a board.**  Whatever happens to a stack that could be built,
no operation of any layer fails: the checked code reaches the same stack as the
plain one.  The bound on `maxRequests` is that of the machine's numbers; nothing
is asked of the other settings, or of times. -/
theorem no_operation_fails {c : Settings} (hmax : c.arp.maxRequests < 2 ^ (64 : Nat))
    {built : Stack × List Log.Line} (h : build c = .ok built) (events : List Event) :
    events.foldlM after! built.1 = .ok (events.foldl after built.1) :=
  (foldlM_ok (P := Formed) (fun e _ _ hs => hs.after! e) (formed_build hmax h)).1

/-- Frames without a whole header, an IP datagram and a UDP datagram that state
less than their own headers, and a user whose beats go on behind the end of the packet. -/
theorem no_operation_fails_malformed :
    let c : Settings := { ip := none, etherbone := some { size := 16 }, streamer := some {} }
    let ethernet : Bytes := [255, 255, 255, 255, 255, 255, 2, 0, 0, 0, 0, 1, 8, 0]
    let shortIp : Bytes :=
      [69, 0, 0, 19, 0, 0, 0, 0, 64, 17, 184, 206, 192, 168, 1, 100, 255, 255, 255, 255]
    let shortUdp : Bytes :=
      [69, 0, 0, 28, 0, 0, 0, 0, 64, 17, 184, 197, 192, 168, 1, 100, 255, 255, 255, 255] ++
        [0, 67, 0, 68, 0, 7, 0, 0]
    let ragged : Udp.UserPacket :=
      { ip := ⟨192, 168, 1, 255⟩, srcPort := 7, dstPort := 9, length := 5
        data := [⟨0x04030201, false, 0⟩, ⟨0x08070605, true, 255⟩, ⟨0x0c0b0a09, true, 8⟩] }
    let events : List Event :=
      [.act (.send []), .act (.send [1, 2, 3]), .act (.send (ethernet ++ shortIp)),
       .act (.send (ethernet ++ shortUdp)), .act (.openPort 7 4), .act (.userSend 7 ragged),
       .act (.step 0), .poll 1, .act .take, .act (.userTake 7), .poll 2000]
    c.arp.maxRequests < 2 ^ (64 : Nat) ∧ ∃ built, build c = .ok built ∧
      events.foldlM after! built.1 = .ok (events.foldl after built.1) ∧
      let stats := (events.foldl after built.1).stats
      (stats.mac.truncated, stats.ip.invalid, stats.udp.invalid, stats.udp.txDatagrams) =
        (2, 1, 1, 2) := by
  intro c ethernet shortIp shortUdp ragged events
  have hmax : c.arp.maxRequests < 2 ^ 64 := by decide
  have hstats : ((build c).toOption.map fun built =>
      let stats := (events.foldl after built.1).stats
      (stats.mac.truncated, stats.ip.invalid, stats.udp.invalid, stats.udp.txDatagrams)) =
        some (2, 1, 1, 2) := by
    decide +kernel
  cases hbuilt : build c with
  | error fault =>
    rw [hbuilt] at hstats
    cases hstats
  | ok built =>
    rw [hbuilt] at hstats
    exact ⟨hmax, built, rfl, no_operation_fails hmax hbuilt events, Option.some.inj hstats⟩

end Stack
end NetBoard
