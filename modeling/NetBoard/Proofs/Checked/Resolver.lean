/-
  NetBoard.Proofs.Checked.Resolver
  ────────────────────────────────
  **ADDRESS RESOLUTION, CHECKED.**

  The slot that is overwritten next is one of the cache, and a resolver asks
  again only while it has asked less often than its parameters allow, so that
  the count of its requests fits the bits of their bound.  A frame or an answer
  is made only while the hold for it is free.

  Main definitions:

      Resolver.Formed       — stages, cache and count of a resolver are as made

  Main statements:

      Cache.insert!_eq      — a mapping finds a slot
      Station.Formed.step!  — a step, whatever frames and lookups come
-/
import NetBoard.Proofs.Checked.Stages
import NetBoard.Proofs.Arp.Cache
import NetBoard.Proofs.Arp.Lookups
import NetBoard.Proofs.Arp.Message

namespace NetBoard.Arp

open scoped Power

open Checked

/-! ## §1. The cache. -/

namespace Cache

/-- The slot that a mapping takes, and the one whose turn is next. -/
def place! (c : Cache) (ip : Ipv4) : Checked (Nat × Nat) := do
  match c.slots.findIdx? (holds ip) with
  | some i => return (i, c.next)
  | none =>
    match c.slots.findIdx? (·.isNone) with
    | some i => return (i, c.next)
    | none => return (c.next, ← rem (c.next + 1) c.slots.length)

/-- The slot is looked up before it is overwritten. -/
def insert! (c : Cache) (ip : Ipv4) (mac : MacAddress) (now : Nat) : Checked Cache := do
  let (i, next) ← c.place! ip
  discard (index c.slots i)
  return { c with slots := c.slots.set i (some ⟨ip, mac, now⟩), next }

/-- A mapping takes its own slot, a free one, or the one whose turn is next. -/
theorem insert!_eq {c : Cache} (hnext : c.next < c.slots.length) (ip : Ipv4) (mac : MacAddress)
    (now : Nat) : c.insert! ip mac now = .ok (c.insert ip mac now) := by
  have hfound : ∀ {p : Option Entry → Bool} {i : Nat}, c.slots.findIdx? p = some i →
      ∃ slot, index c.slots i = .ok slot := by
    intro p i hi
    obtain ⟨hlt, -⟩ := List.findIdx?_eq_some_iff_getElem.1 hi
    exact ⟨_, index_ok (List.getElem?_eq_getElem hlt)⟩
  unfold insert! place! insert
  cases hown : c.slots.findIdx? (holds ip) with
  | some i =>
    obtain ⟨slot, hslot⟩ := hfound hown
    simp only [pure_bind, hslot]
    rfl
  | none =>
    dsimp only
    cases hfree : c.slots.findIdx? (·.isNone) with
    | some i =>
      obtain ⟨slot, hslot⟩ := hfound hfree
      simp only [pure_bind, hslot]
      rfl
    | none =>
      simp only [rem_ok (show c.slots.length ≠ 0 by omega), ok_bind, pure_bind,
        index_ok (List.getElem?_eq_getElem hnext)]
      rfl

end Cache

/-! ## §2. Messages. -/

/-- No field of the header lies outside of it, or is too wide for the machine. -/
theorem header_proper : header.Proper := by decide

/-- The requests that the phase is about to send without asking again whether
it may. -/
def Phase.asks : Phase → Nat
  | checkTable => 1
  | sendRequest => 1
  | _ => 0

namespace Resolver

/-- What one frame holds: a message for this station, or nothing. -/
def hear! (r : Resolver) (localIp : Ipv4) (frame : Ethernet.Frame) :
    Checked (Resolver × Option Message × List Log.Line) := do
  let (depacketizer, packet) ← r.depacketizer.depacketize! frame.payload
  let r := { r with depacketizer }
  let invalid := { r with stats := { r.stats with invalid := r.stats.invalid + 1 } }
  match packet with
  | none => return (invalid, none, [])
  | some (values, _) =>
    match (Message.ofFields? values).filter (·.targetIp == localIp) with
    | none =>
      let target := values.ip "target_ip"
      return (invalid, none, [⟨Log.extensive, source, s!"ignoring packet for {target.text}"⟩])
    | some message =>
      let stats := match message.operation with
        | .request => { r.stats with rxRequests := r.stats.rxRequests + 1 }
        | .reply => { r.stats with rxReplies := r.stats.rxReplies + 1 }
      return ({ r with stats }, some message, [])

/-- A message in a frame, with zeros up to the shortest payload. -/
def compose! (r : Resolver) (localIp : Ipv4) (operation : Operation) (mac : MacAddress)
    (ip : Ipv4) : Checked (Resolver × Ethernet.Frame × List Log.Line) := do
  let message : Message :=
    { operation, senderMac := r.mac, senderIp := localIp, targetMac := mac, targetIp := ip }
  let (packetizer, bs) ← r.packetizer.packetize! message.fields []
  let payload := bs ++ List.replicate (Ethernet.minPayloadLength - bs.length) 0
  return ({ r with packetizer },
    { target := mac, sender := r.mac, type := Ethernet.typeArp, payload },
    [⟨Log.high, source, s!"sending {operation.name} for {ip.text} to {mac.text}"⟩])

/-- Stages, cache and count are as they were made, and as every step leaves them. -/
structure Formed (r : Resolver) : Prop where
  packetizer : r.packetizer.Writes header
  depacketizer : r.depacketizer.Reads header
  slot : r.cache.next < r.cache.slots.length
  /-- A lookup is asked for once at least. -/
  requests : r.requests + r.phase.asks ≤ max 1 r.parameters.maxRequests
  bound : r.parameters.maxRequests < 2 ^ (64 : Nat)

/-- So is a resolver that has not been asked yet. -/
theorem formed_make {width : Nat} (hw : SupportedWidth width) {parameters : Parameters}
    (hbound : parameters.maxRequests < 2 ^ (64 : Nat)) (mac : MacAddress) :
    (make mac parameters width).Formed where
  packetizer := ⟨rfl, hw⟩
  depacketizer := ⟨rfl, hw⟩
  slot := by
    show 0 < (List.replicate (max parameters.entries 1) none).length
    rw [List.length_replicate]
    omega
  requests := Nat.zero_le _
  bound := hbound

variable {r : Resolver}

/-- Any frame is heard, whatever is in it. -/
theorem Formed.hear! (hr : r.Formed) (localIp : Ipv4) (frame : Ethernet.Frame) :
    r.hear! localIp frame = .ok (r.hear localIp frame) ∧ (r.hear localIp frame).1.Formed := by
  have hnext := hr.depacketizer.next (by decide) frame.payload
  unfold Resolver.hear! Resolver.hear
  rw [hr.depacketizer.depacketize!_eq header_proper, ok_bind]
  dsimp only
  cases (r.depacketizer.depacketize frame.payload).2 with
  | none => exact ⟨rfl, ⟨hr.packetizer, hnext, hr.slot, hr.requests, hr.bound⟩⟩
  | some packet =>
    dsimp only
    cases (Message.ofFields? packet.1).filter (·.targetIp == localIp) with
    | none => exact ⟨rfl, ⟨hr.packetizer, hnext, hr.slot, hr.requests, hr.bound⟩⟩
    | some message => exact ⟨rfl, ⟨hr.packetizer, hnext, hr.slot, hr.requests, hr.bound⟩⟩

/-- Any message is sent, to any target. -/
theorem Formed.compose! (hr : r.Formed) (localIp : Ipv4) (operation : Operation)
    (mac : MacAddress) (ip : Ipv4) :
    r.compose! localIp operation mac ip = .ok (r.compose localIp operation mac ip) := by
  rw [Resolver.compose!, hr.packetizer.packetize!_eq header_proper]
  rfl

end Resolver

/-! ## §3. Transitions. -/

namespace Station

/-- The frame is put into its hold, which must be free. -/
def send! (s : Station) (operation : Operation) (mac : MacAddress) (ip : Ipv4) :
    Checked (Station × List Log.Line) := do
  let (resolver, frame, log) ← s.resolver.compose! s.localIp operation mac ip
  let (heldFrame, outbound) ← Checked.send resolver.heldFrame frame s.link.outbound
  return ({ s with resolver := { resolver with heldFrame }, link := { s.link with outbound } }, log)

/-- What a resolver does in its phase; none while it has to wait. -/
def transition! (now : Nat) (event : Option Message) (s : Station) :
    Checked (Option (Station × Phase × List Log.Line)) := do
  let r := s.resolver
  match r.phase with
  | .idle => return s.leaveIdle now event
  | .sendReply ip mac =>
    if r.heldFrame.isSome then return none
    else
      let (s, log) ← s.send! .reply mac ip
      let stats := { s.resolver.stats with txReplies := s.resolver.stats.txReplies + 1 }
      return some ({ s with resolver := { s.resolver with stats } }, .idle, log)
  | .checkRequest ip mac =>
    return some (s, if ip = r.target then .updateTable ip mac else .idle, [])
  | .updateTable ip mac =>
    let stats := { r.stats with resolved := r.stats.resolved + 1 }
    let cache ← r.cache.insert! ip mac now
    return some
      ({ s with resolver := { r.settle with cache, stats } }, .presentResponse ⟨ip, some mac⟩, [])
  | .checkTable =>
    let (cache, mac) := r.cache.lookup r.target now
    let s := { s with resolver := { r with cache } }
    match mac with
    | some mac => return some (s, .presentResponse ⟨r.target, some mac⟩, [])
    | none => return some (s, .sendRequest, [])
  | .sendRequest =>
    if r.heldFrame.isSome then return none
    else
      let (s, log) ← s.send! .request .broadcast r.target
      let r := s.resolver
      let stats := { r.stats with txRequests := r.stats.txRequests + 1 }
      let deadline := some (now + r.parameters.timeout)
      let requests ← add 64 r.requests 1
      return some ({ s with resolver := { r with requests, deadline, stats } }, .idle, log)
  | .presentResponse answer =>
    if r.heldAnswer.isSome then return none
    else
      let (heldAnswer, answers) ← Checked.send r.heldAnswer answer s.table.answers
      return some
        ({ s with resolver := { r with heldAnswer }, table := { s.table with answers } }, .idle, [])

/-- A transition, with the line that says so. -/
def turn! (now : Nat) (event : Option Message) (s : Station) : Checked (Outcome Station) := do
  match ← s.transition! now event with
  | none => return .idle s
  | some (next, phase, log) =>
    let before := s.resolver.phase
    let change :=
      if phase = before then []
      else [⟨Log.extensive, Resolver.source, s!"table {before.text} -> {phase.text}"⟩]
    return .moved { next with resolver := { next.resolver with phase } } (log ++ change)

variable {s t : Station} {now : Nat} {event : Option Message}

/-- The resolver of the station is formed. -/
abbrev Formed (s : Station) : Prop := s.resolver.Formed

/-- With a free hold any message is sent. -/
theorem Formed.send! (hs : s.Formed) (hfree : s.resolver.heldFrame = none) (operation : Operation)
    (mac : MacAddress) (ip : Ipv4) :
    s.send! operation mac ip = .ok (s.send operation mac ip) ∧
      (s.send operation mac ip).1.Formed := by
  have hnext := hs.packetizer.next header_sound
    (Message.fields ⟨operation, s.resolver.mac, s.localIp, mac, ip⟩) []
  have hheld : (s.resolver.compose s.localIp operation mac ip).1.heldFrame = none := hfree
  unfold Station.send! Station.send
  rw [hs.compose!, ok_bind]
  dsimp only
  rw [send_ok hheld]
  exact ⟨rfl, ⟨hnext, hs.depacketizer, hs.slot, hs.requests, hs.bound⟩⟩

/-- Another phase that does not ask. -/
theorem Formed.enter (hs : s.Formed) {phase : Phase} (hphase : phase.asks = 0) :
    (s.enter phase).Formed :=
  ⟨hs.packetizer, hs.depacketizer, hs.slot,
    hphase ▸ Nat.le_trans (Nat.le_add_right _ _) hs.requests, hs.bound⟩

/-- Whatever transition the machine makes, it asks again only while it may. -/
theorem Transition.formed {phase : Phase} {log : List Log.Line} (hs : s.Formed)
    (ht : Transition now s event t phase log) : (t.enter phase).Formed := by
  have hcount := hs.requests
  have hfewer : s.resolver.requests ≤ max 1 s.resolver.parameters.maxRequests :=
    Nat.le_trans (Nat.le_add_right _ _) hcount
  cases ht with
  | told | heard | ignored | matched | mismatched => exact hs.enter rfl
  | gaveUp => exact ⟨hs.packetizer, hs.depacketizer, hs.slot, Nat.zero_le _, hs.bound⟩
  | retried deadline _ _ _ hmore =>
    -- below the bound by the guard, so the request that follows reaches it at most
    refine ⟨hs.packetizer, hs.depacketizer, hs.slot, ?_, hs.bound⟩
    show s.resolver.requests + 1 ≤ max 1 s.resolver.parameters.maxRequests
    omega
  | took => exact ⟨hs.packetizer, hs.depacketizer, hs.slot, Nat.le_max_left _ _, hs.bound⟩
  | replied _ ip mac _ hslot =>
    obtain ⟨-, hsent⟩ := hs.send! hslot .reply mac ip
    exact ⟨hsent.packetizer, hsent.depacketizer, hsent.slot, hfewer, hsent.bound⟩
  | learned _ ip mac _ =>
    exact ⟨hs.packetizer, hs.depacketizer, (Cache.insertion _ ip mac now).next hs.slot,
      Nat.zero_le _, hs.bound⟩
  | remembered =>
    exact ⟨hs.packetizer, hs.depacketizer, Cache.next_expire hs.slot now, hfewer, hs.bound⟩
  | missed _ hphase =>
    rw [hphase] at hcount
    exact ⟨hs.packetizer, hs.depacketizer, Cache.next_expire hs.slot now, hcount, hs.bound⟩
  | asked _ hphase hslot =>
    rw [hphase] at hcount
    obtain ⟨-, hsent⟩ := hs.send! hslot .request .broadcast s.resolver.target
    exact ⟨hsent.packetizer, hsent.depacketizer, hsent.slot, hcount, hsent.bound⟩
  | presented => exact ⟨hs.packetizer, hs.depacketizer, hs.slot, hfewer, hs.bound⟩

/-- The count of requests leaves room for the one that is about to be sent. -/
theorem Formed.requests_lt (hs : s.Formed) (hphase : s.resolver.phase = .sendRequest) :
    s.resolver.requests + 1 < 2 ^ (64 : Nat) := by
  have hcount := hs.requests
  have hbound := hs.bound
  rw [hphase] at hcount
  replace hcount : s.resolver.requests + 1 ≤ _ := hcount
  omega

/-- No message stops the machine, in whatever phase it is. -/
theorem Formed.transition! (hs : s.Formed) (now : Nat) (event : Option Message) :
    s.transition! now event = .ok (s.transition now event) := by
  unfold Station.transition! transition
  dsimp only
  cases hphase : s.resolver.phase with
  | idle | checkRequest _ _ => rfl
  | sendReply ip mac =>
    dsimp only
    by_cases hheld : s.resolver.heldFrame.isSome = true
    · rw [if_pos hheld, if_pos hheld]
      rfl
    · obtain ⟨hok, -⟩ := hs.send! (Option.not_isSome_iff_eq_none.1 hheld) .reply mac ip
      rw [if_neg hheld, if_neg hheld, hok]
      rfl
  | updateTable ip mac =>
    dsimp only
    rw [Cache.insert!_eq hs.slot]
    rfl
  | checkTable =>
    dsimp only
    cases (s.resolver.cache.lookup s.resolver.target now).2 <;> rfl
  | sendRequest =>
    dsimp only
    by_cases hheld : s.resolver.heldFrame.isSome = true
    · rw [if_pos hheld, if_pos hheld]
      rfl
    · obtain ⟨hok, -⟩ := hs.send! (Option.not_isSome_iff_eq_none.1 hheld) .request .broadcast
        s.resolver.target
      have hfits : (s.send .request .broadcast s.resolver.target).1.resolver.requests + 1 < 2 ^ 64 :=
        hs.requests_lt hphase
      rw [if_neg hheld, if_neg hheld, hok, ok_bind, add_ok hfits]
      rfl
  | presentResponse answer =>
    dsimp only
    by_cases hheld : s.resolver.heldAnswer.isSome = true
    · rw [if_pos hheld, if_pos hheld]
      rfl
    · rw [if_neg hheld, if_neg hheld, send_ok (Option.not_isSome_iff_eq_none.1 hheld)]
      rfl

/-- Waiting or not, the resolver stays formed. -/
theorem Formed.turn! (hs : s.Formed) : Runs Formed (s.turn! now event) (s.turn now event) := by
  unfold Station.turn! turn
  rw [hs.transition! now event, ok_bind]
  cases hmove : s.transition now event with
  | none => exact .pure hs
  | some move =>
    obtain ⟨next, phase, log⟩ := move
    exact .pure ((transition_eq_some_iff.1 hmove).formed hs)

/-! ## §4. Steps. -/

/-- A message that finds the resolver busy is counted and dropped. -/
def hearFrame! (s : Station) (frame : Ethernet.Frame) :
    Checked (Station × Option Message × List Log.Line) := do
  let (resolver, message, log) ← s.resolver.hear! s.localIp frame
  match message with
  | none => return ({ s with resolver }, none, log)
  | some m =>
    if resolver.phase = .idle then return ({ s with resolver }, some m, log)
    else
      let stats := { resolver.stats with droppedBusy := resolver.stats.droppedBusy + 1 }
      return ({ s with resolver := { resolver with stats } }, none,
        log ++ [⟨Log.medium, Resolver.source,
          s!"table busy, packet from {m.senderIp.text} dropped"⟩])

/-- What is held goes first; then comes a frame, if there is one, and a transition. -/
def step! (now : Nat) (s : Station) : Checked (Outcome Station) :=
  andThen (return s.flushHeld) fun s => do
    match s.link.inbound.take with
    | none => s.turn! now none
    | some (frame, inbound) =>
      let (s, event, log) ← { s with link := { s.link with inbound } }.hearFrame! frame
      andThen (return .moved s log) (turn! now event)

/-- Any frame is heard, busy or not. -/
theorem Formed.hearFrame! (hs : s.Formed) (frame : Ethernet.Frame) :
    s.hearFrame! frame = .ok (s.hearFrame frame) ∧ (s.hearFrame frame).1.Formed := by
  obtain ⟨hok, hheard⟩ := hs.hear! s.localIp frame
  unfold Station.hearFrame! hearFrame
  rw [hok, ok_bind]
  cases hhear : s.resolver.hear s.localIp frame with
  | mk resolver rest =>
    obtain ⟨message, log⟩ := rest
    rw [hhear] at hheard
    cases message with
    | none => exact ⟨rfl, hheard⟩
    | some m =>
      dsimp only
      split
      · exact ⟨rfl, hheard⟩
      · exact ⟨rfl, ⟨hheard.packetizer, hheard.depacketizer, hheard.slot, hheard.requests,
          hheard.bound⟩⟩

/-- No frame, no lookup and no time stops a resolver. -/
theorem Formed.step! (hs : s.Formed) : Runs Formed (s.step! now) (s.step now) := by
  have hflushed : Runs Formed (.ok s.flushHeld) s.flushHeld :=
    .pure ⟨hs.packetizer, hs.depacketizer, hs.slot, hs.requests, hs.bound⟩
  refine hflushed.andThen fun s hs => ?_
  cases s.link.inbound.take with
  | none => exact hs.turn!
  | some taken =>
    obtain ⟨frame, inbound⟩ := taken
    let next : Station := { s with link := { s.link with inbound } }
    have hnext : next.Formed := hs
    obtain ⟨hok, hheard⟩ := hnext.hearFrame! frame
    show Runs Formed (next.hearFrame! frame >>= _) _
    rw [hok, ok_bind]
    dsimp only
    cases hhear : next.hearFrame frame with
    | mk t rest =>
      obtain ⟨event, log⟩ := rest
      rw [hhear] at hheard
      exact (Runs.pure hheard : Runs Formed (.ok (.moved t log)) _).andThen fun _ hs => hs.turn!

end Station

end NetBoard.Arp
