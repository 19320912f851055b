/-
  NetBoard.Proofs.Arp.Provenance
  ──────────────────────────────
  **NOTHING UNASKED ENTERS THE CACHE.**

  Between the reply that confirms a mapping and the slot that holds it lie two
  phases of the machine, in which other frames arrive.  The invariant follows
  the mapping through them: a reply that is being checked was heard while the
  machine was idle and a request was outstanding, for the address that is
  still the target; once it matches, the mapping is confirmed.  Whoever asked
  an idle machine is, in the same way, followed to the one reply it is sent.

  Main definitions:

      Chronicle           — a history with all frames taken and sent
      Chronicle.Confirmed — a mapping that an awaited reply has stated
      Chronicle.Vouched   — the invariant

  Main statements:

      next_vouched      — every event keeps it
      run_vouched       — so it holds in every run
      unpoisoned        — what it says of cache, answers, replies and counters
-/
import NetBoard.Proofs.Arp.Transitions

namespace NetBoard.Arp

/-! ## §1. Confirmed mappings. -/

namespace Reception

variable (width : Nat) (r : Reception)

/-- The frame is a reply for the station, which was idle: the sender says that it
has this address. -/
structure States (ip : Ipv4) (mac : MacAddress) : Prop where
  header : ∃ values, header? width r.frame = some values ∧
    values.get "hwtype" = 1 ∧ values.get "proto" = 0x0800 ∧ values.get "hwsize" = 6 ∧
    values.get "protosize" = 4 ∧ values.get "opcode" = 2 ∧
    values.ip "sender_ip" = ip ∧ values.mac "sender_mac" = mac ∧
    values.ip "target_ip" = r.localIp
  idle : r.phase = .idle

/-- The station that is to be answered. -/
def asker? : Option (Ipv4 × MacAddress) := (r.event? width).bind Message.asker?

/-- The message that brings an idle machine a reply states a mapping. -/
theorem states_of_event {m : Message} (hm : r.event? width = some m)
    (hreply : m.operation = .reply) : r.States width m.senderIp m.senderMac := by
  unfold event? at hm
  split at hm
  · next hidle =>
    unfold message? at hm
    rw [Option.filter_eq_some_iff] at hm
    obtain ⟨hread, hlocal⟩ := hm
    obtain ⟨values, hvalues, hfields⟩ := Option.bind_eq_some_iff.1 hread
    obtain ⟨hwtype, hproto, hhwsize, hprotosize, hopcode, hmac, hip, -, htarget⟩ :=
      Message.ofFields?_eq_some hfields
    rw [hreply] at hopcode
    exact ⟨⟨values, hvalues, hwtype, hproto, hhwsize, hprotosize, hopcode, hip, hmac,
      htarget.trans (beq_iff_eq.1 hlocal)⟩, hidle⟩
  · cases hm

/-- One counter is moved by each frame. -/
theorem tally_eq :
    (r.tally width).invalid = [r].countP (fun r => r.message? width = none) ∧
      (r.tally width).requests =
        [r].countP (fun r => (r.message? width).any (·.operation = .request)) ∧
      (r.tally width).replies =
        [r].countP (fun r => (r.message? width).any (·.operation = .reply)) := by
  unfold Reception.tally Tally.ofMessage
  cases hm : r.message? width with
  | none => simp [hm]
  | some m =>
    cases hoperation : m.operation with
    | request => simp [hm, hoperation]
    | reply => simp [hm, hoperation]

end Reception

/-! ## §2. Taking a frame. -/

namespace Station

/-- The station `s` takes the frame that is there, if any: it becomes `u`, and
the machine has this message. -/
structure Hears (width : Nat) (s u : Station) (event : Option Message) : Prop where
  built : ∀ mac, s.Built width mac → u.Built width mac
  phase : u.resolver.phase = s.resolver.phase
  target : u.resolver.target = s.resolver.target
  deadline : u.resolver.deadline = s.resolver.deadline
  cache : u.resolver.cache = s.resolver.cache
  pending : ∀ a ∈ u.pending, a ∈ s.pending
  closed : u.link.outbound.closed = s.link.outbound.closed
  outgoing : u.outgoing <+: s.outgoing
  opened : s.link.outbound.closed = false → u.outgoing = s.outgoing
  busy : s.resolver.phase ≠ .idle → event = none
  asker : (event.bind Message.asker?).toList = s.reception.toList.filterMap (·.asker? width)
  reply : ∀ m, event = some m → m.operation = .reply →
    ∃ r, s.reception = some r ∧ r.States width m.senderIp m.senderMac
  invalid : u.resolver.stats.invalid = s.resolver.stats.invalid +
    s.reception.toList.countP fun r => r.message? width = none
  rxRequests : u.resolver.stats.rxRequests = s.resolver.stats.rxRequests +
    s.reception.toList.countP fun r => (r.message? width).any (·.operation = .request)
  rxReplies : u.resolver.stats.rxReplies = s.resolver.stats.rxReplies +
    s.reception.toList.countP fun r => (r.message? width).any (·.operation = .reply)
  txRequests : u.resolver.stats.txRequests = s.resolver.stats.txRequests

variable {width : Nat} {mac : MacAddress} {s : Station}

theorem listen_hears (hb : s.Built width mac) : Hears width s s.listen.1 s.listen.2 := by
  have hpending : ∀ a ∈ s.flushHeld.state.pending, a ∈ s.pending := by
    intro a ha
    rcases List.mem_append.1 ha with hflushed | hpresented
    · exact List.mem_append_left _ ((flush_initial _ _).subset hflushed)
    · exact List.mem_append_right _ hpresented
  have hclosed : s.flushHeld.state.link.outbound.closed = s.link.outbound.closed :=
    closed_flush _ _
  have hprefix : s.flushHeld.state.outgoing <+: s.outgoing := flush_initial _ _
  have hopened : s.link.outbound.closed = false → s.flushHeld.state.outgoing = s.outgoing :=
    fun hopen => (flush_items hopen _).1
  cases hr : s.reception with
  | none =>
    rw [listen_of_none hr]
    exact
      { built := fun _ hb => ⟨hb.mac, hb.writes, hb.reads⟩
        phase := rfl
        target := rfl
        deadline := rfl
        cache := rfl
        pending := hpending
        closed := hclosed
        outgoing := hprefix
        opened := hopened
        busy := fun _ => rfl
        asker := by
          rw [hr]
          rfl
        reply := nofun
        invalid := by
          rw [hr]
          rfl
        rxRequests := by
          rw [hr]
          rfl
        rxReplies := by
          rw [hr]
          rfl
        txRequests := rfl }
  | some r =>
    obtain ⟨depacketizer, hreset, hlisten⟩ := listen_eq hb hr
    obtain ⟨hinvalid, hrequests, hreplies⟩ := r.tally_eq width
    have hphase : r.phase = s.resolver.phase := by
      obtain ⟨frame, -, rfl⟩ := Option.map_eq_some_iff.1 hr
      rfl
    rw [hlisten]
    exact
      { built := fun _ hb => ⟨hb.mac, hb.writes, hreset.trans hb.reads⟩
        phase := rfl
        target := rfl
        deadline := rfl
        cache := rfl
        pending := hpending
        closed := hclosed
        outgoing := hprefix
        opened := hopened
        busy := by
          intro hbusy
          exact if_neg (hphase ▸ hbusy)
        asker := by
          rw [hr, Option.toList_some, List.filterMap_cons]
          show (r.asker? width).toList = _
          cases r.asker? width <;> rfl
        reply := fun m hm hreply => ⟨r, hr, r.states_of_event width hm hreply⟩
        invalid := by
          rw [hr, Option.toList_some, ← hinvalid]
          rfl
        rxRequests := by
          rw [hr, Option.toList_some, ← hrequests]
          rfl
        rxReplies := by
          rw [hr, Option.toList_some, ← hreplies]
          rfl
        txRequests := rfl }

end Station

/-! ## §3. Chronicles. -/

/-- What can happen to a resolver, the departure of its neighbours included. -/
inductive Happening where
  | usual (event : Event)
  | askerGone
  | macGone
  deriving Repr, DecidableEq

/-- The time of a step. -/
def Happening.time? : Happening → Option Nat
  | .usual (.step now) => some now
  | _ => none

theorem Happening.eq_step {happening : Happening} {now : Nat} (h : happening.time? = some now) :
    happening = .usual (.step now) := by
  cases happening with
  | usual event =>
    cases event with
    | step time =>
      cases h
      rfl
    | _ => cases h
  | _ => cases h

/-- A history with the frames that were taken, and those the MAC was given. -/
structure Chronicle extends History where
  heard : List Reception := []
  collected : List Ethernet.Frame := []

namespace Chronicle

/-- What one event does. -/
def next (c : Chronicle) (happening : Happening) : Chronicle :=
  let s := c.station
  match happening with
  | .usual event =>
    { toHistory := c.toHistory.next event
      heard := c.heard ++ match event with
        | .step _ => s.reception.toList
        | _ => []
      collected := c.collected ++ match event with
        | .frameTaken => s.link.outbound.items.head?.toList
        | _ => [] }
  | .askerGone =>
    { c with station := { s with table := { s.table with answers := s.table.answers.close } } }
  | .macGone =>
    { c with station := { s with link := { s.link with outbound := s.link.outbound.close } } }

/-- A run of a new resolver. -/
def run (mac : MacAddress) (parameters : Parameters) (width depth : Nat) (localIp : Ipv4)
    (happenings : List Happening) : Chronicle :=
  happenings.foldl next
    { station := ⟨.make mac parameters width, .make depth, .make, localIp⟩ }

section Invariant

variable (c : Chronicle) (width : Nat)

/-- A reply for the station, heard while it was idle and awaited one, states the mapping. -/
def Confirmed (ip : Ipv4) (mac : MacAddress) : Prop :=
  ∃ r ∈ c.heard, r.States width ip mac ∧ r.awaited = some ip

/-- The frames sent: those the MAC was given, and those on their way. -/
def frames : List Ethernet.Frame := c.collected ++ c.station.outgoing

/-- **The invariant.**  Every mapping is confirmed, the messages sent are `sent`,
and whoever has asked is told in one of them or is told next. -/
structure Vouched (mac : MacAddress) (sent : List Message) : Prop where
  built : c.station.Built width mac
  cache : ∀ e, some e ∈ c.station.resolver.cache.slots → c.Confirmed width e.ip e.mac
  answers : ∀ a ∈ c.responses, ∀ mac, a.mac = some mac → c.Confirmed width a.ip mac
  checking : ∀ ip mac, c.station.resolver.phase = .checkRequest ip mac →
    ∃ r ∈ c.heard, r.States width ip mac ∧ r.awaited = some c.station.resolver.target
  updating : ∀ ip mac, c.station.resolver.phase = .updateTable ip mac → c.Confirmed width ip mac
  sender : ∀ m ∈ sent, m.senderMac = mac
  frames : c.frames <+: sent.map (Message.frame width)
  opened : c.station.link.outbound.closed = false → c.frames = sent.map (Message.frame width)
  askers : c.heard.filterMap (·.asker? width) =
    sent.filterMap Message.told? ++ c.station.resolver.phase.asker?.toList
  invalid : c.station.resolver.stats.invalid =
    c.heard.countP fun r => r.message? width = none
  rxRequests : c.station.resolver.stats.rxRequests =
    c.heard.countP fun r => (r.message? width).any (·.operation = .request)
  rxReplies : c.station.resolver.stats.rxReplies =
    c.heard.countP fun r => (r.message? width).any (·.operation = .reply)

end Invariant

/-! ## §4. One event. -/

variable {c : Chronicle} {width : Nat} {mac : MacAddress} {sent : List Message}

/-- What was confirmed stays so. -/
theorem Confirmed.mono {ip : Ipv4} {mac : MacAddress} (h : c.Confirmed width ip mac)
    {d : Chronicle} (hheard : c.heard ⊆ d.heard) : d.Confirmed width ip mac := by
  obtain ⟨r, hr, hstates⟩ := h
  exact ⟨r, hheard hr, hstates⟩

/-- Events that only move answers and frames towards those who take them. -/
theorem Vouched.of_moved (hv : c.Vouched width mac sent) {d : Chronicle}
    (hresolver : d.station.resolver = c.station.resolver) (hheard : d.heard = c.heard)
    (hresponses : ∀ a ∈ d.responses, a ∈ c.responses) (hframes : d.frames = c.frames)
    (hopen : d.station.link.outbound.closed = false → c.station.link.outbound.closed = false) :
    d.Vouched width mac sent := by
  have hconfirmed : ∀ {ip mac}, c.Confirmed width ip mac → d.Confirmed width ip mac :=
    fun h => h.mono (hheard ▸ List.Subset.refl _)
  refine
    { built := ?_
      cache := ?_
      answers := fun a ha mac hmac => hconfirmed (hv.answers a (hresponses a ha) mac hmac)
      checking := ?_
      updating := ?_
      sender := hv.sender
      frames := hframes ▸ hv.frames
      opened := fun h => hframes.trans (hv.opened (hopen h))
      askers := ?_
      invalid := ?_
      rxRequests := ?_
      rxReplies := ?_ }
  · exact ⟨hresolver ▸ hv.built.mac, hresolver ▸ hv.built.writes, hresolver ▸ hv.built.reads⟩
  · rw [hresolver]
    exact fun e he => hconfirmed (hv.cache e he)
  · rw [hresolver, hheard]
    exact hv.checking
  · rw [hresolver]
    exact fun ip mac h => hconfirmed (hv.updating ip mac h)
  · rw [hresolver, hheard]
    exact hv.askers
  · rw [hresolver, hheard]
    exact hv.invalid
  · rw [hresolver, hheard]
    exact hv.rxRequests
  · rw [hresolver, hheard]
    exact hv.rxReplies

/-- A step: the station takes a frame, becomes `u`, and then makes a transition that sends `new`. -/
structure Stepped (width : Nat) (c d : Chronicle) (u : Station) (event : Option Message)
    (new : List Message) : Prop where
  hears : Station.Hears width c.station u event
  moves : Station.Moves width event u d.station new
  delivered : d.delivered = c.delivered
  heard : d.heard = c.heard ++ c.station.reception.toList
  collected : d.collected = c.collected

section Step

variable {d : Chronicle} {u : Station} {event : Option Message} {new : List Message}

/-- What was confirmed before the step still is. -/
theorem Stepped.confirmed (hst : Stepped width c d u event new) {ip : Ipv4} {mac : MacAddress}
    (h : c.Confirmed width ip mac) : d.Confirmed width ip mac :=
  h.mono (hst.heard ▸ List.subset_append_left _ _)

/-- The mapping that is about to be remembered was confirmed. -/
theorem Stepped.updated (hst : Stepped width c d u event new) (hv : c.Vouched width mac sent)
    {ip : Ipv4} {mac : MacAddress} (h : u.resolver.phase = .updateTable ip mac) :
    d.Confirmed width ip mac :=
  hst.confirmed (hv.updating ip mac (hst.hears.phase.symm.trans h))

/-- The mappings that are in the cache after the frame were confirmed. -/
theorem Stepped.remembered (hst : Stepped width c d u event new) (hv : c.Vouched width mac sent)
    {e : Cache.Entry} (he : some e ∈ u.resolver.cache.slots) : d.Confirmed width e.ip e.mac := by
  rw [hst.hears.cache] at he
  exact hst.confirmed (hv.cache e he)

/-- An answer is an old one, a failure, from the cache or from the awaited reply. -/
theorem Stepped.answers (hst : Stepped width c d u event new) (hv : c.Vouched width mac sent) :
    ∀ a ∈ d.responses, ∀ mac, a.mac = some mac → d.Confirmed width a.ip mac := by
  intro a ha mac hmac
  have hbefore : a ∈ c.responses → d.Confirmed width a.ip mac :=
    fun ha => hst.confirmed (hv.answers a ha mac hmac)
  rcases List.mem_append.1 ha with hdelivered | hpending
  · rw [hst.delivered] at hdelivered
    exact hbefore (List.mem_append_left _ hdelivered)
  · rcases hst.moves.learns.pending a hpending with
      hold | hfailed | ⟨e, he, hip, hcache⟩ | ⟨mac', hphase, hmac'⟩
    · exact hbefore (List.mem_append_right _ (hst.hears.pending a hold))
    · rw [hfailed] at hmac
      cases hmac
    · rw [hcache] at hmac
      cases hmac
      rw [← hip]
      exact hst.remembered hv he
    · rw [hmac'] at hmac
      cases hmac
      exact hst.updated hv hphase

/-- The reply that is checked after the step was heard in this very step. -/
theorem Stepped.checking (hst : Stepped width c d u event new) {ip : Ipv4} {mac : MacAddress}
    (h : d.station.resolver.phase = .checkRequest ip mac) :
    ∃ r ∈ d.heard, r.States width ip mac ∧ r.awaited = some d.station.resolver.target := by
  obtain ⟨-, hdeadline, htarget, m, hevent, hreply, rfl, rfl⟩ := hst.moves.learns.checking ip mac h
  obtain ⟨r, hr, hstates⟩ := hst.hears.reply m hevent hreply
  have hawaited : r.awaited = c.station.resolver.deadline.map fun _ => c.station.resolver.target := by
    obtain ⟨frame, -, rfl⟩ := Option.map_eq_some_iff.1 hr
    rfl
  rw [hst.hears.deadline] at hdeadline
  obtain ⟨deadline, hsome⟩ := Option.ne_none_iff_exists'.1 hdeadline
  refine ⟨r, ?_, hstates, ?_⟩
  · rw [hst.heard, hr]
    exact List.mem_append_right _ (List.mem_singleton_self r)
  · rw [hawaited, hsome, htarget, hst.hears.target]
    rfl

/-- The reply that matches names the address that is still the target. -/
theorem Stepped.updating (hst : Stepped width c d u event new) (hv : c.Vouched width mac sent)
    {ip : Ipv4} {mac : MacAddress} (h : d.station.resolver.phase = .updateTable ip mac) :
    d.Confirmed width ip mac := by
  obtain ⟨hphase, rfl⟩ := hst.moves.learns.updating ip mac h
  obtain ⟨r, hr, hstates, hawaited⟩ := hv.checking _ mac (hst.hears.phase.symm.trans hphase)
  refine hst.confirmed ⟨r, hr, hstates, ?_⟩
  rw [hawaited, hst.hears.target]

/-- While the MAC is there the new frames are the last ones. -/
theorem Stepped.opened (hst : Stepped width c d u event new) (hv : c.Vouched width mac sent)
    (hopen : c.station.link.outbound.closed = false) :
    d.frames = (sent ++ new).map (Message.frame width) := by
  have hsent : c.collected ++ c.station.outgoing = sent.map (Message.frame width) :=
    hv.opened hopen
  rw [Chronicle.frames, hst.collected, hst.moves.opened (hst.hears.closed.trans hopen),
    hst.hears.opened hopen, ← List.append_assoc, hsent, List.map_append]

/-- With or without the MAC the frames are the first ones of those that were sent. -/
theorem Stepped.frames (hst : Stepped width c d u event new) (hv : c.Vouched width mac sent) :
    d.frames <+: (sent ++ new).map (Message.frame width) := by
  cases hopen : c.station.link.outbound.closed with
  | false => exact ⟨[], by rw [List.append_nil, hst.opened hv hopen]⟩
  | true =>
    have hkept : d.station.outgoing <+: c.station.outgoing := by
      rw [hst.moves.gone (hst.hears.closed.trans hopen)]
      exact hst.hears.outgoing
    have hframes : d.frames <+: c.frames := by
      rw [Chronicle.frames, hst.collected]
      exact (List.prefix_append_right_inj c.collected).2 hkept
    rw [List.map_append]
    exact (hframes.trans hv.frames).trans (List.prefix_append _ _)

/-- Taking a frame and then making a transition: what is new was confirmed before. -/
theorem Vouched.of_step (hv : c.Vouched width mac sent) (hst : Stepped width c d u event new) :
    d.Vouched width mac (sent ++ new) := by
  have hbuilt := hst.hears.built mac hv.built
  have hclosed : d.station.link.outbound.closed = c.station.link.outbound.closed :=
    (congrArg (·.closed) hst.moves.constants).trans hst.hears.closed
  refine
    { built := hbuilt.of_constants hst.moves.constants
      cache := ?_
      answers := hst.answers hv
      checking := fun _ _ h => hst.checking h
      updating := fun _ _ h => hst.updating hv h
      sender := ?_
      frames := hst.frames hv
      opened := fun hopen => hst.opened hv (hclosed.symm.trans hopen)
      askers := ?_
      invalid := ?_
      rxRequests := ?_
      rxReplies := ?_ }
  · intro e he
    rcases hst.moves.learns.cache e he with hold | hnew
    · exact hst.remembered hv hold
    · exact hst.updated hv hnew
  · intro m hm
    rcases List.mem_append.1 hm with hold | hnew
    · exact hv.sender m hold
    · rw [(hst.moves.sender m hnew).1, hbuilt.mac]
  · have haskers := hst.moves.askers
    rw [hst.hears.asker, hst.hears.phase] at haskers
    rw [hst.heard, List.filterMap_append, hv.askers, List.append_assoc, haskers,
      List.filterMap_append, List.append_assoc]
  · rw [hst.heard, List.countP_append, ← hv.invalid, ← hst.hears.invalid]
    exact congrArg (·.invalid) hst.moves.constants
  · rw [hst.heard, List.countP_append, ← hv.rxRequests, ← hst.hears.rxRequests]
    exact congrArg (·.rxRequests) hst.moves.constants
  · rw [hst.heard, List.countP_append, ← hv.rxReplies, ← hst.hears.rxReplies]
    exact congrArg (·.rxReplies) hst.moves.constants

end Step

/-- A step sends messages, the requests among them as they are counted. -/
theorem next_step (hv : c.Vouched width mac sent) (now : Nat) :
    ∃ new, (c.next (.usual (.step now))).Vouched width mac (sent ++ new) ∧
      new.filterMap Message.wanted? = c.station.asked (c.station.step now).state := by
  have hhears := Station.listen_hears hv.built
  obtain ⟨new, hmoves⟩ := Station.turn_moves (hhears.built mac hv.built)
    (fun h => hhears.busy (hhears.phase ▸ h)) now
  rw [← Station.state_step] at hmoves
  refine ⟨new, hv.of_step ⟨hhears, hmoves, rfl, rfl, List.append_nil _⟩, ?_⟩
  rw [hmoves.asked, Station.asked, Station.asked, hhears.txRequests]

/-- The other events bring something to take, or take what is there. -/
theorem next_usual (hv : c.Vouched width mac sent) (event : Event)
    (hevent : ∀ now, event ≠ .step now) : (c.next (.usual event)).Vouched width mac sent := by
  cases event with
  | step now => exact absurd rfl (hevent now)
  | frame frame =>
    exact hv.of_moved rfl (List.append_nil _) (fun a ha => ha)
      (congrArg (· ++ c.station.outgoing) (List.append_nil _)) id
  | readdress localIp =>
    exact hv.of_moved rfl (List.append_nil _) (fun a ha => ha)
      (congrArg (· ++ c.station.outgoing) (List.append_nil _)) id
  | lookup ip =>
    unfold next History.next
    dsimp only
    rw [List.append_nil, List.append_nil]
    split
    · exact hv.of_moved rfl rfl (fun a ha => ha) rfl id
    · exact hv
  | frameTaken =>
    unfold next History.next
    dsimp only
    rw [List.append_nil]
    cases htake : c.station.link.outbound.take with
    | none =>
      rw [Pipe.take_eq_none_iff.1 htake]
      dsimp only [List.head?_nil, Option.toList_none]
      rw [List.append_nil]
      exact hv
    | some taken =>
      -- the frame leaves the head of one list for the end of the other
      obtain ⟨frame, outbound⟩ := taken
      obtain ⟨hitems, -, hclosed⟩ := Pipe.take_eq_some htake
      refine hv.of_moved rfl rfl (fun a ha => ha) ?_ (fun hopen => hclosed.symm.trans hopen)
      unfold frames Station.outgoing
      dsimp only
      rw [hitems]
      simp
  | answerTaken =>
    unfold next History.next
    dsimp only
    rw [List.append_nil, List.append_nil]
    split
    · exact hv
    · next answer answers htake =>
      refine hv.of_moved rfl rfl ?_ rfl id
      intro a ha
      unfold History.responses Station.pending at ha ⊢
      rw [(Pipe.take_eq_some htake).1]
      simpa using ha

/-- What is not a step sends nothing. -/
theorem next_still (hv : c.Vouched width mac sent) {happening : Happening}
    (hstill : happening.time? = none) : (c.next happening).Vouched width mac sent := by
  cases happening with
  | askerGone => exact hv.of_moved rfl rfl (fun a ha => ha) rfl id
  | macGone => exact hv.of_moved rfl rfl (fun a ha => ha) rfl nofun
  | usual event =>
    cases event with
    | step now => cases hstill
    | _ => exact next_usual hv _ nofun

/-- **Every event keeps what is known**, and a message sent is never taken back. -/
theorem next_vouched (hv : c.Vouched width mac sent) (happening : Happening) :
    ∃ new, (c.next happening).Vouched width mac (sent ++ new) := by
  cases htime : happening.time? with
  | none =>
    refine ⟨[], ?_⟩
    rw [List.append_nil]
    exact next_still hv htime
  | some now =>
    obtain ⟨new, hnext, -⟩ := next_step hv now
    rw [Happening.eq_step htime]
    exact ⟨new, hnext⟩

/-! ## §5. Runs. -/

/-- A new resolver knows nothing and has sent nothing. -/
theorem make_vouched (mac : MacAddress) (parameters : Parameters) (width depth : Nat)
    (localIp : Ipv4) :
    Vouched { station := ⟨.make mac parameters width, .make depth, .make, localIp⟩ } width mac
      [] where
  built := ⟨rfl, rfl, rfl⟩
  cache := by
    intro e he
    have hfree : some e ∈ List.replicate (max parameters.entries 1) none := he
    cases (List.mem_replicate.1 hfree).2
  answers := nofun
  checking := nofun
  updating := nofun
  sender := nofun
  frames := List.prefix_refl _
  opened := fun _ => rfl
  askers := rfl
  invalid := rfl
  rxRequests := rfl
  rxReplies := rfl

theorem run_vouched (mac : MacAddress) (parameters : Parameters) (width depth : Nat)
    (localIp : Ipv4) (happenings : List Happening) :
    ∃ sent, (run mac parameters width depth localIp happenings).Vouched width mac sent := by
  have hrun : ∀ {c : Chronicle} {sent : List Message}, c.Vouched width mac sent →
      ∃ sent', (happenings.foldl next c).Vouched width mac sent' := by
    induction happenings with
    | nil =>
      intro c sent hv
      exact ⟨sent, hv⟩
    | cons happening happenings ih =>
      intro c sent hv
      obtain ⟨new, hnext⟩ := next_vouched hv happening
      exact ih hnext
  exact hrun (make_vouched mac parameters width depth localIp)

/-- A frame is invalid, a request or a reply. -/
theorem countP_kinds (width : Nat) (heard : List Reception) :
    heard.countP (fun r => r.message? width = none) +
        heard.countP (fun r => (r.message? width).any (·.operation = .request)) +
      heard.countP (fun r => (r.message? width).any (·.operation = .reply)) = heard.length := by
  induction heard with
  | nil => rfl
  | cons r rest ih =>
    obtain ⟨hinvalid, hrequests, hreplies⟩ := r.tally_eq width
    have hone : (r.tally width).invalid + (r.tally width).requests + (r.tally width).replies = 1 :=
      Tally.ofMessage_one (r.message? width)
    rw [hinvalid, hrequests, hreplies] at hone
    simp only [List.countP_cons, List.countP_nil, Nat.zero_add, List.length_cons] at hone ⊢
    omega

/-- **A resolver is not poisoned, and answers each request once.**

In every run each mapping in the cache and each answer that has not failed was
stated by a reply for the station, heard while it was idle and had a request
for this very address outstanding.  The stations that asked an idle machine
are, in order, those told in the replies it has sent, up to the one that is
told next: the machine gives it its reply as soon as the slot is free, and
meanwhile keeps the cache.  A message that comes to a busy machine is only
counted.  Each frame taken has moved one of three counters. -/
theorem unpoisoned (mac : MacAddress) (parameters : Parameters) (width depth : Nat)
    (localIp : Ipv4) (happenings : List Happening) :
    let c := run mac parameters width depth localIp happenings
    let s := c.station
    (∀ e, some e ∈ s.resolver.cache.slots → c.Confirmed width e.ip e.mac) ∧
    (∀ a ∈ c.responses, ∀ mac, a.mac = some mac → c.Confirmed width a.ip mac) ∧
    (∃ sent : List Message,
      c.frames <+: sent.map (Message.frame width) ∧
      (s.link.outbound.closed = false → c.frames = sent.map (Message.frame width)) ∧
      c.heard.filterMap (·.asker? width) =
        sent.filterMap Message.told? ++ s.resolver.phase.asker?.toList ∧
      (∀ m ∈ sent, m.senderMac = mac) ∧
      (SupportedWidth width → ∀ m ∈ sent, message? width (m.frame width) = some m)) ∧
    (∀ now r m, s.reception = some r → s.resolver.phase = .idle → r.message? width = some m →
      m.operation = .request →
        (s.step now).state.resolver.cache = s.resolver.cache ∧
        (s.step now).state.resolver.phase = .sendReply m.senderIp m.senderMac) ∧
    (∀ now ip target, s.resolver.phase = .sendReply ip target →
      (s.step now).state.resolver.cache = s.resolver.cache ∧
      (s.canSend = true → (s.step now).state.resolver.phase = .idle ∧
        (s.link.outbound.closed = false → (s.step now).state.outgoing =
          s.outgoing ++ [(s.message .reply target ip).frame width])) ∧
      (s.canSend = false → (s.step now).state.resolver.phase = .sendReply ip target ∧
        (s.step now).state.outgoing = s.outgoing)) ∧
    (∀ now r m, s.reception = some r → s.resolver.phase ≠ .idle → r.message? width = some m →
      ∃ depacketizer : Depacketizer, depacketizer.reset = s.resolver.depacketizer.reset ∧
        (s.step now).state =
          (s.deaf.step now).state.note { s.link.inbound with items := s.link.inbound.items.tail }
            depacketizer (r.tally width)) ∧
    s.resolver.stats.invalid = c.heard.countP (fun r => r.message? width = none) ∧
    s.resolver.stats.rxRequests =
      c.heard.countP (fun r => (r.message? width).any (·.operation = .request)) ∧
    s.resolver.stats.rxReplies =
      c.heard.countP (fun r => (r.message? width).any (·.operation = .reply)) ∧
    s.resolver.stats.invalid + s.resolver.stats.rxRequests + s.resolver.stats.rxReplies =
      c.heard.length := by
  intro c s
  obtain ⟨sent, hv⟩ := run_vouched mac parameters width depth localIp happenings
  have hb : s.Built width mac := hv.built
  refine ⟨hv.cache, hv.answers, ⟨sent, hv.frames, hv.opened, hv.askers, hv.sender, ?_⟩, ?_, ?_, ?_,
    hv.invalid, hv.rxRequests, hv.rxReplies, ?_⟩
  · exact fun hw m _ => message?_frame hw m
  · exact fun now r m hr hidle hm hrequest => s.step_request hb hr hidle hm hrequest now
  · exact fun now ip target hphase => s.step_sendReply hb hphase now
  · exact fun now r m hr hbusy _ => s.step_busy hb hr hbusy now
  · show c.station.resolver.stats.invalid + c.station.resolver.stats.rxRequests +
      c.station.resolver.stats.rxReplies = c.heard.length
    rw [hv.invalid, hv.rxRequests, hv.rxReplies, countP_kinds]

end Chronicle
end NetBoard.Arp
