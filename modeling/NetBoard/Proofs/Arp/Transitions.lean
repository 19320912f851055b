/-
  NetBoard.Proofs.Arp.Transitions
  ───────────────────────────────
  **WHAT ONE STEP OF A RESOLVER CAN DO.**

  A step takes at most one frame, counts it, and makes at most one transition.
  Here it is said once what a transition can do to the cache, to the answers
  and to the frames on their way, and what taking a frame does; everything
  about runs follows from that.

  Main definitions:

      Reception  — a frame that was taken, with what the station was doing
      Moves      — what one transition can do, given a message

  Main statements:

      turn_moves       — a transition does nothing else
      listen_eq        — taking a frame counts it, and may bring a message
      step_busy        — a message to a busy machine is only counted
      step_sendReply   — a reply leaves as soon as the slot is free
-/
import NetBoard.Proofs.Arp.Cache
import NetBoard.Proofs.Arp.Lookups
import NetBoard.Proofs.Arp.Message

namespace NetBoard.Arp

/-! ## §1. Messages and receptions. -/

/-- The station that asks in a message. -/
def Message.asker? (m : Message) : Option (Ipv4 × MacAddress) :=
  match m.operation with
  | .request => some (m.senderIp, m.senderMac)
  | .reply => none

/-- The station that is told in a message. -/
def Message.told? (m : Message) : Option (Ipv4 × MacAddress) :=
  match m.operation with
  | .request => none
  | .reply => some (m.targetIp, m.targetMac)

/-- The address that is asked for in a message. -/
def Message.wanted? (m : Message) : Option Ipv4 :=
  match m.operation with
  | .request => some m.targetIp
  | .reply => none

/-- The station that is still to be told. -/
def Phase.asker? : Phase → Option (Ipv4 × MacAddress)
  | .sendReply ip mac => some (ip, mac)
  | _ => none

/-- A frame that a station takes, with what the station is doing then. -/
structure Reception where
  frame : Ethernet.Frame
  localIp : Ipv4
  phase : Phase
  /-- The address of the outstanding request. -/
  awaited : Option Ipv4
  deriving Repr, DecidableEq

/-- How often each counter of received messages moves. -/
structure Tally where
  invalid : Nat := 0
  requests : Nat := 0
  replies : Nat := 0
  dropped : Nat := 0
  deriving Repr, DecidableEq

/-- A frame counts as invalid, as a request or as a reply. -/
def Tally.ofMessage : Option Message → Tally
  | none => { invalid := 1 }
  | some m =>
    match m.operation with
    | .request => { requests := 1 }
    | .reply => { replies := 1 }

theorem Tally.ofMessage_one (m : Option Message) :
    (ofMessage m).invalid + (ofMessage m).requests + (ofMessage m).replies = 1 := by
  cases m with
  | none => rfl
  | some m =>
    unfold ofMessage
    dsimp only
    cases m.operation <;> rfl

/-- The counters moved. -/
def Stats.count (stats : Stats) (t : Tally) : Stats :=
  { stats with
    invalid := stats.invalid + t.invalid
    rxRequests := stats.rxRequests + t.requests
    rxReplies := stats.rxReplies + t.replies
    droppedBusy := stats.droppedBusy + t.dropped }

namespace Reception

variable (width : Nat) (r : Reception)

/-- The message in a frame, if it is for the station. -/
def message? : Option Message := (Arp.message? width r.frame).filter (·.targetIp == r.localIp)

/-- The message it brings to an idle machine. -/
def event? : Option Message := if r.phase = .idle then r.message? width else none

/-- The counters it moves: one for what it is, and one more for a message that is dropped. -/
def tally : Tally :=
  { Tally.ofMessage (r.message? width) with
    dropped := if r.phase = .idle ∨ r.message? width = none then 0 else 1 }

end Reception

namespace Station

/-- The frame that the next step takes. -/
def reception (s : Station) : Option Reception :=
  s.link.inbound.items.head?.map fun frame =>
    { frame, localIp := s.localIp, phase := s.resolver.phase
      awaited := s.resolver.deadline.map fun _ => s.resolver.target }

/-- The frames on their way to the MAC, the oldest first. -/
def outgoing (s : Station) : List Ethernet.Frame :=
  s.link.outbound.items ++ s.resolver.heldFrame.toList

/-- The station is one that was made with this address for a bus of this width. -/
structure Built (width : Nat) (mac : MacAddress) (s : Station) : Prop where
  mac : s.resolver.mac = mac
  writes : { s.resolver.packetizer with carry := none } = { header, width }
  reads : s.resolver.depacketizer.reset = { format := header, width }

/-! ## §2. One transition. -/

/-- What no transition changes. -/
structure Constants where
  mac : MacAddress
  localIp : Ipv4
  /-- But for what it carries over. -/
  packetizer : Packetizer
  depacketizer : Depacketizer
  inbound : Pipe Ethernet.Frame
  closed : Bool
  invalid : Nat
  rxRequests : Nat
  rxReplies : Nat

/-- The constants of a station. -/
def constants (s : Station) : Constants where
  mac := s.resolver.mac
  localIp := s.localIp
  packetizer := { s.resolver.packetizer with carry := none }
  depacketizer := s.resolver.depacketizer
  inbound := s.link.inbound
  closed := s.link.outbound.closed
  invalid := s.resolver.stats.invalid
  rxRequests := s.resolver.stats.rxRequests
  rxReplies := s.resolver.stats.rxReplies

/-- Where the addresses that `t` knows come from. -/
structure Learns (event : Option Message) (s t : Station) : Prop where
  cache : ∀ e, some e ∈ t.resolver.cache.slots →
    some e ∈ s.resolver.cache.slots ∨ s.resolver.phase = .updateTable e.ip e.mac
  /-- An answer was there before, or failed, or is from the cache, or from the awaited reply. -/
  pending : ∀ a ∈ t.pending, a ∈ s.pending ∨ a.mac = none ∨
    (∃ e, some e ∈ s.resolver.cache.slots ∧ e.ip = a.ip ∧ a.mac = some e.mac) ∨
    ∃ mac, s.resolver.phase = .updateTable a.ip mac ∧ a.mac = some mac
  checking : ∀ ip mac, t.resolver.phase = .checkRequest ip mac →
    s.resolver.phase = .idle ∧ s.resolver.deadline ≠ none ∧
      t.resolver.target = s.resolver.target ∧
      ∃ m, event = some m ∧ m.operation = .reply ∧ m.senderIp = ip ∧ m.senderMac = mac
  updating : ∀ ip mac, t.resolver.phase = .updateTable ip mac →
    s.resolver.phase = .checkRequest ip mac ∧ ip = s.resolver.target

/-- The addresses asked for until `s` has become `t`, by the count of requests. -/
def asked (s t : Station) : List Ipv4 :=
  List.replicate (t.resolver.stats.txRequests - s.resolver.stats.txRequests) t.resolver.target

/-- **What one transition can do.**  Given a message, `s` has become `t` and
has sent `new`. -/
structure Moves (width : Nat) (event : Option Message) (s t : Station) (new : List Message) :
    Prop where
  constants : t.constants = s.constants
  learns : Learns event s t
  sender : ∀ m ∈ new, m.senderMac = s.resolver.mac ∧ m.senderIp = s.localIp
  opened : s.link.outbound.closed = false →
    t.outgoing = s.outgoing ++ new.map (Message.frame width)
  gone : s.link.outbound.closed = true → t.outgoing = s.outgoing
  /-- Who has asked is told or is still to be told. -/
  askers : s.resolver.phase.asker?.toList ++ (event.bind Message.asker?).toList =
    new.filterMap Message.told? ++ t.resolver.phase.asker?.toList
  asked : new.filterMap Message.wanted? = s.asked t

variable {width : Nat} {mac : MacAddress} {event : Option Message} {s t : Station} {phase : Phase}
  {now : Nat}

theorem Built.of_constants (hb : s.Built width mac) (h : t.constants = s.constants) :
    t.Built width mac where
  mac := (congrArg Constants.mac h).trans hb.mac
  writes := (congrArg Constants.packetizer h).trans hb.writes
  reads := (congrArg (·.depacketizer.reset) h).trans hb.reads

theorem asked_of_same (h : t.resolver.stats.txRequests = s.resolver.stats.txRequests) :
    s.asked t = [] := by
  rw [asked, h, Nat.sub_self]
  rfl

theorem asked_of_next (h : t.resolver.stats.txRequests = s.resolver.stats.txRequests + 1) :
    s.asked t = [t.resolver.target] := by
  rw [asked, h, Nat.add_sub_cancel_left]
  rfl

/-- A transition that sends nothing. -/
theorem Moves.of_silent {before : Phase} (hphase : s.resolver.phase = before)
    (hlearns : Learns event s t) (hconstants : t.constants = s.constants)
    (hlink : t.link = s.link) (hheld : t.resolver.heldFrame = s.resolver.heldFrame)
    (hcount : t.resolver.stats.txRequests = s.resolver.stats.txRequests)
    (haskers : before.asker?.toList ++ (event.bind Message.asker?).toList =
      t.resolver.phase.asker?.toList) : Moves width event s t [] := by
  subst hphase
  have hout : t.outgoing = s.outgoing := by
    rw [outgoing, outgoing, hlink, hheld]
  refine
    { constants := hconstants
      learns := hlearns
      sender := ?_
      opened := ?_
      gone := fun _ => hout
      askers := haskers
      asked := (asked_of_same hcount).symm }
  · intro m hm
    cases hm
  · intro _
    rw [hout, List.map_nil, List.append_nil]

/-- With the answers where they are, only the one being presented can be new. -/
theorem mem_pending_of_kept {a : Answer} (ha : a ∈ t.pending)
    (hanswers : t.table.answers = s.table.answers)
    (hheld : t.resolver.heldAnswer = s.resolver.heldAnswer) :
    a ∈ s.pending ∨ t.resolver.phase.presented = some a := by
  unfold pending at ha ⊢
  rw [hanswers, hheld] at ha
  rcases List.mem_append.1 ha with hold | hnew
  · exact .inl (List.mem_append_left _ hold)
  · exact .inr (Option.mem_toList.1 hnew)

/-- A transition that learns nothing, and presents at most a failure or what the cache holds. -/
theorem Learns.of_kept
    (hcache : ∀ e, some e ∈ t.resolver.cache.slots → some e ∈ s.resolver.cache.slots)
    (hanswers : t.table.answers = s.table.answers)
    (hheld : t.resolver.heldAnswer = s.resolver.heldAnswer)
    (hpresented : ∀ a, t.resolver.phase.presented = some a → a.mac = none ∨
      ∃ e, some e ∈ s.resolver.cache.slots ∧ e.ip = a.ip ∧ a.mac = some e.mac)
    (hphase : ∀ ip mac, t.resolver.phase ≠ .checkRequest ip mac ∧
      t.resolver.phase ≠ .updateTable ip mac) : Learns event s t where
  cache := fun e he => .inl (hcache e he)
  pending := by
    intro a ha
    rcases mem_pending_of_kept ha hanswers hheld with hold | hnew
    · exact .inl hold
    · rcases hpresented a hnew with hfailed | hcached
      · exact .inr (.inl hfailed)
      · exact .inr (.inr (.inl hcached))
  checking := fun ip mac h => absurd h (hphase ip mac).1
  updating := fun ip mac h => absurd h (hphase ip mac).2

/-- The message that is sent to a station. -/
def message (s : Station) (operation : Operation) (mac : MacAddress) (ip : Ipv4) : Message :=
  { operation, senderMac := s.resolver.mac, senderIp := s.localIp, targetMac := mac, targetIp := ip }

/-- The frame that is sent is that of the message. -/
theorem send_eq (hb : s.Built width mac) (operation : Operation) (target : MacAddress) (ip : Ipv4) :
    let moved := sendOrHold ((s.message operation target ip).frame width) s.link.outbound
    (s.send operation target ip).1 =
      { s with
        resolver := { s.resolver with
          packetizer := { s.resolver.packetizer with carry := none }, heldFrame := moved.1 }
        link := { s.link with outbound := moved.2 } } := by
  have hframe : (s.resolver.compose s.localIp operation target ip).2.1 =
      (s.message operation target ip).frame width := by
    have hheader : s.resolver.packetizer.header = header := congrArg (·.header) hb.writes
    have hwidth : s.resolver.packetizer.width = width := congrArg (·.width) hb.writes
    unfold Resolver.compose Message.frame message
    dsimp only
    rw [Packetizer.packetize_nil, Packetizer.packetize_nil, hheader, hwidth]
  unfold send
  dsimp only
  rw [hframe]
  unfold Resolver.compose
  dsimp only
  rw [Packetizer.packetize_nil]

/-- A frame that is sent while the slot is free is the last one on its way. -/
theorem outgoing_sendOrHold (hheld : s.resolver.heldFrame = none) (frame : Ethernet.Frame) :
    (s.link.outbound.closed = false →
      (sendOrHold frame s.link.outbound).2.items ++ (sendOrHold frame s.link.outbound).1.toList =
        s.outgoing ++ [frame]) ∧
    (s.link.outbound.closed = true →
      (sendOrHold frame s.link.outbound).2.items ++ (sendOrHold frame s.link.outbound).1.toList =
        s.outgoing) ∧
    (sendOrHold frame s.link.outbound).2.closed = s.link.outbound.closed := by
  unfold outgoing
  rw [hheld]
  refine ⟨?_, ?_, ?_⟩
  · intro hopen
    rw [(sendOrHold_items hopen frame).1]
    simp
  · intro hclosed
    unfold sendOrHold flush Pipe.offer
    rw [hclosed]
    rfl
  · exact closed_flush (some frame) s.link.outbound

/-- A transition that sends a message from a free slot. -/
theorem Moves.of_send (operation : Operation) (target : MacAddress) (ip : Ipv4) {before : Phase}
    (hphase : s.resolver.phase = before)
    (hb : s.Built width mac) (hheld : s.resolver.heldFrame = none)
    (hconstants : t.constants = (s.send operation target ip).1.constants)
    (hlearns : Learns event s t) (hlink : t.link = (s.send operation target ip).1.link)
    (hframe : t.resolver.heldFrame = (s.send operation target ip).1.resolver.heldFrame)
    (haskers : before.asker?.toList ++ (event.bind Message.asker?).toList =
      (s.message operation target ip).told?.toList ++ t.resolver.phase.asker?.toList)
    (hasked : (s.message operation target ip).wanted?.toList = s.asked t) :
    Moves width event s t [s.message operation target ip] := by
  subst hphase
  have hsend := send_eq hb operation target ip
  obtain ⟨hopened, hgone, hclosed⟩ :=
    outgoing_sendOrHold hheld ((s.message operation target ip).frame width)
  have hsent : (s.send operation target ip).1.constants = s.constants := by
    rw [hsend]
    exact congrArg (fun closed => { s.constants with closed }) hclosed
  have hout : t.outgoing = (s.send operation target ip).1.outgoing := by
    rw [outgoing, outgoing, hlink, hframe]
  rw [hsend] at hout
  refine
    { constants := hconstants.trans hsent
      learns := hlearns
      sender := ?_
      opened := fun hopen => hout.trans (hopened hopen)
      gone := fun hclose => hout.trans (hgone hclose)
      askers := ?_
      asked := ?_ }
  · intro m hm
    rw [List.mem_singleton.1 hm]
    exact ⟨rfl, rfl⟩
  · rw [haskers, List.filterMap_cons]
    cases (s.message operation target ip).told? <;> rfl
  · rw [← hasked, List.filterMap_cons]
    cases (s.message operation target ip).wanted? <;> rfl

/-- A transition that does not touch the cache, and presents a failure if anything. -/
theorem Learns.of_quiet (hcache : t.resolver.cache = s.resolver.cache)
    (hanswers : t.table.answers = s.table.answers)
    (hheld : t.resolver.heldAnswer = s.resolver.heldAnswer)
    (hpresented : ∀ a, t.resolver.phase.presented = some a → a.mac = none)
    (hphase : ∀ ip mac, t.resolver.phase ≠ .checkRequest ip mac ∧
      t.resolver.phase ≠ .updateTable ip mac) : Learns event s t :=
  .of_kept (fun _ he => hcache ▸ he) hanswers hheld (fun a ha => .inl (hpresented a ha)) hphase

/-- A transition that presents nothing may still go on with a reply: one that is awaited is
checked, and one that is checked is remembered. -/
theorem Learns.of_reply (hcache : t.resolver.cache = s.resolver.cache)
    (hanswers : t.table.answers = s.table.answers)
    (hheld : t.resolver.heldAnswer = s.resolver.heldAnswer)
    (hpresented : t.resolver.phase.presented = none)
    (hchecking : ∀ ip mac, t.resolver.phase = .checkRequest ip mac →
      s.resolver.phase = .idle ∧ s.resolver.deadline ≠ none ∧
        t.resolver.target = s.resolver.target ∧
        ∃ m, event = some m ∧ m.operation = .reply ∧ m.senderIp = ip ∧ m.senderMac = mac)
    (hupdating : ∀ ip mac, t.resolver.phase = .updateTable ip mac →
      s.resolver.phase = .checkRequest ip mac ∧ ip = s.resolver.target) : Learns event s t where
  cache := fun e he => .inl (hcache ▸ he)
  pending := by
    intro a ha
    rcases mem_pending_of_kept ha hanswers hheld with hold | hnew
    · exact .inl hold
    · rw [hpresented] at hnew
      cases hnew
  checking := hchecking
  updating := hupdating

/-- The awaited reply is learned, and so is the answer that is made of it. -/
theorem learned_learns {ip : Ipv4} {reporter : MacAddress}
    (hphase : s.resolver.phase = .updateTable ip reporter)
    (hcache : t.resolver.cache = s.resolver.cache.insert ip reporter now)
    (hanswers : t.table.answers = s.table.answers)
    (hheld : t.resolver.heldAnswer = s.resolver.heldAnswer)
    (hnext : t.resolver.phase = .presentResponse ⟨ip, some reporter⟩) : Learns event s t where
  cache := by
    intro e he
    rw [hcache] at he
    rcases Cache.mem_insert he with hold | ⟨hip, hmac⟩
    · exact .inl hold
    · rw [hphase, hip, hmac]
      exact .inr rfl
  pending := by
    intro a ha
    rcases mem_pending_of_kept ha hanswers hheld with hold | hnew
    · exact .inl hold
    · rw [hnext] at hnew
      cases hnew
      exact .inr (.inr (.inr ⟨reporter, hphase, rfl⟩))
  checking := by
    rw [hnext]
    nofun
  updating := by
    rw [hnext]
    nofun

/-- What the cache holds is presented; an expired mapping is forgotten. -/
theorem looked_learns (now : Nat)
    (hcache : t.resolver.cache = (s.resolver.cache.lookup s.resolver.target now).1)
    (hanswers : t.table.answers = s.table.answers)
    (hheld : t.resolver.heldAnswer = s.resolver.heldAnswer)
    (hpresented : ∀ a, t.resolver.phase.presented = some a → a.ip = s.resolver.target ∧
      a.mac = (s.resolver.cache.lookup s.resolver.target now).2 ∧ a.mac ≠ none)
    (hphase : ∀ ip mac, t.resolver.phase ≠ .checkRequest ip mac ∧
      t.resolver.phase ≠ .updateTable ip mac) : Learns event s t := by
  refine .of_kept ?_ hanswers hheld ?_ hphase
  · intro e he
    rw [hcache] at he
    exact Cache.mem_expire he
  · intro a ha
    obtain ⟨hip, hmac, hsome⟩ := hpresented a ha
    obtain ⟨found, hfound⟩ := Option.ne_none_iff_exists'.1 hsome
    obtain ⟨e, he, hentry, hreporter⟩ := Cache.mem_of_lookup (hmac.symm.trans hfound)
    exact .inr ⟨e, he, hentry.trans hip.symm, by rw [hfound, hreporter]⟩

/-- The answer that was presented is on its way, and no other is new. -/
theorem presented_learns {answer : Answer} (hphase : s.resolver.phase = .presentResponse answer) :
    Learns event s (Station.enter
      { s with
        resolver := { s.resolver with heldAnswer := (sendOrHold answer s.table.answers).1 }
        table := { s.table with answers := (sendOrHold answer s.table.answers).2 } } .idle) where
  cache := fun e he => .inl he
  pending := by
    intro a ha
    have hmoved : a ∈ (sendOrHold answer s.table.answers).2.items ++
        (sendOrHold answer s.table.answers).1.toList ++ [] := ha
    rw [List.append_nil] at hmoved
    refine .inl ?_
    unfold pending
    rw [hphase, List.append_assoc]
    rcases List.mem_append.1 ((flush_initial (some answer) s.table.answers).subset hmoved) with
      hold | hnew
    · exact List.mem_append_left _ hold
    · exact List.mem_append_right _ (List.mem_append_right _ hnew)
  checking := nofun
  updating := nofun

/-- A transition to a phase in which nothing is learned, and which changes nothing else. -/
theorem enter_moves {before : Phase} (hphase : s.resolver.phase = before)
    (hpresented : phase.presented = none)
    (hnext : ∀ ip mac, phase ≠ .checkRequest ip mac ∧ phase ≠ .updateTable ip mac)
    (haskers : before.asker?.toList ++ (event.bind Message.asker?).toList =
      phase.asker?.toList) : Moves width event s (s.enter phase) [] := by
  refine .of_silent hphase (.of_quiet rfl rfl rfl ?_ hnext) rfl rfl rfl rfl haskers
  intro a ha
  exact absurd (hpresented.symm.trans ha) nofun

/-- **A transition does what `Moves` says.**  A message comes to an idle machine only. -/
theorem Transition.moves (hb : s.Built width mac)
    (hevent : s.resolver.phase ≠ .idle → event = none) {log : List Log.Line}
    (ht : Transition now s event t phase log) :
    ∃ new, Moves width event s (t.enter phase) new := by
  have hnone : ∀ {p : Phase}, s.resolver.phase = p → p ≠ .idle → event = none :=
    fun hphase hbusy => hevent (hphase ▸ hbusy)
  cases ht with
  | told m hphase hrequest =>
    refine ⟨[], enter_moves hphase rfl (fun _ _ => ⟨nofun, nofun⟩) ?_⟩
    rw [Option.bind_some, Message.asker?, hrequest]
    rfl
  | heard m hphase hreply hwaits =>
    refine ⟨[], .of_silent hphase (.of_reply rfl rfl rfl rfl ?_ nofun) rfl rfl rfl rfl ?_⟩
    · intro ip mac h
      cases h
      exact ⟨hphase, hwaits, rfl, m, rfl, hreply, rfl, rfl⟩
    · rw [Option.bind_some, Message.asker?, hreply]
      rfl
  | ignored m hphase hreply _ =>
    refine ⟨[], enter_moves hphase rfl (fun _ _ => ⟨nofun, nofun⟩) ?_⟩
    rw [Option.bind_some, Message.asker?, hreply]
    rfl
  | gaveUp deadline hphase _ _ _ =>
    refine ⟨[], .of_silent hphase (.of_quiet rfl rfl rfl ?_ fun _ _ => ⟨nofun, nofun⟩) rfl rfl rfl
      rfl rfl⟩
    intro a ha
    cases ha
    rfl
  | retried deadline hphase _ _ _ =>
    exact ⟨[], enter_moves hphase rfl (fun _ _ => ⟨nofun, nofun⟩) rfl⟩
  | took target lookups hphase _ _ =>
    exact ⟨[], .of_silent hphase (.of_quiet rfl rfl rfl nofun fun _ _ => ⟨nofun, nofun⟩) rfl rfl rfl
      rfl rfl⟩
  | replied _ ip target hphase hslot =>
    obtain rfl := hnone hphase nofun
    refine ⟨_, .of_send .reply target ip hphase hb hslot rfl ?_ rfl rfl rfl (asked_of_same rfl).symm⟩
    exact .of_quiet rfl rfl rfl nofun fun _ _ => ⟨nofun, nofun⟩
  | matched _ reporter hphase =>
    obtain rfl := hnone hphase nofun
    refine ⟨[], .of_silent hphase (.of_reply rfl rfl rfl rfl nofun ?_) rfl rfl rfl rfl rfl⟩
    intro ip mac h
    cases h
    exact ⟨hphase, rfl⟩
  | mismatched _ ip reporter hphase _ =>
    obtain rfl := hnone hphase nofun
    exact ⟨[], enter_moves hphase rfl (fun _ _ => ⟨nofun, nofun⟩) rfl⟩
  | learned _ ip reporter hphase =>
    obtain rfl := hnone hphase nofun
    exact ⟨[], .of_silent hphase (learned_learns hphase rfl rfl rfl rfl) rfl rfl rfl rfl rfl⟩
  | remembered _ found hphase hfound =>
    obtain rfl := hnone hphase nofun
    refine ⟨[], .of_silent hphase (looked_learns now rfl rfl rfl ?_ fun _ _ => ⟨nofun, nofun⟩)
      rfl rfl rfl rfl rfl⟩
    intro a ha
    cases ha
    exact ⟨rfl, hfound.symm, nofun⟩
  | missed _ hphase _ =>
    obtain rfl := hnone hphase nofun
    exact ⟨[], .of_silent hphase (looked_learns now rfl rfl rfl nofun fun _ _ => ⟨nofun, nofun⟩)
      rfl rfl rfl rfl rfl⟩
  | asked _ hphase hslot =>
    obtain rfl := hnone hphase nofun
    refine ⟨_, .of_send .request .broadcast s.resolver.target hphase hb hslot rfl ?_ rfl rfl rfl ?_⟩
    · exact .of_quiet rfl rfl rfl nofun fun _ _ => ⟨nofun, nofun⟩
    · rw [asked_of_next (t := Station.enter _ _) rfl]
      rfl
  | presented _ answer hphase _ =>
    obtain rfl := hnone hphase nofun
    exact ⟨[], .of_silent hphase (presented_learns hphase) rfl rfl rfl rfl rfl⟩

/-- A machine that waits has no message, and is not about to learn anything. -/
theorem Waits.silent (hevent : s.resolver.phase ≠ .idle → event = none) (hw : Waits now s event) :
    event = none ∧ ∀ ip mac, s.resolver.phase ≠ .checkRequest ip mac ∧
      s.resolver.phase ≠ .updateTable ip mac := by
  cases hw with
  | early deadline hphase _ _ | unasked hphase _ _ =>
    rw [hphase]
    exact ⟨rfl, fun _ _ => ⟨nofun, nofun⟩⟩
  | replyBlocked _ ip mac hphase _ | requestBlocked _ hphase _ | answerBlocked _ answer hphase _ =>
    rw [hphase] at hevent ⊢
    exact ⟨hevent nofun, fun _ _ => ⟨nofun, nofun⟩⟩

theorem turn_moves (hb : s.Built width mac) (hevent : s.resolver.phase ≠ .idle → event = none)
    (now : Nat) : ∃ new, Moves width event s (s.turn now event).state new := by
  unfold turn
  cases ht : s.transition now event with
  | none =>
    obtain ⟨rfl, hphase⟩ := (transition_eq_none_iff.1 ht).silent hevent
    refine ⟨[], .of_silent rfl ?_ rfl rfl rfl rfl (List.append_nil _)⟩
    refine
      { cache := fun e he => .inl he
        pending := fun a ha => .inl ha
        checking := fun ip mac h => absurd h (hphase ip mac).1
        updating := fun ip mac h => absurd h (hphase ip mac).2 }
  | some next =>
    obtain ⟨t, phase, log⟩ := next
    exact (transition_eq_some_iff.1 ht).moves hb hevent

/-! ## §3. Taking a frame. -/

/-- A station that has taken a frame: the rest of the pipe, the stage after it, and the
counters moved. -/
def note (s : Station) (inbound : Pipe Ethernet.Frame) (depacketizer : Depacketizer)
    (tally : Tally) : Station :=
  { s with
    link := { s.link with inbound }
    resolver := { s.resolver with depacketizer, stats := s.resolver.stats.count tally } }

/-- The station that makes the transition of a step, and the message it has. -/
def listen (s : Station) : Station × Option Message :=
  let u := s.flushHeld.state
  match u.link.inbound.take with
  | none => (u, none)
  | some (frame, inbound) =>
    let heard := { u with link := { u.link with inbound } }.hearFrame frame
    (heard.1, heard.2.1)

theorem state_step (s : Station) (now : Nat) :
    (s.step now).state = (s.listen.1.turn now s.listen.2).state := by
  rw [step, Outcome.state_andThen, listen]
  dsimp only
  cases s.flushHeld.state.link.inbound.take with
  | none => rfl
  | some taken =>
    obtain ⟨frame, inbound⟩ := taken
    rfl

/-- What is read in a frame does not depend on what was read before. -/
theorem hear_spec {r : Resolver} (hr : r.depacketizer.reset = { format := header, width })
    (localIp : Ipv4) (frame : Ethernet.Frame) :
    let m := (Arp.message? width frame).filter (·.targetIp == localIp)
    (r.hear localIp frame).1 =
        { r with
          depacketizer := (r.depacketizer.depacketize frame.payload).1
          stats := r.stats.count (.ofMessage m) } ∧
      (r.hear localIp frame).2.1 = m := by
  intro m
  have hpacket : header? width frame =
      (r.depacketizer.depacketize frame.payload).2.map (·.1) := by
    rw [← Depacketizer.depacketize_reset, hr]
    rfl
  have hm : m = (((r.depacketizer.depacketize frame.payload).2.map (·.1)).bind
      Message.ofFields?).filter (·.targetIp == localIp) := by
    show ((header? width frame).bind _).filter _ = _
    rw [hpacket]
  clear_value m
  unfold Resolver.hear
  dsimp only
  cases hread : (r.depacketizer.depacketize frame.payload).2 with
  | none =>
    rw [hread] at hm
    obtain rfl : m = none := hm
    exact ⟨rfl, rfl⟩
  | some packet =>
    obtain ⟨values, payload⟩ := packet
    rw [hread, Option.map_some, Option.bind_some] at hm
    dsimp only
    rw [← hm]
    cases m with
    | none => exact ⟨rfl, rfl⟩
    | some message =>
      dsimp only [Tally.ofMessage]
      cases message.operation with
      | request => exact ⟨rfl, rfl⟩
      | reply => exact ⟨rfl, rfl⟩

/-- Without a frame only what is held moves. -/
theorem listen_of_none (hr : s.reception = none) : s.listen = (s.flushHeld.state, none) := by
  have hitems : s.link.inbound.items = [] := by
    rw [reception, Option.map_eq_none_iff] at hr
    exact List.head?_eq_none_iff.1 hr
  have htake : s.flushHeld.state.link.inbound.take = none := Pipe.take_eq_none_iff.2 hitems
  rw [listen, htake]

/-- **A frame that is taken is counted, and brings an idle machine its message.** -/
theorem listen_eq (hb : s.Built width mac) {r : Reception} (hr : s.reception = some r) :
    ∃ depacketizer : Depacketizer, depacketizer.reset = s.resolver.depacketizer.reset ∧
      s.listen =
        (s.flushHeld.state.note { s.link.inbound with items := s.link.inbound.items.tail }
          depacketizer (r.tally width), r.event? width) := by
  obtain ⟨frame, hhead, rfl⟩ := Option.map_eq_some_iff.1 hr
  obtain ⟨rest, hitems⟩ := List.head?_eq_some_iff.1 hhead
  have htake : s.flushHeld.state.link.inbound.take =
      some (frame, { s.link.inbound with items := s.link.inbound.items.tail }) := by
    show s.link.inbound.take = _
    rw [Pipe.take, hitems]
    rfl
  refine ⟨(s.resolver.depacketizer.depacketize frame.payload).1,
    Depacketizer.reset_depacketize _ _, ?_⟩
  obtain ⟨hresolver, hmessage⟩ := hear_spec (r := s.flushHeld.state.resolver) hb.reads s.localIp frame
  have hmessage' : (s.flushHeld.state.resolver.hear s.flushHeld.state.localIp frame).2.1 =
      (Arp.message? width frame).filter (·.targetIp == s.localIp) := hmessage
  have hresolver' : (s.flushHeld.state.resolver.hear s.flushHeld.state.localIp frame).1 = _ :=
    hresolver
  rw [listen, htake]
  dsimp only [hearFrame]
  rw [hmessage', hresolver']
  unfold Reception.event? Reception.tally Reception.message?
  dsimp only
  cases (Arp.message? width frame).filter (·.targetIp == s.localIp) with
  | none =>
    dsimp only
    simp only [or_true, if_true, ite_self]
    rfl
  | some m =>
    dsimp only
    have hphase : s.flushHeld.state.resolver.phase = s.resolver.phase := rfl
    by_cases hidle : s.resolver.phase = .idle
    · rw [if_pos (hphase.trans hidle)]
      simp only [hidle, true_or, if_true, Tally.ofMessage]
      cases m.operation <;> rfl
    · rw [if_neg (fun h => hidle (hphase.symm.trans h))]
      simp only [hidle, false_or, if_false, reduceCtorEq, Tally.ofMessage]
      cases m.operation <;> rfl

/-- With or without a frame, a step makes its transition from what is held. -/
theorem listen_note (hb : s.Built width mac) :
    ∃ inbound depacketizer tally, depacketizer.reset = s.resolver.depacketizer.reset ∧
      s.listen.1 = s.flushHeld.state.note inbound depacketizer tally := by
  cases hr : s.reception with
  | none =>
    exact ⟨s.link.inbound, s.resolver.depacketizer, {}, rfl, congrArg (·.1) (listen_of_none hr)⟩
  | some r =>
    obtain ⟨depacketizer, hreset, hlisten⟩ := listen_eq hb hr
    exact ⟨_, depacketizer, _, hreset, congrArg (·.1) hlisten⟩

/-! ## §4. Single steps. -/

/-- A machine that waits does so whatever a frame has left behind. -/
theorem Waits.note (hw : Waits now s event) (inbound : Pipe Ethernet.Frame)
    (depacketizer : Depacketizer) (tally : Tally) :
    Waits now (s.note inbound depacketizer tally) event :=
  hw.of_same rfl rfl rfl rfl rfl

/-- The transitions of a busy machine are the same whatever a frame has left behind: they move
other counters. -/
theorem Transition.note {log : List Log.Line} (ht : Transition now s event t phase log)
    (hbusy : s.resolver.phase ≠ .idle) (inbound : Pipe Ethernet.Frame)
    (depacketizer : Depacketizer) (tally : Tally) :
    Transition now (s.note inbound depacketizer tally) event (t.note inbound depacketizer tally)
      phase log := by
  cases ht with
  | told _ hphase | heard _ hphase | ignored _ hphase | gaveUp _ hphase | retried _ hphase
  | took _ _ hphase => exact absurd hphase hbusy
  | replied _ ip mac hphase hslot => exact .replied _ ip mac hphase hslot
  | matched _ mac hphase => exact .matched _ mac hphase
  | mismatched _ ip mac hphase hother => exact .mismatched _ ip mac hphase hother
  | learned _ ip mac hphase => exact .learned _ ip mac hphase
  | remembered _ mac hphase hfound => exact .remembered _ mac hphase hfound
  | missed _ hphase hmissing => exact .missed _ hphase hmissing
  | asked _ hphase hslot => exact .asked _ hphase hslot
  | presented _ answer hphase hslot => exact .presented _ answer hphase hslot

/-- A busy machine does not see what a frame has left behind. -/
theorem turn_note (hbusy : s.resolver.phase ≠ .idle) (inbound : Pipe Ethernet.Frame)
    (depacketizer : Depacketizer) (tally : Tally) (now : Nat) :
    ((s.note inbound depacketizer tally).turn now none).state =
      (s.turn now none).state.note inbound depacketizer tally := by
  have htransition : (s.note inbound depacketizer tally).transition now none =
      (s.transition now none).map fun (t, phase, log) =>
        (t.note inbound depacketizer tally, phase, log) := by
    cases ht : s.transition now none with
    | none => exact ((transition_eq_none_iff.1 ht).note inbound depacketizer tally).none_made
    | some next =>
      obtain ⟨t, phase, log⟩ := next
      exact ((transition_eq_some_iff.1 ht).note hbusy inbound depacketizer tally).made
  unfold turn
  rw [htransition]
  cases s.transition now none with
  | none => rfl
  | some next => rfl

/-- The station with no frame to take. -/
def deaf (s : Station) : Station :=
  { s with link := { s.link with inbound := { s.link.inbound with items := [] } } }

/-- **A frame that comes to a busy machine changes nothing but counters**: but
for these, and for what the stage forgets anyway, the step is the one without
the frame. -/
theorem step_busy (hb : s.Built width mac) {r : Reception} (hr : s.reception = some r)
    (hbusy : s.resolver.phase ≠ .idle) (now : Nat) :
    ∃ depacketizer : Depacketizer, depacketizer.reset = s.resolver.depacketizer.reset ∧
      (s.step now).state =
        (s.deaf.step now).state.note { s.link.inbound with items := s.link.inbound.items.tail }
          depacketizer (r.tally width) := by
  obtain ⟨depacketizer, hreset, hlisten⟩ := listen_eq hb hr
  have hevent : r.event? width = none := by
    obtain ⟨frame, -, rfl⟩ := Option.map_eq_some_iff.1 hr
    exact if_neg hbusy
  have hbusy' : s.flushHeld.state.resolver.phase ≠ .idle := hbusy
  have hdeaf : (s.deaf.step now).state = (s.flushHeld.state.turn now none).state.note
      { s.link.inbound with items := [] } s.resolver.depacketizer {} := by
    have hnone : s.deaf.reception = none := rfl
    have hquiet : s.deaf.flushHeld.state = s.flushHeld.state.note
      { s.link.inbound with items := [] } s.resolver.depacketizer {} := rfl
    rw [state_step, listen_of_none hnone, hquiet]
    exact turn_note hbusy' _ _ _ now
  refine ⟨depacketizer, hreset, ?_⟩
  rw [state_step, hlisten, hevent, turn_note hbusy', hdeaf]
  rfl

/-- A request that comes to an idle machine is the next thing it attends to. -/
theorem step_request (hb : s.Built width mac) {r : Reception} (hr : s.reception = some r)
    (hidle : s.resolver.phase = .idle) {m : Message} (hm : r.message? width = some m)
    (hrequest : m.operation = .request) (now : Nat) :
    (s.step now).state.resolver.cache = s.resolver.cache ∧
      (s.step now).state.resolver.phase = .sendReply m.senderIp m.senderMac := by
  obtain ⟨depacketizer, -, hlisten⟩ := listen_eq hb hr
  have hevent : r.event? width = some m := by
    obtain ⟨frame, -, rfl⟩ := Option.map_eq_some_iff.1 hr
    exact (if_pos hidle).trans hm
  let u := s.flushHeld.state.note { s.link.inbound with items := s.link.inbound.items.tail }
    depacketizer (r.tally width)
  have hphase : u.resolver.phase = .idle := hidle
  have htold : Transition now u (some m) u (.sendReply m.senderIp m.senderMac) [] :=
    .told m hphase hrequest
  rw [state_step, hlisten, hevent]
  show (u.turn now (some m)).state.resolver.cache = _ ∧ _
  unfold turn
  rw [htold.made]
  exact ⟨rfl, rfl⟩

/-- Is the slot for a frame free, or does it become free with this step? -/
def canSend (s : Station) : Bool :=
  s.resolver.heldFrame.isNone || s.link.outbound.closed || s.link.outbound.hasRoom

theorem canSend_iff (s : Station) :
    s.canSend = true ↔ s.flushHeld.state.resolver.heldFrame = none := by
  show _ ↔ (flush s.resolver.heldFrame s.link.outbound).2.1 = none
  unfold canSend flush Pipe.offer
  cases s.resolver.heldFrame with
  | none => simp
  | some frame =>
    cases hclosed : s.link.outbound.closed with
    | true => simp
    | false =>
      by_cases hroom : s.link.outbound.hasRoom
      · simp [hroom]
      · simp [hroom]

/-- **The reply leaves once the slot is free**, and until then the machine waits. -/
theorem step_sendReply (hb : s.Built width mac) {ip : Ipv4} {target : MacAddress}
    (hphase : s.resolver.phase = .sendReply ip target) (now : Nat) :
    let t := (s.step now).state
    t.resolver.cache = s.resolver.cache ∧
      (s.canSend = true → t.resolver.phase = .idle ∧ (s.link.outbound.closed = false →
        t.outgoing = s.outgoing ++ [(s.message .reply target ip).frame width])) ∧
      (s.canSend = false → t.resolver.phase = .sendReply ip target ∧ t.outgoing = s.outgoing) := by
  intro t
  obtain ⟨inbound, depacketizer, tally, hreset, hlisten⟩ := listen_note hb
  let u := s.flushHeld.state.note inbound depacketizer tally
  have hu : u.Built width mac := ⟨hb.mac, hb.writes, hreset.trans hb.reads⟩
  have ht : t = (u.turn now s.listen.2).state := by
    show (s.step now).state = _
    rw [state_step, hlisten]
  have hout : s.link.outbound.closed = false → u.outgoing = s.outgoing :=
    fun hopen => (flush_items hopen s.resolver.heldFrame).1
  have hsame : u.resolver.phase = .sendReply ip target := hphase
  by_cases hsend : s.canSend = true
  · have hfree : u.resolver.heldFrame = none := (canSend_iff s).1 hsend
    have hturn : t = { (u.send .reply target ip).1 with
        resolver := { (u.send .reply target ip).1.resolver with
          phase := .idle
          stats := { (u.send .reply target ip).1.resolver.stats with
            txReplies := (u.send .reply target ip).1.resolver.stats.txReplies + 1 } } } := by
      have hreplied : Transition now u s.listen.2 _ _ _ := .replied _ ip target hsame hfree
      rw [ht, turn, hreplied.made]
      rfl
    rw [hturn, send_eq hu]
    refine ⟨rfl, fun _ => ⟨rfl, ?_⟩, fun h => absurd (hsend.symm.trans h) (by decide)⟩
    intro hopen
    have hopen' : u.link.outbound.closed = false := (closed_flush _ _).trans hopen
    have hmoved := (outgoing_sendOrHold hfree ((u.message .reply target ip).frame width)).1 hopen'
    rw [hout hopen] at hmoved
    exact hmoved
  · have hheld : u.resolver.heldFrame ≠ none := fun h => hsend ((canSend_iff s).2 h)
    have hturn : t = u := by
      have hblocked : Waits now u s.listen.2 := .replyBlocked _ ip target hsame hheld
      rw [ht, turn, hblocked.none_made]
      rfl
    have hopen : s.link.outbound.closed = false := by
      rw [canSend] at hsend
      simp only [Bool.or_eq_true, not_or, Bool.not_eq_true] at hsend
      exact hsend.1.2
    rw [hturn]
    exact ⟨rfl, fun h => absurd h hsend, fun _ => ⟨hphase, hout hopen⟩⟩

end Station
end NetBoard.Arp
