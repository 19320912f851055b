/-
  NetBoard.Proofs.Arp.Machine
  ───────────────────────────
  **THE TRANSITIONS OF THE RESOLVER.**

  In each of its seven phases the machine either makes a transition or has to
  wait.  Here the transitions are listed, each with its guards, with the
  machine after it and with what it logs, and so is every reason to wait.
  Whatever is to be said of a transition is said of the list, one case at a
  time.

  Main definitions:

      Transition — the transitions, with their guards
      Waits      — why the machine makes none

  Main statements:

      transition_eq_some_iff — the machine makes the transitions of the list
      transition_eq_none_iff — it waits for one of these reasons
-/
import NetBoard.Arp.Resolver

namespace NetBoard.Arp.Station

/-! ## §1. The list. -/

/-- **The transitions of the machine**: where they lead to, the next phase, and what is logged. -/
inductive Transition (now : Nat) (s : Station) :
    Option Message → Station → Phase → List Log.Line → Prop
  /-- Somebody asks for the address of the board. -/
  | told (m : Message) (hphase : s.resolver.phase = .idle) (hrequest : m.operation = .request) :
    Transition now s (some m) s (.sendReply m.senderIp m.senderMac) []
  /-- A reply comes while a request is outstanding. -/
  | heard (m : Message) (hphase : s.resolver.phase = .idle) (hreply : m.operation = .reply)
      (hwaits : s.resolver.deadline ≠ none) :
    Transition now s (some m) s (.checkRequest m.senderIp m.senderMac) []
  /-- A reply that nobody waits for is forgotten. -/
  | ignored (m : Message) (hphase : s.resolver.phase = .idle) (hreply : m.operation = .reply)
      (hfree : s.resolver.deadline = none) :
    Transition now s (some m) s .idle []
  /-- No reply in time, and no request left. -/
  | gaveUp (deadline : Nat) (hphase : s.resolver.phase = .idle)
      (hwaits : s.resolver.deadline = some deadline) (hdue : deadline ≤ now)
      (hmost : s.resolver.parameters.maxRequests ≤ s.resolver.requests) :
    Transition now s none
      { s with resolver := { s.resolver.settle with
          stats := { s.resolver.stats with failed := s.resolver.stats.failed + 1 } } }
      (.presentResponse ⟨s.resolver.target, none⟩)
      [⟨Log.medium, Resolver.source, s!"no reply from {s.resolver.target.text}, giving up"⟩]
  /-- No reply in time: the request is repeated. -/
  | retried (deadline : Nat) (hphase : s.resolver.phase = .idle)
      (hwaits : s.resolver.deadline = some deadline) (hdue : deadline ≤ now)
      (hmore : s.resolver.requests < s.resolver.parameters.maxRequests) :
    Transition now s none s .sendRequest []
  /-- The oldest lookup is taken. -/
  | took (target : Ipv4) (lookups : Pipe Ipv4) (hphase : s.resolver.phase = .idle)
      (hfree : s.resolver.deadline = none)
      (htake : s.table.lookups.take = some (target, lookups)) :
    Transition now s none
      { s with
        table := { s.table with lookups }
        resolver := { s.resolver with target, requests := 0 } } .checkTable []
  /-- The reply to who has asked is sent. -/
  | replied (event : Option Message) (ip : Ipv4) (mac : MacAddress)
      (hphase : s.resolver.phase = .sendReply ip mac) (hslot : s.resolver.heldFrame = none) :
    Transition now s event
      { (s.send .reply mac ip).1 with
        resolver := { (s.send .reply mac ip).1.resolver with
          stats := { (s.send .reply mac ip).1.resolver.stats with
            txReplies := (s.send .reply mac ip).1.resolver.stats.txReplies + 1 } } }
      .idle (s.send .reply mac ip).2
  /-- The reply is the one that is waited for. -/
  | matched (event : Option Message) (mac : MacAddress)
      (hphase : s.resolver.phase = .checkRequest s.resolver.target mac) :
    Transition now s event s (.updateTable s.resolver.target mac) []
  /-- The reply of another station leaves the request outstanding. -/
  | mismatched (event : Option Message) (ip : Ipv4) (mac : MacAddress)
      (hphase : s.resolver.phase = .checkRequest ip mac) (hother : ip ≠ s.resolver.target) :
    Transition now s event s .idle []
  /-- The mapping enters the cache. -/
  | learned (event : Option Message) (ip : Ipv4) (mac : MacAddress)
      (hphase : s.resolver.phase = .updateTable ip mac) :
    Transition now s event
      { s with resolver := { s.resolver.settle with
          cache := s.resolver.cache.insert ip mac now
          stats := { s.resolver.stats with resolved := s.resolver.stats.resolved + 1 } } }
      (.presentResponse ⟨ip, some mac⟩) []
  /-- The cache has a mapping. -/
  | remembered (event : Option Message) (mac : MacAddress)
      (hphase : s.resolver.phase = .checkTable)
      (hfound : (s.resolver.cache.lookup s.resolver.target now).2 = some mac) :
    Transition now s event
      { s with resolver := { s.resolver with
          cache := (s.resolver.cache.lookup s.resolver.target now).1 } }
      (.presentResponse ⟨s.resolver.target, some mac⟩) []
  /-- The cache has none. -/
  | missed (event : Option Message) (hphase : s.resolver.phase = .checkTable)
      (hmissing : (s.resolver.cache.lookup s.resolver.target now).2 = none) :
    Transition now s event
      { s with resolver := { s.resolver with
          cache := (s.resolver.cache.lookup s.resolver.target now).1 } }
      .sendRequest []
  /-- The request is sent, and the time counts from here. -/
  | asked (event : Option Message) (hphase : s.resolver.phase = .sendRequest)
      (hslot : s.resolver.heldFrame = none) :
    Transition now s event
      { (s.send .request .broadcast s.resolver.target).1 with
        resolver := { (s.send .request .broadcast s.resolver.target).1.resolver with
          requests := (s.send .request .broadcast s.resolver.target).1.resolver.requests + 1
          deadline := some (now + s.resolver.parameters.timeout)
          stats := { (s.send .request .broadcast s.resolver.target).1.resolver.stats with
            txRequests :=
              (s.send .request .broadcast s.resolver.target).1.resolver.stats.txRequests + 1 } } }
      .idle (s.send .request .broadcast s.resolver.target).2
  /-- The answer is put on its way. -/
  | presented (event : Option Message) (answer : Answer)
      (hphase : s.resolver.phase = .presentResponse answer) (hslot : s.resolver.heldAnswer = none) :
    Transition now s event
      { s with
        resolver := { s.resolver with heldAnswer := (sendOrHold answer s.table.answers).1 }
        table := { s.table with answers := (sendOrHold answer s.table.answers).2 } }
      .idle []

/-- **Why the machine has to wait.** -/
inductive Waits (now : Nat) (s : Station) : Option Message → Prop
  /-- There is still time for the reply. -/
  | early (deadline : Nat) (hphase : s.resolver.phase = .idle)
      (hwaits : s.resolver.deadline = some deadline) (hearly : now < deadline) : Waits now s none
  /-- No request is outstanding, and no lookup is there. -/
  | unasked (hphase : s.resolver.phase = .idle) (hfree : s.resolver.deadline = none)
      (htake : s.table.lookups.take = none) : Waits now s none
  /-- The frame before has not left. -/
  | replyBlocked (event : Option Message) (ip : Ipv4) (mac : MacAddress)
      (hphase : s.resolver.phase = .sendReply ip mac) (hslot : s.resolver.heldFrame ≠ none) :
    Waits now s event
  /-- The frame before has not left. -/
  | requestBlocked (event : Option Message) (hphase : s.resolver.phase = .sendRequest)
      (hslot : s.resolver.heldFrame ≠ none) : Waits now s event
  /-- The answer before has not left. -/
  | answerBlocked (event : Option Message) (answer : Answer)
      (hphase : s.resolver.phase = .presentResponse answer) (hslot : s.resolver.heldAnswer ≠ none) :
    Waits now s event

variable {now : Nat} {event : Option Message} {s t : Station} {phase : Phase} {log : List Log.Line}

/-- Whether the machine waits depends on its phase, its deadline, the lookups and the two slots. -/
theorem Waits.of_same (h : Waits now s event) (hphase : t.resolver.phase = s.resolver.phase)
    (hdeadline : t.resolver.deadline = s.resolver.deadline)
    (hlookups : t.table.lookups = s.table.lookups)
    (hframe : t.resolver.heldFrame = s.resolver.heldFrame)
    (hanswer : t.resolver.heldAnswer = s.resolver.heldAnswer) : Waits now t event := by
  cases h with
  | early deadline hidle hwaits hearly =>
    exact .early deadline (hphase.trans hidle) (hdeadline.trans hwaits) hearly
  | unasked hidle hfree htake =>
    exact .unasked (hphase.trans hidle) (hdeadline.trans hfree) (hlookups ▸ htake)
  | replyBlocked _ ip mac hreply hslot =>
    exact .replyBlocked _ ip mac (hphase.trans hreply) (hframe ▸ hslot)
  | requestBlocked _ hrequest hslot =>
    exact .requestBlocked _ (hphase.trans hrequest) (hframe ▸ hslot)
  | answerBlocked _ answer hpresent hslot =>
    exact .answerBlocked _ answer (hphase.trans hpresent) (hanswer ▸ hslot)

/-! ## §2. The machine makes these transitions. -/

/-- The machine makes every transition of the list. -/
theorem Transition.made (h : Transition now s event t phase log) :
    s.transition now event = some (t, phase, log) := by
  cases h with
  | told m hphase hrequest => simp only [transition, hphase, leaveIdle, answerMessage, hrequest]
  | heard m hphase hreply hwaits =>
    have hwaiting : s.resolver.isWaiting = true := Option.isSome_iff_ne_none.2 hwaits
    simp only [transition, hphase, leaveIdle, answerMessage, hreply, if_pos hwaiting]
  | ignored m hphase hreply hfree =>
    have hwaiting : ¬s.resolver.isWaiting = true := Option.not_isSome_iff_eq_none.2 hfree
    simp only [transition, hphase, leaveIdle, answerMessage, hreply, if_neg hwaiting]
  | gaveUp deadline hphase hwaits hdue hmost =>
    simp only [transition, hphase, leaveIdle, hwaits, if_pos hdue, retry, if_pos hmost]
  | retried deadline hphase hwaits hdue hmore =>
    have hmost := Nat.not_le.2 hmore
    simp only [transition, hphase, leaveIdle, hwaits, if_pos hdue, retry, if_neg hmost]
  | took target lookups hphase hfree htake =>
    simp only [transition, hphase, leaveIdle, hfree, htake, Option.map_some]
  | replied _ ip mac hphase hslot =>
    have hroom : ¬s.resolver.heldFrame.isSome = true := Option.not_isSome_iff_eq_none.2 hslot
    simp only [transition, hphase, if_neg hroom]
  | matched _ mac hphase => simp only [transition, hphase, if_true]
  | mismatched _ ip mac hphase hother => simp only [transition, hphase, if_neg hother]
  | learned _ ip mac hphase => simp only [transition, hphase]
  | remembered _ mac hphase hfound => simp only [transition, hphase, hfound]
  | missed _ hphase hmissing => simp only [transition, hphase, hmissing]
  | asked _ hphase hslot =>
    have hroom : ¬s.resolver.heldFrame.isSome = true := Option.not_isSome_iff_eq_none.2 hslot
    simp only [transition, hphase, if_neg hroom]
    rfl
  | presented _ answer hphase hslot =>
    have hroom : ¬s.resolver.heldAnswer.isSome = true := Option.not_isSome_iff_eq_none.2 hslot
    simp only [transition, hphase, if_neg hroom]

/-- It makes none for any of the reasons to wait. -/
theorem Waits.none_made (h : Waits now s event) : s.transition now event = none := by
  cases h with
  | early deadline hphase hwaits hearly =>
    have hdue := Nat.not_le.2 hearly
    simp only [transition, hphase, leaveIdle, hwaits, if_neg hdue]
  | unasked hphase hfree htake =>
    simp only [transition, hphase, leaveIdle, hfree, htake, Option.map_none]
  | replyBlocked _ ip mac hphase hslot =>
    have hfull := Option.isSome_iff_ne_none.2 hslot
    simp only [transition, hphase, if_pos hfull]
  | requestBlocked _ hphase hslot =>
    have hfull := Option.isSome_iff_ne_none.2 hslot
    simp only [transition, hphase, if_pos hfull]
  | answerBlocked _ answer hphase hslot =>
    have hfull := Option.isSome_iff_ne_none.2 hslot
    simp only [transition, hphase, if_pos hfull]

/-! ## §3. It makes no others. -/

/-- In every state there is a transition in the list, or a reason to wait. -/
theorem moves_or_waits (now : Nat) (s : Station) (event : Option Message) :
    (∃ t phase log, Transition now s event t phase log) ∨ Waits now s event := by
  cases hphase : s.resolver.phase with
  | idle =>
    -- a message goes first, then the deadline of the request, then the next lookup
    cases event with
    | some m =>
      cases hoperation : m.operation with
      | request => exact .inl ⟨_, _, _, .told m hphase hoperation⟩
      | reply =>
        by_cases hfree : s.resolver.deadline = none
        · exact .inl ⟨_, _, _, .ignored m hphase hoperation hfree⟩
        · exact .inl ⟨_, _, _, .heard m hphase hoperation hfree⟩
    | none =>
      cases hdeadline : s.resolver.deadline with
      | some deadline =>
        by_cases hdue : deadline ≤ now
        · by_cases hmost : s.resolver.parameters.maxRequests ≤ s.resolver.requests
          · exact .inl ⟨_, _, _, .gaveUp deadline hphase hdeadline hdue hmost⟩
          · exact .inl ⟨_, _, _, .retried deadline hphase hdeadline hdue (Nat.not_le.1 hmost)⟩
        · exact .inr (.early deadline hphase hdeadline (Nat.not_le.1 hdue))
      | none =>
        cases htake : s.table.lookups.take with
        | some taken => exact .inl ⟨_, _, _, .took taken.1 taken.2 hphase hdeadline htake⟩
        | none => exact .inr (.unasked hphase hdeadline htake)
  | sendReply ip mac =>
    by_cases hslot : s.resolver.heldFrame = none
    · exact .inl ⟨_, _, _, .replied event ip mac hphase hslot⟩
    · exact .inr (.replyBlocked event ip mac hphase hslot)
  | checkRequest ip mac =>
    by_cases hmatch : ip = s.resolver.target
    · exact .inl ⟨_, _, _, .matched event mac (hmatch ▸ hphase)⟩
    · exact .inl ⟨_, _, _, .mismatched event ip mac hphase hmatch⟩
  | updateTable ip mac => exact .inl ⟨_, _, _, .learned event ip mac hphase⟩
  | checkTable =>
    cases hlookup : (s.resolver.cache.lookup s.resolver.target now).2 with
    | some mac => exact .inl ⟨_, _, _, .remembered event mac hphase hlookup⟩
    | none => exact .inl ⟨_, _, _, .missed event hphase hlookup⟩
  | sendRequest =>
    by_cases hslot : s.resolver.heldFrame = none
    · exact .inl ⟨_, _, _, .asked event hphase hslot⟩
    · exact .inr (.requestBlocked event hphase hslot)
  | presentResponse answer =>
    by_cases hslot : s.resolver.heldAnswer = none
    · exact .inl ⟨_, _, _, .presented event answer hphase hslot⟩
    · exact .inr (.answerBlocked event answer hphase hslot)

/-- **The machine makes the transitions of the list**, and no others. -/
theorem transition_eq_some_iff :
    s.transition now event = some (t, phase, log) ↔ Transition now s event t phase log := by
  constructor
  · intro h
    rcases moves_or_waits now s event with ⟨u, next, lines, hmoves⟩ | hwaits
    · cases h.symm.trans hmoves.made
      exact hmoves
    · cases h.symm.trans hwaits.none_made
  · exact Transition.made

/-- **It waits** for one of these reasons, and for no other. -/
theorem transition_eq_none_iff : s.transition now event = none ↔ Waits now s event := by
  constructor
  · intro h
    rcases moves_or_waits now s event with ⟨u, next, lines, hmoves⟩ | hwaits
    · cases h.symm.trans hmoves.made
    · exact hwaits
  · exact Waits.none_made

end NetBoard.Arp.Station
