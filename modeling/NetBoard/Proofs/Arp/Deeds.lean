/-
  NetBoard.Proofs.Arp.Deeds
  ─────────────────────────
  **WHAT IS DONE FOR A LOOKUP.**

  Of the work on lookups four things are seen from outside: that one is taken,
  that a reply is heard, that a request is built, and that there is an answer.
  A step does at most one of these, and each belongs to one transition of the
  machine, with its guards and with what it leaves of the target, the count of
  requests and the deadline.

  Main definitions:

      Deed      — what can be seen of the work on lookups
      Advances  — the transitions of the machine, with their deeds
      Works     — what becomes of the lookups in a step

  Main statements:

      Transition.works  — there are no other transitions
      step_works        — a step is one of them
-/
import NetBoard.Proofs.Arp.Transitions

namespace NetBoard.Arp

/-! ## §1. Deeds. -/

/-- What can be seen of the work on lookups. -/
inductive Deed where
  /-- A lookup is taken from the table. -/
  | taken (ip : Ipv4)
  /-- The idle machine hears a reply for the station, from this address. -/
  | heard (ip : Ipv4) (mac : MacAddress)
  /-- A request for the address is built. -/
  | asked (ip : Ipv4)
  /-- There is an answer, from the cache or not. -/
  | answered (answer : Answer) (cached : Bool)
  deriving Repr, DecidableEq

/-- The lookup that is taken. -/
def Deed.taken? : Deed → Option Ipv4
  | taken ip => some ip
  | _ => none

/-- The address that is asked for. -/
def Deed.wanted? : Deed → Option Ipv4
  | asked ip => some ip
  | _ => none

/-- The mapping that a reply states. -/
def Message.mapping? (m : Message) : Option (Ipv4 × MacAddress) :=
  match m.operation with
  | .request => none
  | .reply => some (m.senderIp, m.senderMac)

theorem Message.mapping?_request {m : Message} (h : m.operation = .request) : m.mapping? = none := by
  rw [mapping?, h]

theorem Message.mapping?_reply {m : Message} (h : m.operation = .reply) :
    m.mapping? = some (m.senderIp, m.senderMac) := by
  rw [mapping?, h]

/-- The answer that is there once a phase has been followed by another. -/
def Phase.answered? (before after : Phase) : Option Deed :=
  match before.presented, after.presented with
  | none, some answer => some (.answered answer (before = .checkTable))
  | _, _ => none

namespace Station

/-- What was done until `s` has become `t`, with the message that was heard. -/
def deeds (event : Option Message) (s t : Station) : List Deed :=
  (s.table.lookups.taken t.table.lookups).map .taken ++
    (event.bind Message.mapping?).toList.map (fun (ip, mac) => .heard ip mac) ++
    (s.asked t).map .asked ++ (s.resolver.phase.answered? t.resolver.phase).toList

/-! ## §2. Transitions. -/

/-- What a transition depends on, but for the tables. -/
structure Footing where
  parameters : Parameters
  phase : Phase
  target : Ipv4
  requests : Nat
  deadline : Option Nat

def footing (s : Station) : Footing where
  parameters := s.resolver.parameters
  phase := s.resolver.phase
  target := s.resolver.target
  requests := s.resolver.requests
  deadline := s.resolver.deadline

/-- **The transitions of the machine**, each with what it does. -/
inductive Advances (now : Nat) (f : Footing) : List Deed → Footing → Prop
  | waits : Advances now f [] f
  /-- Somebody asks for the address of the board. -/
  | told (ip : Ipv4) (mac : MacAddress) (hphase : f.phase = .idle) :
    Advances now f [] { f with phase := .sendReply ip mac }
  | replied (ip : Ipv4) (mac : MacAddress) (hphase : f.phase = .sendReply ip mac) :
    Advances now f [] { f with phase := .idle }
  /-- A reply that nobody waits for is forgotten. -/
  | ignored (ip : Ipv4) (mac : MacAddress) (hphase : f.phase = .idle) (hfree : f.deadline = none) :
    Advances now f [.heard ip mac] f
  | heard (ip : Ipv4) (mac : MacAddress) (hphase : f.phase = .idle) (hwaits : f.deadline ≠ none) :
    Advances now f [.heard ip mac] { f with phase := .checkRequest ip mac }
  | matched (mac : MacAddress) (hphase : f.phase = .checkRequest f.target mac) :
    Advances now f [] { f with phase := .updateTable f.target mac }
  | mismatched (ip : Ipv4) (mac : MacAddress) (hphase : f.phase = .checkRequest ip mac)
      (hother : ip ≠ f.target) :
    Advances now f [] { f with phase := .idle }
  | learned (ip : Ipv4) (mac : MacAddress) (hphase : f.phase = .updateTable ip mac) :
    Advances now f [.answered ⟨ip, some mac⟩ false]
      { f with phase := .presentResponse ⟨ip, some mac⟩, requests := 0, deadline := none }
  | gaveUp (deadline : Nat) (hphase : f.phase = .idle) (hwaits : f.deadline = some deadline)
      (hdue : deadline ≤ now) (hmost : f.parameters.maxRequests ≤ f.requests) :
    Advances now f [.answered ⟨f.target, none⟩ false]
      { f with phase := .presentResponse ⟨f.target, none⟩, requests := 0, deadline := none }
  | retried (deadline : Nat) (hphase : f.phase = .idle) (hwaits : f.deadline = some deadline)
      (hdue : deadline ≤ now) (hmore : f.requests < f.parameters.maxRequests) :
    Advances now f [] { f with phase := .sendRequest }
  | took (ip : Ipv4) (hphase : f.phase = .idle) (hfree : f.deadline = none) :
    Advances now f [.taken ip]
      { f with phase := .checkTable, target := ip, requests := 0, deadline := none }
  | remembered (mac : MacAddress) (hphase : f.phase = .checkTable) :
    Advances now f [.answered ⟨f.target, some mac⟩ true]
      { f with phase := .presentResponse ⟨f.target, some mac⟩ }
  | missed (hphase : f.phase = .checkTable) : Advances now f [] { f with phase := .sendRequest }
  | asked (hphase : f.phase = .sendRequest) :
    Advances now f [.asked f.target]
      { f with
        phase := .idle
        requests := f.requests + 1
        deadline := some (now + f.parameters.timeout) }
  | presented (answer : Answer) (hphase : f.phase = .presentResponse answer) :
    Advances now f [] { f with phase := .idle }

/-- What becomes of the lookups while `s` becomes `t`. -/
structure Works (now : Nat) (event : Option Message) (s t : Station) : Prop where
  advances : Advances now s.footing (s.deeds event t) t.footing
  lookups : s.table.lookups.items =
    s.table.lookups.taken t.table.lookups ++ t.table.lookups.items
  cached : ∀ a, .answered a true ∈ s.deeds event t → (s.resolver.cache.lookup a.ip now).2 = a.mac

variable {event : Option Message} {s t : Station} {phase : Phase} {now : Nat}

/-- A transition that takes no lookup, by what happens to each part of the machine. -/
theorem Works.of_kept (mapping : Option (Ipv4 × MacAddress)) (asked : List Ipv4)
    (answered : Option Deed) (hlookups : t.table.lookups = s.table.lookups)
    (hmapping : event.bind Message.mapping? = mapping) (hasked : s.asked t = asked)
    (hanswered : s.resolver.phase.answered? t.resolver.phase = answered)
    (hadvances : Advances now s.footing
      (mapping.toList.map (fun (ip, mac) => .heard ip mac) ++ asked.map .asked ++ answered.toList)
      t.footing)
    (hcached : ∀ a, answered = some (.answered a true) →
      (s.resolver.cache.lookup a.ip now).2 = a.mac) : Works now event s t := by
  have htaken : s.table.lookups.taken t.table.lookups = [] := by
    apply Pipe.taken_eq
    rw [hlookups]
    rfl
  have hdeeds : s.deeds event t =
      mapping.toList.map (fun (ip, mac) => .heard ip mac) ++ asked.map .asked ++ answered.toList := by
    rw [deeds, htaken, hmapping, hasked, hanswered]
    rfl
  refine ⟨hdeeds ▸ hadvances, ?_, ?_⟩
  · rw [htaken, hlookups]
    rfl
  · intro a ha
    rw [hdeeds] at ha
    apply hcached
    simpa using ha

/-- A transition that is none of the lookups' business. -/
theorem Works.of_silent {before : Phase} (hphase : s.resolver.phase = before)
    (hlookups : t.table.lookups = s.table.lookups)
    (hmapping : event.bind Message.mapping? = none)
    (hcount : t.resolver.stats.txRequests = s.resolver.stats.txRequests)
    (hanswered : before.answered? t.resolver.phase = none)
    (hadvances : Advances now s.footing [] t.footing) : Works now event s t :=
  .of_kept none [] none hlookups hmapping (asked_of_same hcount) (hphase ▸ hanswered) hadvances nofun

/-- A transition that brings an answer; one from the cache is what the cache holds. -/
theorem Works.of_answer (answer : Answer) {cached : Bool} {before : Phase}
    (hphase : s.resolver.phase = before) (hlookups : t.table.lookups = s.table.lookups)
    (hmapping : event.bind Message.mapping? = none)
    (hcount : t.resolver.stats.txRequests = s.resolver.stats.txRequests)
    (hanswered : before.answered? t.resolver.phase = some (.answered answer cached))
    (hadvances : Advances now s.footing [.answered answer cached] t.footing)
    (hcached : cached = true → (s.resolver.cache.lookup answer.ip now).2 = answer.mac) :
    Works now event s t := by
  refine .of_kept none [] (some (.answered answer cached)) hlookups hmapping (asked_of_same hcount)
    (hphase ▸ hanswered) hadvances ?_
  intro a ha
  cases ha
  exact hcached rfl

/-! ## §3. The machine makes no others. -/

/-- No answer is there while the machine is idle. -/
theorem answered?_idle {before : Phase} : before.answered? .idle = none := by
  cases before <;> rfl

/-- A lookup is taken from the table, and nothing else is done. -/
theorem took_works (hidle : s.resolver.phase = .idle) (hfree : s.resolver.deadline = none)
    {target : Ipv4} {lookups : Pipe Ipv4} (htake : s.table.lookups.take = some (target, lookups)) :
    Works now none s (Station.enter
      { s with table := { s.table with lookups }
               resolver := { s.resolver with target, requests := 0 } }
      .checkTable) := by
  let t : Station := { s with
    table := { s.table with lookups }
    resolver := { s.resolver with target, requests := 0 } }
  have hitems : s.table.lookups.items = [target] ++ lookups.items := (Pipe.take_eq_some htake).1
  have htaken : s.table.lookups.taken lookups = [target] := Pipe.taken_eq hitems
  have hasked : s.asked (t.enter .checkTable) = [] := asked_of_same rfl
  have hdeeds : s.deeds none (t.enter .checkTable) = [.taken target] := by
    show (s.table.lookups.taken lookups).map Deed.taken ++ [] ++
      (s.asked (t.enter .checkTable)).map Deed.asked ++
      (s.resolver.phase.answered? .checkTable).toList = _
    rw [htaken, hasked, hidle]
    rfl
  have hfooting : (t.enter .checkTable).footing =
      { s.footing with phase := .checkTable, target, requests := 0, deadline := none } :=
    congrArg (fun deadline => { (t.enter .checkTable).footing with deadline }) hfree
  refine ⟨?_, ?_, ?_⟩
  · rw [hdeeds]
    show Advances now s.footing _ (t.enter .checkTable).footing
    rw [hfooting]
    exact .took target hidle hfree
  · show s.table.lookups.items = s.table.lookups.taken lookups ++ lookups.items
    rw [htaken]
    exact hitems
  · intro a ha
    rw [hdeeds] at ha
    simp at ha

/-- A reply that nobody waits for is heard, and leaves the machine as it is. -/
theorem ignored_works {m : Message} (hidle : s.resolver.phase = .idle) (hreply : m.operation = .reply)
    (hfree : s.resolver.deadline = none) : Works now (some m) s (s.enter .idle) := by
  have hsame : (s.enter .idle).footing = s.footing := by
    unfold footing enter
    rw [hidle]
  refine .of_kept (some (m.senderIp, m.senderMac)) [] none rfl (Message.mapping?_reply hreply)
    (asked_of_same rfl) answered?_idle ?_ nofun
  rw [hsame]
  exact .ignored m.senderIp m.senderMac hidle hfree

/-- **A transition does what `Advances` says.**  A message comes to an idle machine only. -/
theorem Transition.works (hevent : s.resolver.phase ≠ .idle → event = none) {log : List Log.Line}
    (ht : Transition now s event t phase log) : Works now event s (t.enter phase) := by
  have hnone : ∀ {p : Phase}, s.resolver.phase = p → p ≠ .idle → event = none :=
    fun hphase hbusy => hevent (hphase ▸ hbusy)
  cases ht with
  | told m hphase hrequest =>
    refine .of_silent hphase rfl (Message.mapping?_request hrequest) rfl rfl ?_
    exact .told m.senderIp m.senderMac hphase
  | heard m hphase hreply hwaits =>
    refine .of_kept (some (m.senderIp, m.senderMac)) [] none rfl (Message.mapping?_reply hreply)
      (asked_of_same rfl) ?_ (.heard m.senderIp m.senderMac hphase hwaits) nofun
    rw [hphase]
    rfl
  | ignored m hphase hreply hfree => exact ignored_works hphase hreply hfree
  | gaveUp deadline hphase hwaits hdue hmost =>
    exact .of_answer ⟨s.resolver.target, none⟩ hphase rfl rfl rfl rfl
      (.gaveUp deadline hphase hwaits hdue hmost) nofun
  | retried deadline hphase hwaits hdue hmore =>
    exact .of_silent hphase rfl rfl rfl rfl (.retried deadline hphase hwaits hdue hmore)
  | took target lookups hphase hfree htake => exact took_works hphase hfree htake
  | replied _ ip target hphase _ =>
    obtain rfl := hnone hphase nofun
    exact .of_silent hphase rfl rfl rfl rfl (.replied ip target hphase)
  | matched _ reporter hphase =>
    obtain rfl := hnone hphase nofun
    exact .of_silent hphase rfl rfl rfl rfl (.matched reporter hphase)
  | mismatched _ ip reporter hphase hother =>
    obtain rfl := hnone hphase nofun
    exact .of_silent hphase rfl rfl rfl rfl (.mismatched ip reporter hphase hother)
  | learned _ ip reporter hphase =>
    obtain rfl := hnone hphase nofun
    exact .of_answer ⟨ip, some reporter⟩ hphase rfl rfl rfl rfl (.learned ip reporter hphase) nofun
  | remembered _ found hphase hfound =>
    obtain rfl := hnone hphase nofun
    exact .of_answer ⟨s.resolver.target, some found⟩ hphase rfl rfl rfl rfl
      (.remembered found hphase) (fun _ => hfound)
  | missed _ hphase _ =>
    obtain rfl := hnone hphase nofun
    exact .of_silent hphase rfl rfl rfl rfl (.missed hphase)
  | asked _ hphase _ =>
    obtain rfl := hnone hphase nofun
    exact .of_kept none [s.resolver.target] none rfl rfl
      (asked_of_next (t := Station.enter _ .idle) rfl) answered?_idle (.asked hphase) nofun
  | presented _ answer hphase _ =>
    obtain rfl := hnone hphase nofun
    exact .of_silent hphase rfl rfl rfl rfl (.presented answer hphase)

theorem turn_works (hevent : s.resolver.phase ≠ .idle → event = none) (now : Nat) :
    Works now event s (s.turn now event).state := by
  unfold turn
  cases ht : s.transition now event with
  | none =>
    obtain ⟨rfl, -⟩ := (transition_eq_none_iff.1 ht).silent hevent
    refine .of_silent rfl rfl rfl rfl ?_ .waits
    show s.resolver.phase.answered? s.resolver.phase = none
    cases s.resolver.phase <;> rfl
  | some next =>
    obtain ⟨t, phase, log⟩ := next
    exact (transition_eq_some_iff.1 ht).works hevent

/-! ## §4. Steps. -/

/-- The machine never changes how persistent it is. -/
theorem Advances.parameters {f f' : Footing} {new : List Deed} (h : Advances now f new f') :
    f'.parameters = f.parameters := by
  cases h <;> rfl

/-- An answer is neither a lookup nor a request. -/
theorem answered?_silent {before after : Phase} :
    (before.answered? after).toList.filterMap Deed.taken? = [] ∧
      (before.answered? after).toList.filterMap Deed.wanted? = [] := by
  unfold Phase.answered?
  split <;> exact ⟨rfl, rfl⟩

theorem taken_deeds : (s.deeds event t).filterMap Deed.taken? =
    s.table.lookups.taken t.table.lookups := by
  unfold deeds
  rw [List.filterMap_append, answered?_silent.1]
  simp [Function.comp_def, Deed.taken?]

theorem wanted_deeds : (s.deeds event t).filterMap Deed.wanted? = s.asked t := by
  unfold deeds
  have hnone : ∀ {α : Type} (xs : List α), xs.filterMap (fun _ => (none : Option Ipv4)) = [] :=
    fun xs => List.filterMap_eq_nil_iff.2 fun _ _ => rfl
  rw [List.filterMap_append, answered?_silent.2]
  simp [Function.comp_def, Deed.wanted?, hnone]

/-- The message that a step hears. -/
def event? (width : Nat) (s : Station) : Option Message := s.reception.bind (·.event? width)

theorem listen_event {width : Nat} {mac : MacAddress} (hb : s.Built width mac) :
    s.listen.2 = s.event? width := by
  unfold event?
  cases hr : s.reception with
  | none =>
    rw [listen_of_none hr]
    rfl
  | some r =>
    obtain ⟨_, -, hlisten⟩ := listen_eq hb hr
    rw [hlisten]
    rfl

/-- A busy machine hears nothing. -/
theorem event?_busy {width : Nat} (hbusy : s.resolver.phase ≠ .idle) : s.event? width = none := by
  unfold event?
  cases hr : s.reception with
  | none => rfl
  | some r =>
    obtain ⟨frame, -, rfl⟩ := Option.map_eq_some_iff.1 hr
    exact if_neg hbusy

/-- **So does a step**: what it passes on and hears before is not about the lookups. -/
theorem step_works {width : Nat} {mac : MacAddress} (hb : s.Built width mac) (now : Nat) :
    Works now (s.event? width) s (s.step now).state := by
  obtain ⟨u, hu⟩ : ∃ u, u = s.listen.1 := ⟨_, rfl⟩
  obtain ⟨inbound, depacketizer, tally, -, hnote⟩ := listen_note hb
  rw [← hu] at hnote
  have hfooting : u.footing = s.footing := by
    rw [hnote]
    rfl
  have hlookups : u.table.lookups = s.table.lookups := by
    rw [hnote]
    rfl
  have hcount : u.resolver.stats.txRequests = s.resolver.stats.txRequests := by
    rw [hnote]
    rfl
  have hcache : u.resolver.cache = s.resolver.cache := by
    rw [hnote]
    rfl
  have hphase : u.resolver.phase = s.resolver.phase := congrArg (·.phase) hfooting
  -- the deeds are counted from what has not moved yet
  have hdeeds : ∀ t, u.deeds (s.event? width) t = s.deeds (s.event? width) t := by
    intro t
    unfold deeds asked
    rw [hlookups, hcount, hphase]
  have hworks : Works now (s.event? width) u (u.turn now (s.event? width)).state :=
    turn_works (fun hbusy => event?_busy (hphase ▸ hbusy)) now
  rw [state_step, ← hu, listen_event hb]
  obtain ⟨hadvances, hkept, hcached⟩ := hworks
  rw [hdeeds, hfooting] at hadvances
  rw [hlookups] at hkept
  rw [hdeeds, hcache] at hcached
  exact ⟨hadvances, hkept, hcached⟩

end Station
end NetBoard.Arp
