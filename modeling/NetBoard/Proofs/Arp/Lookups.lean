/-
  NetBoard.Proofs.Arp.Lookups
  ───────────────────────────
  **EVERY LOOKUP HAS ONE ANSWER.**

  A lookup that the resolver has taken is either in progress or answered: its
  answer is being presented, held, in the pipe of answers, or delivered.  Read
  in this order, from the answers in the pipe to the lookups still waiting,
  the addresses that are owed never change by a step; a step only moves them
  on.  What may stand in the way of that are a second answer to a lookup and an
  answer for another address, and the phase of the machine excludes both.

  Main statements:

      Transition.follows      — one transition owes the same addresses
      step_settled            — so does one step
      run_balanced            — over a run, what was asked is delivered or owed
      lookups_answered_once   — answers and taken lookups correspond in order
-/
import NetBoard.Proofs.Arp.Machine
import NetBoard.Proofs.Pipe

namespace NetBoard.Arp

/-! ## §1. What is owed. -/

/-- The answer that waits to be presented. -/
def Phase.presented : Phase → Option Answer
  | .presentResponse answer => some answer
  | _ => none

/-- The lookup in progress, of the latest lookup and the outstanding request. -/
def Phase.unresolved (target : Ipv4) (deadline : Option Nat) : Phase → Option Ipv4
  | .checkTable | .sendRequest | .updateTable _ _ => some target
  | .presentResponse _ => none
  | .idle | .sendReply _ _ | .checkRequest _ _ => deadline.map fun _ => target

/-- What the machine knows in a phase of the latest lookup and the outstanding request. -/
def Phase.Fits (target : Ipv4) (deadline : Option Nat) : Phase → Prop
  | .idle | .sendReply _ _ | .sendRequest => True
  | .checkRequest _ _ => deadline ≠ none
  | .updateTable ip _ => ip = target ∧ deadline ≠ none
  | .checkTable | .presentResponse _ => deadline = none

namespace Station

/-- The lookup that was taken and has no answer yet. -/
def unresolved (s : Station) : Option Ipv4 :=
  s.resolver.phase.unresolved s.resolver.target s.resolver.deadline

/-- The answers that are not delivered yet, the oldest first. -/
def pending (s : Station) : List Answer :=
  s.table.answers.items ++ s.resolver.heldAnswer.toList ++ s.resolver.phase.presented.toList

/-- The addresses whose answers are to be delivered, in order. -/
def owed (s : Station) : List Ipv4 :=
  s.pending.map (·.ip) ++ s.unresolved.toList ++ s.table.lookups.items

/-- The asker is there, and the phase fits the rest of the machine. -/
structure Coherent (s : Station) : Prop where
  asker : s.table.answers.closed = false
  phase : s.resolver.phase.Fits s.resolver.target s.resolver.deadline

/-- The machine enters a phase. -/
def enter (s : Station) (phase : Phase) : Station :=
  { s with resolver := { s.resolver with phase } }

/-- The station `t`, entering `phase`, owes what `s` owes, and has taken a new
lookup only if `s` had none in progress. -/
structure Follows (s t : Station) (phase : Phase) : Prop where
  coherent : (t.enter phase).Coherent
  owed : (t.enter phase).owed = s.owed
  lookups : s.unresolved ≠ none → t.table.lookups = s.table.lookups

/-! ## §2. One transition. -/

variable {s t : Station} {phase : Phase} {now : Nat}

/-- Nothing is owed more or less if lookups and answers stay where they are. -/
theorem Follows.of_same (hc : s.Coherent) {before : Phase} (hphase : s.resolver.phase = before)
    (htable : t.table = s.table) (hheld : t.resolver.heldAnswer = s.resolver.heldAnswer)
    (hfits : phase.Fits t.resolver.target t.resolver.deadline)
    (hpresented : phase.presented = before.presented)
    (hunresolved : phase.unresolved t.resolver.target t.resolver.deadline =
      before.unresolved s.resolver.target s.resolver.deadline) : Follows s t phase := by
  subst hphase
  refine ⟨⟨?_, hfits⟩, ?_, ?_⟩
  · show t.table.answers.closed = false
    rw [htable]
    exact hc.asker
  · show (t.table.answers.items ++ t.resolver.heldAnswer.toList ++ phase.presented.toList).map _ ++
      (phase.unresolved t.resolver.target t.resolver.deadline).toList ++ t.table.lookups.items = _
    rw [htable, hheld, hpresented, hunresolved]
    rfl
  · intro _
    rw [htable]

/-- Presenting an answer for the lookup in progress ends it. -/
theorem Follows.of_answer (hc : s.Coherent) (answer : Answer) {before : Phase}
    (hphase : s.resolver.phase = before) (htable : t.table = s.table)
    (hheld : t.resolver.heldAnswer = s.resolver.heldAnswer) (hdeadline : t.resolver.deadline = none)
    (hpresented : before.presented = none)
    (hunresolved : before.unresolved s.resolver.target s.resolver.deadline = some answer.ip) :
    Follows s t (.presentResponse answer) := by
  subst hphase
  refine ⟨⟨?_, hdeadline⟩, ?_, ?_⟩
  · show t.table.answers.closed = false
    rw [htable]
    exact hc.asker
  · show (t.table.answers.items ++ t.resolver.heldAnswer.toList ++ [answer]).map _ ++ [] ++
      t.table.lookups.items = _
    unfold Station.owed pending unresolved
    rw [htable, hheld, hpresented, hunresolved]
    simp
  · intro _
    rw [htable]

/-- An idle machine without outstanding request takes the oldest lookup. -/
theorem took_follows (hc : s.Coherent) (hidle : s.resolver.phase = .idle)
    (hfree : s.resolver.deadline = none) {target : Ipv4} {lookups : Pipe Ipv4}
    (htake : s.table.lookups.take = some (target, lookups)) :
    Follows s { s with table := { s.table with lookups }
                       resolver := { s.resolver with target, requests := 0 } } .checkTable := by
  have hunresolved : s.unresolved = none := by
    unfold unresolved
    rw [hidle, hfree]
    rfl
  refine ⟨⟨hc.asker, hfree⟩, ?_, ?_⟩
  · show (s.table.answers.items ++ s.resolver.heldAnswer.toList ++ []).map _ ++ [target] ++
      lookups.items = _
    unfold owed pending
    rw [hunresolved, hidle, (Pipe.take_eq_some htake).1]
    simp [Phase.presented]
  · intro hne
    exact absurd hunresolved hne

/-- A presented answer joins the others on their way to the asker. -/
theorem presented_follows (hc : s.Coherent) {answer : Answer}
    (hphase : s.resolver.phase = .presentResponse answer) (hheld : s.resolver.heldAnswer = none) :
    Follows s { s with
      resolver := { s.resolver with heldAnswer := (sendOrHold answer s.table.answers).1 }
      table := { s.table with answers := (sendOrHold answer s.table.answers).2 } } .idle := by
  obtain ⟨hitems, hopen⟩ := sendOrHold_items hc.asker answer
  have hdeadline : s.resolver.deadline = none := by
    have hfits := hc.phase
    rw [hphase] at hfits
    exact hfits
  refine ⟨⟨hopen, trivial⟩, ?_, ?_⟩
  · show ((sendOrHold answer s.table.answers).2.items ++
        (sendOrHold answer s.table.answers).1.toList ++ []).map _ ++
      (s.resolver.deadline.map fun _ => s.resolver.target).toList ++ s.table.lookups.items = _
    unfold owed pending unresolved
    rw [List.append_nil, hitems, hphase, hdeadline, hheld]
    simp [Phase.presented, Phase.unresolved]
  · intro _
    rfl

/-- A transition owes what was owed before it. -/
theorem Transition.follows {event : Option Message} {log : List Log.Line} (hc : s.Coherent)
    (ht : Transition now s event t phase log) : Follows s t phase := by
  have hfits := hc.phase
  cases ht with
  | told m hphase _ => exact .of_same hc hphase rfl rfl trivial rfl rfl
  | heard m hphase _ hwaits => exact .of_same hc hphase rfl rfl hwaits rfl rfl
  | ignored m hphase _ _ => exact .of_same hc hphase rfl rfl trivial rfl rfl
  | gaveUp deadline hphase hwaits _ _ =>
    refine .of_answer hc ⟨s.resolver.target, none⟩ hphase rfl rfl rfl rfl ?_
    rw [hwaits]
    rfl
  | retried deadline hphase hwaits _ _ =>
    refine .of_same hc hphase rfl rfl trivial rfl ?_
    rw [hwaits]
    rfl
  | took target lookups hphase hfree htake => exact took_follows hc hphase hfree htake
  | replied _ ip mac hphase _ => exact .of_same hc hphase rfl rfl trivial rfl rfl
  | matched _ mac hphase =>
    -- only a reply from the address in question resolves the lookup
    rw [hphase] at hfits
    obtain ⟨deadline, hdeadline⟩ := Option.ne_none_iff_exists'.mp hfits
    refine .of_same hc hphase rfl rfl ⟨rfl, hfits⟩ rfl ?_
    rw [hdeadline]
    rfl
  | mismatched _ ip mac hphase _ => exact .of_same hc hphase rfl rfl trivial rfl rfl
  | learned _ ip mac hphase =>
    -- the request is no longer outstanding: no deadline can answer it again
    rw [hphase] at hfits
    exact .of_answer hc ⟨ip, some mac⟩ hphase rfl rfl rfl rfl (congrArg some hfits.1.symm)
  | remembered _ mac hphase _ =>
    rw [hphase] at hfits
    exact .of_answer hc ⟨s.resolver.target, some mac⟩ hphase rfl rfl hfits rfl rfl
  | missed _ hphase _ => exact .of_same hc hphase rfl rfl trivial rfl rfl
  | asked _ hphase _ => exact .of_same hc hphase rfl rfl trivial rfl rfl
  | presented _ answer hphase hslot => exact presented_follows hc hphase hslot

/-! ## §3. One step. -/

/-- The same lookups and answers, and the same place in the machine. -/
structure Undisturbed (s t : Station) : Prop where
  coherent : t.Coherent
  owed : t.owed = s.owed
  unresolved : t.unresolved = s.unresolved
  lookups : t.table.lookups = s.table.lookups

theorem flushHeld_undisturbed (hc : s.Coherent) : Undisturbed s s.flushHeld.state := by
  obtain ⟨hitems, hopen⟩ := flush_items hc.asker s.resolver.heldAnswer
  refine ⟨⟨hopen, hc.phase⟩, ?_, rfl, rfl⟩
  show ((flush s.resolver.heldAnswer s.table.answers).2.2.items ++
      (flush s.resolver.heldAnswer s.table.answers).2.1.toList ++
      s.resolver.phase.presented.toList).map _ ++ s.unresolved.toList ++ s.table.lookups.items = _
  rw [hitems]
  rfl

/-- Hearing a frame moves counters only. -/
theorem hear_eq (r : Resolver) (localIp : Ipv4) (frame : Ethernet.Frame) :
    ∃ depacketizer stats, (r.hear localIp frame).1 = { r with depacketizer, stats } := by
  unfold Resolver.hear
  dsimp only
  split
  · exact ⟨_, _, rfl⟩
  · split
    · exact ⟨_, _, rfl⟩
    · exact ⟨_, _, rfl⟩

theorem hearFrame_undisturbed (hc : s.Coherent) (frame : Ethernet.Frame) :
    Undisturbed s (s.hearFrame frame).1 := by
  obtain ⟨depacketizer, stats, hresolver⟩ := hear_eq s.resolver s.localIp frame
  unfold hearFrame
  dsimp only
  rw [hresolver]
  split
  · exact ⟨⟨hc.asker, hc.phase⟩, rfl, rfl, rfl⟩
  · split
    · exact ⟨⟨hc.asker, hc.phase⟩, rfl, rfl, rfl⟩
    · exact ⟨⟨hc.asker, hc.phase⟩, rfl, rfl, rfl⟩

/-- What a step leaves behind. -/
structure Settled (s t : Station) : Prop where
  coherent : t.Coherent
  owed : t.owed = s.owed
  lookups : s.unresolved ≠ none → t.table.lookups = s.table.lookups

theorem turn_settled (hc : s.Coherent) (now : Nat) (event : Option Message) :
    Settled s (s.turn now event).state := by
  unfold turn
  cases ht : s.transition now event with
  | none => exact ⟨hc, rfl, fun _ => rfl⟩
  | some next =>
    obtain ⟨t, phase, log⟩ := next
    obtain ⟨hcoherent, howed, hlookups⟩ := (transition_eq_some_iff.1 ht).follows hc
    exact ⟨hcoherent, howed, hlookups⟩

theorem Undisturbed.settled {u : Station} (hst : Undisturbed s t) (htu : Settled t u) :
    Settled s u := by
  refine ⟨htu.coherent, htu.owed.trans hst.owed, ?_⟩
  intro hne
  rw [htu.lookups (by rwa [hst.unresolved]), hst.lookups]

/-- One step owes what was owed before it. -/
theorem step_settled (hc : s.Coherent) (now : Nat) : Settled s (s.step now).state := by
  have hflush := flushHeld_undisturbed hc
  refine hflush.settled ?_
  rw [step, Outcome.state_andThen]
  cases s.flushHeld.state.link.inbound.take with
  | none => exact turn_settled hflush.coherent now none
  | some taken =>
    obtain ⟨frame, inbound⟩ := taken
    let u : Station := { s.flushHeld.state with link := { s.flushHeld.state.link with inbound } }
    have hu : Undisturbed s.flushHeld.state u :=
      ⟨⟨hflush.coherent.asker, hflush.coherent.phase⟩, rfl, rfl, rfl⟩
    have hheard := hearFrame_undisturbed hu.coherent frame
    exact hu.settled (hheard.settled (turn_settled hheard.coherent now _))

end Station

/-! ## §4. Runs. -/

/-- What can happen to a resolver. -/
inductive Event where
  /-- A frame arrives; it is lost if the pipe has no room. -/
  | frame (frame : Ethernet.Frame)
  /-- The MAC takes a frame. -/
  | frameTaken
  /-- The asker puts a lookup on the table, if there is room. -/
  | lookup (ip : Ipv4)
  /-- The asker takes an answer. -/
  | answerTaken
  | step (now : Nat)
  /-- The board gets another address. -/
  | readdress (ip : Ipv4)
  deriving Repr, DecidableEq

/-- A resolver, with what was asked of it and what it has delivered. -/
structure History where
  station : Station
  /-- The lookups put on the table, the oldest first. -/
  asked : List Ipv4 := []
  /-- The answers taken by the asker, the oldest first. -/
  delivered : List Answer := []

namespace History

/-- What one event does. -/
def next (h : History) (event : Event) : History :=
  let s := h.station
  match event with
  | .frame frame =>
    let inbound := (s.link.inbound.offer frame).2
    { h with station := { s with link := { s.link with inbound } } }
  | .frameTaken =>
    match s.link.outbound.take with
    | none => h
    | some (_, outbound) => { h with station := { s with link := { s.link with outbound } } }
  | .lookup ip =>
    match s.table.lookups.offer ip with
    | (.sent, lookups) =>
      { h with station := { s with table := { s.table with lookups } }, asked := h.asked ++ [ip] }
    | _ => h
  | .answerTaken =>
    match s.table.answers.take with
    | none => h
    | some (answer, answers) =>
      { h with station := { s with table := { s.table with answers } }
               delivered := h.delivered ++ [answer] }
  | .step now => { h with station := (s.step now).state }
  | .readdress localIp => { h with station := { s with localIp } }

/-- A run from a station. -/
def run (s : Station) (events : List Event) : History := events.foldl next { station := s }

/-- The lookups the resolver has taken: those asked that no longer wait. -/
def taken (h : History) : List Ipv4 :=
  h.asked.take (h.asked.length - h.station.table.lookups.items.length)

/-- The answers produced: delivered, in the pipe, held, or being presented. -/
def responses (h : History) : List Answer := h.delivered ++ h.station.pending

/-- What was asked is delivered or owed, in order. -/
structure Balanced (h : History) : Prop where
  coherent : h.station.Coherent
  asked : h.asked = h.delivered.map (·.ip) ++ h.station.owed

/-- One event keeps the balance. -/
theorem next_balanced {h : History} (hb : h.Balanced) (event : Event) :
    (h.next event).Balanced := by
  obtain ⟨hc, hasked⟩ := hb
  cases event with
  | frame frame => exact ⟨⟨hc.asker, hc.phase⟩, hasked⟩
  | frameTaken =>
    unfold next
    dsimp only
    split
    · exact ⟨hc, hasked⟩
    · exact ⟨⟨hc.asker, hc.phase⟩, hasked⟩
  | lookup ip =>
    unfold next
    dsimp only
    split
    · next lookups hoffer =>
      -- the lookup is the last one asked and the last one owed
      refine ⟨⟨hc.asker, hc.phase⟩, ?_⟩
      show h.asked ++ [ip] = _ ++ (h.station.pending.map (·.ip) ++ h.station.unresolved.toList ++
        lookups.items)
      rw [(Pipe.offer_sent hoffer).1, hasked]
      unfold Station.owed
      simp only [List.append_assoc]
    · exact ⟨hc, hasked⟩
  | answerTaken =>
    unfold next
    dsimp only
    split
    · exact ⟨hc, hasked⟩
    · next answer answers htake =>
      -- the answer was the first one owed and is the last one delivered
      obtain ⟨hitems, -, hclosed⟩ := Pipe.take_eq_some htake
      refine ⟨⟨hclosed.trans hc.asker, hc.phase⟩, ?_⟩
      show h.asked = (h.delivered ++ [answer]).map _ ++
        ((answers.items ++ h.station.resolver.heldAnswer.toList ++
          h.station.resolver.phase.presented.toList).map _ ++ h.station.unresolved.toList ++
          h.station.table.lookups.items)
      rw [hasked]
      unfold Station.owed Station.pending
      rw [hitems]
      simp
  | step now =>
    have hstep := Station.step_settled hc now
    refine ⟨hstep.coherent, ?_⟩
    show h.asked = h.delivered.map _ ++ (h.station.step now).state.owed
    rw [hstep.owed, hasked]
  | readdress localIp => exact ⟨⟨hc.asker, hc.phase⟩, hasked⟩

/-- Nothing has been asked, and the asker is there. -/
structure Fresh (s : Station) : Prop where
  phase : s.resolver.phase = .idle
  deadline : s.resolver.deadline = none
  heldAnswer : s.resolver.heldAnswer = none
  lookups : s.table.lookups.items = []
  answers : s.table.answers.items = []
  asker : s.table.answers.closed = false

/-- So a board makes its resolver. -/
theorem fresh_make (mac : MacAddress) (parameters : Parameters) (width : Nat)
    (link : Link Ethernet.Frame) (localIp : Ipv4) :
    Fresh ⟨Resolver.make mac parameters width, link, Table.make, localIp⟩ :=
  ⟨rfl, rfl, rfl, rfl, rfl, rfl⟩

theorem balanced_fresh {s : Station} (hs : Fresh s) : ({ station := s } : History).Balanced := by
  refine ⟨⟨hs.asker, ?_⟩, ?_⟩
  · rw [hs.phase]
    trivial
  · show [] = [] ++ s.owed
    unfold Station.owed Station.pending Station.unresolved
    rw [hs.phase, hs.deadline, hs.heldAnswer, hs.lookups, hs.answers]
    rfl

/-- A run keeps the balance. -/
theorem run_balanced {s : Station} (hs : Fresh s) (events : List Event) :
    (run s events).Balanced := by
  -- from any balanced history on, not only from the empty one
  suffices h : ∀ h : History, h.Balanced → (events.foldl next h).Balanced from
    h _ (balanced_fresh hs)
  induction events with
  | nil => exact fun h hb => hb
  | cons event events ih => exact fun h hb => ih _ (next_balanced hb event)

/-- The lookups taken are those answered and the one in progress. -/
theorem taken_eq {h : History} (hb : h.Balanced) :
    h.taken = h.responses.map (·.ip) ++ h.station.unresolved.toList := by
  unfold taken
  rw [hb.asked]
  unfold Station.owed responses
  rw [← List.append_assoc, List.length_append, Nat.add_sub_cancel, List.take_left]
  simp

/-- In every run the addresses of the answers, in order, are those of the
lookups taken, up to the one lookup that is in progress; lookups are taken in
the order they were asked, and none while another is in progress. -/
theorem lookups_answered_once {s : Station} (hs : Fresh s) (events : List Event) :
    let h := run s events
    h.responses.map (·.ip) ++ h.station.unresolved.toList = h.taken ∧
      (h.taken.length = h.responses.length ∨ h.taken.length = h.responses.length + 1) ∧
      h.taken ++ h.station.table.lookups.items = h.asked ∧
      ∀ now, h.station.unresolved ≠ none → (h.next (.step now)).taken = h.taken := by
  intro h
  have hb : h.Balanced := run_balanced hs events
  have htaken := taken_eq hb
  refine ⟨htaken.symm, ?_, ?_, ?_⟩
  · rw [htaken, List.length_append, List.length_map]
    cases h.station.unresolved with
    | none => exact .inl rfl
    | some ip => exact .inr rfl
  · rw [htaken, hb.asked]
    unfold Station.owed responses
    simp
  · intro now hbusy
    show h.asked.take (h.asked.length - (h.station.step now).state.table.lookups.items.length) = _
    rw [(Station.step_settled hb.coherent now).lookups hbusy]
    rfl

/-- Of two lookups the first one fails while the clock runs backwards and the
board changes its address; the second one is in progress. -/
theorem lookups_answered_once_two :
    let s : Station :=
      ⟨Resolver.make (.ofNat 1) { maxRequests := 1 } 4, Link.make 1, Table.make, .ofNat 2⟩
    let events : List Event :=
      [.lookup (.ofNat 7), .step 50, .lookup (.ofNat 8), .step 50, .step 40, .step 30,
       .readdress (.ofNat 3), .step 140, .step 20, .answerTaken, .step 10]
    let h := run s events
    Fresh s ∧ h.taken = [.ofNat 7, .ofNat 8] ∧ h.delivered = [⟨.ofNat 7, none⟩] ∧
      h.station.unresolved = some (.ofNat 8) ∧
      h.responses.map (·.ip) ++ h.station.unresolved.toList = h.taken := by
  refine ⟨fresh_make _ _ _ _ _, by decide +kernel, by decide +kernel, by decide +kernel, ?_⟩
  exact (lookups_answered_once (fresh_make _ _ _ _ _) _).1

end History
end NetBoard.Arp
