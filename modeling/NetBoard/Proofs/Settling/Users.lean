/-
  NetBoard.Proofs.Settling.Users
  ──────────────────────────────
  **THE STACK'S OWN USERS SETTLE.**

  The configuration client acts on its own accord a few times: at a fixed time
  an exchange begins, and is given up, at most once, if there is time for it or
  between two of them.  The bus endpoint puts a record without words away
  without a word.  The streamer, in loopback, holds a byte back without a word;
  it does so in the step that received the byte, and that step made progress.

  Main definitions:

      Dhcp.Station.Timed      — the times that the client was made with
      Streamer.Looped         — received bytes wait only behind one that is held

  Main statements:

      Dhcp.Station.step_honest — a step of the client without progress does nothing
      Dhcp.Station.step_pays  — if there is any time at all, it pays
      Etherbone.Station.step_settles
                              — a step of the endpoint settles
      Streamer.Station.step_pays
                              — a step of the streamer pays
-/
import NetBoard.Proofs.Checked.Client
import NetBoard.Proofs.Checked.Endpoint
import NetBoard.Proofs.Dhcp.Exchange
import NetBoard.Proofs.Settling.Crossbar
import NetBoard.Proofs.Streamer.Conservation

namespace NetBoard

open Load Outcome

/-! ## §1. The configuration client. -/

namespace Dhcp

namespace Client

/-- How often the client can still act on its own accord, without a message. -/
def remaining (c : Client) (now : Nat) : Nat :=
  if c.isOverdue now then
    -- without any time for it, an exchange that begins now is overdue at once
    if c.timeout = 0 ∧ c.renewing = false then 1 else 3
  else
    match c.phase with
    | .idle => if c.wantsExchange now then 2 else 0
    | .sendDiscover | .sendRequest => 1
    | .receiveOffer | .receiveAck => 0

/-- A client that was just made has the times it was made with. -/
theorem times_make? {mac : MacAddress} {width timeout retry : Nat} {c : Client}
    (h : make? mac width timeout retry = .ok c) : c.timeout = timeout ∧ c.retry = retry := by
  unfold make? at h
  split at h
  · cases h
    exact ⟨rfl, rfl⟩
  · cases h

section Remaining

variable {c d : Client} {now : Nat}

theorem remaining_of_wants (hphase : c.phase = .idle) (hwants : c.wantsExchange now = true) :
    c.remaining now = 2 := by
  have hdue : c.isOverdue now = false := by
    unfold isOverdue
    rw [hphase]
    rfl
  unfold remaining
  rw [hdue, hphase, hwants]
  rfl

/-- An exchange that has just begun is overdue only if there is no time for it at all. -/
theorem remaining_of_begun (hphase : c.phase = .sendDiscover) (hrenewing : c.renewing = false)
    (hstarted : c.started = some now) : c.remaining now = 1 := by
  unfold remaining isOverdue
  rw [hphase, hrenewing, hstarted, Option.any_some, Nat.sub_self]
  by_cases htimeout : c.timeout = 0
  · rw [htimeout]
    rfl
  · have hlater : decide (c.timeout ≤ 0) = false := by simpa using htimeout
    rw [hlater]
    rfl

theorem remaining_of_sending (hdue : c.isOverdue now = false)
    (hphase : c.phase = .sendDiscover ∨ c.phase = .sendRequest) : c.remaining now = 1 := by
  unfold remaining
  rw [hdue]
  obtain hphase | hphase := hphase <;> rw [hphase] <;> rfl

theorem remaining_of_listening (hdue : c.isOverdue now = false)
    (hphase : c.phase = .receiveOffer ∨ c.phase = .receiveAck) : c.remaining now = 0 := by
  unfold remaining
  rw [hdue]
  obtain hphase | hphase := hphase <;> rw [hphase] <;> rfl

/-- An exchange is overdue or not, whatever is done in it. -/
theorem isOverdue_enter (hbusy : c.phase ≠ .idle) (hstarted : d.started = c.started)
    (htimeout : d.timeout = c.timeout) (hdue : c.isOverdue now = false) :
    d.isOverdue now = false := by
  unfold isOverdue at hdue ⊢
  obtain hphase | hany := Bool.and_eq_false_iff.1 hdue
  · exact absurd (by simpa using hphase) hbusy
  · rw [hstarted, htimeout, hany, Bool.and_false]

/-- After giving up there is less to do, unless the next exchange would begin, and
be given up, at once. -/
theorem remaining_giveUp (htimes : c.timeout ≠ 0 ∨ c.retry ≠ 0) (hdue : c.isOverdue now = true)
    (hphase : d.phase = .idle) (hsince : d.idleSince = some now) (hretry : d.retry = c.retry)
    (hrenewing : d.renewing = c.renewing) : d.remaining now < c.remaining now := by
  have hafter : d.remaining now = if d.wantsExchange now then 2 else 0 := by
    unfold remaining isOverdue
    rw [hphase]
    rfl
  have hbefore : c.remaining now = if c.timeout = 0 ∧ c.renewing = false then 1 else 3 := by
    unfold remaining
    rw [hdue, if_pos rfl]
  rw [hafter, hbefore]
  split
  · next hwants =>
    -- it is wanted by a user, or there is no time between two exchanges
    rw [if_neg]
    · decide
    rintro ⟨htimeout, hunwanted⟩
    unfold wantsExchange at hwants
    rw [hrenewing, hunwanted, hsince, hretry] at hwants
    simp only [Bool.false_or, Nat.sub_self, Bool.and_eq_true, decide_eq_true_eq] at hwants
    exact htimes.elim (absurd htimeout) (absurd (Nat.le_zero.1 hwants.2))
  · split <;> decide

end Remaining

/-- What waits in the client. -/
def load (now : Nat) (c : Client) : Load :=
  pile .clientTurn (c.remaining now) + hold .userAsked c.heldOut

end Client

namespace Station

variable {s t : Station} {now timeout retry : Nat}

/-- What waits for the client and in its pipes. -/
def load (now : Nat) (s : Station) : Load :=
  s.link.inbound.load .userGiven + pile .clientTurn (s.client.remaining now) +
    lane .userAsked s.client.heldOut s.link.outbound

theorem load_eq (now : Nat) (s : Station) :
    s.load now = s.client.load now + s.link.load .userGiven .userAsked := by
  unfold load Client.load Link.load
  rw [lane_eq]
  abel

/-- The client has these times. -/
def Timed (timeout retry : Nat) (s : Station) : Prop :=
  s.client.timeout = timeout ∧ s.client.retry = retry

/-- Messages were taken. -/
structure Took (s t : Station) : Prop where
  inbound : t.link.inbound.items.length < s.link.inbound.items.length
  timeout : t.client.timeout = s.client.timeout
  retry : t.client.retry = s.client.retry

theorem Took.load_lt (h : Took s t) : t.load now < s.load now :=
  ((Less.pile h.inbound).add (.later (by decide) _ _) |>.add (.later (by decide) _ _)).lt

theorem hear_took (s : Station) (kind : Kind) :
    s.hear kind = .idle (s, none) ∨
      (s.hear kind).progress = true ∧ Took s (s.hear kind).state.1 := by
  unfold hear
  cases htake : s.link.inbound.take with
  | none => exact .inl rfl
  | some taken =>
    obtain ⟨packet, inbound⟩ := taken
    have hfewer : inbound.items.length < s.link.inbound.items.length := by
      rw [(Pipe.take_eq_some htake).1]
      exact Nat.lt_succ_self _
    refine .inr ?_
    dsimp only
    cases (Reply.read? s.client.mac s.client.xid s.client.width packet).filter
        (·.kind == kind) with
    | none => exact ⟨rfl, hfewer, rfl, rfl⟩
    | some reply => exact ⟨rfl, hfewer, rfl, rfl⟩

/-- What the current phase does: nothing, or it takes messages, begins an
exchange, or sends a message of it. -/
inductive Acts (now : Nat) (s : Station) : Outcome (Station × Phase) → Prop where
  | rested : Acts now s (.idle (s, s.client.phase))
  | took {o} : o.progress = true → Took s o.state.1 → Acts now s o
  | began : s.client.phase = .idle → s.client.wantsExchange now = true →
      Acts now s (.idle ({ s with client := { s.client with
        renewing := false, xid := s.client.xid + 1, started := some now } }, .sendDiscover))
  | sent {next heldOut outbound} (stats) :
      s.client.phase = .sendDiscover ∧ next = .receiveOffer ∨
        s.client.phase = .sendRequest ∧ next = .receiveAck →
      Acts now s (.idle ({ s with
        client := { s.client with heldOut, stats }, link := { s.link with outbound } }, next))

theorem act_acts (now : Nat) (s : Station) : Acts now s (s.act now) := by
  unfold act
  cases hphase : s.client.phase with
  | idle =>
    dsimp only
    cases hitems : s.link.inbound.items with
    | nil =>
      have hdrain : s.drain = .idle s := by
        obtain ⟨client, ⟨⟨depth, items, closed⟩, outbound⟩, localIp⟩ := s
        obtain rfl : items = [] := hitems
        rfl
      rw [hdrain]
      dsimp only [Outcome.map, Outcome.idle]
      split
      · next hwants => exact .began hphase hwants
      · rw [← hphase]
        exact .rested
    | cons packet rest =>
      have hfewer : (s.drain).state.link.inbound.items.length < s.link.inbound.items.length := by
        show (s.link.inbound.items.drop s.link.inbound.items.length).length < _
        rw [List.drop_length, hitems]
        exact Nat.succ_pos _
      refine .took ?_ ?_
      · show decide (0 < s.link.inbound.items.length) = true
        rw [hitems]
        rfl
      · dsimp only [Outcome.map]
        split
        · exact ⟨hfewer, rfl, rfl⟩
        · exact ⟨hfewer, rfl, rfl⟩
  | sendDiscover => exact .sent _ (.inl ⟨hphase, rfl⟩)
  | sendRequest => exact .sent _ (.inr ⟨hphase, rfl⟩)
  | receiveOffer =>
    dsimp only
    obtain hnone | ⟨hprogress, htook⟩ := s.hear_took .offer
    · rw [hnone, ← hphase]
      exact .rested
    · generalize s.hear .offer = o at hprogress htook
      obtain ⟨⟨t, reply⟩, progress, log⟩ := o
      obtain rfl : progress = true := hprogress
      cases reply with
      | none => exact .took rfl htook
      | some offer => exact .took rfl ⟨htook.1, htook.2, htook.3⟩
  | receiveAck =>
    dsimp only
    obtain hnone | ⟨hprogress, htook⟩ := s.hear_took .ack
    · rw [hnone, ← hphase]
      exact .rested
    · generalize s.hear .ack = o at hprogress htook
      obtain ⟨⟨t, reply⟩, progress, log⟩ := o
      obtain rfl : progress = true := hprogress
      cases reply with
      | none => exact .took rfl htook
      | some ack =>
        dsimp only
        cases t.client.offer with
        | none => exact .took rfl htook
        | some offer => exact .took rfl ⟨htook.1, htook.2, htook.3⟩

theorem advance_honest (now : Nat) (s : Station) (hidle : (s.advance now).progress = false) :
    s.advance now = .idle s := by
  unfold advance at hidle ⊢
  have hacts := s.act_acts now
  generalize s.act now = o at hacts hidle
  dsimp only at hidle ⊢
  split at hidle
  · next hsame =>
    rw [if_pos hsame]
    cases hacts with
    | rested => rfl
    | took hprogress _ =>
      rw [progress_map, hprogress] at hidle
      cases hidle
    | began hphase _ =>
      have hidle : s.client.phase = .sendDiscover := hsame.symm
      rw [hphase] at hidle
      cases hidle
    | sent _ hphase =>
      obtain ⟨hfrom, rfl⟩ | ⟨hfrom, rfl⟩ := hphase
      · have hnext : s.client.phase = .receiveOffer := hsame.symm
        rw [hfrom] at hnext
        cases hnext
      · have hnext : s.client.phase = .receiveAck := hsame.symm
        rw [hfrom] at hnext
        cases hnext
  · cases hidle

/-- Nothing changes the times. -/
theorem Acts.times {o : Outcome (Station × Phase)} (h : Acts now s o) :
    o.state.1.client.timeout = s.client.timeout ∧ o.state.1.client.retry = s.client.retry := by
  cases h with
  | took _ htook => exact ⟨htook.timeout, htook.retry⟩
  | _ => exact ⟨rfl, rfl⟩

theorem advance_spends (hdue : s.client.isOverdue now = false)
    (hprogress : (s.advance now).progress = true) :
    (s.advance now).state.load now < s.load now := by
  have hacts := s.act_acts now
  rw [state_advance]
  unfold advance at hprogress
  generalize s.act now = o at hacts hprogress ⊢
  cases hacts with
  | rested =>
    dsimp only [Outcome.idle] at hprogress
    rw [if_pos rfl] at hprogress
    cases hprogress
  | took _ htook =>
    exact Took.load_lt ⟨htook.1, htook.2, htook.3⟩
  | began hphase hwants =>
    refine ((UpTo.refl.less (Less.pile ?_)).add .refl).lt
    rw [Client.remaining_of_wants hphase hwants]
    exact (Client.remaining_of_begun rfl rfl rfl).trans_lt Nat.one_lt_two
  | sent stats hphase =>
    refine ((UpTo.refl.less (Less.pile ?_)).add (.later (by decide) _ _)).lt
    obtain ⟨hfrom, rfl⟩ | ⟨hfrom, rfl⟩ := hphase
    · rw [Client.remaining_of_sending hdue (.inl hfrom)]
      refine (Client.remaining_of_listening ?_ (.inl rfl)).trans_lt Nat.zero_lt_one
      exact Client.isOverdue_enter (c := s.client) (by rw [hfrom]; decide) rfl rfl hdue
    · rw [Client.remaining_of_sending hdue (.inr hfrom)]
      refine (Client.remaining_of_listening ?_ (.inr rfl)).trans_lt Nat.zero_lt_one
      exact Client.isOverdue_enter (c := s.client) (by rw [hfrom]; decide) rfl rfl hdue

theorem giveUp_spends (htimes : s.client.timeout ≠ 0 ∨ s.client.retry ≠ 0)
    (hdue : s.client.isOverdue now = true) :
    (s.giveUp now).state.load now < s.load now := by
  refine ((UpTo.refl.less (Less.pile ?_)).add .refl).lt
  exact Client.remaining_giveUp htimes hdue rfl rfl rfl rfl

theorem proceed_honest (now : Nat) (s : Station) (hidle : (s.proceed now).progress = false) :
    s.proceed now = .idle s := by
  unfold proceed at hidle ⊢
  split at hidle
  · cases hidle
  · next hdue =>
    rw [if_neg hdue]
    exact s.advance_honest now hidle

theorem proceed_timed (hs : s.Timed timeout retry) : (s.proceed now).state.Timed timeout retry := by
  unfold proceed
  split
  · exact hs
  · rw [state_advance]
    obtain ⟨htimeout, hretry⟩ := (s.act_acts now).times
    exact ⟨htimeout.trans hs.1, hretry.trans hs.2⟩

theorem proceed_pays (htimes : timeout ≠ 0 ∨ retry ≠ 0) (hs : s.Timed timeout retry) :
    Pays (Timed timeout retry) (load now) s (s.proceed now) := by
  have hlt : (s.proceed now).progress = true → (s.proceed now).state.load now < s.load now := by
    unfold proceed
    split
    · next hdue => exact fun _ => giveUp_spends (hs.1 ▸ hs.2 ▸ htimes) hdue
    · next hdue => exact advance_spends (Bool.eq_false_iff.2 hdue)
  refine ⟨⟨proceed_timed hs, ?_, hlt⟩, s.proceed_honest now⟩
  cases hprogress : (s.proceed now).progress with
  | true => exact (hlt hprogress).le
  | false => rw [s.proceed_honest now hprogress]; exact le_rfl

/-- A step of the client without progress did nothing, even if exchanges fail at once. -/
theorem step_honest (now : Nat) (s : Station) (hidle : (s.step now).progress = false) :
    s.step now = .idle s := by
  rw [step_eq] at hidle ⊢
  exact honest_afterHeld (s.proceed_honest now) hidle

theorem step_timed (hs : s.Timed timeout retry) : (s.step now).state.Timed timeout retry := by
  rw [step_eq]
  unfold Outcome.afterHeld
  cases s.client.heldOut with
  | none => exact proceed_timed hs
  | some packet =>
    dsimp only
    generalize flush (some packet) s.link.outbound = flushed
    obtain ⟨left, heldOut, outbound⟩ := flushed
    cases left with
    | false => exact hs
    | true => exact proceed_timed (s := { s with
        client := { s.client with heldOut }, link := { s.link with outbound } }) hs

/-- **A step of the client pays**, unless it has no time for an exchange and none
between two of them. -/
theorem step_pays (htimes : timeout ≠ 0 ∨ retry ≠ 0) (hs : s.Timed timeout retry) :
    Pays (Timed timeout retry) (load now) s (s.step now) := by
  rw [step_eq]
  exact .afterHeld .userAsked hs (fun _ _ => hs) (fun _ _ h => (UpTo.refl.less h).lt)
    fun _ ht => proceed_pays htimes ht

end Station
end Dhcp

/-! ## §2. The bus endpoint. -/

namespace Etherbone

namespace Endpoint

variable {e : Endpoint}

/-- The words of a record that has been taken. -/
def pendingWords (e : Endpoint) : Nat := (e.inbound.map (·.words.length)).getD 0

/-- What waits in the endpoint. -/
def load (e : Endpoint) : Load :=
  pile .word e.pendingWords + pile .access e.accesses.length + pile .reply e.replies.length +
    hold .userAsked e.heldOut

theorem serveAll_le (e : Endpoint) (l : List Access) :
    (e.serveAll l).accesses.length ≤ l.length := by
  induction l generalizing e with
  | nil => exact Nat.le_refl 0
  | cons a rest ih =>
    unfold serveAll
    split
    · exact (ih _).trans (Nat.le_succ _)
    · exact Nat.le_refl _

theorem serve_pays (e : Endpoint) : Pays (fun _ => True) load e e.serve := by
  cases hroom : e.hasReplyRoom with
  | false =>
    have hstay : e.serve = .idle e := by
      unfold serve
      rw [hroom]
      cases haccesses : e.accesses with
      | nil =>
        show Outcome.idle { e with accesses := [] } = _
        rw [← haccesses]
      | cons a rest =>
        unfold serveAll
        rw [if_neg (by simp [hroom])]
        show Outcome.idle { e with accesses := a :: rest } = _
        rw [← haccesses]
    rw [hstay]
    exact .idle trivial
  | true =>
    cases haccesses : e.accesses with
    | nil =>
      have hstay : e.serve = .idle e := by
        unfold serve
        rw [haccesses, hroom]
        show Outcome.idle { e with accesses := [] } = _
        rw [← haccesses]
      rw [hstay]
      exact .idle trivial
    | cons a rest =>
      have hmoved : e.serve = .moved (e.serveAll (a :: rest)) := by
        unfold serve
        rw [haccesses, hroom]
        rfl
      have hwords : (e.serveAll (a :: rest)).pendingWords = e.pendingWords := by
        unfold pendingWords
        rw [(serveAll_frame e (a :: rest)).2]
      have hless : (e.serveAll (a :: rest)).accesses.length < e.accesses.length := by
        rw [haccesses]
        unfold serveAll
        rw [if_pos hroom]
        exact Nat.lt_succ_of_le (serveAll_le _ rest)
      rw [hmoved]
      refine .moved trivial ?_
      unfold load
      rw [hwords]
      exact (((UpTo.refl.less (Less.pile hless)).add (.later (by decide) _ _)).add
        (.later (by decide) _ _)).lt

/-- Without progress no word is fed; a record without words left is put away. -/
theorem feedAll_idle (e : Endpoint) (shape : Shape) (words : List UInt32)
    (hidle : (e.feedAll shape words).progress = false) :
    e.feedAll shape words = .idle { e with
      inbound := if words = [] then none else some ⟨shape, words⟩ } := by
  unfold feedAll at hidle ⊢
  cases words with
  | nil => rfl
  | cons word rest =>
    dsimp only at hidle ⊢
    split at hidle
    · cases hidle
    · next hfull =>
      rw [if_neg hfull]
      rfl

theorem feedAll_le (e : Endpoint) (shape : Shape) (words : List UInt32) :
    (e.feedAll shape words).state.pendingWords ≤ words.length := by
  induction words generalizing e with
  | nil => exact Nat.le_refl 0
  | cons word rest ih =>
    unfold feedAll
    dsimp only
    split
    · exact (ih _).trans (Nat.le_succ _)
    · exact Nat.le_refl _

/-- A word is fed. -/
theorem feedAll_lt (e : Endpoint) (shape : Shape) (words : List UInt32)
    (hprogress : (e.feedAll shape words).progress = true) :
    (e.feedAll shape words).state.pendingWords < words.length := by
  unfold feedAll at hprogress ⊢
  cases words with
  | nil => cases hprogress
  | cons word rest =>
    dsimp only at hprogress ⊢
    split at hprogress
    · next hroom =>
      rw [if_pos hroom]
      exact Nat.lt_succ_of_le (feedAll_le _ shape rest)
    · cases hprogress

/-- Without progress at most a record without words is put away. -/
theorem feed_idle (hidle : e.feed.progress = false) :
    ∃ inbound, e.feed = .idle { e with inbound } ∧
      ({ e with inbound } : Endpoint).pendingWords = e.pendingWords ∧
      ({ e with inbound } : Endpoint).feed = .idle { e with inbound } := by
  cases hinbound : e.inbound with
  | none =>
    have hstay : e.feed = .idle e := by
      unfold feed
      rw [hinbound]
    exact ⟨e.inbound, hstay, rfl, hstay⟩
  | some record =>
    have hfeed : e.feed = e.feedAll record.shape record.words := by
      unfold feed
      rw [hinbound]
    rw [hfeed] at hidle ⊢
    have hstay := feedAll_idle e record.shape record.words hidle
    by_cases hwords : record.words = []
    · rw [if_pos hwords] at hstay
      refine ⟨none, hstay, ?_, rfl⟩
      unfold pendingWords
      rw [hinbound, Option.map_some, hwords]
      rfl
    · rw [if_neg hwords] at hstay
      have hsame : ({ e with inbound := some ⟨record.shape, record.words⟩ } : Endpoint) = e := by
        rw [show some (⟨record.shape, record.words⟩ : Inbound) = e.inbound from hinbound.symm]
      refine ⟨e.inbound, hstay.trans (congrArg _ hsame), rfl, ?_⟩
      exact hfeed.trans (hstay.trans (congrArg _ hsame))

theorem feed_less (hprogress : e.feed.progress = true) :
    e.feed.state.pendingWords < e.pendingWords := by
  cases hinbound : e.inbound with
  | none =>
    unfold feed at hprogress
    rw [hinbound] at hprogress
    cases hprogress
  | some record =>
    have hfeed : e.feed = e.feedAll record.shape record.words := by
      unfold feed
      rw [hinbound]
    rw [hfeed] at hprogress ⊢
    refine (feedAll_lt e record.shape record.words hprogress).trans_eq ?_
    unfold pendingWords
    rw [hinbound]
    rfl

theorem feed_settles (e : Endpoint) : Settles (fun _ => True) load feed e := by
  have hlt : e.feed.progress = true → e.feed.state.load < e.load := fun hprogress =>
    ((((Less.pile (feed_less hprogress)).add (.later (by decide) _ _)).add
      (.later (by decide) _ _)).add (.later (by decide) _ _)).lt
  refine ⟨⟨trivial, ?_, hlt⟩, fun hidle => ?_⟩
  · cases hprogress : e.feed.progress with
    | true => exact (hlt hprogress).le
    | false =>
      obtain ⟨inbound, hfeed, hwords, -⟩ := feed_idle hprogress
      rw [hfeed]
      show pile .word ({ e with inbound } : Endpoint).pendingWords + _ + _ + _ ≤ _
      rw [hwords]
      exact le_rfl
  · obtain ⟨inbound, hfeed, -, hagain⟩ := feed_idle hidle
    rw [hfeed]
    exact hagain

end Endpoint

namespace Station

variable {s : Station}

/-- What waits in the endpoint and in its pipes. -/
def load (s : Station) : Load :=
  s.link.inbound.load .userGiven + pile .word s.endpoint.pendingWords +
    pile .access s.endpoint.accesses.length + pile .reply s.endpoint.replies.length +
    lane .userAsked s.endpoint.heldOut s.link.outbound

theorem load_eq (s : Station) : s.load = s.endpoint.load + s.link.load .userGiven .userAsked := by
  unfold load Endpoint.load Link.load
  rw [lane_eq]
  abel

theorem transmitNext_pays (s : Station) : Pays (fun _ => True) load s s.transmitNext := by
  unfold transmitNext
  cases hreplies : s.endpoint.replies with
  | nil => exact .idle trivial
  | cons packet replies =>
    have hless : replies.length < s.endpoint.replies.length := by
      rw [hreplies]
      exact Nat.lt_succ_self _
    exact .moved trivial ((UpTo.refl.less (Less.pile hless)).add (.later (by decide) _ _)).lt

theorem transmit_pays (s : Station) : Pays (fun _ => True) load s s.transmit := by
  rw [transmit_eq]
  exact .afterHeld .userAsked trivial (fun _ _ => trivial) (fun _ _ h => (UpTo.refl.less h).lt)
    fun t _ => t.transmitNext_pays

theorem load_endpoint (s : Station) (endpoint : Endpoint) :
    load { s with endpoint } = s.link.load .userGiven .userAsked + endpoint.load :=
  (load_eq _).trans (add_comm _ _)

theorem serve_pays (s : Station) : Pays (fun _ => True) load s (inside Endpoint.serve s) :=
  .map (fun endpoint => { s with endpoint }) _ s.endpoint.serve_pays (fun _ _ => trivial)
    s.load_endpoint rfl

theorem feed_settles (s : Station) : Settles (fun _ => True) load (inside Endpoint.feed) s :=
  Settles.map Station.endpoint (fun s endpoint => { s with endpoint }) _ s.endpoint.feed_settles
    (fun _ _ => trivial) s.load_endpoint rfl (fun _ => rfl) fun _ => rfl

theorem receive_pays (s : Station) : Pays (fun _ => True) load s s.receive := by
  unfold receive
  split
  · cases htake : s.link.inbound.take with
    | none => exact .idle trivial
    | some taken =>
      obtain ⟨packet, inbound⟩ := taken
      have htaken := take_less (k := .userGiven) htake
      have hprogress := accept_progress s.endpoint packet
      dsimp only
      generalize s.endpoint.accept packet = o at hprogress
      have hlt : load ⟨o.state, { s.link with inbound }⟩ < s.load :=
        ((((htaken.add (.later (by decide) _ _)).add (.later (by decide) _ _)).add
          (.later (by decide) _ _)).add (.later (by decide) _ _)).lt
      exact ⟨⟨trivial, hlt.le, fun _ => hlt⟩, fun hidle => nomatch hprogress.symm.trans hidle⟩
  · exact .idle trivial

/-- What is sent, and which accesses are run, does not depend on the record. -/
theorem transmit_feed (s : Station)
    (hidle : s.transmit.andThen (inside Endpoint.serve) = .idle s)
    (hfed : (inside Endpoint.feed s).progress = false) :
    (inside Endpoint.feed s).state.transmit.andThen (inside Endpoint.serve) =
      .idle (inside Endpoint.feed s).state := by
  obtain ⟨inbound, hfeed, -, -⟩ := Endpoint.feed_idle hfed
  have hstate : (inside Endpoint.feed s).state = { s with endpoint := { s.endpoint with inbound } } :=
    congrArg (fun o : Outcome Endpoint => { s with endpoint := o.state }) hfeed
  rw [hstate]
  have hprogress : (s.transmit.andThen (inside Endpoint.serve)).progress = false := by rw [hidle]; rfl
  obtain ⟨hsent, hserved⟩ := Bool.or_eq_false_iff.1 hprogress
  have hsame := s.transmit_pays.honest hsent
  rw [hsame] at hserved
  refine andThen_idle ?_ ?_
  · refine (transmit_pays _).honest ?_
    rw [← hsent]
    unfold transmit
    cases s.endpoint.heldOut with
    | none =>
      unfold transmitNext
      cases s.endpoint.replies <;> rfl
    | some packet =>
      dsimp only
      generalize flush (some packet) s.link.outbound = flushed
      obtain ⟨left, heldOut, outbound⟩ := flushed
      cases left <;> rfl
  · exact (serve_pays _).honest hserved

/-- What is sent, which accesses are run, and which words are fed. -/
theorem turn_settles (s : Station) : Settles (fun _ => True) load
    (fun s => (s.transmit.andThen (inside Endpoint.serve)).andThen (inside Endpoint.feed)) s :=
  Settles.after (f := fun s : Station => s.transmit.andThen (inside Endpoint.serve))
    (s.transmit_pays.andThen fun t _ => serve_pays t).settles (fun t _ => feed_settles t)
    fun t _ => t.transmit_feed

/-- **A step of the endpoint settles.** -/
theorem step_settles (s : Station) : Settles (fun _ => True) load step s :=
  s.turn_settles.andThen fun t _ => receive_pays t

/-- Without progress at most a record without words is put away. -/
theorem step_idle (hidle : s.step.progress = false) :
    ∃ inbound, s.step.state = { s with endpoint := { s.endpoint with inbound } } := by
  obtain ⟨hidle, hreceived⟩ := Pays.andThen_state (receive_pays _) hidle
  obtain ⟨hturned, hfed⟩ := Bool.or_eq_false_iff.1 hidle
  have hsame := (s.transmit_pays.andThen fun t _ => serve_pays t).honest hturned
  rw [hsame] at hfed
  obtain ⟨inbound, hfeed, -, -⟩ := Endpoint.feed_idle hfed
  refine ⟨inbound, hreceived.trans ?_⟩
  show (inside Endpoint.feed (s.transmit.andThen (inside Endpoint.serve)).state).state = _
  rw [hsame]
  exact congrArg (fun o : Outcome Endpoint => { s with endpoint := o.state }) hfeed

end Station
end Etherbone

/-! ## §3. The streamer. -/

namespace Streamer

variable {t : Streamer}

/-- What waits in the streamer. -/
def load (t : Streamer) : Load :=
  pile .backlog t.backlog.length + t.rxQueue.load .received + lane .looped t.heldLoop t.txQueue +
    hold .userAsked t.heldOut

/-- Datagrams are not empty. -/
def Sends (t : Streamer) : Prop := 0 < t.sendLevel

/-- In loopback, received bytes wait only behind one that is held. -/
def Looped (t : Streamer) : Prop :=
  t.loopback = true → t.heldLoop = none → t.rxQueue.items = []

/-- So is a streamer that was just made. -/
theorem tidy_make? {width : Nat} {p : Parameters} {made : Streamer × List Log.Line}
    (h : make? width p = .ok made) : made.1.Sends ∧ made.1.Looped := by
  unfold make? at h
  cases hcheck : p.check with
  | error fault =>
    rw [hcheck] at h
    cases h
  | ok =>
    rw [hcheck] at h
    obtain rfl := Except.ok.inj h
    have hlevel : 0 < p.sendLevel := by
      unfold Parameters.check at hcheck
      split_ifs at hcheck
      omega
    exact ⟨hlevel, fun _ _ => rfl⟩

theorem queueBacklog_pays (ht : t.Sends) : Pays Sends load t t.queueBacklog := by
  unfold queueBacklog
  cases hoffer : t.rxQueue.offerMany t.backlog with
  | mk n rest =>
    obtain ⟨rxQueue, backlog⟩ := rest
    cases n with
    | zero =>
      obtain ⟨rfl, rfl⟩ := offerMany_kept hoffer
      exact .idle ht
    | succ n =>
      have hfewer : backlog.length < t.backlog.length := by
        have := (Pipe.offerMany_items hoffer).2
        omega
      exact .moved ht
        ((((Less.pile hfewer).add (.later (by decide) _ _)).add .refl).add .refl).lt

theorem unlooped (hheld : t.heldLoop = none) (hempty : t.rxQueue.items = []) :
    ({ t with heldLoop := none, rxQueue := { t.rxQueue with items := [] } } : Streamer) = t := by
  have hqueue : ({ t.rxQueue with items := [] } : Pipe UInt8) = t.rxQueue := by rw [← hempty]
  rw [hqueue, ← hheld]

theorem loop_looped (t : Streamer) : t.loop.state.Looped := by
  intro _ hheld
  have hleft : (t.txQueue.offerMany (t.heldLoop.toList ++ t.rxQueue.items)).2.2 = [] :=
    List.head?_eq_none_iff.1 hheld
  show (t.txQueue.offerMany (t.heldLoop.toList ++ t.rxQueue.items)).2.2.tail = []
  rw [hleft]
  rfl

theorem loop_honest (hlooped : t.heldLoop = none → t.rxQueue.items = [])
    (hidle : t.loop.progress = false) : t.loop = .idle t := by
  unfold loop at hidle ⊢
  cases hoffer : t.txQueue.offerMany (t.heldLoop.toList ++ t.rxQueue.items) with
  | mk n rest =>
    obtain ⟨txQueue, left⟩ := rest
    rw [hoffer] at hidle
    obtain rfl : n = 0 := by simpa using hidle
    obtain ⟨rfl, rfl⟩ := offerMany_kept hoffer
    cases hheld : t.heldLoop with
    | none =>
      have hempty := hlooped hheld
      rw [hempty]
      exact congrArg Outcome.idle (unlooped hheld hempty)
    | some byte =>
      show Outcome.idle { t with heldLoop := some byte } = Outcome.idle t
      rw [← hheld]

/-- Otherwise received bytes are given on, or the held one is. -/
theorem loop_less (hmoves : t.loop.progress = true ∨ t.heldLoop = none ∧ t.rxQueue.items ≠ []) :
    t.loop.state.load < t.load := by
  unfold loop at hmoves ⊢
  cases hoffer : t.txQueue.offerMany (t.heldLoop.toList ++ t.rxQueue.items) with
  | mk n rest =>
    obtain ⟨txQueue, left⟩ := rest
    rw [hoffer] at hmoves
    dsimp only at hmoves ⊢
    obtain ⟨hitems, hcount⟩ := Pipe.offerMany_items hoffer
    have hlength := congrArg List.length hitems
    simp only [List.length_append] at hlength hcount
    have htail : left.tail.length = left.length - 1 := List.length_tail
    have hhead : left.head?.toList.length = min 1 left.length := by
      cases left with
      | nil => rfl
      | cons byte rest => exact (Nat.min_eq_left (Nat.succ_pos _)).symm
    have hbefore : t.heldLoop.toList.length ≤ 1 := Option.length_toList_le
    have hmoves : 0 < n ∨ t.heldLoop.toList.length = 0 ∧ 0 < t.rxQueue.items.length := by
      refine hmoves.imp of_decide_eq_true fun ⟨hnone, hsome⟩ => ⟨?_, List.length_pos_of_ne_nil hsome⟩
      rw [hnone]
      rfl
    by_cases hfewer : left.tail.length < t.rxQueue.items.length
    · exact (((UpTo.refl.less (Less.pile hfewer)).add (.later (by decide) _ _)).add .refl).lt
    · have hsame : left.tail.length = t.rxQueue.items.length := by omega
      have hturned : 2 * left.head?.toList.length + txQueue.items.length <
          2 * t.heldLoop.toList.length + t.txQueue.items.length := by
        omega
      have hqueue : ({ t.rxQueue with items := left.tail } : Pipe UInt8).load .received =
          t.rxQueue.load .received :=
        congrArg (pile .received) hsame
      refine lt_of_eq_of_lt ?_ ((UpTo.refl.less (Less.pile hturned)).add .refl).lt
      show pile .backlog t.backlog.length +
        ({ t.rxQueue with items := left.tail } : Pipe UInt8).load .received + _ + _ = _
      rw [hqueue]
      rfl

theorem loopIfAsked_honest (ht : t.Looped) (hidle : t.loopIfAsked.progress = false) :
    t.loopIfAsked = .idle t := by
  unfold loopIfAsked at hidle ⊢
  split
  · next hloopback =>
    rw [if_pos hloopback] at hidle
    exact loop_honest (ht hloopback) hidle
  · rfl

/-- Looping never adds to the load. -/
theorem loopIfAsked_spends (ht : t.Sends) : Spends Sends load t t.loopIfAsked := by
  unfold loopIfAsked
  split
  · have hlt : t.loop.progress = true → t.loop.state.load < t.load := fun h => loop_less (.inl h)
    refine ⟨ht, ?_, hlt⟩
    cases hprogress : t.loop.progress with
    | true => exact (hlt hprogress).le
    | false =>
      by_cases hlooped : t.heldLoop = none → t.rxQueue.items = []
      · rw [loop_honest hlooped hprogress]
        exact le_rfl
      · exact (loop_less (.inr (Classical.not_imp.1 hlooped))).le
  · exact (Pays.idle ht).toSpends

namespace Station

variable {s : Station}

/-- What waits in the streamer and in its pipes. -/
def load (s : Station) : Load :=
  s.link.inbound.load .userGiven + pile .backlog s.streamer.backlog.length +
    s.streamer.rxQueue.load .received + lane .looped s.streamer.heldLoop s.streamer.txQueue +
    lane .userAsked s.streamer.heldOut s.link.outbound

theorem load_eq (s : Station) : s.load = s.streamer.load + s.link.load .userGiven .userAsked := by
  unfold load Streamer.load Link.load
  rw [lane_eq .userAsked]
  abel

theorem load_streamer (s : Station) (streamer : Streamer) :
    load { s with streamer } = s.link.load .userGiven .userAsked + streamer.load :=
  (load_eq _).trans (add_comm _ _)

/-- The streamer of the station does not send empty datagrams. -/
def Sends (s : Station) : Prop := s.streamer.Sends

/-- And it leaves nothing for its loop. -/
structure Tidy (s : Station) : Prop where
  sends : s.Sends
  looped : s.streamer.Looped

theorem receiveNext_pays (hs : s.Sends) : Pays Sends load s s.receiveNext := by
  unfold receiveNext
  cases htake : s.link.inbound.take with
  | none => exact .idle hs
  | some taken =>
    obtain ⟨packet, inbound⟩ := taken
    have htaken := take_less (k := .userGiven) htake
    dsimp only
    unfold accept
    split
    · refine .moved hs ?_
      exact ((((htaken.add (.later (by decide) _ _)).add .refl).add .refl).add .refl).lt
    · refine .moved hs ?_
      exact ((((htaken.add .refl).add .refl).add .refl).add .refl).lt

theorem receive_pays (hs : s.Sends) : Pays Sends load s s.receive := by
  have hqueued : Pays Sends load s
      (s.streamer.queueBacklog.map fun streamer => { s with streamer }) :=
    .map (fun streamer => { s with streamer }) _ (queueBacklog_pays hs) (fun _ h => h)
      s.load_streamer rfl
  unfold receive
  dsimp only
  split
  · exact hqueued.andThen fun _ h => receiveNext_pays h
  · exact hqueued

theorem loop_spends (hs : s.Sends) :
    Spends Sends load s (s.streamer.loopIfAsked.map fun streamer => { s with streamer }) := by
  have hloop := loopIfAsked_spends hs
  refine ⟨hloop.kept, ?_, fun hprogress => ?_⟩
  · rw [state_map, load_streamer, load_eq, add_comm]
    exact add_le_add_left hloop.le _
  · rw [state_map, load_streamer, load_eq, add_comm]
    exact add_lt_add_left (hloop.lt hprogress) _

theorem transmitNext_pays (hs : s.Sends) : Pays Sends load s s.transmitNext := by
  unfold transmitNext
  dsimp only
  cases s.streamer.remote with
  | none => exact .idle hs
  | some ip =>
    dsimp only
    split
    · exact .idle hs
    · next henough =>
      refine .moved hs ?_
      have hfewer : 2 * s.streamer.heldLoop.toList.length + 0 <
          2 * s.streamer.heldLoop.toList.length + s.streamer.txQueue.items.length := by
        have : 0 < s.streamer.sendLevel := hs
        omega
      exact ((UpTo.refl.less (Less.pile hfewer)).add (.later (by decide) _ _)).lt

theorem transmit_pays (hs : s.Sends) : Pays Sends load s s.transmit := by
  unfold transmit
  cases hheld : s.streamer.heldOut with
  | none => exact transmitNext_pays hs
  | some packet =>
    dsimp only
    rw [← hheld]
    cases hflush : flush s.streamer.heldOut s.link.outbound with
    | mk done rest =>
      obtain ⟨heldOut, outbound⟩ := rest
      cases done with
      | true => exact .moved hs (UpTo.refl.less (lane_flush_less hflush)).lt
      | false =>
        obtain ⟨rfl, rfl⟩ := flush_kept hflush
        exact .idle hs

theorem transmitNext_frame (s : Station) :
    s.transmitNext.state.streamer.loopback = s.streamer.loopback ∧
      s.transmitNext.state.streamer.heldLoop = s.streamer.heldLoop ∧
      s.transmitNext.state.streamer.rxQueue = s.streamer.rxQueue := by
  unfold transmitNext
  dsimp only
  split
  · exact ⟨rfl, rfl, rfl⟩
  · split <;> exact ⟨rfl, rfl, rfl⟩

theorem transmit_looped (h : s.streamer.Looped) : s.transmit.state.streamer.Looped := by
  unfold transmit
  cases s.streamer.heldOut with
  | none =>
    obtain ⟨hloopback, hheld, hqueue⟩ := s.transmitNext_frame
    unfold Looped
    rw [hloopback, hheld, hqueue]
    exact h
  | some packet => exact h

theorem step_eq (s : Station) :
    s.step = (s.receive.andThen fun s =>
      s.streamer.loopIfAsked.map fun streamer => { s with streamer }).andThen transmit := rfl

/-- After a step, received bytes wait only behind one that is held. -/
theorem step_looped (s : Station) : s.step.state.streamer.Looped := by
  refine transmit_looped ?_
  show s.receive.state.streamer.loopIfAsked.state.Looped
  unfold loopIfAsked
  split
  · exact loop_looped _
  · next hplain => exact fun hloop => absurd hloop hplain

theorem step_honest (hs : s.Tidy) (hidle : s.step.progress = false) : s.step = .idle s := by
  rw [step_eq] at hidle ⊢
  obtain ⟨hfirst, hsent⟩ := Bool.or_eq_false_iff.1 hidle
  obtain ⟨hreceived, hturned⟩ := Bool.or_eq_false_iff.1 hfirst
  have hreceive : s.receive = .idle s := (receive_pays hs.sends).honest hreceived
  rw [hreceive] at hturned hsent ⊢
  have hloop : s.streamer.loopIfAsked = .idle s.streamer := loopIfAsked_honest hs.looped hturned
  have hstill : ((Outcome.idle s).andThen fun s =>
      s.streamer.loopIfAsked.map fun streamer => { s with streamer }) = .idle s := by
    refine andThen_idle rfl ?_
    rw [hloop]
    rfl
  rw [hstill] at hsent ⊢
  exact andThen_idle rfl ((transmit_pays hs.sends).honest hsent)

/-- **A step of the streamer pays.** -/
theorem step_pays (hs : s.Tidy) : Pays Tidy load s s.step := by
  have hspends : Spends Sends load s s.step :=
    ((receive_pays hs.sends).toSpends.andThen fun _ h => loop_spends h).andThen
      fun _ h => (transmit_pays h).toSpends
  exact ⟨⟨⟨hspends.kept, s.step_looped⟩, hspends.le, hspends.lt⟩, step_honest hs⟩

end Station
end Streamer
end NetBoard
