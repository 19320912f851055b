/-
  NetBoard.Proofs.Crossbar.Progress
  ─────────────────────────────────
  **WHAT A STEP SAYS ABOUT ITSELF.**

  A step answers whether it made progress, and its callers go on stepping until
  it did not.  On reception the answer counts everything: a record that left
  the slot in front of a subscriber, and one that left the inbox.  On
  transmission it counts the records taken from the subscribers, but not the
  one that left the slot in front of the outbox.  So a record can reach the
  layer in a step that reports nothing.  That is all that can go unreported,
  and the next step finds nothing left to do.

  Main definitions:

      Stock              — the records of every queue and slot

  Main statements:

      dispatch_cases     — reception reports all that it moves
      step_cases         — a step without progress only releases what was held
      progress_reported  — what changes, and what is reported
-/
import NetBoard.Proofs.Crossbar.Fairness
import NetBoard.Proofs.Settling.Crossbar

namespace NetBoard.Crossbar

variable {α : Type}

/-! ## §1. What is where. -/

/-- The records in a crossbar, each in the queue or the slot it is in. -/
structure Stock (α : Type) where
  inbox : List α
  heldIn : Option α
  /-- For each key, the records that its subscriber can take. -/
  given : UInt16 → List α
  /-- For each key, the records that its subscriber has sent. -/
  unsent : UInt16 → List α
  heldOut : Option α
  outbox : List α

/-- The records in this crossbar. -/
def stock (xb : Crossbar α) : Stock α where
  inbox := xb.inbox.items
  heldIn := xb.heldIn
  given := xb.given
  unsent := xb.unsent
  heldOut := xb.heldOut
  outbox := xb.outbox.items

/-- The release changes something exactly if a record is held and there is room for it. -/
theorem stock_released {xb : Crossbar α} (hopen : xb.outbox.closed = false) :
    xb.released.stock ≠ xb.stock ↔ xb.heldOut ≠ none ∧ xb.outbox.hasRoom = true := by
  cases hheld : xb.heldOut with
  | none =>
    have hsame : xb.released.stock = xb.stock := by
      unfold released stock
      rw [hheld]
      rfl
    simp [hsame]
  | some item =>
    by_cases hroom : xb.outbox.hasRoom = true
    · have hfree : xb.released.heldOut = none := by
        show (flush xb.heldOut xb.outbox).2.1 = none
        rw [hheld, flush_of_open hopen, if_pos hroom]
      refine ⟨fun _ => ⟨Option.some_ne_none item, hroom⟩, fun _ hsame => ?_⟩
      have hslot : none = some item := by
        rw [← hfree, ← hheld]
        exact congrArg Stock.heldOut hsame
      cases hslot
    · have hsame : xb.released.stock = xb.stock := by
        unfold released stock
        rw [hheld, flush_of_open hopen, if_neg hroom]
        rfl
      simp [hsame, hroom]

/-! ## §2. Reception. -/

section Reception

variable [Keyed α]

theorem inbox_deliver (xb : Crossbar α) (item : α) : (xb.deliver item).state.inbox = xb.inbox := by
  unfold deliver
  dsimp only
  split <;> rfl

/-- A record is taken from the inbox, or nothing is done. -/
theorem dispatchNext_cases (xb : Crossbar α) :
    xb.dispatchNext = .idle xb ∨
    (xb.dispatchNext.progress = true ∧
      xb.dispatchNext.state.inbox.items.length < xb.inbox.items.length) := by
  unfold dispatchNext
  cases htake : xb.inbox.take with
  | none => exact .inl rfl
  | some taken =>
    obtain ⟨item, inbox⟩ := taken
    obtain ⟨hitems, -, -⟩ := Pipe.take_eq_some htake
    right
    refine ⟨progress_deliver _ item, ?_⟩
    dsimp only
    rw [inbox_deliver, hitems]
    exact Nat.lt_succ_self _

/-- **Reception reports all that it moves**: the inbox is shorter, or the held record is gone. -/
theorem dispatch_cases {xb : Crossbar α} (hknown : xb.HeldKnown) :
    xb.dispatch = .idle xb ∨
    (xb.dispatch.progress = true ∧
      (xb.dispatch.state.inbox.items ≠ xb.inbox.items ∨ xb.dispatch.state.heldIn ≠ xb.heldIn)) := by
  have hshorter : ∀ {taken items : List α}, taken.length < items.length → taken ≠ items := by
    rintro taken _ hlt rfl
    exact Nat.lt_irrefl _ hlt
  rcases dispatch_eq hknown with
    ⟨-, hnext⟩ | ⟨item, link, hheld, -, hidle | ⟨hnone, hnext⟩⟩
  · rw [hnext]
    rcases dispatchNext_cases xb with hidle | ⟨hprogress, htaken⟩
    · exact .inl hidle
    · exact .inr ⟨hprogress, .inl (hshorter htaken)⟩
  · exact .inl hidle
  · right
    rw [hnext]
    refine ⟨rfl, ?_⟩
    rw [Outcome.state_andThen]
    -- the slot is free now, unless the next record has taken it
    rcases dispatchNext_cases (xb.hand item link) with hidle | ⟨-, htaken⟩
    · right
      show (xb.hand item link).dispatchNext.state.heldIn ≠ _
      rw [hidle, hheld]
      intro hsame
      cases hnone.symm.trans hsame
    · exact .inl (hshorter htaken)

end Reception

/-! ## §3. Steps. -/

variable [Keyed α]

/-- **A step without progress only releases what was held** in front of the
outbox; with progress it has taken a record on one of the two ways. -/
theorem step_cases {xb : Crossbar α} (hknown : xb.HeldKnown) (hkeys : xb.keys.Nodup)
    (hopen : xb.outbox.closed = false) :
    (xb.step.progress = false ∧ xb.step.state = xb.released) ∨
    (xb.step.progress = true ∧
      (xb.step.state.inbox.items ≠ xb.inbox.items ∨ xb.step.state.heldIn ≠ xb.heldIn ∨
        xb.step.state.unsent ≠ xb.unsent)) := by
  obtain ⟨new, hnew⟩ := dispatch_dispatched hknown
  have hkeys' : xb.dispatch.state.keys.Nodup := hnew.keys.symm ▸ hkeys
  have hopen' : xb.dispatch.state.outbox.closed = false := hnew.outbox ▸ hopen
  rcases dispatch_cases hknown with hidle | ⟨hprogress, hmoved⟩
  · -- reception has done nothing, and the answer is that of transmission
    have hstep : xb.step = xb.arbitrate := by
      rw [step, hidle]
      rfl
    rw [hstep]
    rcases arbitrate_cases hkeys hopen with
      ⟨-, hnothing⟩ | ⟨-, -, hnothing⟩ | ⟨-, hprogress, key, item, hserved⟩
    · rw [hnothing]
      exact .inl ⟨rfl, rfl⟩
    · rw [hnothing]
      exact .inl ⟨rfl, rfl⟩
    · refine .inr ⟨hprogress, .inr (.inr ?_)⟩
      intro hsame
      have htaken := hserved.taken
      rw [← hsame] at htaken
      exact List.cons_ne_self _ _ htaken.symm
  · right
    obtain ⟨won, hwon⟩ := arbitrate_arbitrated hkeys' hopen'
    refine ⟨?_, ?_⟩
    · rw [step, Outcome.progress_andThen, hprogress, Bool.true_or]
    · rw [step, Outcome.state_andThen, hwon.inbox, hwon.heldIn]
      exact hmoved.imp_right .inl

namespace History

/-- **What a step changes, and what it reports.**

A step changes some queue or slot exactly if it reports progress, or if a record
was held in front of the outbox and there was room for it.  It reports progress
exactly if it took a record from the inbox or from a subscriber, or moved the
one held in front of a subscriber.  Without progress nothing else has happened
than that the record in front of the outbox has left, and the next step does nothing. -/
theorem progress_reported (kind : Kind) (depth : Nat) (events : List (Event α)) :
    let xb := (run kind depth events).crossbar
    let xb' := xb.step.state
    (xb'.stock ≠ xb.stock ↔
      xb.step.progress = true ∨ (xb.heldOut ≠ none ∧ xb.outbox.hasRoom = true)) ∧
    (xb.step.progress = true ↔
      xb'.inbox.items ≠ xb.inbox.items ∨ xb'.heldIn ≠ xb.heldIn ∨ xb'.unsent ≠ xb.unsent) ∧
    (xb.step.progress = false → xb' = xb.released ∧ xb'.step = .idle xb') := by
  intro xb xb'
  obtain ⟨hkeys, hreceived, hsent⟩ := run_conserved kind depth events
  have hopen : xb.outbox.closed = false := hsent.opened
  have hcases := step_cases hreceived.held hkeys hopen
  have hquiet : xb.step.progress = false → xb' = xb.released := by
    intro hidle
    rcases hcases with ⟨-, hsame⟩ | ⟨hprogress, -⟩
    · exact hsame
    · rw [hidle] at hprogress
      cases hprogress
  have hmoved : xb.step.progress = true →
      xb'.inbox.items ≠ xb.inbox.items ∨ xb'.heldIn ≠ xb.heldIn ∨ xb'.unsent ≠ xb.unsent := by
    intro hprogress
    rcases hcases with ⟨hidle, -⟩ | ⟨-, hmoved⟩
    · rw [hidle] at hprogress
      cases hprogress
    · exact hmoved
  have hchanged : xb.step.progress = true → xb'.stock ≠ xb.stock := by
    intro hprogress hsame
    rcases hmoved hprogress with hne | hne | hne
    · exact hne (congrArg Stock.inbox hsame)
    · exact hne (congrArg Stock.heldIn hsame)
    · exact hne (congrArg Stock.unsent hsame)
  refine ⟨?_, ⟨hmoved, ?_⟩, ?_⟩
  · cases hprogress : xb.step.progress with
    | true => exact iff_of_true (hchanged hprogress) (.inl rfl)
    | false =>
      rw [hquiet hprogress, stock_released hopen]
      exact (or_iff_right Bool.false_ne_true).symm
  · intro htaken
    cases hprogress : xb.step.progress with
    | true => rfl
    | false =>
      -- the release touches neither the inbox nor a subscriber
      rw [hquiet hprogress] at htaken
      rcases htaken with hne | hne | hne
      · exact absurd rfl hne
      · exact absurd rfl hne
      · exact absurd rfl hne
  · intro hidle
    refine ⟨hquiet hidle, ?_⟩
    let c : Crossing := ⟨.macInbox, .macGiven, .macAsked, .macOutbox, by decide, by decide, by decide⟩
    exact (step_settles c none ⟨rfl, hkeys⟩).settled hidle

/-- A record reaches the layer, and the step reports nothing. -/
example :
    let events : List (Event Token) :=
      [.register 7, .send 7 ⟨7, 0⟩, .step, .send 7 ⟨7, 1⟩, .step, .collect]
    let xb := (run .udpPort 1 events).crossbar
    xb.step.progress = false ∧ xb.outbox.items = [] ∧ xb.step.state.outbox.items = [⟨7, 1⟩] := by
  decide

end History
end NetBoard.Crossbar
