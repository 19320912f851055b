/-
  NetBoard.Proofs.Ethernet.Spacing
  ────────────────────────────────
  **THE GAP BETWEEN FRAMES ON A BARE WIRE.**

  The gap is armed when a frame is made, and a step lets a cycle of it pass
  while nothing is held.  A frame that finds room at once is followed by the
  whole gap.  A frame that has to wait is held with the gap armed, and the step
  in which it leaves is already a cycle of the gap: one silent step is missing
  after it, and no more than one however long it had to wait.

  Main definitions:

      Mac.Event, Mac.after  — a step, or something that the PHY or a subscriber does
      Mac.slots             — what the steps of a run put on the wire
      Mac.Course            — all that a step can do on the sending side

  Main statements:

      step_course           — a step takes its course
      Course.of_entered     — the gap still to wait after a frame has entered the wire
      frames_spaced         — the silent steps between two frames
-/
import Mathlib.Algebra.Order.Floor.Div
import NetBoard.Ethernet.Mac
import NetBoard.Proofs.Pipe

namespace NetBoard.Ethernet.Mac

/-! ## §1. Runs of a MAC. -/

/-- What happens to a MAC: a step, or something that the PHY or a subscriber does. -/
inductive Event where
  | step
  /-- The PHY offers received octets. -/
  | arrive (bs : Bytes)
  /-- The PHY reads at most `n` frames. -/
  | collect (n : Nat)
  /-- The PHY reads no more. -/
  | hangUp
  | register (type : UInt16)
  /-- The subscriber of a type offers a frame. -/
  | send (type : UInt16) (frame : Frame)
  /-- The subscriber of a type reads at most `n` frames. -/
  | take (type : UInt16) (n : Nat)
  | abandon (type : UInt16)

/-- The MAC after the subscriber of a type has used its pipes. -/
def use (mac : Mac) (type : UInt16) (f : Link Frame → Link Frame) : Mac :=
  match mac.crossbar.link? type with
  | none => mac
  | some link => { mac with crossbar := mac.crossbar.setLink type (f link) }

/-- The MAC after an event. -/
def after (mac : Mac) : Event → Mac
  | .step => mac.step.state
  | .arrive bs => { mac with wireIn := (mac.wireIn.offer bs).2 }
  | .collect n => { mac with wireOut := (mac.wireOut.takeMany n).2 }
  | .hangUp => { mac with wireOut := mac.wireOut.close }
  | .register type =>
    match mac.register type with
    | .ok (mac, _) => mac
    | .error _ => mac
  | .send type frame => mac.use type fun link =>
    { link with outbound := (link.outbound.offer frame).2 }
  | .take type n => mac.use type fun link => { link with inbound := (link.inbound.takeMany n).2 }
  | .abandon type => { mac with crossbar := mac.crossbar.abandon type }

/-- One step as the wire sees it. -/
structure Slot where
  /-- Was a frame waiting for room when the step began? -/
  waited : Bool
  /-- The frames that entered the wire. -/
  entered : List Bytes
  deriving DecidableEq

/-- Nothing entered the wire. -/
def Slot.silent (x : Slot) : Bool := x.entered.isEmpty

/-- What entered a pipe between two states of it: frames are put at its end. -/
def entered (before after : Pipe Bytes) : List Bytes := after.items.drop before.items.length

/-- The next step as the wire sees it. -/
def slot (mac : Mac) : Slot where
  waited := mac.heldOut.isSome
  entered := entered mac.wireOut mac.step.state.wireOut

/-- The steps of a run, in order. -/
def slots (mac : Mac) : List Event → List Slot
  | [] => []
  | .step :: events => mac.slot :: (mac.after .step).slots events
  | event :: events => (mac.after event).slots events

/-! ## §2. What the two directions touch. -/

/-- Putting a frame on the wire uses the stages, and arms the gap. -/
theorem wireImage_frame (mac : Mac) (frame : Frame) :
    ∃ packetizer preambler gap,
      (mac.wireImage frame).1 = { mac with packetizer, preambler, gap } := by
  unfold wireImage
  dsimp only
  split
  · exact ⟨_, _, _, rfl⟩
  · exact ⟨_, mac.preambler, mac.gap, rfl⟩

/-- Reading a frame uses the stages, and counts. -/
theorem accept_frame (mac : Mac) (bs : Bytes) :
    ∃ deambler depacketizer stats,
      (mac.accept bs).1 = { mac with deambler, depacketizer, stats } := by
  have hparse : ∀ (m : Mac) (bs : Bytes), ∃ depacketizer stats,
      (m.parse bs).1 = { m with depacketizer, stats } := fun m bs => ⟨_, _, rfl⟩
  unfold accept
  -- only a frame that is unwrapped is read any further
  have hunwrap : ∃ deambler, (mac.unwrap bs).1 = { mac with deambler } := by
    unfold unwrap
    split
    · exact ⟨_, rfl⟩
    · exact ⟨mac.deambler, rfl⟩
  obtain ⟨deambler, hstripped⟩ := hunwrap
  generalize mac.unwrap bs = unwrapped at hstripped
  obtain ⟨m, result⟩ := unwrapped
  obtain rfl : m = { mac with deambler } := hstripped
  cases result with
  | error d => exact ⟨deambler, mac.depacketizer, _, rfl⟩
  | ok bs =>
    dsimp only
    obtain ⟨depacketizer, stats, hread⟩ := hparse { mac with deambler } bs
    generalize parse { mac with deambler } bs = parsed at hread
    obtain ⟨m, result⟩ := parsed
    obtain rfl : m = { mac with deambler, depacketizer, stats } := hread
    cases result with
    | error d => exact ⟨deambler, depacketizer, _, rfl⟩
    | ok frame => exact ⟨deambler, depacketizer, stats, rfl⟩

/-- Reception takes from the wire, and uses the stages and the pipe into the crossbar. -/
theorem receive_frame (mac : Mac) :
    ∃ wireIn heldIn inbox deambler depacketizer stats,
      mac.receive.state =
        { mac with
          wireIn, heldIn, deambler, depacketizer, stats
          crossbar := { mac.crossbar with inbox } } ∧
        wireIn.closed = mac.wireIn.closed ∧ wireIn.items <:+ mac.wireIn.items := by
  have hnext : ∀ mac : Mac, ∃ wireIn heldIn inbox deambler depacketizer stats,
      mac.receiveNext.state =
        { mac with
          wireIn, heldIn, deambler, depacketizer, stats
          crossbar := { mac.crossbar with inbox } } ∧
        wireIn.closed = mac.wireIn.closed ∧ wireIn.items <:+ mac.wireIn.items := by
    intro mac
    unfold receiveNext
    cases htake : mac.wireIn.take with
    | none =>
      exact ⟨mac.wireIn, mac.heldIn, mac.crossbar.inbox, mac.deambler, mac.depacketizer, mac.stats,
        rfl, rfl, List.suffix_refl _⟩
    | some taken =>
      obtain ⟨bs, wireIn⟩ := taken
      obtain ⟨hitems, -, hclosed⟩ := Pipe.take_eq_some htake
      have hrest : wireIn.items <:+ mac.wireIn.items := hitems ▸ List.suffix_cons bs wireIn.items
      obtain ⟨deambler, depacketizer, stats, haccept⟩ := accept_frame { mac with wireIn } bs
      dsimp only
      generalize accept { mac with wireIn } bs = accepted at haccept
      obtain ⟨m, frame, log⟩ := accepted
      obtain rfl : m = { mac with wireIn, deambler, depacketizer, stats } := haccept
      cases frame with
      | none =>
        exact ⟨wireIn, mac.heldIn, mac.crossbar.inbox, deambler, depacketizer, stats, rfl, hclosed,
          hrest⟩
      | some frame => exact ⟨wireIn, _, _, deambler, depacketizer, _, rfl, hclosed, hrest⟩
  unfold receive
  cases mac.heldIn with
  | none => exact hnext mac
  | some frame =>
    dsimp only
    generalize flush (some frame) mac.crossbar.inbox = flushed
    obtain ⟨left, heldIn, inbox⟩ := flushed
    cases left with
    | false =>
      exact ⟨mac.wireIn, mac.heldIn, mac.crossbar.inbox, mac.deambler, mac.depacketizer, mac.stats,
        rfl, rfl, List.suffix_refl _⟩
    | true =>
      obtain ⟨wireIn, held, inbox, deambler, depacketizer, stats, hstate, hkept⟩ :=
        hnext { mac with heldIn, crossbar := { mac.crossbar with inbox } }
      exact ⟨wireIn, held, inbox, deambler, depacketizer, stats, hstate, hkept⟩

/-! ## §3. The course of a step. -/

/-- All that a step can do on the sending side of a bare wire: to the frame it
holds, to the wire and to the gap. -/
inductive Course : Option Bytes → Pipe Bytes → Gap → Option Bytes → Pipe Bytes → Gap → Prop
  /-- The wire has no room for the held frame. -/
  | stuck {bs : Bytes} {wire : Pipe Bytes} {gap : Gap} :
      Course (some bs) wire gap (some bs) wire gap
  /-- The held frame leaves, and the step goes on. -/
  | flushed {bs : Bytes} {wire flushed : Pipe Bytes} {gap : Gap}
      {held : Option Bytes} {next : Pipe Bytes} {rest : Gap} :
      flush (some bs) wire = (true, none, flushed) → Course none flushed gap held next rest →
      Course (some bs) wire gap held next rest
  /-- A cycle of the gap passes. -/
  | tick {wire : Pipe Bytes} {gap : Gap} : gap.left ≠ 0 → Course none wire gap none wire gap.tick
  /-- There is nothing to send. -/
  | rest {wire : Pipe Bytes} {gap : Gap} : gap.left = 0 → Course none wire gap none wire gap
  /-- A frame is made, which arms the gap. -/
  | send {wire : Pipe Bytes} {gap : Gap} (bs : Bytes) : gap.left = 0 →
      Course none wire gap (sendOrHold bs wire).1 (sendOrHold bs wire).2 gap.start

/-- The sending side of two MACs, on a bare wire, is related by a course. -/
def Sends (mac mac' : Mac) : Prop :=
  mac'.bareWire = true ∧
    Course mac.heldOut mac.wireOut mac.gap mac'.heldOut mac'.wireOut mac'.gap

/-- The sending side of two MACs is the same. -/
def SameSide (mac mac' : Mac) : Prop :=
  mac'.bareWire = mac.bareWire ∧ mac'.heldOut = mac.heldOut ∧ mac'.wireOut = mac.wireOut ∧
    mac'.gap = mac.gap

/-- With nothing held, the gap runs or the next frame is made. -/
theorem transmitNext_course {mac : Mac} (hbare : mac.bareWire = true) (hheld : mac.heldOut = none) :
    Sends mac mac.transmitNext.state := by
  by_cases hleft : mac.gap.left = 0
  · have hidle : mac.gap.isIdle = true := by simpa [Gap.isIdle] using hleft
    cases htake : mac.crossbar.outbox.take with
    | none =>
      have hnext : mac.transmitNext = .idle mac := by
        unfold transmitNext
        rw [hidle, htake]
        rfl
      rw [hnext]
      refine ⟨hbare, ?_⟩
      show Course mac.heldOut mac.wireOut mac.gap mac.heldOut mac.wireOut mac.gap
      rw [hheld]
      exact .rest hleft
    | some taken =>
      unfold transmitNext wireImage Sends
      rw [hidle, htake, hbare, hheld]
      exact ⟨rfl, .send _ hleft⟩
  · have hidle : mac.gap.isIdle = false := by simpa [Gap.isIdle] using hleft
    have hnext : mac.transmitNext = .moved { mac with gap := mac.gap.tick } := by
      unfold transmitNext
      rw [hidle]
      rfl
    rw [hnext]
    refine ⟨hbare, ?_⟩
    show Course mac.heldOut mac.wireOut mac.gap mac.heldOut mac.wireOut mac.gap.tick
    rw [hheld]
    exact .tick hleft

theorem transmit_course {mac : Mac} (hbare : mac.bareWire = true) :
    Sends mac mac.transmit.state := by
  cases hheld : mac.heldOut with
  | none =>
    have hnext : mac.transmit = mac.transmitNext := by
      unfold transmit
      rw [hheld]
    rw [hnext]
    exact transmitNext_course hbare hheld
  | some bs =>
    obtain hfull | ⟨wireOut, hleft⟩ := flush_cases bs mac.wireOut
    · have hstuck : mac.transmit = .idle mac := by
        unfold transmit
        rw [hheld]
        dsimp only
        rw [hfull]
      rw [hstuck]
      refine ⟨hbare, ?_⟩
      show Course mac.heldOut mac.wireOut mac.gap mac.heldOut mac.wireOut mac.gap
      rw [hheld]
      exact .stuck
    · let flushed : Mac := { mac with heldOut := none, wireOut }
      have hgoes : mac.transmit.state = flushed.transmitNext.state := by
        unfold transmit
        rw [hheld]
        dsimp only
        rw [hleft]
        rfl
      have hnext : Sends flushed flushed.transmitNext.state := transmitNext_course hbare rfl
      rw [hgoes]
      refine ⟨hnext.1, ?_⟩
      rw [hheld]
      exact .flushed hleft hnext.2

/-- Reception is apart from the sending side. -/
theorem receive_sameSide (mac : Mac) : SameSide mac mac.receive.state := by
  obtain ⟨wireIn, heldIn, inbox, deambler, depacketizer, stats, hreceive, -⟩ := receive_frame mac
  rw [hreceive]
  exact ⟨rfl, rfl, rfl, rfl⟩

/-- **A step takes its course.** -/
theorem step_course {mac : Mac} (hbare : mac.bareWire = true) : Sends mac mac.step.state := by
  -- the crossbar has no part in the sending side
  let exchanged : Mac := { mac with crossbar := mac.crossbar.step.state }
  have hbare' : exchanged.bareWire = true := hbare
  have hsent : Sends mac exchanged.transmit.state := transmit_course hbare'
  obtain ⟨hsame, hheld, hwire, hgap⟩ := exchanged.transmit.state.receive_sameSide
  show Sends mac exchanged.transmit.state.receive.state
  unfold Sends
  rw [hsame, hheld, hwire, hgap]
  exact hsent

/-- Events other than steps leave the gap and the held frame alone. -/
theorem after_other {event : Event} (h : event ≠ .step) (mac : Mac) :
    (mac.after event).bareWire = mac.bareWire ∧ (mac.after event).heldOut = mac.heldOut ∧
      (mac.after event).gap = mac.gap := by
  have huse : ∀ (type : UInt16) (f : Link Frame → Link Frame),
      (mac.use type f).bareWire = mac.bareWire ∧ (mac.use type f).heldOut = mac.heldOut ∧
        (mac.use type f).gap = mac.gap := by
    intro type f
    unfold use
    cases mac.crossbar.link? type <;> exact ⟨rfl, rfl, rfl⟩
  cases event with
  | step => exact absurd rfl h
  | send type frame => exact huse type _
  | take type n => exact huse type _
  | register type =>
    have hafter : mac.after (.register type) =
        match mac.register type with
        | .ok (mac, _) => mac
        | .error _ => mac := rfl
    rw [hafter]
    unfold register
    cases mac.crossbar.register type <;> exact ⟨rfl, rfl, rfl⟩
  | arrive _ | collect _ | hangUp | abandon _ => exact ⟨rfl, rfl, rfl⟩

/-! ## §4. The gap along a course. -/

theorem entered_self (wire : Pipe Bytes) : entered wire wire = [] := List.drop_length

/-- A frame that is sent or held: a held one has not entered. -/
theorem sendOrHold_entered (bs : Bytes) (wire : Pipe Bytes) :
    ((sendOrHold bs wire).1 = some bs ∧ (sendOrHold bs wire).2 = wire) ∨
      ((sendOrHold bs wire).1 = none ∧ (entered wire (sendOrHold bs wire).2).length ≤ 1) := by
  unfold sendOrHold flush Pipe.offer entered
  dsimp only
  split_ifs with hclosed hroom
  · exact .inr ⟨rfl, by simp⟩
  · exact .inr ⟨rfl, by simp⟩
  · exact .inl ⟨rfl, rfl⟩

namespace Course

variable {held held' : Option Bytes} {wire wire' : Pipe Bytes} {gap gap' : Gap}

theorem cycles_eq (h : Course held wire gap held' wire' gap') : gap'.cycles = gap.cycles := by
  induction h with
  | flushed _ _ ih => exact ih
  | stuck | tick _ | rest _ | send _ _ => rfl

/-- While a frame is held the gap stays armed. -/
theorem armed (h : Course held wire gap held' wire' gap')
    (harmed : held ≠ none → gap.left = gap.cycles) : held' ≠ none → gap'.left = gap'.cycles := by
  induction h with
  | stuck => exact harmed
  | flushed _ _ ih => exact ih fun hnone => absurd rfl hnone
  | tick _ | rest _ => exact fun hnone => absurd rfl hnone
  | send _ _ => exact fun _ => rfl

/-- In the gap nothing enters the wire, and a cycle of it passes. -/
theorem of_waiting (h : Course none wire gap held' wire' gap') (hleft : gap.left ≠ 0) :
    wire' = wire ∧ held' = none ∧ gap'.left + 1 = gap.left := by
  cases h with
  | tick _ =>
    refine ⟨rfl, rfl, ?_⟩
    simp only [Gap.tick]
    omega
  | rest hidle => exact absurd hidle hleft
  | send bs hidle => exact absurd hidle hleft

/-- **After a frame has entered the wire** nothing is held, and the whole gap is
still to wait; but for one cycle, if the frame had to wait for room. -/
theorem of_entered (h : Course held wire gap held' wire' gap')
    (harmed : held ≠ none → gap.left = gap.cycles) (hgap : gap.cycles ≠ 0)
    (hentered : entered wire wire' ≠ []) :
    (entered wire wire').length = 1 ∧ held' = none ∧
      gap'.left + (if held.isSome then 1 else 0) = gap.cycles := by
  have hsome : 1 ≤ (entered wire wire').length := List.length_pos_iff.2 hentered
  cases h with
  | stuck => exact absurd (entered_self wire) hentered
  | tick _ => exact absurd (entered_self wire) hentered
  | rest _ => exact absurd (entered_self wire) hentered
  | send bs _ =>
    obtain ⟨-, hsame⟩ | ⟨hnone, hone⟩ := sendOrHold_entered bs wire
    · rw [hsame] at hentered
      exact absurd (entered_self wire) hentered
    · exact ⟨le_antisymm hone hsome, hnone, rfl⟩
  | @flushed bs _ q _ _ _ _ hflush hnext =>
    have hleft : gap.left = gap.cycles := harmed (Option.some_ne_none bs)
    -- the gap is armed, so the step that lets the held frame go makes no other
    obtain ⟨rfl, hnone, hticked⟩ := hnext.of_waiting (by omega)
    have hsent : (sendOrHold bs wire).1 = none ∧ (sendOrHold bs wire).2 = wire' := by
      unfold sendOrHold
      rw [hflush]
      exact ⟨rfl, rfl⟩
    obtain ⟨hheld, -⟩ | ⟨-, hone⟩ := sendOrHold_entered bs wire
    · rw [hsent.1] at hheld
      cases hheld
    · rw [hsent.2] at hone
      refine ⟨le_antisymm hone hsome, hnone, ?_⟩
      simp only [Option.isSome_some, if_true]
      omega

end Course

/-! ## §5. Runs. -/

/-- The number of silent steps. -/
def silentSteps (slots : List Slot) : Nat := slots.countP Slot.silent

/-- What a MAC is at every moment of a run: on a bare wire, with the gap it was
made with, which is armed while a frame is held. -/
structure Paced (cycles : Nat) (mac : Mac) : Prop where
  bare : mac.bareWire = true
  cycles_eq : mac.gap.cycles = cycles
  armed : mac.heldOut ≠ none → mac.gap.left = mac.gap.cycles

theorem Paced.after {cycles : Nat} {mac : Mac} (h : mac.Paced cycles) (event : Event) :
    (mac.after event).Paced cycles := by
  by_cases hstep : event = .step
  · subst hstep
    obtain ⟨hbare, hcourse⟩ := step_course h.bare
    exact ⟨hbare, hcourse.cycles_eq.trans h.cycles_eq, hcourse.armed h.armed⟩
  · obtain ⟨hbare, hheld, hgap⟩ := after_other hstep mac
    refine ⟨hbare.trans h.bare, hgap ▸ h.cycles_eq, ?_⟩
    rw [hheld, hgap]
    exact h.armed

theorem slots_other {event : Event} (h : event ≠ .step) (mac : Mac) (events : List Event) :
    mac.slots (event :: events) = (mac.after event).slots events := by
  cases event with
  | step => exact absurd rfl h
  | _ => rfl

/-- With nothing held, the gap passes in silence before the next frame. -/
theorem silent_of_gap {cycles : Nat} {mac : Mac} (h : mac.Paced cycles) (hheld : mac.heldOut = none)
    {events : List Event} {mid post : List Slot} {y : Slot}
    (hslots : mac.slots events = mid ++ y :: post) (hy : y.silent = false) :
    mac.gap.left ≤ silentSteps mid := by
  induction events generalizing mac mid with
  | nil => simp [slots] at hslots
  | cons event events ih =>
    by_cases hstep : event = .step
    · subst hstep
      by_cases hleft : mac.gap.left = 0
      · omega
      · -- the step is a cycle of the gap, and silent
        obtain ⟨-, hcourse⟩ := step_course h.bare
        rw [hheld] at hcourse
        obtain ⟨hwire, hnone, hticked⟩ := hcourse.of_waiting hleft
        have hsilent : mac.slot.silent = true := by
          unfold slot Slot.silent
          rw [hwire, entered_self]
          rfl
        have hcons : mac.slot :: (mac.after .step).slots events = mid ++ y :: post := hslots
        cases mid with
        | nil =>
          rw [(List.cons.inj hcons).1, hy] at hsilent
          cases hsilent
        | cons z mid =>
          obtain ⟨rfl, hrest⟩ := List.cons.inj hcons
          have hpassed : (mac.after .step).gap.left ≤ silentSteps mid :=
            ih (h.after .step) hnone hrest
          have hgap : (mac.after .step).gap.left + 1 = mac.gap.left := hticked
          unfold silentSteps at hpassed ⊢
          rw [List.countP_cons_of_pos hsilent]
          omega
    · rw [slots_other hstep] at hslots
      obtain ⟨-, hheld', hgap⟩ := after_other hstep mac
      rw [← hgap]
      exact ih (h.after event) (hheld'.trans hheld) hslots

/-- So it does between two frames, but for the cycle in which the first left if it was held. -/
theorem spaced_from {cycles : Nat} {mac : Mac} (h : mac.Paced cycles)
    {events : List Event} {pre mid post : List Slot} {x y : Slot}
    (hslots : mac.slots events = pre ++ x :: (mid ++ y :: post))
    (hx : x.silent = false) (hy : y.silent = false) :
    (cycles ≠ 0 → x.entered.length = 1) ∧
      cycles ≤ silentSteps mid + if x.waited then 1 else 0 := by
  by_cases hcycles : cycles = 0
  · exact ⟨fun hpos => absurd hcycles hpos, by omega⟩
  induction events generalizing mac pre with
  | nil => simp [slots] at hslots
  | cons event events ih =>
    by_cases hstep : event = .step
    · subst hstep
      have hcons : mac.slot :: (mac.after .step).slots events =
        pre ++ x :: (mid ++ y :: post) := hslots
      cases pre with
      | cons z pre => exact ih (h.after .step) (List.cons.inj hcons).2
      | nil =>
        obtain ⟨rfl, hrest⟩ := List.cons.inj hcons
        obtain ⟨-, hcourse⟩ := step_course h.bare
        have hentered : entered mac.wireOut mac.step.state.wireOut ≠ [] := by
          intro hnil
          have hsilent : mac.slot.silent = true := List.isEmpty_iff.2 hnil
          rw [hsilent] at hx
          cases hx
        obtain ⟨hone, hnone, hgap⟩ :=
          hcourse.of_entered h.armed (h.cycles_eq ▸ hcycles) hentered
        have hpassed := silent_of_gap (h.after .step) hnone hrest hy
        have hleft : (mac.after .step).gap.left + (if mac.slot.waited then 1 else 0) = cycles :=
          hgap.trans h.cycles_eq
        exact ⟨fun _ => hone, by omega⟩
    · rw [slots_other hstep] at hslots
      exact ih (h.after event) hslots

/-- A MAC for a bare wire starts with its gap over and nothing held. -/
theorem paced_make {address : MacAddress} {width gapOctets depth : Nat} {mac : Mac}
    (h : make? address width true gapOctets depth = .ok mac) : mac.Paced (gapOctets ⌈/⌉ width) := by
  unfold make? at h
  cases hwidth : checkWidth width with
  | error fault =>
    rw [hwidth] at h
    cases h
  | ok checked =>
    obtain rfl : checked = width := by
      unfold checkWidth at hwidth
      split_ifs at hwidth
      cases hwidth
      rfl
    rw [hwidth] at h
    cases h
    exact ⟨rfl, (Nat.ceilDiv_eq_add_pred_div gapOctets checked).symm, fun hnone => absurd rfl hnone⟩

/-- **The spacing of frames.**  Whatever the subscribers send and the PHY reads,
the steps of a whole gap pass in silence between a frame that enters a bare wire
and the next one; after a frame that had to wait for room there may be one less.
Unless the gap is empty, no two frames enter in one step. -/
theorem frames_spaced {address : MacAddress} {width gapOctets depth : Nat} {mac : Mac}
    (hmac : make? address width true gapOctets depth = .ok mac)
    (events : List Event) {pre mid post : List Slot} {x y : Slot}
    (hslots : mac.slots events = pre ++ x :: (mid ++ y :: post))
    (hx : x.silent = false) (hy : y.silent = false) :
    (gapOctets ⌈/⌉ width ≠ 0 → x.entered.length = 1) ∧
      gapOctets ⌈/⌉ width ≤ silentSteps mid + if x.waited then 1 else 0 :=
  spaced_from (paced_make hmac) hslots hx hy

/-! ## §6. A frame that waited. -/

/-- A MAC on a bus of one octet, with room for one frame and a gap of one cycle. -/
def narrow : Mac where
  address := .broadcast
  bareWire := true
  crossbar := .make .etherType 1
  wireIn := .make 1
  wireOut := .make 1
  packetizer := { header, width := 1 }
  depacketizer := { format := header, width := 1 }
  preambler := { header := Preamble.header, width := 1 }
  deambler := { format := Preamble.header, width := 1 }
  gap := .make 1 1

/-- A frame without payload. -/
def emptyFrame : Frame := ⟨.broadcast, .broadcast, typeArp, []⟩

/-- Three frames are sent; the PHY reads the first one only after the second was made. -/
def crowded : List Event :=
  [.register typeArp, .send typeArp emptyFrame, .step, .send typeArp emptyFrame, .step, .step,
    .send typeArp emptyFrame, .collect 1, .step, .collect 1, .step]

/-- The second frame waits for room, and the third enters in the very next step:
none is silent between them, where the gap is of one. -/
theorem frames_spaced_crowded :
    let image := (narrow.wireImage emptyFrame).2
    make? .broadcast 1 true 1 1 = .ok narrow ∧
      narrow.slots crowded = [⟨false, [image]⟩, ⟨false, []⟩, ⟨false, []⟩] ++
        ⟨true, [image]⟩ :: ([] ++ ⟨false, [image]⟩ :: []) ∧
      1 ⌈/⌉ 1 ≤ silentSteps [] + 1 ∧ ¬1 ⌈/⌉ 1 ≤ silentSteps [] := by
  intro image
  have hmac : make? .broadcast 1 true 1 1 = .ok narrow := rfl
  have hslots : narrow.slots crowded = [⟨false, [image]⟩, ⟨false, []⟩, ⟨false, []⟩] ++
      ⟨true, [image]⟩ :: ([] ++ ⟨false, [image]⟩ :: []) := by decide +kernel
  exact ⟨hmac, hslots, (frames_spaced hmac crowded hslots rfl rfl).2, by decide⟩

end NetBoard.Ethernet.Mac
