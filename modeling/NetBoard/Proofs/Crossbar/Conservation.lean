/-
  NetBoard.Proofs.Crossbar.Conservation
  ─────────────────────────────────────
  **NOTHING IS LOST BETWEEN A LAYER AND ITS SUBSCRIBERS.**

  A record that a crossbar has taken is in one place at a time: given to its
  subscriber, in the pipe to it, or held in front of that pipe; and on the way
  out given to the layer, in the outbox, or held in front of it.  Read in this
  order, from the oldest record on, a step only moves records to the front:
  what it takes is added at the end, of the one subscriber it is for.

  Main definitions:

      wayTo       — the records on their way to a subscriber
      unsent      — the records a subscriber has sent that were not taken yet
      History     — a crossbar with all that went in and out of it

  Main statements:

      dispatch_eq          — all that reception can do
      dispatch_dispatched  — what a step does on reception
      arbitrateNext_eq     — all that asking the subscribers can do
      arbitrate_arbitrated — what it does on transmission
      step_exchanged       — what it does in both directions
      run_conserved        — over a run, what went in came out or is on its way
      records_conserved    — for each subscriber in order, and for the layer
-/
import Mathlib.Data.List.Nodup
import NetBoard.Proofs.Crossbar
import NetBoard.Proofs.Pipe

namespace NetBoard.Crossbar

variable {α : Type}

/-! ## §1. Views of a crossbar. -/

/-- What the subscriber of a key has sent and the crossbar has not taken. -/
def unsent (xb : Crossbar α) (key : UInt16) : List α :=
  ((xb.link? key).map (·.outbound.items)).getD []

/-- Is the receiving end of the subscriber of this key there?  Of no subscriber it is. -/
def reaches (xb : Crossbar α) (key : UInt16) : Bool := (xb.inbound? key).all (!·.closed)

/-- Is the receiving end of what the subscriber of this key sends there? -/
def sends (xb : Crossbar α) (key : UInt16) : Bool :=
  (xb.link? key).all fun link => !link.outbound.closed

/-- What is in the pipe to the subscriber of a key. -/
def given (xb : Crossbar α) (key : UInt16) : List α := ((xb.inbound? key).map (·.items)).getD []

/-- The keys of all subscribers. -/
def keys (xb : Crossbar α) : List UInt16 := xb.ports.map (·.key)

section Found

variable {xb : Crossbar α} {key : UInt16} {link : Link α}

/-- The views of a subscriber that is there. -/
theorem reaches_of_link (h : xb.link? key = some link) : xb.reaches key = !link.inbound.closed := by
  rw [reaches, inbound?, h]
  rfl

theorem sends_of_link (h : xb.link? key = some link) : xb.sends key = !link.outbound.closed := by
  rw [sends, h]
  rfl

theorem given_of_link (h : xb.link? key = some link) : xb.given key = link.inbound.items := by
  rw [given, inbound?, h]
  rfl

theorem unsent_of_link (h : xb.link? key = some link) : xb.unsent key = link.outbound.items := by
  rw [unsent, h]
  rfl

end Found

/-- A key has a subscriber if its pipes are found. -/
theorem has_eq_isSome (xb : Crossbar α) (key : UInt16) : xb.has key = (xb.link? key).isSome := by
  unfold has link?
  rw [Option.isSome_map, List.isSome_find?]

theorem has_iff_mem (xb : Crossbar α) (key : UInt16) : xb.has key = true ↔ key ∈ xb.keys := by
  unfold has keys
  rw [List.any_eq_true, List.mem_map]
  simp only [beq_iff_eq]

/-- Replacing pipes registers nobody. -/
theorem keys_setLink (xb : Crossbar α) (key : UInt16) (link : Link α) :
    (xb.setLink key link).keys = xb.keys := by
  unfold keys setLink
  rw [List.map_map]
  apply List.map_congr_left
  intro p _
  show (if p.key == key then { p with link } else p : Port α).key = p.key
  split <;> rfl

theorem unsent_setLink {xb : Crossbar α} {key : UInt16} {old : Link α}
    (h : xb.link? key = some old) (link : Link α) (other : UInt16) :
    (xb.setLink key link).unsent other =
      if other = key then link.outbound.items else xb.unsent other := by
  unfold unsent
  rw [link?_setLink]
  by_cases hother : other = key
  · rw [hother, h]
    simp
  · simp [hother]

theorem inbound?_setLink {xb : Crossbar α} {key : UInt16} {old : Link α}
    (h : xb.link? key = some old) (link : Link α) (other : UInt16) :
    (xb.setLink key link).inbound? other =
      if other = key then some link.inbound else xb.inbound? other := by
  by_cases hother : other = key
  · rw [hother, if_pos rfl, inbound?_setLink_self xb h]
  · rw [if_neg hother, inbound?_setLink_of_ne xb link hother]

/-- Replacing pipes by pipes that give the subscriber the same changes nothing for it. -/
theorem inbound?_setLink_same {xb : Crossbar α} {key : UInt16} {old : Link α}
    (h : xb.link? key = some old) (link : Link α) (hlink : link.inbound = old.inbound)
    (other : UInt16) :
    (xb.setLink key link).inbound? other = xb.inbound? other := by
  rw [inbound?_setLink h]
  by_cases hother : other = key
  · rw [if_pos hother, hother, inbound?, h, hlink]
    rfl
  · rw [if_neg hother]

/-- Replacing pipes by pipes in which the subscriber has sent the same. -/
theorem unsent_setLink_same {xb : Crossbar α} {key : UInt16} {old : Link α}
    (h : xb.link? key = some old) (link : Link α) (hlink : link.outbound = old.outbound)
    (other : UInt16) :
    (xb.setLink key link).unsent other = xb.unsent other := by
  rw [unsent_setLink h]
  by_cases hother : other = key
  · rw [if_pos hother, hother, unsent, h, hlink]
    rfl
  · rw [if_neg hother]

/-- Replacing pipes by pipes whose other end is there or not as before. -/
theorem sends_setLink {xb : Crossbar α} {key : UInt16} {old : Link α}
    (h : xb.link? key = some old) (link : Link α)
    (hclosed : link.outbound.closed = old.outbound.closed) (other : UInt16) :
    (xb.setLink key link).sends other = xb.sends other := by
  unfold sends
  rw [link?_setLink]
  by_cases hother : other = key
  · rw [hother, h]
    simp [hclosed]
  · simp [hother]

/-- Who has a subscriber is a matter of the keys. -/
theorem has_congr {xb xb' : Crossbar α} (h : xb'.keys = xb.keys) (key : UInt16) :
    xb'.has key = xb.has key := by
  rw [Bool.eq_iff_iff, has_iff_mem, has_iff_mem, h]

section Registration

variable {xb : Crossbar α} {key : UInt16} {made : Crossbar α × List Log.Line}

/-- A new subscriber has empty pipes, and nobody held its key. -/
theorem register_eq (h : xb.register key = .ok made) :
    xb.link? key = none ∧
      made.1 = { xb with ports := xb.ports ++ [(⟨key, .make xb.depth⟩ : Port α)] } := by
  unfold register at h
  split at h
  · cases h
  · next hfree =>
    obtain rfl := Except.ok.inj h
    rw [has_eq_isSome] at hfree
    exact ⟨by simpa using hfree, rfl⟩

/-- The other subscribers keep their pipes. -/
theorem link?_register (h : xb.register key = .ok made) (other : UInt16) :
    made.1.link? other = if other = key then some (.make xb.depth) else xb.link? other := by
  obtain ⟨hfree, hmade⟩ := register_eq h
  let new : Port α := ⟨key, .make xb.depth⟩
  rw [hmade]
  show ((xb.ports ++ [new]).find? (·.key == other)).map (·.link) = _
  rw [List.find?_append]
  by_cases hother : other = key
  · subst hother
    rw [link?, Option.map_eq_none_iff] at hfree
    rw [hfree, if_pos rfl]
    simp [new]
  · rw [if_neg hother, List.find?_cons_of_neg (by simpa [new] using Ne.symm hother)]
    simp [link?]

theorem keys_register (h : xb.register key = .ok made) :
    made.1.keys = xb.keys ++ [key] ∧ key ∉ xb.keys := by
  obtain ⟨hfree, hmade⟩ := register_eq h
  rw [← has_iff_mem, has_eq_isSome, hfree, hmade]
  exact ⟨List.map_append, Bool.false_ne_true⟩

/-- What the keys are is not a matter of the subscribers. -/
theorem kind_register (h : xb.register key = .ok made) : made.1.kind = xb.kind := by
  rw [(register_eq h).2]

theorem kind_abandon (xb : Crossbar α) (key : UInt16) : (xb.abandon key).kind = xb.kind := by
  unfold abandon
  cases xb.link? key <;> rfl

theorem distinct_register (hx : xb.keys.Nodup) (h : xb.register key = .ok made) :
    made.1.keys.Nodup := by
  obtain ⟨hkeys, hfree⟩ := keys_register h
  rw [hkeys]
  exact List.nodup_append.2 ⟨hx, List.nodup_singleton key, by
    rintro _ hmem _ (_ | ⟨_, hnone⟩) rfl
    · exact hfree hmem
    · cases hnone⟩

end Registration

/-! ## §2. Reception. -/

section Reception

variable [Keyed α]

/-- The record held in front of a pipe, if it is for this key. -/
def heldFor (xb : Crossbar α) (key : UInt16) : List α :=
  (xb.heldIn.filter fun item => Keyed.key item == key).toList

/-- The records on their way to the subscriber of a key, the oldest first. -/
def wayTo (xb : Crossbar α) (key : UInt16) : List α := xb.given key ++ xb.heldFor key

/-- Is this a record for the subscriber of `key`? -/
def isFor (xb : Crossbar α) (key : UInt16) (item : α) : Bool :=
  xb.has (Keyed.key item) && Keyed.key item == key

/-- The records for a subscriber are those of its key. -/
theorem isFor_of_link {xb : Crossbar α} {key : UInt16} {link : Link α}
    (h : xb.link? key = some link) : xb.isFor key = fun item => Keyed.key item == key := by
  funext item
  have hhas : xb.has key = true := by
    rw [has_eq_isSome, h]
    rfl
  unfold isFor
  by_cases hkey : Keyed.key item = key
  · rw [hkey, hhas, Bool.true_and]
  · simp [hkey]

/-- On reception the records `new` were taken, and `xb` became `xb'`. -/
structure Dispatched (xb xb' : Crossbar α) (new : List α) : Prop where
  inbox : xb.inbox.items = new ++ xb'.inbox.items
  closed : xb'.inbox.closed = xb.inbox.closed
  way : ∀ key, xb.reaches key = true → xb'.wayTo key = xb.wayTo key ++ new.filter (xb.isFor key)
  /-- To a subscriber that has gone nothing is added. -/
  gone : ∀ key, xb.reaches key = false → xb'.wayTo key <+: xb.wayTo key
  reaches : ∀ key, xb'.reaches key = xb.reaches key
  sends : ∀ key, xb'.sends key = xb.sends key
  unsent : ∀ key, xb'.unsent key = xb.unsent key
  keys : xb'.keys = xb.keys
  held : ∀ item, xb'.heldIn = some item → xb'.has (Keyed.key item) = true
  outbox : xb'.outbox = xb.outbox
  heldOut : xb'.heldOut = xb.heldOut
  dispatched : xb'.stats.dispatched =
    xb.stats.dispatched + new.countP fun item => xb.has (Keyed.key item)
  unknown : xb'.stats.unknown = xb.stats.unknown + new.countP fun item => !xb.has (Keyed.key item)
  arbitrated : xb'.stats.arbitrated = xb.stats.arbitrated

/-- A record held in front of a pipe has a subscriber. -/
def HeldKnown (xb : Crossbar α) : Prop :=
  ∀ item, xb.heldIn = some item → xb.has (Keyed.key item) = true

/-- For a key that is free nothing is held. -/
theorem HeldKnown.heldFor_of_free {xb : Crossbar α} {key : UInt16} (hheld : xb.HeldKnown)
    (hfree : key ∉ xb.keys) : xb.heldFor key = [] := by
  unfold heldFor
  cases hitem : xb.heldIn with
  | none => rfl
  | some item =>
    have hne : Keyed.key item ≠ key := by
      rintro rfl
      exact hfree ((has_iff_mem _ _).1 (hheld item hitem))
    simp [hne]

theorem Dispatched.refl {xb : Crossbar α} (hheld : xb.HeldKnown) : Dispatched xb xb [] where
  inbox := rfl
  closed := rfl
  way := by
    intro key _
    rw [List.filter_nil, List.append_nil]
  gone := fun key _ => List.prefix_refl _
  reaches := fun _ => rfl
  sends := fun _ => rfl
  unsent := fun _ => rfl
  keys := rfl
  held := hheld
  outbox := rfl
  heldOut := rfl
  dispatched := rfl
  unknown := rfl
  arbitrated := rfl

/-- Moving a held record on and then taking new ones. -/
theorem Dispatched.trans {xb xb' xb'' : Crossbar α} {new : List α} (h : Dispatched xb xb' [])
    (h' : Dispatched xb' xb'' new) : Dispatched xb xb'' new := by
  have hhas : ∀ key, xb'.has key = xb.has key := has_congr h.keys
  have hfor : ∀ key, xb'.isFor key = xb.isFor key := by
    intro key
    funext item
    rw [isFor, isFor, hhas]
  have hfirst : ∀ key, xb.reaches key = true → xb'.wayTo key = xb.wayTo key := by
    intro key hkey
    rw [h.way key hkey, List.filter_nil, List.append_nil]
  refine
    { inbox := h.inbox.trans h'.inbox
      closed := h'.closed.trans h.closed
      way := ?_
      gone := ?_
      reaches := fun key => (h'.reaches key).trans (h.reaches key)
      sends := fun key => (h'.sends key).trans (h.sends key)
      unsent := fun key => (h'.unsent key).trans (h.unsent key)
      keys := h'.keys.trans h.keys
      held := h'.held
      outbox := h'.outbox.trans h.outbox
      heldOut := h'.heldOut.trans h.heldOut
      dispatched := ?_
      unknown := ?_
      arbitrated := h'.arbitrated.trans h.arbitrated }
  · intro key hkey
    rw [h'.way key ((h.reaches key).trans hkey), hfirst key hkey, hfor]
  · intro key hkey
    exact (h'.gone key ((h.reaches key).trans hkey)).trans (h.gone key hkey)
  · rw [h'.dispatched, h.dispatched]
    simp only [hhas, List.countP_nil, Nat.add_zero]
  · rw [h'.unknown, h.unknown]
    simp only [hhas, List.countP_nil, Nat.add_zero]

/-- The crossbar after a record was sent to its subscriber: in the pipe of
`link`, or held in front of it. -/
def hand (xb : Crossbar α) (item : α) (link : Link α) : Crossbar α :=
  { xb.setLink (Keyed.key item)
      { link with inbound := (flush (some item) link.inbound).2.2 } with
    heldIn := (flush (some item) link.inbound).2.1 }

section Hand

variable {xb : Crossbar α} {item : α} {link : Link α}

theorem inbound?_hand (h : xb.link? (Keyed.key item) = some link) (key : UInt16) :
    (xb.hand item link).inbound? key =
      if key = Keyed.key item then some (flush (some item) link.inbound).2.2
      else xb.inbound? key :=
  inbound?_setLink h { link with inbound := (flush (some item) link.inbound).2.2 } key

theorem unsent_hand (h : xb.link? (Keyed.key item) = some link) (key : UInt16) :
    (xb.hand item link).unsent key = xb.unsent key :=
  unsent_setLink_same h { link with inbound := (flush (some item) link.inbound).2.2 } rfl key

theorem sends_hand (h : xb.link? (Keyed.key item) = some link) (key : UInt16) :
    (xb.hand item link).sends key = xb.sends key :=
  sends_setLink h { link with inbound := (flush (some item) link.inbound).2.2 } rfl key

variable (xb item link) in
theorem keys_hand : (xb.hand item link).keys = xb.keys := keys_setLink xb _ _

variable (xb item link) in
/-- What is held in front of a pipe is the record that was sent last. -/
theorem heldFor_hand (key : UInt16) :
    (xb.hand item link).heldFor key =
      if Keyed.key item = key then (flush (some item) link.inbound).2.1.toList else [] := by
  have hcases : (flush (some item) link.inbound).2.1 = none ∨
      (flush (some item) link.inbound).2.1 = some item := by
    unfold flush
    dsimp only
    split
    · exact .inr rfl
    · exact .inl rfl
  show ((flush (some item) link.inbound).2.1.filter fun item => Keyed.key item == key).toList = _
  rcases hcases with hnone | hsome
  · rw [hnone]
    split <;> rfl
  · rw [hsome, Option.filter_some]
    by_cases hkey : Keyed.key item = key
    · simp [hkey]
    · simp [hkey]

/-- With its subscriber there, the record is the last one on its way. -/
theorem wayTo_hand (h : xb.link? (Keyed.key item) = some link) {key : UInt16}
    (hkey : xb.reaches key = true) :
    (xb.hand item link).wayTo key =
      xb.given key ++ if Keyed.key item = key then [item] else [] := by
  unfold wayTo
  rw [heldFor_hand, given, inbound?_hand h]
  by_cases hitem : Keyed.key item = key
  · subst hitem
    have hinbound : xb.inbound? (Keyed.key item) = some link.inbound := by
      rw [inbound?, h, Option.map_some]
    have hopen : link.inbound.closed = false := by
      rw [reaches, hinbound] at hkey
      simpa using hkey
    rw [if_pos rfl, if_pos rfl, if_pos rfl, given, hinbound]
    exact (flush_items hopen (some item)).1
  · rw [if_neg (Ne.symm hitem), if_neg hitem, if_neg hitem]
    rfl

/-- A subscriber that has gone is given nothing more. -/
theorem wayTo_hand_of_gone (h : xb.link? (Keyed.key item) = some link) {key : UInt16}
    (hkey : xb.reaches key = false) : (xb.hand item link).wayTo key = xb.given key := by
  unfold wayTo
  rw [heldFor_hand, given, inbound?_hand h]
  by_cases hitem : Keyed.key item = key
  · subst hitem
    have hinbound : xb.inbound? (Keyed.key item) = some link.inbound := by
      rw [inbound?, h, Option.map_some]
    have hclosed : link.inbound.closed = true := by
      rw [reaches, hinbound] at hkey
      simpa using hkey
    have hflush := flush_of_closed hclosed item
    rw [if_pos rfl, if_pos rfl, hflush, given, hinbound]
    exact List.append_nil _
  · rw [if_neg (Ne.symm hitem), if_neg hitem, List.append_nil, given]

theorem reaches_hand (h : xb.link? (Keyed.key item) = some link) (key : UInt16) :
    (xb.hand item link).reaches key = xb.reaches key := by
  have hclosed : (flush (some item) link.inbound).2.2.closed = link.inbound.closed :=
    closed_flush (some item) link.inbound
  unfold reaches
  rw [inbound?_hand h]
  by_cases hkey : key = Keyed.key item
  · rw [if_pos hkey, hkey, inbound?, h]
    simp [hclosed]
  · rw [if_neg hkey]

/-- A record that is still held has its subscriber. -/
theorem heldKnown_hand (h : xb.link? (Keyed.key item) = some link) :
    (xb.hand item link).HeldKnown := by
  intro held hheld
  have hkey : Keyed.key held = Keyed.key item := by
    have hfor := heldFor_hand xb item link (Keyed.key held)
    rw [heldFor, hheld] at hfor
    by_cases hkey : Keyed.key item = Keyed.key held
    · exact hkey.symm
    · rw [if_neg hkey] at hfor
      simp at hfor
  rw [has_congr (keys_hand xb item link), hkey, has_eq_isSome, h]
  rfl

end Hand

theorem state_deliver_of_some (xb : Crossbar α) {item : α} {link : Link α}
    (h : xb.link? (Keyed.key item) = some link) :
    (xb.deliver item).state = { xb.hand item link with
      stats := { xb.stats with dispatched := xb.stats.dispatched + 1 } } := by
  unfold deliver
  dsimp only
  rw [h]
  rfl

theorem state_deliver_of_none (xb : Crossbar α) {item : α}
    (h : xb.link? (Keyed.key item) = none) :
    (xb.deliver item).state =
      { xb with stats := { xb.stats with unknown := xb.stats.unknown + 1 } } := by
  unfold deliver
  dsimp only
  rw [h]
  rfl

/-- A record that was taken is handed to its subscriber, or counted as unknown. -/
theorem deliver_dispatched {xb : Crossbar α} (hheld : xb.heldIn = none) {item : α}
    {inbox : Pipe α} (hinbox : xb.inbox.items = item :: inbox.items)
    (hclosed : inbox.closed = xb.inbox.closed) :
    Dispatched xb (deliver { xb with inbox } item).state [item] := by
  have hway : ∀ key, xb.wayTo key = xb.given key := by
    intro key
    rw [wayTo, heldFor, hheld]
    exact List.append_nil _
  cases hlink : xb.link? (Keyed.key item) with
  | none =>
    -- nobody has registered the key
    have hhas : xb.has (Keyed.key item) = false := by
      rw [has_eq_isSome, hlink]
      rfl
    have hfor : ∀ key, [item].filter (xb.isFor key) = [] := by
      intro key
      simp [isFor, hhas]
    rw [state_deliver_of_none { xb with inbox } hlink]
    exact
      { inbox := hinbox
        closed := hclosed
        way := fun key _ => by
          rw [hfor]
          exact (List.append_nil _).symm
        gone := fun key _ => List.prefix_refl _
        reaches := fun _ => rfl
        sends := fun _ => rfl
        unsent := fun _ => rfl
        keys := rfl
        held := fun held h => absurd (hheld.symm.trans h) (by simp)
        outbox := rfl
        heldOut := rfl
        dispatched := by simp [hhas]
        unknown := by simp [hhas]
        arbitrated := rfl }
  | some link =>
    have hhas : xb.has (Keyed.key item) = true := by
      rw [has_eq_isSome, hlink]
      rfl
    have hfor : ∀ key,
        [item].filter (xb.isFor key) = if Keyed.key item = key then [item] else [] := by
      intro key
      by_cases hkey : Keyed.key item = key
      · subst hkey
        simp [isFor, hhas]
      · simp [isFor, hkey]
    rw [state_deliver_of_some { xb with inbox } hlink]
    exact
      { inbox := hinbox
        closed := hclosed
        way := fun key hkey => by
          rw [hway, hfor]
          exact wayTo_hand hlink hkey
        gone := fun key hkey => by
          rw [hway, ← wayTo_hand_of_gone hlink hkey]
          exact List.prefix_refl _
        reaches := reaches_hand hlink
        sends := sends_hand hlink
        unsent := unsent_hand hlink
        keys := keys_hand xb item link
        held := heldKnown_hand hlink
        outbox := rfl
        heldOut := rfl
        dispatched := by simp [hhas]
        unknown := by
          rw [List.countP_singleton, hhas]
          rfl
        arbitrated := rfl }

theorem dispatchNext_dispatched {xb : Crossbar α} (hheld : xb.heldIn = none) :
    ∃ new, Dispatched xb xb.dispatchNext.state new := by
  unfold dispatchNext
  cases htake : xb.inbox.take with
  | none =>
    refine ⟨[], Dispatched.refl ?_⟩
    intro item hitem
    rw [hheld] at hitem
    cases hitem
  | some taken =>
    obtain ⟨item, inbox⟩ := taken
    obtain ⟨hinbox, -, hclosed⟩ := Pipe.take_eq_some htake
    exact ⟨[item], deliver_dispatched hheld hinbox hclosed⟩

/-- **All that reception can do**: with nothing held a new record is taken; what
is held stays while its subscriber has no room, or is handed to it before that. -/
theorem dispatch_eq {xb : Crossbar α} (hknown : xb.HeldKnown) :
    (xb.heldIn = none ∧ xb.dispatch = xb.dispatchNext) ∨
    ∃ item link, xb.heldIn = some item ∧ xb.link? (Keyed.key item) = some link ∧
      (xb.dispatch = .idle xb ∨
        ((xb.hand item link).heldIn = none ∧
          xb.dispatch = (Outcome.moved (xb.hand item link)).andThen dispatchNext)) := by
  unfold dispatch
  cases hheld : xb.heldIn with
  | none => exact .inl ⟨rfl, rfl⟩
  | some item =>
    obtain ⟨link, hlink⟩ : ∃ link, xb.link? (Keyed.key item) = some link := by
      rw [← Option.isSome_iff_exists, ← has_eq_isSome]
      exact hknown item hheld
    refine .inr ⟨item, link, rfl, hlink, ?_⟩
    dsimp only
    rw [hlink, hand]
    dsimp only
    rcases flush_cases item link.inbound with hkept | ⟨inbound, hleft⟩
    · rw [hkept]
      exact .inl rfl
    · rw [hleft]
      exact .inr ⟨rfl, rfl⟩

/-- **On reception a record moves on, or joins the end of one way.** -/
theorem dispatch_dispatched {xb : Crossbar α} (hknown : xb.HeldKnown) :
    ∃ new, Dispatched xb xb.dispatch.state new := by
  rcases dispatch_eq hknown with
    ⟨hheld, hnext⟩ | ⟨item, link, hheld, hlink, hidle | ⟨hnone, hnext⟩⟩
  · rw [hnext]
    exact dispatchNext_dispatched hheld
  · rw [hidle]
    exact ⟨[], Dispatched.refl hknown⟩
  · -- the pipe has taken the held record: the way of its subscriber is the same
    have hway : ∀ key, xb.wayTo key =
        xb.given key ++ if Keyed.key item = key then [item] else [] := by
      intro key
      rw [wayTo, heldFor, hheld, Option.filter_some]
      by_cases hkey : Keyed.key item = key
      · simp [hkey]
      · simp [hkey]
    have hmoved : Dispatched xb (xb.hand item link) [] :=
      { inbox := rfl
        closed := rfl
        way := fun key hkey => by
          rw [wayTo_hand hlink hkey, hway, List.filter_nil, List.append_nil]
        gone := fun key hkey => by
          rw [wayTo_hand_of_gone hlink hkey, hway]
          exact List.prefix_append _ _
        reaches := reaches_hand hlink
        sends := sends_hand hlink
        unsent := unsent_hand hlink
        keys := keys_hand xb item link
        held := heldKnown_hand hlink
        outbox := rfl
        heldOut := rfl
        dispatched := rfl
        unknown := rfl
        arbitrated := rfl }
    obtain ⟨new, hnew⟩ := dispatchNext_dispatched hnone
    rw [hnext]
    exact ⟨new, hmoved.trans hnew⟩

end Reception

/-! ## §3. Transmission. -/

/-- On transmission the records `won` were taken, each with the key of its
subscriber, and `xb` became `xb'`. -/
structure Arbitrated (xb xb' : Crossbar α) (won : List (UInt16 × α)) : Prop where
  outgoing : xb'.outbox.items ++ xb'.heldOut.toList =
    xb.outbox.items ++ xb.heldOut.toList ++ won.map (·.2)
  unsent : ∀ key, xb.unsent key = (won.filter (·.1 == key)).map (·.2) ++ xb'.unsent key
  inbound : ∀ key, xb'.inbound? key = xb.inbound? key
  sends : ∀ key, xb'.sends key = xb.sends key
  keys : xb'.keys = xb.keys
  opened : xb'.outbox.closed = false
  inbox : xb'.inbox = xb.inbox
  heldIn : xb'.heldIn = xb.heldIn
  arbitrated : xb'.stats.arbitrated = xb.stats.arbitrated + won.length
  dispatched : xb'.stats.dispatched = xb.stats.dispatched
  unknown : xb'.stats.unknown = xb.stats.unknown

/-- Only a held record moved. -/
theorem Arbitrated.of_outgoing {xb : Crossbar α} {heldOut : Option α} {outbox : Pipe α}
    (hout : outbox.items ++ heldOut.toList = xb.outbox.items ++ xb.heldOut.toList)
    (hopen : outbox.closed = false) : Arbitrated xb { xb with heldOut, outbox } [] where
  outgoing := hout.trans (List.append_nil _).symm
  unsent := fun _ => rfl
  inbound := fun _ => rfl
  sends := fun _ => rfl
  keys := rfl
  opened := hopen
  inbox := rfl
  heldIn := rfl
  arbitrated := rfl
  dispatched := rfl
  unknown := rfl

theorem Arbitrated.refl {xb : Crossbar α} (hopen : xb.outbox.closed = false) :
    Arbitrated xb xb [] := Arbitrated.of_outgoing rfl hopen

theorem Arbitrated.trans {xb xb' xb'' : Crossbar α} {won : List (UInt16 × α)}
    (h : Arbitrated xb xb' []) (h' : Arbitrated xb' xb'' won) : Arbitrated xb xb'' won where
  outgoing := by
    rw [h'.outgoing, h.outgoing, List.map_nil, List.append_nil]
  unsent := fun key => (h.unsent key).trans (h'.unsent key)
  inbound := fun key => (h'.inbound key).trans (h.inbound key)
  sends := fun key => (h'.sends key).trans (h.sends key)
  keys := h'.keys.trans h.keys
  opened := h'.opened
  inbox := h'.inbox.trans h.inbox
  heldIn := h'.heldIn.trans h.heldIn
  arbitrated := by
    rw [h'.arbitrated, h.arbitrated]
    rfl
  dispatched := h'.dispatched.trans h.dispatched
  unknown := h'.unknown.trans h.unknown

/-- With one subscriber a key, the subscriber of a key is the one in the list. -/
theorem link?_of_getElem? {xb : Crossbar α} (hkeys : xb.keys.Nodup) {i : Nat} {port : Port α}
    (hport : xb.ports[i]? = some port) : xb.link? port.key = some port.link := by
  have hmem : port ∈ xb.ports := List.mem_of_getElem? hport
  have hfound : (xb.ports.find? (·.key == port.key)).isSome = true := by
    rw [List.find?_isSome]
    exact ⟨port, hmem, beq_self_eq_true _⟩
  obtain ⟨found, hfind⟩ := Option.isSome_iff_exists.1 hfound
  have hkey : found.key = port.key := by simpa using List.find?_some hfind
  have hsame : found = port :=
    List.inj_on_of_nodup_map hkeys (List.mem_of_find?_eq_some hfind) hmem hkey
  rw [link?, hfind, hsame]
  rfl

/-- Replacing a subscriber in the list is replacing the pipes of its key. -/
theorem set_eq_setLink {xb : Crossbar α} (hkeys : xb.keys.Nodup) {i : Nat} {old : Port α}
    (hold : xb.ports[i]? = some old) (link : Link α) :
    xb.ports.set i { old with link } = (xb.setLink old.key link).ports := by
  obtain ⟨hi, rfl⟩ := List.getElem?_eq_some_iff.1 hold
  show _ = xb.ports.map fun p => if p.key == xb.ports[i].key then { p with link } else p
  apply List.ext_getElem
  · rw [List.length_set, List.length_map]
  · intro j hj hj'
    rw [List.getElem_set, List.getElem_map]
    by_cases hij : i = j
    · subst hij
      rw [if_pos rfl, if_pos (beq_self_eq_true _)]
    · -- another place holds another key
      have hjlt : j < xb.ports.length := by
        rw [List.length_map] at hj'
        exact hj'
      have hne : xb.ports[j].key ≠ xb.ports[i].key := by
        intro heq
        have hi' : i < xb.keys.length := by rwa [keys, List.length_map]
        have hj'' : j < xb.keys.length := by rwa [keys, List.length_map]
        have hget : xb.keys[i] = xb.keys[j] := by simpa [keys] using heq.symm
        exact hij ((List.Nodup.getElem_inj_iff hkeys).1 hget)
      rw [if_neg hij, if_neg (by simpa using hne)]

/-- The crossbar after `item` was taken from the subscriber `old` at place `i`, in
whose pipe `outbound` is left, and sent to the layer. -/
def serve (xb : Crossbar α) (i : Nat) (old : Port α) (item : α) (outbound : Pipe α) : Crossbar α :=
  { xb.setLink old.key { old.link with outbound } with
    turn := (i + 1) % xb.ports.length
    stats := { xb.stats with arbitrated := xb.stats.arbitrated + 1 }
    heldOut := (sendOrHold item xb.outbox).1
    outbox := (sendOrHold item xb.outbox).2 }

/-- **All that asking the subscribers can do**: none of them has a record, or
the first one that has any is served. -/
theorem arbitrateNext_eq {xb : Crossbar α} (hkeys : xb.keys.Nodup) :
    (firstReady xb.ports xb.order = none ∧ xb.arbitrateNext = .idle xb) ∨
    ∃ i old item outbound,
      firstReady xb.ports xb.order =
        some (i, item, { old with link := { old.link with outbound } }) ∧
      xb.ports[i]? = some old ∧ old.link.outbound.take = some (item, outbound) ∧
      xb.arbitrateNext = .moved (xb.serve i old item outbound) := by
  unfold arbitrateNext
  cases hready : firstReady xb.ports xb.order with
  | none => exact .inl ⟨rfl, rfl⟩
  | some found =>
    right
    obtain ⟨i, item, port⟩ := found
    obtain ⟨old, outbound, hold, htake, rfl⟩ := firstReady_taken hready
    refine ⟨i, old, item, outbound, rfl, hold, htake, ?_⟩
    dsimp only
    rw [set_eq_setLink hkeys hold { old.link with outbound }]
    rfl

/-- The oldest record of a ready subscriber is sent to the layer. -/
theorem arbitrateNext_arbitrated {xb : Crossbar α} (hkeys : xb.keys.Nodup)
    (hopen : xb.outbox.closed = false) (hheld : xb.heldOut = none) :
    ∃ won, Arbitrated xb xb.arbitrateNext.state won := by
  rcases arbitrateNext_eq hkeys with ⟨-, hidle⟩ | ⟨i, old, item, outbound, -, hold, htake, hserve⟩
  · rw [hidle]
    exact ⟨[], .refl hopen⟩
  · obtain ⟨hitems, hclosed⟩ := sendOrHold_items hopen item
    obtain ⟨houtbound, -, hsends⟩ := Pipe.take_eq_some htake
    have hlink : xb.link? old.key = some old.link := link?_of_getElem? hkeys hold
    refine ⟨[(old.key, item)], ?_⟩
    rw [hserve]
    exact
      { outgoing := by
          rw [hheld]
          simpa [Outcome.moved, serve] using hitems
        unsent := by
          intro key
          show xb.unsent key = _ ++ (xb.setLink old.key _).unsent key
          rw [unsent_setLink hlink]
          by_cases hkey : key = old.key
          · rw [if_pos hkey, hkey, unsent, hlink]
            simpa using houtbound
          · rw [if_neg hkey, List.filter_cons_of_neg (by simpa using Ne.symm hkey)]
            rfl
        inbound := inbound?_setLink_same hlink { old.link with outbound } rfl
        sends := sends_setLink hlink { old.link with outbound } hsends
        keys := keys_setLink xb _ _
        opened := hclosed
        inbox := rfl
        heldIn := rfl
        arbitrated := rfl
        dispatched := rfl
        unknown := rfl }

/-- **On transmission a record moves on, or leaves the head of one queue for the
end of what is on its way to the layer.** -/
theorem arbitrate_arbitrated {xb : Crossbar α} (hkeys : xb.keys.Nodup)
    (hopen : xb.outbox.closed = false) : ∃ won, Arbitrated xb xb.arbitrate.state won := by
  rcases arbitrate_eq xb with ⟨-, -, hidle⟩ | ⟨hfree, hasked⟩
  · rw [hidle]
    exact ⟨[], .refl hopen⟩
  · obtain ⟨hout, hopen'⟩ := flush_items hopen xb.heldOut
    have hmoved : Arbitrated xb xb.released [] := Arbitrated.of_outgoing hout hopen'
    obtain ⟨won, hwon⟩ : ∃ won, Arbitrated xb.released xb.released.arbitrateNext.state won :=
      arbitrateNext_arbitrated hkeys hopen' hfree
    rw [hasked]
    exact ⟨won, hmoved.trans hwon⟩

/-! ## §4. Both. -/

section Exchange

variable [Keyed α]

/-- In a step the records `new` were taken from the layer, the records `won` were
taken from the subscribers, and `xb` became `xb'`. -/
structure Exchanged (xb xb' : Crossbar α) (new : List α) (won : List (UInt16 × α)) : Prop where
  inbox : xb.inbox.items = new ++ xb'.inbox.items
  closed : xb'.inbox.closed = xb.inbox.closed
  way : ∀ key, xb.reaches key = true → xb'.wayTo key = xb.wayTo key ++ new.filter (xb.isFor key)
  gone : ∀ key, xb.reaches key = false → xb'.wayTo key <+: xb.wayTo key
  reaches : ∀ key, xb'.reaches key = xb.reaches key
  sends : ∀ key, xb'.sends key = xb.sends key
  unsent : ∀ key, xb.unsent key = (won.filter (·.1 == key)).map (·.2) ++ xb'.unsent key
  outgoing : xb'.outbox.items ++ xb'.heldOut.toList =
    xb.outbox.items ++ xb.heldOut.toList ++ won.map (·.2)
  opened : xb'.outbox.closed = false
  keys : xb'.keys = xb.keys
  held : xb'.HeldKnown
  dispatched : xb'.stats.dispatched =
    xb.stats.dispatched + new.countP fun item => xb.has (Keyed.key item)
  unknown : xb'.stats.unknown = xb.stats.unknown + new.countP fun item => !xb.has (Keyed.key item)
  arbitrated : xb'.stats.arbitrated = xb.stats.arbitrated + won.length

/-- **A step** moves records to the front in both directions. -/
theorem step_exchanged {xb : Crossbar α} (hknown : xb.HeldKnown) (hkeys : xb.keys.Nodup)
    (hopen : xb.outbox.closed = false) : ∃ new won, Exchanged xb xb.step.state new won := by
  obtain ⟨new, hnew⟩ := dispatch_dispatched hknown
  obtain ⟨won, hwon⟩ := arbitrate_arbitrated (hnew.keys.symm ▸ hkeys) (hnew.outbox ▸ hopen)
  have hway : ∀ key, xb.step.state.wayTo key = xb.dispatch.state.wayTo key := by
    intro key
    rw [step, Outcome.state_andThen, wayTo, wayTo, given, given, heldFor, heldFor, hwon.inbound,
      hwon.heldIn]
  have hreaches : ∀ key, xb.step.state.reaches key = xb.reaches key := by
    intro key
    rw [step, Outcome.state_andThen, ← hnew.reaches, reaches, reaches, hwon.inbound]
  refine ⟨new, won, ?_, ?_, ?_, ?_, hreaches, ?_, ?_, ?_, hwon.opened, ?_, ?_, ?_, ?_, ?_⟩
  · rw [step, Outcome.state_andThen, hwon.inbox]
    exact hnew.inbox
  · rw [step, Outcome.state_andThen, hwon.inbox]
    exact hnew.closed
  · intro key hkey
    rw [hway, hnew.way key hkey]
  · intro key hkey
    rw [hway]
    exact hnew.gone key hkey
  · intro key
    rw [step, Outcome.state_andThen, hwon.sends, hnew.sends]
  · intro key
    rw [← hnew.unsent]
    exact hwon.unsent key
  · rw [step, Outcome.state_andThen, hwon.outgoing, hnew.outbox, hnew.heldOut]
  · exact hwon.keys.trans hnew.keys
  · intro item hitem
    rw [step, Outcome.state_andThen, hwon.heldIn] at hitem
    rw [step, Outcome.state_andThen, has_congr hwon.keys]
    exact hnew.held item hitem
  · rw [step, Outcome.state_andThen, hwon.dispatched, hnew.dispatched]
  · rw [step, Outcome.state_andThen, hwon.unknown, hnew.unknown]
  · rw [step, Outcome.state_andThen, hwon.arbitrated, hnew.arbitrated]

end Exchange

/-! ## §5. Runs. -/

/-- What can happen to a crossbar. -/
inductive Event (α : Type) where
  /-- The layer has received a record, and offers it. -/
  | offer (item : α)
  /-- The layer takes a record to be sent. -/
  | collect
  /-- A subscriber sends a record. -/
  | send (key : UInt16) (item : α)
  /-- A subscriber takes a record. -/
  | receive (key : UInt16)
  | register (key : UInt16)
  /-- The subscriber of a key goes. -/
  | abandon (key : UInt16)
  | step
  deriving Repr, DecidableEq

/-- A crossbar, with all that went in and out of it, the oldest first. -/
structure History (α : Type) where
  crossbar : Crossbar α
  /-- The records of the layer that found room. -/
  offered : List α := []
  /-- The records taken from the layer, and whether their key was registered then. -/
  taken : List (α × Bool) := []
  /-- The records that subscribers have received, each with the key of the subscriber. -/
  seen : List (UInt16 × α) := []
  /-- The records of subscribers that found room, each with the key of the subscriber. -/
  sent : List (UInt16 × α) := []
  /-- The records the layer was given to send. -/
  collected : List α := []

namespace History

variable [Keyed α]

omit [Keyed α] in
/-- The records of one subscriber. -/
def ofKey (key : UInt16) (records : List (UInt16 × α)) : List α :=
  (records.filter (·.1 == key)).map (·.2)

/-- The records for a key that were taken while it was registered. -/
def takenFor (h : History α) (key : UInt16) : List α :=
  (h.taken.filter fun (item, known) => known && Keyed.key item == key).map (·.1)

/-- What one event does. -/
def next (h : History α) (event : Event α) : History α :=
  let xb := h.crossbar
  match event with
  | .offer item =>
    match xb.inbox.offer item with
    | (.sent, inbox) =>
      { h with crossbar := { xb with inbox }, offered := h.offered ++ [item] }
    | _ => h
  | .collect =>
    match xb.outbox.take with
    | none => h
    | some (item, outbox) =>
      { h with crossbar := { xb with outbox }, collected := h.collected ++ [item] }
  | .send key item =>
    match xb.link? key with
    | none => h
    | some link =>
      match link.outbound.offer item with
      | (.sent, outbound) =>
        { h with crossbar := xb.setLink key { link with outbound }, sent := h.sent ++ [(key, item)] }
      | _ => h
  | .receive key =>
    match xb.link? key with
    | none => h
    | some link =>
      match link.inbound.take with
      | none => h
      | some (item, inbound) =>
        { h with crossbar := xb.setLink key { link with inbound }, seen := h.seen ++ [(key, item)] }
  | .register key =>
    match xb.register key with
    | .ok (crossbar, _) => { h with crossbar }
    | .error _ => h
  | .abandon key => { h with crossbar := xb.abandon key }
  | .step =>
    let crossbar := xb.step.state
    -- what is no longer in the inbox was taken
    let new := xb.inbox.items.take (xb.inbox.items.length - crossbar.inbox.items.length)
    { h with crossbar, taken := h.taken ++ new.map fun item => (item, xb.has (Keyed.key item)) }

/-- A run of a crossbar that starts without subscribers. -/
def run (kind : Kind) (depth : Nat) (events : List (Event α)) : History α :=
  events.foldl next { crossbar := .make kind depth }

/-- On reception, what was taken is with the subscribers or on its way to them. -/
structure Received (h : History α) : Prop where
  held : h.crossbar.HeldKnown
  offered : h.offered = h.taken.map (·.1) ++ h.crossbar.inbox.items
  delivered : ∀ key, h.crossbar.reaches key = true →
    h.takenFor key = ofKey key h.seen ++ h.crossbar.wayTo key
  /-- A subscriber that has gone was given the first ones. -/
  gone : ∀ key, ofKey key h.seen ++ h.crossbar.wayTo key <+: h.takenFor key
  dispatched : h.crossbar.stats.dispatched = h.taken.countP (·.2)
  unknown : h.crossbar.stats.unknown = h.taken.countP (!·.2)

omit [Keyed α] in
/-- On transmission, what was taken from the subscribers is with the layer or on its way to it. -/
structure Transmitted (h : History α) : Prop where
  opened : h.crossbar.outbox.closed = false
  arbitrated : ∃ won : List (UInt16 × α), won.length = h.crossbar.stats.arbitrated ∧
    won.map (·.2) = h.collected ++ (h.crossbar.outbox.items ++ h.crossbar.heldOut.toList) ∧
    ∀ key, ofKey key h.sent = ofKey key won ++ h.crossbar.unsent key

/-- Nothing is lost in either direction, and a key has one subscriber. -/
structure Conserved (h : History α) : Prop where
  keys : h.crossbar.keys.Nodup
  received : h.Received
  transmitted : h.Transmitted

section Records

omit [Keyed α]

theorem ofKey_append (key : UInt16) (xs ys : List (UInt16 × α)) :
    ofKey key (xs ++ ys) = ofKey key xs ++ ofKey key ys := by
  unfold ofKey
  rw [List.filter_append, List.map_append]

theorem ofKey_singleton (key other : UInt16) (item : α) :
    ofKey key [(other, item)] = if other = key then [item] else [] := by
  by_cases h : other = key
  · simp [ofKey, h]
  · simp [ofKey, h]

/-- An entry of one key is none of the others'. -/
theorem ofKey_snoc_of_ne {key other : UInt16} (h : other ≠ key) (records : List (UInt16 × α))
    (item : α) : ofKey other (records ++ [(key, item)]) = ofKey other records := by
  rw [ofKey_append, ofKey_singleton, if_neg (Ne.symm h), List.append_nil]

theorem ofKey_snoc_self (key : UInt16) (records : List (UInt16 × α)) (item : α) :
    ofKey key (records ++ [(key, item)]) = ofKey key records ++ [item] := by
  rw [ofKey_append, ofKey_singleton, if_pos rfl]

theorem mem_ofKey {key : UInt16} {records : List (UInt16 × α)} {item : α}
    (h : (key, item) ∈ records) : item ∈ ofKey key records :=
  List.mem_map.2 ⟨_, List.mem_filter.2 ⟨h, beq_self_eq_true key⟩, rfl⟩

end Records

/-! ## §6. One event. -/

variable {h : History α}

/-- Reception is a matter of what the subscribers are given. -/
theorem Received.congr (hr : h.Received) {crossbar : Crossbar α} {sent : List (UInt16 × α)}
    (hgiven : ∀ key, crossbar.given key = h.crossbar.given key)
    (hreaches : ∀ key, crossbar.reaches key = true → h.crossbar.reaches key = true)
    (hhas : ∀ key, h.crossbar.has key = true → crossbar.has key = true)
    (hinbox : crossbar.inbox = h.crossbar.inbox) (hheld : crossbar.heldIn = h.crossbar.heldIn)
    (hstats : crossbar.stats = h.crossbar.stats) : Received { h with crossbar, sent } := by
  have hway : ∀ key, crossbar.wayTo key = h.crossbar.wayTo key := by
    intro key
    rw [wayTo, wayTo, heldFor, heldFor, hgiven, hheld]
  refine
    { held := ?_
      offered := ?_
      delivered := ?_
      gone := ?_
      dispatched := ?_
      unknown := ?_ }
  · intro item hitem
    exact hhas _ (hr.held item (hheld.symm.trans hitem))
  · show h.offered = _ ++ crossbar.inbox.items
    rw [hinbox]
    exact hr.offered
  · intro key hkey
    show h.takenFor key = _ ++ crossbar.wayTo key
    rw [hway]
    exact hr.delivered key (hreaches key hkey)
  · intro key
    show _ ++ crossbar.wayTo key <+: _
    rw [hway]
    exact hr.gone key
  · show crossbar.stats.dispatched = _
    rw [hstats]
    exact hr.dispatched
  · show crossbar.stats.unknown = _
    rw [hstats]
    exact hr.unknown

omit [Keyed α] in
/-- Transmission is a matter of what the subscribers have sent. -/
theorem Transmitted.congr (ht : h.Transmitted) {crossbar : Crossbar α}
    {seen : List (UInt16 × α)} (hunsent : ∀ key, crossbar.unsent key = h.crossbar.unsent key)
    (houtbox : crossbar.outbox = h.crossbar.outbox) (hheld : crossbar.heldOut = h.crossbar.heldOut)
    (hstats : crossbar.stats = h.crossbar.stats) : Transmitted { h with crossbar, seen } := by
  obtain ⟨won, hlength, hout, hsent⟩ := ht.arbitrated
  refine ⟨?_, won, ?_, ?_, ?_⟩
  · show crossbar.outbox.closed = false
    rw [houtbox]
    exact ht.opened
  · show won.length = crossbar.stats.arbitrated
    rw [hstats]
    exact hlength
  · show _ = _ ++ (crossbar.outbox.items ++ crossbar.heldOut.toList)
    rw [houtbox, hheld]
    exact hout
  · intro key
    show _ = _ ++ crossbar.unsent key
    rw [hunsent]
    exact hsent key

/-- A record of the layer joins those offered and those in the inbox. -/
theorem next_offer (hc : h.Conserved) (item : α) : (h.next (.offer item)).Conserved := by
  obtain ⟨hkeys, hr, ht⟩ := hc
  unfold next
  dsimp only
  split
  · next inbox hoffer =>
    obtain ⟨hitems, -, -⟩ := Pipe.offer_sent hoffer
    have hoffered : h.offered ++ [item] = h.taken.map (·.1) ++ inbox.items := by
      rw [hitems, hr.offered, List.append_assoc]
    exact ⟨hkeys, ⟨hr.held, hoffered, hr.delivered, hr.gone, hr.dispatched, hr.unknown⟩,
      ⟨ht.opened, ht.arbitrated⟩⟩
  · exact ⟨hkeys, hr, ht⟩

/-- A record in the outbox joins those the layer was given. -/
theorem next_collect (hc : h.Conserved) : (h.next .collect).Conserved := by
  obtain ⟨hkeys, hr, ht⟩ := hc
  unfold next
  dsimp only
  split
  · exact ⟨hkeys, hr, ht⟩
  · next item outbox htake =>
    obtain ⟨hitems, -, hclosed⟩ := Pipe.take_eq_some htake
    obtain ⟨won, hlength, hout, hsent⟩ := ht.arbitrated
    have hcollected : won.map (·.2) =
        (h.collected ++ [item]) ++ (outbox.items ++ h.crossbar.heldOut.toList) := by
      rw [hout, hitems]
      simp
    exact ⟨hkeys, ⟨hr.held, hr.offered, hr.delivered, hr.gone, hr.dispatched, hr.unknown⟩,
      ⟨hclosed.trans ht.opened, won, hlength, hcollected, hsent⟩⟩

/-- A record of a subscriber joins those sent and those in its pipe. -/
theorem next_send (hc : h.Conserved) (key : UInt16) (item : α) :
    (h.next (.send key item)).Conserved := by
  obtain ⟨hkeys, hr, ht⟩ := hc
  unfold next
  dsimp only
  cases hlink : h.crossbar.link? key with
  | none => exact ⟨hkeys, hr, ht⟩
  | some link =>
    dsimp only
    split
    · next outbound hoffer =>
      obtain ⟨hitems, -, -⟩ := Pipe.offer_sent hoffer
      obtain ⟨won, hlength, hout, hsent⟩ := ht.arbitrated
      let xb := h.crossbar.setLink key { link with outbound }
      have hkeys' : xb.keys = h.crossbar.keys := keys_setLink _ _ _
      have hinbound : ∀ other, xb.inbound? other = h.crossbar.inbound? other :=
        inbound?_setLink_same hlink { link with outbound } rfl
      refine ⟨hkeys'.symm ▸ hkeys, ?_, ht.opened, won, hlength, hout, ?_⟩
      · refine hr.congr ?_ ?_ ?_ rfl rfl rfl
        · intro other
          show xb.given other = _
          rw [given, hinbound, given]
        · intro other hother
          have hreaches : xb.reaches other = true := hother
          rwa [reaches, hinbound] at hreaches
        · intro other hother
          rwa [has_congr hkeys']
      · intro other
        show ofKey other (h.sent ++ [(key, item)]) = _
        rw [ofKey_append, hsent, ofKey_singleton, unsent_setLink hlink, hitems]
        by_cases hother : other = key
        · subst hother
          simp [unsent, hlink]
        · simp [hother, Ne.symm hother]
    · exact ⟨hkeys, hr, ht⟩

/-- The first record in the pipe of a subscriber joins those it has seen. -/
theorem next_receive (hc : h.Conserved) (key : UInt16) : (h.next (.receive key)).Conserved := by
  obtain ⟨hkeys, hr, ht⟩ := hc
  unfold next
  dsimp only
  cases hlink : h.crossbar.link? key with
  | none => exact ⟨hkeys, hr, ht⟩
  | some link =>
    dsimp only
    cases htake : link.inbound.take with
    | none => exact ⟨hkeys, hr, ht⟩
    | some taken =>
      obtain ⟨item, inbound⟩ := taken
      obtain ⟨hitems, -, hclosed⟩ := Pipe.take_eq_some htake
      let xb := h.crossbar.setLink key { link with inbound }
      have hkeys' : xb.keys = h.crossbar.keys := keys_setLink _ _ _
      -- seen and on its way are the same list, cut one record later
      have hway : ∀ other, ofKey other (h.seen ++ [(key, item)]) ++ xb.wayTo other =
          ofKey other h.seen ++ h.crossbar.wayTo other := by
        intro other
        rw [ofKey_append, ofKey_singleton, wayTo, wayTo, given, given, inbound?_setLink hlink]
        by_cases hother : other = key
        · subst hother
          rw [if_pos rfl, if_pos rfl, inbound?, hlink]
          simp only [Option.map_some, Option.getD_some, hitems, List.append_assoc]
          rfl
        · rw [if_neg hother, if_neg (Ne.symm hother), List.append_nil]
          rfl
      have hreaches : ∀ other, xb.reaches other = h.crossbar.reaches other := by
        intro other
        rw [reaches, reaches, inbound?_setLink hlink]
        by_cases hother : other = key
        · rw [if_pos hother, hother, inbound?, hlink]
          simp [hclosed]
        · rw [if_neg hother]
      refine ⟨hkeys'.symm ▸ hkeys, ⟨?_, hr.offered, ?_, ?_, hr.dispatched, hr.unknown⟩, ?_⟩
      · intro held hheld
        rw [has_congr hkeys']
        exact hr.held held hheld
      · intro other hother
        show h.takenFor other = _
        rw [hr.delivered other ((hreaches other).symm.trans hother)]
        exact (hway other).symm
      · intro other
        show ofKey other (h.seen ++ [(key, item)]) ++ xb.wayTo other <+: h.takenFor other
        rw [hway]
        exact hr.gone other
      · exact ht.congr (unsent_setLink_same hlink { link with inbound } rfl) rfl rfl rfl

/-- A new subscriber has nothing, and the others have what they had. -/
theorem next_register (hc : h.Conserved) (key : UInt16) : (h.next (.register key)).Conserved := by
  obtain ⟨hkeys, hr, ht⟩ := hc
  unfold next
  dsimp only
  cases hregister : h.crossbar.register key with
  | error fault => exact ⟨hkeys, hr, ht⟩
  | ok made =>
    obtain ⟨hfree, hmade⟩ := register_eq hregister
    have hlink := link?_register hregister
    have hdistinct := distinct_register hkeys hregister
    obtain ⟨hnew, -⟩ := keys_register hregister
    obtain ⟨xb, log⟩ := made
    dsimp only at hmade hlink hdistinct hnew ⊢
    have hinbound : ∀ other, xb.inbound? other =
        if other = key then some (.make h.crossbar.depth) else h.crossbar.inbound? other := by
      intro other
      rw [inbound?, hlink]
      split <;> rfl
    -- until now nobody held the key, so nothing was on its way to it
    refine ⟨hdistinct, hr.congr ?_ ?_ ?_ ?_ ?_ ?_, ht.congr ?_ ?_ ?_ ?_⟩
    · intro other
      rw [given, given, hinbound]
      by_cases hother : other = key
      · rw [if_pos hother, hother, inbound?, hfree]
        rfl
      · rw [if_neg hother]
    · intro other hother
      rw [reaches, hinbound] at hother
      rw [reaches]
      by_cases heq : other = key
      · rw [heq, inbound?, hfree]
        rfl
      · rwa [if_neg heq] at hother
    · intro other hother
      rw [has_iff_mem] at hother ⊢
      rw [hnew]
      exact List.mem_append_left _ hother
    · rw [hmade]
    · rw [hmade]
    · rw [hmade]
    · intro other
      rw [unsent, unsent, hlink]
      by_cases hother : other = key
      · rw [if_pos hother, hother, hfree]
        rfl
      · rw [if_neg hother]
    · rw [hmade]
    · rw [hmade]
    · rw [hmade]

/-- To a subscriber that goes nothing is added any more. -/
theorem next_abandon (hc : h.Conserved) (key : UInt16) : (h.next (.abandon key)).Conserved := by
  obtain ⟨hkeys, hr, ht⟩ := hc
  unfold next abandon
  dsimp only
  cases hlink : h.crossbar.link? key with
  | none => exact ⟨hkeys, hr, ht⟩
  | some link =>
    dsimp only
    let xb := h.crossbar.setLink key link.abandon
    have hkeys' : xb.keys = h.crossbar.keys := keys_setLink _ _ _
    refine ⟨hkeys'.symm ▸ hkeys, hr.congr ?_ ?_ ?_ rfl rfl rfl,
      ht.congr (unsent_setLink_same hlink link.abandon rfl) rfl rfl rfl⟩
    · intro other
      rw [given, given, inbound?_setLink hlink]
      by_cases hother : other = key
      · rw [if_pos hother, hother, inbound?, hlink]
        rfl
      · rw [if_neg hother]
    · intro other hother
      rw [reaches, inbound?_setLink hlink] at hother
      by_cases heq : other = key
      · rw [if_pos heq] at hother
        cases hother
      · rwa [if_neg heq] at hother
    · intro other hother
      rwa [has_congr hkeys']

/-- What a step takes is added to one way, or counted as unknown; what it sends
leaves the head of one queue. -/
theorem next_step (hc : h.Conserved) : (h.next .step).Conserved := by
  obtain ⟨hkeys, hr, ht⟩ := hc
  obtain ⟨new, won, hx⟩ := step_exchanged hr.held hkeys ht.opened
  -- what left the inbox is what was taken
  have htaken : h.crossbar.inbox.items.take
      (h.crossbar.inbox.items.length - h.crossbar.step.state.inbox.items.length) = new :=
    Pipe.taken_eq hx.inbox
  have hnext : h.next .step = { h with
      crossbar := h.crossbar.step.state
      taken := h.taken ++ new.map fun item => (item, h.crossbar.has (Keyed.key item)) } := by
    rw [next, htaken]
  have hfor : ∀ key, (h.next .step).takenFor key =
      h.takenFor key ++ new.filter (h.crossbar.isFor key) := by
    intro key
    rw [hnext, takenFor, takenFor, List.filter_append, List.map_append, List.filter_map,
      List.map_map]
    exact congrArg _ (List.map_id _)
  have hseen : (h.next .step).seen = h.seen := by rw [hnext]
  have hcrossbar : (h.next .step).crossbar = h.crossbar.step.state := by rw [hnext]
  refine ⟨?_, ⟨?_, ?_, ?_, ?_, ?_, ?_⟩, ?_⟩
  · rw [hcrossbar, hx.keys]
    exact hkeys
  · rw [hcrossbar]
    exact hx.held
  · rw [hnext]
    show h.offered = (h.taken ++ _).map (·.1) ++ _
    rw [hr.offered, hx.inbox, List.map_append, List.map_map, List.append_assoc]
    exact congrArg (fun items => _ ++ (items ++ _)) (List.map_id new).symm
  · intro key hkey
    rw [hcrossbar, hx.reaches] at hkey
    rw [hfor, hcrossbar, hseen, hr.delivered key hkey, hx.way key hkey, List.append_assoc]
  · intro key
    rw [hfor, hcrossbar, hseen]
    by_cases hkey : h.crossbar.reaches key = true
    · exact ⟨[], by rw [List.append_nil, hr.delivered key hkey, hx.way key hkey,
        List.append_assoc]⟩
    · have hshort := hx.gone key (by simpa using hkey)
      have hprefix := ((List.prefix_append_right_inj (ofKey key h.seen)).2 hshort).trans (hr.gone key)
      exact hprefix.trans (List.prefix_append _ _)
  · rw [hnext]
    show h.crossbar.step.state.stats.dispatched = (h.taken ++ _).countP _
    rw [hx.dispatched, hr.dispatched, List.countP_append, List.countP_map]
    rfl
  · rw [hnext]
    show h.crossbar.step.state.stats.unknown = (h.taken ++ _).countP _
    rw [hx.unknown, hr.unknown, List.countP_append, List.countP_map]
    rfl
  · obtain ⟨before, hlength, hout, hsent⟩ := ht.arbitrated
    rw [hnext]
    refine ⟨hx.opened, before ++ won, ?_, ?_, ?_⟩
    · show (before ++ won).length = h.crossbar.step.state.stats.arbitrated
      rw [hx.arbitrated, List.length_append, hlength]
    · show _ = h.collected ++ (h.crossbar.step.state.outbox.items ++
        h.crossbar.step.state.heldOut.toList)
      rw [hx.outgoing, List.map_append, hout, List.append_assoc]
    · intro key
      show ofKey key h.sent = _ ++ h.crossbar.step.state.unsent key
      rw [hsent, ofKey_append, List.append_assoc, hx.unsent]
      rfl

/-! ## §7. All events. -/

theorem next_conserved (hc : h.Conserved) (event : Event α) : (h.next event).Conserved := by
  cases event with
  | offer item => exact next_offer hc item
  | collect => exact next_collect hc
  | send key item => exact next_send hc key item
  | receive key => exact next_receive hc key
  | register key => exact next_register hc key
  | abandon key => exact next_abandon hc key
  | step => exact next_step hc

/-- A crossbar nobody has used. -/
theorem make_conserved (kind : Kind) (depth : Nat) :
    Conserved { crossbar := (.make kind depth : Crossbar α) } where
  keys := List.nodup_nil
  received :=
    { held := by
        intro item hitem
        cases hitem
      offered := rfl
      delivered := fun _ _ => rfl
      gone := fun _ => List.prefix_refl _
      dispatched := rfl
      unknown := rfl }
  transmitted := ⟨rfl, [], rfl, rfl, fun _ => rfl⟩

/-- **Over a run, what went in came out or is on its way.** -/
theorem run_conserved (kind : Kind) (depth : Nat) (events : List (Event α)) :
    (run kind depth events).Conserved := by
  have hrun : ∀ {h : History α}, h.Conserved → (events.foldl next h).Conserved := by
    induction events with
    | nil =>
      intro h hc
      exact hc
    | cons event events ih =>
      intro h hc
      exact ih (next_conserved hc event)
  exact hrun (make_conserved kind depth)

/-- **A crossbar loses no record, doubles none, and gives none to another subscriber.**

On reception the records for a key that its subscriber has seen, and those on
their way to it, are in this order the ones that were taken from the layer while
the key was registered; if the subscriber has gone they are the first of them.
What was taken is what the layer offered less what is still in the inbox, and
each record taken is counted as dispatched or as unknown.  On transmission the
records the layer was given and those on their way to it are taken from the
subscribers, of each a first part of what it sent, and the rest is still in its
pipe. -/
theorem records_conserved (kind : Kind) (depth : Nat) (events : List (Event α)) :
    let h := run kind depth events
    let xb := h.crossbar
    (∀ key, xb.reaches key = true →
      ofKey key h.seen ++ (xb.given key ++ xb.heldFor key) = h.takenFor key) ∧
    (∀ key, ofKey key h.seen ++ (xb.given key ++ xb.heldFor key) <+: h.takenFor key) ∧
    h.taken.map (·.1) ++ xb.inbox.items = h.offered ∧
    xb.stats.dispatched = h.taken.countP (·.2) ∧
    xb.stats.unknown = h.taken.countP (!·.2) ∧
    xb.stats.dispatched + xb.stats.unknown = h.taken.length ∧
    ∃ won : List (UInt16 × α),
      won.map (·.2) = h.collected ++ (xb.outbox.items ++ xb.heldOut.toList) ∧
      won.length = xb.stats.arbitrated ∧
      ∀ key, ofKey key h.sent = ofKey key won ++ xb.unsent key := by
  intro h xb
  obtain ⟨-, hr, ht⟩ := run_conserved kind depth events
  obtain ⟨won, hlength, hout, hsent⟩ := ht.arbitrated
  refine ⟨fun key hkey => (hr.delivered key hkey).symm, hr.gone, hr.offered.symm, hr.dispatched,
    hr.unknown, ?_, won, hout, hlength, hsent⟩
  show h.crossbar.stats.dispatched + h.crossbar.stats.unknown = h.taken.length
  rw [hr.dispatched, hr.unknown, List.length_eq_countP_add_countP (·.2)]
  simp only [Bool.not_eq_true, Bool.decide_eq_false]
  rfl

end History
end NetBoard.Crossbar
