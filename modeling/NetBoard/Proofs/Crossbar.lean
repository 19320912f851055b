/-
  NetBoard.Proofs.Crossbar
  ────────────────────────
  **WHAT A SUBSCRIBER IS GIVEN.**

  A subscriber is found by its key, and what it has been given changes only
  when a record of its key is delivered: neither arbitration nor the other
  subscribers touch that pipe.

  Main statements:

      inbound?_setLink_of_ne  — other subscribers' pipes are apart
      arbitrate_eq            — arbitration releases what is held, and asks
      inbound?_arbitrate      — so is arbitration
      dispatch_link           — a delivered record is at the end of the pipe
-/
import NetBoard.Crossbar
import NetBoard.Proofs.Pipe

namespace NetBoard.Crossbar

variable {α : Type}

/-! ## §1. Subscribers by key. -/

/-- What has been given to the subscriber of a key. -/
def inbound? (xb : Crossbar α) (key : UInt16) : Option (Pipe α) := (xb.link? key).map (·.inbound)

/-- The pipes of a key after those of another one, or its own, were replaced. -/
theorem link?_setLink (xb : Crossbar α) (key : UInt16) (link : Link α) (other : UInt16) :
    (xb.setLink key link).link? other =
      (xb.link? other).map fun old => if other = key then link else old := by
  let replace := fun p : Port α => if p.key == key then { p with link } else p
  have hkey : (fun p : Port α => (replace p).key == other) = fun p => p.key == other := by
    funext p
    show ((if p.key == key then { p with link } else p : Port α).key == other) = _
    split <;> rfl
  show ((xb.ports.map replace).find? (·.key == other)).map (·.link) = _
  rw [List.find?_map]
  show ((xb.ports.find? (fun p => (replace p).key == other)).map replace).map (·.link) = _
  rw [hkey, link?, Option.map_map, Option.map_map]
  cases hfind : xb.ports.find? (·.key == other) with
  | none => rfl
  | some p =>
    have hp : p.key = other := by simpa using List.find?_some hfind
    have hlink : (replace p).link = if other = key then link else p.link := by
      show (if p.key == key then { p with link } else p : Port α).link = _
      rw [hp]
      by_cases hother : other = key
      · simp [hother]
      · simp [hother]
    exact congrArg some hlink

theorem inbound?_setLink_of_ne (xb : Crossbar α) {key other : UInt16} (link : Link α)
    (h : other ≠ key) : (xb.setLink key link).inbound? other = xb.inbound? other := by
  simp only [inbound?, link?_setLink, if_neg h, Option.map_id_fun', id]

theorem inbound?_setLink_self (xb : Crossbar α) {key : UInt16} {old : Link α}
    (h : xb.link? key = some old) (link : Link α) :
    (xb.setLink key link).inbound? key = some link.inbound := by
  rw [inbound?, link?_setLink, h, Option.map_some, if_pos rfl, Option.map_some]

/-! ## §2. Arbitration. -/

/-- A ready subscriber is in the list, and gives the oldest record it has sent. -/
theorem firstReady_taken {ports : List (Port α)} {indices : List Nat} {i : Nat} {item : α}
    {port : Port α} (h : firstReady ports indices = some (i, item, port)) :
    ∃ old outbound, ports[i]? = some old ∧ old.link.outbound.take = some (item, outbound) ∧
      port = { old with link := { old.link with outbound } } := by
  induction indices with
  | nil => cases h
  | cons j rest ih =>
    unfold firstReady at h
    cases hport : ports[j]? with
    | none =>
      rw [hport] at h
      exact ih h
    | some old =>
      rw [hport] at h
      dsimp only at h
      cases htake : old.link.outbound.take with
      | none =>
        rw [htake] at h
        exact ih h
      | some taken =>
        rw [htake] at h
        cases h
        exact ⟨old, taken.2, hport, htake, rfl⟩

/-- Only what it sends changes. -/
theorem firstReady_some {ports : List (Port α)} {indices : List Nat} {i : Nat} {item : α}
    {port : Port α} (h : firstReady ports indices = some (i, item, port)) :
    ∃ old, ports[i]? = some old ∧ port.key = old.key ∧ port.link.inbound = old.link.inbound := by
  obtain ⟨old, outbound, hport, -, rfl⟩ := firstReady_taken h
  exact ⟨old, hport, rfl, rfl⟩

/-- Keys and what was given to them make up what `inbound?` sees. -/
theorem inbound?_congr {xb xb' : Crossbar α}
    (h : xb'.ports.map (fun p => (p.key, p.link.inbound)) =
      xb.ports.map (fun p => (p.key, p.link.inbound))) (key : UInt16) :
    xb'.inbound? key = xb.inbound? key := by
  -- `find?` looks at keys only, so it may run on the pairs
  have hview : ∀ ports : List (Port α), ((ports.find? (·.key == key)).map (·.link)).map (·.inbound) =
      ((ports.map (fun p => (p.key, p.link.inbound))).find? (·.1 == key)).map (·.2) := by
    intro ports
    rw [List.find?_map, Option.map_map, Option.map_map]
    rfl
  show ((xb'.ports.find? (·.key == key)).map (·.link)).map (·.inbound) = _
  rw [hview, h, ← hview]
  rfl

/-- The crossbar after what is held in front of the outbox has moved, if there is room. -/
def released (xb : Crossbar α) : Crossbar α :=
  { xb with
    heldOut := (flush xb.heldOut xb.outbox).2.1
    outbox := (flush xb.heldOut xb.outbox).2.2 }

/-- **Arbitration releases what is held, and then asks the subscribers**; it does
nothing if something is held that cannot move. -/
theorem arbitrate_eq (xb : Crossbar α) :
    (xb.heldOut ≠ none ∧ xb.released = xb ∧ xb.arbitrate = .idle xb) ∨
    (xb.released.heldOut = none ∧ xb.arbitrate = xb.released.arbitrateNext) := by
  unfold arbitrate released
  cases hheld : xb.heldOut with
  | none =>
    right
    refine ⟨rfl, ?_⟩
    show xb.arbitrateNext = { xb with heldOut := none }.arbitrateNext
    rw [← hheld]
  | some item =>
    dsimp only
    rcases flush_cases item xb.outbox with hkept | ⟨outbox, hleft⟩
    · left
      rw [hkept]
      dsimp only
      rw [← hheld]
      exact ⟨by rw [hheld]; exact Option.some_ne_none item, rfl, rfl⟩
    · right
      rw [hleft]
      exact ⟨rfl, rfl⟩

/-- Arbitration gives nothing to anyone. -/
theorem inbound?_arbitrate (xb : Crossbar α) (key : UInt16) :
    xb.arbitrate.state.inbound? key = xb.inbound? key := by
  -- what is held is flushed first, which leaves the ports as they are
  have hnext : ∀ xb : Crossbar α, xb.arbitrateNext.state.inbound? key = xb.inbound? key := by
    intro xb
    unfold arbitrateNext
    cases hready : firstReady xb.ports xb.order with
    | none => rfl
    | some found =>
      obtain ⟨i, item, port⟩ := found
      obtain ⟨old, hold, hkey, hinbound⟩ := firstReady_some hready
      apply inbound?_congr
      obtain ⟨hi, rfl⟩ := List.getElem?_eq_some_iff.1 hold
      show (xb.ports.set i port).map _ = _
      rw [List.map_set, hkey, hinbound]
      apply List.ext_getElem
      · rw [List.length_set]
      · intro j hj hj'
        rw [List.getElem_set]
        by_cases hij : i = j
        · subst hij
          rw [if_pos rfl, List.getElem_map]
        · rw [if_neg hij]
  rcases arbitrate_eq xb with ⟨-, -, hidle⟩ | ⟨-, hasked⟩
  · rw [hidle]
    rfl
  · rw [hasked]
    exact hnext xb.released

/-! ## §3. Delivery. -/

variable [Keyed α]

/-- A delivered record is at the end of its subscriber's pipe, or held before it. -/
theorem deliver_link (xb : Crossbar α) {item : α} {link : Link α}
    (h : xb.link? (Keyed.key item) = some link) :
    (xb.deliver item).state.heldIn = (sendOrHold item link.inbound).1 ∧
      (xb.deliver item).state.inbound? (Keyed.key item) =
        some (sendOrHold item link.inbound).2 := by
  unfold deliver
  dsimp only
  rw [h]
  exact ⟨rfl, inbound?_setLink_self xb h _⟩

/-- With nothing held, the oldest record that was received is delivered. -/
theorem dispatch_link {xb : Crossbar α} (hheld : xb.heldIn = none) {item : α} {inbox : Pipe α}
    (hnext : xb.inbox.take = some (item, inbox)) {link : Link α}
    (h : xb.link? (Keyed.key item) = some link) :
    xb.dispatch.state.inbound? (Keyed.key item) = some (sendOrHold item link.inbound).2 := by
  unfold dispatch dispatchNext
  rw [hheld, hnext]
  exact (deliver_link { xb with inbox, heldIn := none } h).2

/-- So it is by a step. -/
theorem step_link {xb : Crossbar α} (hheld : xb.heldIn = none) {item : α} {inbox : Pipe α}
    (hnext : xb.inbox.take = some (item, inbox)) {link : Link α}
    (h : xb.link? (Keyed.key item) = some link) :
    xb.step.state.inbound? (Keyed.key item) = some (sendOrHold item link.inbound).2 := by
  rw [step, Outcome.state_andThen, inbound?_arbitrate]
  exact dispatch_link hheld hnext h

end NetBoard.Crossbar
