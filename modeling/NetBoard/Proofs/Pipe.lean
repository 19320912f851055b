/-
  NetBoard.Proofs.Pipe
  ────────────────────
  **HOLDS IN FRONT OF OPEN PIPES.**

  While the receiving end of a pipe is there, an item that is sent is in the
  pipe or in the hold behind it, and moving the hold into the pipe changes
  nothing about the items that are on their way, or about their order.

  Main statements:

      flush_items        — flushing keeps what is on its way
      flush_full         — an item is left held only in front of a full pipe
      sendOrHold_items   — sending puts one item at its end
      Pipe.taken         — what has been taken out of a pipe
      Pipe.Idle          — nothing is in the pipe, and the next item will be
-/
import NetBoard.Pipe

namespace NetBoard

variable {α : Type}

/-- Into an open pipe a held item leaves as soon as there is room. -/
theorem flush_of_open {p : Pipe α} (hopen : p.closed = false) (item : α) :
    flush (some item) p =
      if p.hasRoom then (true, none, { p with items := p.items ++ [item] })
      else (false, some item, p) := by
  unfold flush Pipe.offer
  by_cases hroom : p.hasRoom
  · simp [hopen, hroom]
  · simp [hopen, hroom]

/-- From a pipe that nobody reads any more a held item is gone. -/
theorem flush_of_closed {p : Pipe α} (hclosed : p.closed = true) (item : α) :
    flush (some item) p = (true, none, p) := by
  unfold flush Pipe.offer
  rw [hclosed]
  rfl

/-- A held item stays where it is, or it is gone. -/
theorem flush_cases (item : α) (p : Pipe α) :
    flush (some item) p = (false, some item, p) ∨ ∃ q, flush (some item) p = (true, none, q) := by
  cases hclosed : p.closed with
  | true => exact .inr ⟨p, flush_of_closed hclosed item⟩
  | false =>
    rw [flush_of_open hclosed]
    by_cases hroom : p.hasRoom = true
    · exact .inr ⟨_, if_pos hroom⟩
    · exact .inl (if_neg hroom)

/-- Flushing keeps what is on its way, and the pipe open. -/
theorem flush_items {p : Pipe α} (hopen : p.closed = false) (held : Option α) :
    (flush held p).2.2.items ++ (flush held p).2.1.toList = p.items ++ held.toList ∧
      (flush held p).2.2.closed = false := by
  cases held with
  | none => exact ⟨rfl, hopen⟩
  | some item =>
    rw [flush_of_open hopen]
    by_cases hroom : p.hasRoom
    · simp [hroom, hopen]
    · simp [hroom, hopen]

/-- If nobody is there any more, what was held is lost, and nothing else. -/
theorem flush_initial (held : Option α) (p : Pipe α) :
    (flush held p).2.2.items ++ (flush held p).2.1.toList <+: p.items ++ held.toList := by
  cases hclosed : p.closed with
  | false =>
    exact ⟨[], by rw [List.append_nil, (flush_items hclosed held).1]⟩
  | true =>
    cases held with
    | none => exact List.prefix_refl _
    | some item =>
      rw [flush_of_closed hclosed]
      exact ⟨[item], List.append_assoc ..⟩

/-- Flushing neither opens nor closes a pipe. -/
theorem closed_flush (held : Option α) (p : Pipe α) :
    (flush held p).2.2.closed = p.closed := by
  cases hclosed : p.closed with
  | false => exact (flush_items hclosed held).2
  | true =>
    cases held with
    | none => exact hclosed
    | some item =>
      rw [flush_of_closed hclosed]
      exact hclosed

/-- Flushing keeps the depth of a pipe, and leaves an item held only if there is no room for it. -/
theorem flush_full (held : Option α) (p : Pipe α) :
    (flush held p).2.2.depth = p.depth ∧
      ((flush held p).2.1 ≠ none → (flush held p).2.2.hasRoom = false) := by
  cases held with
  | none => exact ⟨rfl, fun hheld => absurd rfl hheld⟩
  | some item =>
    cases hclosed : p.closed with
    | true => simp [flush_of_closed hclosed]
    | false =>
      rw [flush_of_open hclosed]
      by_cases hroom : p.hasRoom
      · simp [hroom]
      · simp [hroom]

/-- Sending puts one item at the end of what is on its way, if nothing was held. -/
theorem sendOrHold_items {p : Pipe α} (hopen : p.closed = false) (item : α) :
    (sendOrHold item p).2.items ++ (sendOrHold item p).1.toList = p.items ++ [item] ∧
      (sendOrHold item p).2.closed = false :=
  flush_items hopen (some item)

/-- With room an item that is sent is in the pipe. -/
theorem sendOrHold_of_room {p : Pipe α} (hopen : p.closed = false) (hroom : p.hasRoom = true)
    (item : α) : sendOrHold item p = (none, { p with items := p.items ++ [item] }) := by
  rw [sendOrHold, flush_of_open hopen, if_pos hroom]

/-- Flushing takes nothing out of a pipe. -/
theorem flush_prefix (held : Option α) (p : Pipe α) : p.items <+: (flush held p).2.2.items := by
  cases held with
  | none => exact List.prefix_refl _
  | some item =>
    cases hclosed : p.closed with
    | true => simp only [flush_of_closed hclosed, List.prefix_refl]
    | false =>
      rw [flush_of_open hclosed]
      by_cases hroom : p.hasRoom = true
      · rw [if_pos hroom]
        exact List.prefix_append _ _
      · simp only [if_neg hroom, List.prefix_refl]

/-- What has been taken out of a pipe between two states of it, if nothing was put in. -/
def Pipe.taken (before after : Pipe α) : List α :=
  before.items.take (before.items.length - after.items.length)

theorem Pipe.taken_eq {before after : Pipe α} {items : List α}
    (h : before.items = items ++ after.items) : before.taken after = items := by
  simp [taken, h]

/-- A pipe with nothing in it, and both its ends in place. -/
structure Pipe.Idle (p : Pipe α) : Prop where
  opened : p.closed = false
  empty : p.items = []
  depth_pos : 0 < p.depth

theorem Pipe.idle_make (depth : Nat) : (Pipe.make depth : Pipe α).Idle :=
  ⟨rfl, rfl, depth_make_pos depth⟩

/-- The pipe with this item as all that is in it. -/
def Pipe.only (p : Pipe α) (item : α) : Pipe α := { p with items := [item] }

theorem Pipe.take_only (p : Pipe α) (item : α) :
    (p.only item).take = some (item, { p with items := [] }) := rfl

/-- The item that is sent into an idle pipe is all that is in it. -/
theorem Pipe.Idle.sendOrHold {p : Pipe α} (hp : p.Idle) (item : α) :
    NetBoard.sendOrHold item p = (none, p.only item) := by
  have hroom : p.hasRoom = true := by
    rw [hasRoom, hp.empty]
    exact decide_eq_true hp.depth_pos
  rw [sendOrHold_of_room hp.opened hroom, hp.empty, List.nil_append, Pipe.only]

end NetBoard
