/-
  NetBoard.Pipe
  ─────────────
  **BOUNDED PIPES.**

  Two stages are joined by a bounded first-in first-out queue.  A full pipe
  pushes back on the stage that feeds it; a pipe whose receiving end is gone
  takes everything and delivers nothing.  A stage whose output meets a full
  pipe keeps the item in a one-item hold and tries again on its next step.

  Main definitions:

      Pipe.offer   — put an item at the end, if there is room
      Pipe.take    — the oldest item and the pipe without it
      flush        — try to move a held item into the pipe
      Link         — the two pipes of a subscriber: what it receives, what it sends
-/

namespace NetBoard

/-- A bounded queue between two stages. -/
structure Pipe (α : Type) where
  /-- The most items the pipe holds. -/
  depth : Nat
  /-- The items inside, the oldest first. -/
  items : List α
  /-- Has the receiving end gone? -/
  closed : Bool
  deriving Repr, DecidableEq, Inhabited

/-- What becomes of an item offered to a pipe. -/
inductive Offer where
  | sent
  /-- The pipe has no room. -/
  | full
  /-- Nobody will ever take the item. -/
  | disconnected
  deriving Repr, DecidableEq, Inhabited

namespace Pipe

variable {α : Type}

/-! ## §1. Operations. -/

/-- An empty pipe; a depth of zero counts as one. -/
def make (depth : Nat) : Pipe α := ⟨max depth 1, [], false⟩

/-- Is there room for another item? -/
def hasRoom (p : Pipe α) : Bool := p.items.length < p.depth

/-- Offer an item to the pipe. -/
def offer (p : Pipe α) (item : α) : Offer × Pipe α :=
  if p.closed then (.disconnected, p)
  else if p.hasRoom then (.sent, { p with items := p.items ++ [item] })
  else (.full, p)

/-- Take the oldest item. -/
def take (p : Pipe α) : Option (α × Pipe α) :=
  match p.items with
  | [] => none
  | item :: rest => some (item, { p with items := rest })

/-- Take the `n` oldest items, or all there are. -/
def takeMany (p : Pipe α) (n : Nat) : List α × Pipe α :=
  (p.items.take n, { p with items := p.items.drop n })

/-- Offer items until one is refused: the number accepted, and the items left over. -/
def offerMany (p : Pipe α) (items : List α) : Nat × Pipe α × List α :=
  if p.closed then (0, p, items)
  else
    let room := p.depth - p.items.length
    let accepted := items.take room
    (accepted.length, { p with items := p.items ++ accepted }, items.drop room)

/-- The receiving end goes: what is inside stays there, and nothing is put in any more. -/
def close (p : Pipe α) : Pipe α := { p with closed := true }

/-! ## §2. The items after each operation. -/

@[simp] theorem items_make (depth : Nat) : (make depth : Pipe α).items = [] := rfl

theorem depth_make_pos (depth : Nat) : 0 < (make depth : Pipe α).depth := by
  simp only [make]; omega

theorem offer_sent {p q : Pipe α} {item : α} (h : p.offer item = (.sent, q)) :
    q.items = p.items ++ [item] ∧ q.depth = p.depth ∧ q.closed = p.closed := by
  unfold offer at h
  split at h
  · simp at h
  · split at h
    · obtain ⟨-, rfl⟩ := Prod.mk.inj h
      exact ⟨rfl, rfl, rfl⟩
    · simp at h

theorem offer_refused {p q : Pipe α} {item : α} {r : Offer} (h : p.offer item = (r, q))
    (hr : r ≠ .sent) : q = p := by
  unfold offer at h
  split at h
  · exact (Prod.mk.inj h).2.symm
  · split at h
    · exact absurd (Prod.mk.inj h).1.symm hr
    · exact (Prod.mk.inj h).2.symm

theorem take_eq_none_iff {p : Pipe α} : p.take = none ↔ p.items = [] := by
  unfold take
  split <;> simp_all

theorem take_eq_some {p q : Pipe α} {item : α} (h : p.take = some (item, q)) :
    p.items = item :: q.items ∧ q.depth = p.depth ∧ q.closed = p.closed := by
  unfold take at h
  split at h
  · simp at h
  · next hi =>
    obtain ⟨rfl, rfl⟩ := Prod.mk.inj (Option.some.inj h)
    exact ⟨hi, rfl, rfl⟩

/-- Items move from the list to the pipe in order, and none is lost. -/
theorem offerMany_items {p q : Pipe α} {items left : List α} {n : Nat}
    (h : p.offerMany items = (n, q, left)) :
    q.items ++ left = p.items ++ items ∧ n + left.length = items.length := by
  unfold offerMany at h
  split at h
  · obtain ⟨rfl, rfl, rfl⟩ : 0 = n ∧ p = q ∧ items = left := by simpa using h
    simp
  · simp only [Prod.mk.injEq] at h
    obtain ⟨rfl, rfl, rfl⟩ := h
    simp
    omega

end Pipe

/-! ## §3. Holds. -/

/-- Try to move a held item into the pipe: did it leave, what is still held,
and the pipe after.  A disconnected pipe absorbs the item. -/
def flush {α : Type} (held : Option α) (p : Pipe α) : Bool × Option α × Pipe α :=
  match held with
  | none => (false, none, p)
  | some item =>
    match p.offer item with
    | (.full, p) => (false, some item, p)
    | (_, p) => (true, none, p)

/-- Send an item, or hold it if the pipe is full. -/
def sendOrHold {α : Type} (item : α) (p : Pipe α) : Option α × Pipe α :=
  (flush (some item) p).2

/-! ## §4. Links. -/

/-- The two pipes of a port, named from the subscriber's side. -/
structure Link (α : Type) where
  /-- What the subscriber receives. -/
  inbound : Pipe α
  /-- What the subscriber sends. -/
  outbound : Pipe α
  deriving Repr, DecidableEq, Inhabited

/-- A link of two empty pipes. -/
def Link.make {α : Type} (depth : Nat) : Link α := ⟨.make depth, .make depth⟩

/-- The subscriber goes: nothing is delivered to it any more, and what it sent is still taken. -/
def Link.abandon {α : Type} (l : Link α) : Link α := { l with inbound := l.inbound.close }

end NetBoard
