/-
  NetBoard.Proofs.Checked.Machine
  ───────────────────────────────
  **OPERATIONS THAT CAN FAIL.**

  Numbers of the machine have so many bits, and its buffers an end.  A
  difference below zero, a sum that does not fit, a shift by a whole word, an
  index behind the end, an item put where one is held: each of them stops the
  board.  The modules beside this one write the code of every layer a second
  time, with each such operation checked where it stands, under the name of
  the plain function and a `!`; what is proved of them is that no check ever
  fails and that the outcome is the one of the plain function.

  Positions in one buffer, and lengths of one, are added without a check: no
  buffer fills half of the address space.  Nor are the counters of the
  statistics checked, or operations on fixed numbers alone, such as the places
  of the six octets of an address.

  Main definitions:

      Trap             — the ways in which an operation fails
      Checked          — a result, or the operation that failed
      Checked.Runs     — the checked code has this outcome, and keeps this invariant

  Main statements:

      Runs.andThen, Runs.map, Runs.afterHeld
                       — parts that run make a whole that runs
-/
import NetBoard.Proofs.Datapath.Oblivious
import NetBoard.Proofs.Pipe

namespace NetBoard

open scoped Power

/-- The ways in which an operation of the machine fails. -/
inductive Trap where
  /-- A difference below zero. -/
  | underflow
  /-- A sum that does not fit its bits. -/
  | overflow
  /-- A shift by all bits of the word, or more. -/
  | shift
  /-- A remainder of nothing, or a cut into pieces without length. -/
  | division
  /-- An index or a slice behind the end. -/
  | bounds
  /-- An item put where another one is held. -/
  | occupied
  deriving Repr, DecidableEq, Inhabited

/-- A result, or the operation that failed. -/
abbrev Checked (α : Type) := Except Trap α

namespace Checked

variable {α β σ τ : Type}

/-! ## §1. Operations. -/

/-- Go on if the operation is defined. -/
def require (trap : Trap) (defined : Prop) [Decidable defined] : Checked Unit :=
  if defined then .ok () else .error trap

/-- A difference of numbers without sign. -/
def sub (a b : Nat) : Checked Nat := do
  require .underflow (b ≤ a)
  return a - b

/-- A sum in so many bits. -/
def add (bits a b : Nat) : Checked Nat := do
  require .overflow (a + b < 2 ^ bits)
  return a + b

/-- The amount of a shift in a word of so many bits. -/
def shift (bits amount : Nat) : Checked Nat := do
  require .shift (amount < bits)
  return amount

/-- A remainder. -/
def rem (a n : Nat) : Checked Nat := do
  require .division (n ≠ 0)
  return a % n

/-- The item at a place. -/
def index (xs : List α) (i : Nat) : Checked α :=
  match xs[i]? with
  | some x => .ok x
  | none => .error .bounds

/-- The items from one place up to another. -/
def slice (xs : List α) (start stop : Nat) : Checked (List α) := do
  require .bounds (start ≤ stop ∧ stop ≤ xs.length)
  return (xs.take stop).drop start

/-- The four octets from a place on, as a number. -/
def wordAt (bs : Bytes) (i : Nat) : Checked Nat := do
  let a ← index bs i
  let b ← index bs (i + 1)
  let c ← index bs (i + 2)
  let d ← index bs (i + 3)
  return Bytes.toNatBE [a, b, c, d]

/-- Hold an item; the hold must be free. -/
def put (held : Option α) (item : α) : Checked (Option α) := do
  require .occupied (held.isNone = true)
  return some item

/-- Hold an item and try at once to move it into the pipe. -/
def send (held : Option α) (item : α) (p : Pipe α) : Checked (Option α × Pipe α) := do
  let held ← put held item
  return (flush held p).2

/-- What has not failed hands its result on. -/
@[simp] theorem ok_bind (a : α) (f : α → Checked β) : (Except.ok a >>= f) = f a := rfl

/-- The way is free where the operation is defined. -/
theorem require_ok {trap : Trap} {defined : Prop} [Decidable defined] (h : defined) :
    require trap defined = .ok () := if_pos h

/-- A difference that is not below zero. -/
theorem sub_ok {a b : Nat} (h : b ≤ a) : sub a b = .ok (a - b) := by
  rw [sub, require_ok h]
  rfl

/-- A sum that fits its bits. -/
theorem add_ok {bits a b : Nat} (h : a + b < 2 ^ bits) : add bits a b = .ok (a + b) := by
  rw [add, require_ok h]
  rfl

/-- A shift by less than the word. -/
theorem shift_ok {bits amount : Nat} (h : amount < bits) : shift bits amount = .ok amount := by
  rw [shift, require_ok h]
  rfl

/-- A remainder of division by something. -/
theorem rem_ok {a n : Nat} (h : n ≠ 0) : rem a n = .ok (a % n) := by
  rw [rem, require_ok h]
  rfl

/-- An index at which there is an item. -/
theorem index_ok {xs : List α} {i : Nat} {x : α} (h : xs[i]? = some x) : index xs i = .ok x := by
  rw [index, h]

/-- A slice inside the items. -/
theorem slice_ok {xs : List α} {start stop : Nat} (h : start ≤ stop) (hstop : stop ≤ xs.length) :
    slice xs start stop = .ok ((xs.take stop).drop start) := by
  rw [slice, require_ok ⟨h, hstop⟩]
  rfl

/-- Four octets that are there. -/
theorem wordAt_ok {bs : Bytes} {i : Nat} (h : i + 4 ≤ bs.length) :
    wordAt bs i = .ok (Bytes.toNatBE ((bs.drop i).take 4)) := by
  have hlen : 4 ≤ (bs.drop i).length := by
    rw [List.length_drop]
    omega
  have hindex : ∀ j x, (bs.drop i)[j]? = some x → index bs (i + j) = .ok x :=
    fun j x hx => index_ok (List.getElem?_drop ▸ hx)
  unfold wordAt
  generalize bs.drop i = rest at hlen hindex
  match rest, hlen with
  | a :: b :: c :: d :: rest, _ =>
    rw [show index bs i = .ok a from hindex 0 a rfl, ok_bind, hindex 1 b rfl, ok_bind,
      hindex 2 c rfl, ok_bind, hindex 3 d rfl]
    rfl

/-- An item into a free hold. -/
theorem put_ok {held : Option α} (h : held = none) (item : α) : put held item = .ok (some item) := by
  rw [put, require_ok (by rw [h]; rfl)]
  rfl

/-- Into a free hold an item is sent as the plain function sends it. -/
theorem send_ok {held : Option α} (h : held = none) (item : α) (p : Pipe α) :
    send held item p = .ok (sendOrHold item p) := by
  rw [send, put_ok h]
  rfl

/-! ## §2. Loops. -/

/-- A loop without result runs if its body does for every item. -/
theorem forM_ok {xs : List α} {f : α → Checked PUnit} (h : ∀ x ∈ xs, f x = .ok ()) :
    xs.forM f = .ok () := by
  induction xs with
  | nil => rfl
  | cons x rest ih =>
    show (f x >>= fun _ => rest.forM f) = _
    rw [h x List.mem_cons_self]
    exact ih fun y hy => h y (List.mem_cons_of_mem x hy)

/-- Items are mapped if every one of them is. -/
theorem mapM_ok {xs : List α} {f : α → Checked β} {g : α → β} (h : ∀ x ∈ xs, f x = .ok (g x)) :
    xs.mapM f = .ok (xs.map g) := by
  induction xs with
  | nil => rfl
  | cons x rest ih =>
    rw [List.mapM_cons, h x List.mem_cons_self, ok_bind,
      ih fun y hy => h y (List.mem_cons_of_mem x hy)]
    rfl

/-- A loop runs if its body does wherever the invariant holds, and keeps it. -/
theorem foldlM_ok {P : β → Prop} {f : β → α → Checked β} {g : β → α → β} {xs : List α}
    (h : ∀ x ∈ xs, ∀ acc, P acc → f acc x = .ok (g acc x) ∧ P (g acc x)) {acc : β} (hacc : P acc) :
    xs.foldlM f acc = .ok (xs.foldl g acc) ∧ P (xs.foldl g acc) := by
  induction xs generalizing acc with
  | nil => exact ⟨rfl, hacc⟩
  | cons x rest ih =>
    obtain ⟨hx, hnext⟩ := h x List.mem_cons_self acc hacc
    rw [List.foldlM_cons, hx]
    exact ih (fun y hy => h y (List.mem_cons_of_mem x hy)) hnext

/-! ## §3. Steps. -/

variable {inv after : σ → Prop} {c : Checked (Outcome σ)} {o : Outcome σ}

/-- The checked code has this outcome, and the invariant holds after it. -/
structure Runs (inv : σ → Prop) (c : Checked (Outcome σ)) (o : Outcome σ) : Prop where
  ok : c = .ok o
  kept : inv o.state

/-- Continue from the state of a first part, if it did not fail. -/
def andThen (c : Checked (Outcome σ)) (f : σ → Checked (Outcome σ)) : Checked (Outcome σ) := do
  let o ← c
  let next ← f o.state
  return o.andThen fun _ => next

/-- The same outcome, seen as one of a larger state. -/
def map (f : σ → τ) (c : Checked (Outcome σ)) : Checked (Outcome τ) := do
  let o ← c
  return o.map f

/-- What is held goes first; without room for it nothing else is done. -/
def afterHeld (held : Option α) (p : Pipe α) (sent : Option α → Pipe α → σ)
    (f : σ → Checked (Outcome σ)) (s : σ) : Checked (Outcome σ) :=
  match held with
  | none => f s
  | some item =>
    match flush (some item) p with
    | (false, _, _) => return .idle s
    | (true, left, q) => andThen (return .moved (sent left q)) f

/-- Two parts that do not fail, one behind the other. -/
theorem andThen_ok {f : σ → Checked (Outcome σ)} {g : σ → Outcome σ}
    (hf : f o.state = .ok (g o.state)) : andThen (.ok o) f = .ok (o.andThen g) := by
  rw [andThen, ok_bind, hf]
  rfl

/-- What is not checked cannot fail. -/
theorem Runs.pure (h : inv o.state) : Runs inv (.ok o) o := ⟨rfl, h⟩

/-- The second part runs from wherever the first one may have led. -/
theorem Runs.andThen {f : σ → Checked (Outcome σ)} {g : σ → Outcome σ} (hc : Runs inv c o)
    (hf : ∀ s, inv s → Runs after (f s) (g s)) : Runs after (Checked.andThen c f) (o.andThen g) := by
  obtain ⟨hok, hkept⟩ := hf o.state hc.kept
  exact ⟨hc.ok ▸ andThen_ok hok, hkept⟩

/-- A part of a larger state runs there as well. -/
theorem Runs.map {invτ : τ → Prop} {f : σ → τ} (hc : Runs inv c o)
    (hf : ∀ s, inv s → invτ (f s)) : Runs invτ (Checked.map f c) (o.map f) := by
  refine ⟨?_, hf _ hc.kept⟩
  rw [Checked.map, hc.ok]
  rfl

/-- An item that has left is held no more. -/
theorem flush_left {held left : Option α} {p q : Pipe α} (h : flush held p = (true, left, q)) :
    left = none := by
  cases held with
  | none => exact absurd (Prod.mk.inj h).1 Bool.false_ne_true
  | some item =>
    unfold flush at h
    dsimp only at h
    split at h
    · exact absurd (Prod.mk.inj h).1 Bool.false_ne_true
    · exact (Prod.mk.inj (Prod.mk.inj h).2).1.symm

/-- Behind the hold the rest starts with a free one. -/
theorem Runs.afterHeld (held : σ → Option α) {p : Pipe α} {sent : Option α → Pipe α → σ}
    {f : σ → Checked (Outcome σ)} {g : σ → Outcome σ} {s : σ} (hs : inv s)
    (hsent : ∀ q, inv (sent none q) ∧ held (sent none q) = none)
    (hf : ∀ t, inv t → held t = none → Runs inv (f t) (g t)) :
    Runs inv (Checked.afterHeld (held s) p sent f s) (Outcome.afterHeld (held s) p sent g s) := by
  unfold Checked.afterHeld Outcome.afterHeld
  cases hheld : held s with
  | none => exact hf s hs hheld
  | some item =>
    dsimp only
    cases hflush : flush (some item) p with
    | mk gone rest =>
      obtain ⟨left, q⟩ := rest
      cases gone with
      | false => exact .pure hs
      | true =>
        obtain rfl := flush_left hflush
        obtain ⟨hkept, hfree⟩ := hsent q
        obtain ⟨hok, hnext⟩ := hf _ hkept hfree
        exact ⟨andThen_ok hok, hnext⟩

end Checked
end NetBoard
