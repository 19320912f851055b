/-
  NetBoard.Proofs.Settling.Load
  ─────────────────────────────
  **WHAT IS LEFT TO DO.**

  Work waits in places that it passes in a fixed order, from the wire up to the
  users and back down to the wire.  Whatever a layer does takes something from
  one place and puts something, perhaps much more, into later ones.  So all that
  waits is weighed place by place, and an earlier place outweighs all later ones:
  the weight only falls, and it cannot fall for ever.

  Main definitions:

      Place, Load       — the places, and how much waits in each of them
      UpTo, Less        — no more up to a place, and less from a place on
      Outcome.Spends    — a part of a step that never adds to the load
      Outcome.Honest    — without progress it does nothing at all
      Outcome.Rests     — after a step without progress, the next one does nothing
      Outcome.Pays, Outcome.Settles
                        — it spends, and is honest, or rests
      Outcome.Apart     — it does not look at a part of the state

  Main statements:

      Pays.andThen, Pays.afterHeld, Pays.map, Rests.andThen, Rests.after
                        — how steps are put together of parts
      repeated_of_idle  — a step that does nothing does nothing again and again
      exists_repeated_idle
                        — steps that spend come to one without progress
-/
import Mathlib.Algebra.Order.Group.PiLex
import Mathlib.Algebra.Order.Ring.Nat
import Mathlib.Data.DFinsupp.WellFounded
import NetBoard.Proofs.Datapath.Oblivious

namespace NetBoard

/-! ## §1. Places. -/

/-- The places where work waits, in the order in which it passes them. -/
inductive Place where
  -- received, on the way up to the users
  | wireIn | macInbox | macGiven | ipInbox | ipGiven | udpInbox | udpGiven | userGiven
  -- with the stack's own users
  | clientTurn | word | access | reply | backlog | received | looped
  -- sent, on the way down to the addresses
  | userAsked | udpAsked | udpOutbox | echo | ipAsked | ipOutbox
  -- between the datagrams and their addresses
  | unresolved | awaiting | lookup | resolverTurn | answer | fragment
  -- on the way to the wire
  | macAsked | macOutbox | gap | wireOut
  deriving DecidableEq

namespace Place

theorem ctorIdx_injective : Function.Injective Place.ctorIdx := by
  intro j k h
  rw [← Place.ofNat_ctorIdx j, h, Place.ofNat_ctorIdx]

instance : LinearOrder Place := LinearOrder.lift' Place.ctorIdx ctorIdx_injective

theorem ctorIdx_le (k : Place) : k.ctorIdx ≤ wireOut.ctorIdx := by
  cases k <;> decide

instance : Finite Place :=
  Finite.of_injective
    (fun k => (⟨k.ctorIdx, Nat.lt_succ_of_le k.ctorIdx_le⟩ : Fin (wireOut.ctorIdx + 1)))
    fun _ _ h => ctorIdx_injective (Fin.mk.inj h)

end Place

/-! ## §2. Loads. -/

/-- How much waits in every place; the earliest place in which two loads differ
tells which is less. -/
abbrev Load := Lex (Place → Nat)

/-- So much in one place. -/
def pile (k : Place) (n : Nat) : Load := toLex fun i => if i = k then n else 0

namespace Load

variable {j k : Place} {x y u v : Load}

/-- How much waits in a place. -/
def amount (x : Load) (k : Place) : Nat := ofLex x k

theorem amount_pile (k : Place) (n : Nat) : (pile k n).amount k = n := if_pos rfl

theorem amount_pile_of_ne (h : j ≠ k) (n : Nat) : (pile k n).amount j = 0 := if_neg h

/-- No more waits in a place, nor in any before it. -/
def UpTo (k : Place) (x y : Load) : Prop := ∀ i ≤ k, x.amount i ≤ y.amount i

/-- Less waits in a place, and no more in any before it. -/
def Less (k : Place) (x y : Load) : Prop :=
  (∀ i < k, x.amount i ≤ y.amount i) ∧ x.amount k < y.amount k

theorem UpTo.refl : UpTo k x x := fun _ _ => Nat.le_refl _

theorem UpTo.add (hx : UpTo k x y) (hu : UpTo k u v) : UpTo k (x + u) (y + v) :=
  fun i hi => Nat.add_le_add (hx i hi) (hu i hi)

/-- Whatever changes in later places does not count. -/
theorem UpTo.later (h : k < j) (m n : Nat) : UpTo k (pile j m) (pile j n) := by
  intro i hi
  rw [amount_pile_of_ne (hi.trans_lt h).ne]
  exact Nat.zero_le _

theorem Less.add (hx : Less k x y) (hu : UpTo k u v) : Less k (x + u) (y + v) :=
  ⟨fun i hi => Nat.add_le_add (hx.1 i hi) (hu i hi.le),
    Nat.add_lt_add_of_lt_of_le hx.2 (hu k le_rfl)⟩

theorem UpTo.trans_less (hxy : UpTo k x y) (hyu : Less k y u) : Less k x u :=
  ⟨fun i hi => (hxy i hi.le).trans (hyu.1 i hi), (hxy k le_rfl).trans_lt hyu.2⟩

/-- The same with the other part first. -/
theorem UpTo.less (hu : UpTo k u v) (hx : Less k x y) : Less k (u + x) (v + y) := by
  rw [add_comm u, add_comm v]
  exact hx.add hu

theorem Less.pile {m n : Nat} (h : m < n) : Less k (pile k m) (pile k n) := by
  refine ⟨fun i hi => ?_, ?_⟩
  · rw [amount_pile_of_ne hi.ne, amount_pile_of_ne hi.ne]
  · rw [amount_pile, amount_pile]
    exact h

/-- One thing in a place becomes any number of them in a later one. -/
theorem Less.later (h : k < j) (m n : Nat) :
    Less k (NetBoard.pile j m) (NetBoard.pile k (n + 1)) := by
  refine ⟨fun i hi => ?_, ?_⟩
  · rw [amount_pile_of_ne (hi.trans h).ne]
    exact Nat.zero_le _
  · rw [amount_pile_of_ne h.ne, amount_pile]
    exact Nat.succ_pos n

/-- **Less in a place outweighs all that comes after it.** -/
theorem Less.lt (h : Less k x y) : x < y := by
  by_contra hge
  obtain heq | hlt := (not_lt.1 hge).eq_or_lt
  · exact absurd h.2 (by rw [heq]; exact lt_irrefl _)
  · -- the first place in which they differ would have to be before and after this one
    obtain ⟨i, hsame, hi⟩ := hlt
    obtain hik | rfl | hki := lt_trichotomy i k
    · exact absurd (h.1 i hik) (Nat.not_le.2 hi)
    · exact absurd h.2 (Nat.not_lt.2 hi.le)
    · exact absurd h.2 (Nat.not_lt.2 (hsame k hki).le)

end Load

theorem pile_zero (k : Place) : pile k 0 = 0 := by
  refine congrArg toLex (funext fun i => ?_)
  show (if i = k then 0 else 0) = 0
  split <;> rfl

theorem pile_add (k : Place) (m n : Nat) : pile k (m + n) = pile k m + pile k n := by
  refine congrArg toLex (funext fun i => ?_)
  show (if i = k then m + n else 0) = (if i = k then m else 0) + if i = k then n else 0
  split <;> rfl

open Load

variable {α : Type} {j k : Place} {held left : Option α} {p q : Pipe α} {item : α}

/-- What waits in a pipe. -/
def Pipe.load (k : Place) (p : Pipe α) : Load := pile k p.items.length

/-- What waits in a hold; it has still to move into the pipe before it. -/
def hold (k : Place) (held : Option α) : Load := pile k (2 * held.toList.length)

/-- What waits in a pipe and in the hold before it. -/
def lane (k : Place) (held : Option α) (p : Pipe α) : Load :=
  pile k (2 * held.toList.length + p.items.length)

theorem lane_eq (k : Place) (held : Option α) (p : Pipe α) :
    lane k held p = hold k held + p.load k :=
  pile_add k _ _

/-- What is taken from a pipe waits there no more. -/
theorem take_less (h : p.take = some (item, q)) : Less k (q.load k) (p.load k) := by
  obtain ⟨hitems, -, -⟩ := Pipe.take_eq_some h
  refine .pile ?_
  rw [hitems]
  exact Nat.lt_succ_self _

theorem lane_take_less (held : Option α) (h : p.take = some (item, q)) :
    Less k (lane k held q) (lane k held p) := by
  obtain ⟨hitems, -, -⟩ := Pipe.take_eq_some h
  refine .pile ?_
  rw [hitems, List.length_cons]
  omega

/-- What leaves a hold is closer to its end. -/
theorem lane_flush_less (h : flush held p = (true, left, q)) :
    Less k (lane k left q) (lane k held p) := by
  cases held with
  | none => simp [flush] at h
  | some item =>
    refine .pile ?_
    unfold flush Pipe.offer at h
    dsimp only at h
    split_ifs at h with hclosed hroom
    · obtain ⟨-, rfl, rfl⟩ : true = true ∧ none = left ∧ p = q := by simpa using h
      show 2 * 0 + p.items.length < 2 * 1 + p.items.length
      omega
    · obtain ⟨-, rfl, rfl⟩ : true = true ∧ none = left ∧ _ = q := by simpa using h
      show 2 * 0 + (p.items ++ [item]).length < 2 * 1 + p.items.length
      rw [List.length_append, List.length_singleton]
      omega
    · simp at h

/-- A hold that nothing leaves is as it was. -/
theorem flush_kept (h : flush held p = (false, left, q)) : left = held ∧ q = p := by
  cases held with
  | none =>
    obtain ⟨-, rfl, rfl⟩ : false = false ∧ none = left ∧ p = q := by simpa [flush] using h
    exact ⟨rfl, rfl⟩
  | some item =>
    unfold flush Pipe.offer at h
    dsimp only at h
    split_ifs at h with hclosed hroom
    · simp at h
    · simp at h
    · obtain ⟨-, rfl, rfl⟩ : false = false ∧ some item = left ∧ p = q := by simpa using h
      exact ⟨rfl, rfl⟩

/-- When none of the items is accepted, nothing changes. -/
theorem offerMany_kept {items rest : List α}
    (h : p.offerMany items = (0, q, rest)) : q = p ∧ rest = items := by
  unfold Pipe.offerMany at h
  split at h
  · obtain ⟨-, rfl, rfl⟩ : 0 = 0 ∧ p = q ∧ items = rest := by simpa using h
    exact ⟨rfl, rfl⟩
  · obtain ⟨hnone, hpair⟩ := Prod.mk.inj h
    obtain ⟨rfl, rfl⟩ := Prod.mk.inj hpair
    have hempty := List.eq_nil_of_length_eq_zero hnone
    refine ⟨?_, ?_⟩
    · show { p with items := p.items ++ items.take (p.depth - p.items.length) } = p
      rw [hempty, List.append_nil]
    · have hsplit := List.take_append_drop (p.depth - p.items.length) items
      rwa [hempty, List.nil_append] at hsplit

/-! ## §3. Parts of a step. -/

namespace Outcome

variable {σ τ : Type} {inv : σ → Prop} {load : σ → Load} {s : σ} {o : Outcome σ}
  {f g : σ → Outcome σ}

/-- The part keeps the state in order and never adds to the load; progress makes it less. -/
structure Spends (inv : σ → Prop) (load : σ → Load) (s : σ) (o : Outcome σ) : Prop where
  kept : inv o.state
  le : load o.state ≤ load s
  lt : o.progress = true → load o.state < load s

/-- Without progress the part does nothing at all. -/
structure Honest (inv : σ → Prop) (s : σ) (o : Outcome σ) : Prop where
  kept : inv o.state
  honest : o.progress = false → o = .idle s

/-- The part does nothing at all, or makes the load less. -/
structure Pays (inv : σ → Prop) (load : σ → Load) (s : σ) (o : Outcome σ) : Prop
    extends Spends inv load s o, Honest inv s o

/-- After a step without progress, a second one does nothing at all. -/
structure Rests (inv : σ → Prop) (f : σ → Outcome σ) (s : σ) : Prop where
  kept : inv (f s).state
  settled : (f s).progress = false → f (f s).state = .idle (f s).state

/-- A step that comes to rest, and makes the load less before. -/
structure Settles (inv : σ → Prop) (load : σ → Load) (f : σ → Outcome σ) (s : σ) : Prop
    extends Spends inv load s (f s), Rests inv f s

/-- The step does not look at what is exchanged, and leaves it alone. -/
def Apart (f : σ → Outcome σ) (exchange : σ → σ) : Prop := ∀ s, f (exchange s) = (f s).map exchange

/-- So exchanging it gives the step nothing to do. -/
theorem Apart.idle {exchange : σ → σ} (h : Apart f exchange) (hidle : f s = .idle s) :
    f (exchange s) = .idle (exchange s) := by
  rw [h, hidle]
  rfl

theorem andThen_idle (ho : o = .idle s) (hf : f s = .idle s) : o.andThen f = .idle s := by
  rw [ho]
  unfold andThen
  rw [show (idle s).state = s from rfl, hf]
  rfl

/-- A held item that leaves is progress. -/
theorem honest_afterHeld {α : Type} {held : Option α} {p : Pipe α} {sent : Option α → Pipe α → σ}
    (hf : (f s).progress = false → f s = .idle s)
    (hidle : (Outcome.afterHeld held p sent f s).progress = false) :
    Outcome.afterHeld held p sent f s = .idle s := by
  unfold Outcome.afterHeld at hidle ⊢
  cases held with
  | none => exact hf hidle
  | some item =>
    dsimp only at hidle ⊢
    generalize flush (some item) p = flushed at hidle
    obtain ⟨done, left, q⟩ := flushed
    cases done with
    | false => rfl
    | true => cases hidle

theorem Spends.andThen (ho : Spends inv load s o) (hf : ∀ t, inv t → Spends inv load t (f t)) :
    Spends inv load s (o.andThen f) := by
  have hnext := hf o.state ho.kept
  refine ⟨hnext.kept, hnext.le.trans ho.le, fun hprogress => ?_⟩
  obtain hfirst | hsecond := Bool.or_eq_true_iff.1 hprogress
  · exact hnext.le.trans_lt (ho.lt hfirst)
  · exact (hnext.lt hsecond).trans_le ho.le

/-- The same part, as one of a larger state. -/
theorem Spends.map {invτ : τ → Prop} {loadτ : τ → Load} {t : τ} {o : Outcome τ} (put : τ → σ)
    (rest : Load) (ho : Spends invτ loadτ t o) (hput : ∀ u, invτ u → inv (put u))
    (hload : ∀ u, load (put u) = rest + loadτ u) (hsame : put t = s) :
    Spends inv load s (o.map put) := by
  have hs : load s = rest + loadτ t := hsame ▸ hload t
  refine ⟨hput _ ho.kept, ?_, fun hprogress => ?_⟩
  · rw [state_map, hload, hs]
    exact add_le_add_right ho.le rest
  · rw [state_map, hload, hs]
    exact add_lt_add_right (ho.lt hprogress) rest

theorem Honest.map {invτ : τ → Prop} {t : τ} {o : Outcome τ} (put : τ → σ) (ho : Honest invτ t o)
    (hput : ∀ u, invτ u → inv (put u)) (hsame : put t = s) : Honest inv s (o.map put) := by
  refine ⟨hput _ ho.kept, fun hidle => ?_⟩
  rw [ho.honest hidle, ← hsame]
  rfl

namespace Pays

theorem idle (hs : inv s) : Pays inv load s (.idle s) :=
  ⟨⟨hs, le_rfl, fun hprogress => nomatch hprogress⟩, fun _ => rfl⟩

theorem moved {t : σ} {log : List Log.Line} (ht : inv t) (hlt : load t < load s) :
    Pays inv load s (.moved t log) :=
  ⟨⟨ht, hlt.le, fun _ => hlt⟩, fun hidle => nomatch hidle⟩

theorem andThen (ho : Pays inv load s o) (hf : ∀ t, inv t → Pays inv load t (f t)) :
    Pays inv load s (o.andThen f) := by
  refine ⟨ho.toSpends.andThen fun t ht => (hf t ht).toSpends, fun hidle => ?_⟩
  obtain ⟨hfirst, hsecond⟩ := Bool.or_eq_false_iff.1 hidle
  have ho' : o = .idle s := ho.honest hfirst
  have hs : inv s := by
    have := ho.kept
    rwa [ho'] at this
  rw [ho'] at hsecond ⊢
  exact andThen_idle rfl ((hf s hs).honest hsecond)

/-- Without progress the second part adds nothing to what the first one did. -/
theorem andThen_state (hf : Pays inv load o.state (f o.state))
    (hidle : (o.andThen f).progress = false) :
    o.progress = false ∧ (o.andThen f).state = o.state := by
  obtain ⟨hfirst, hsecond⟩ := Bool.or_eq_false_iff.1 hidle
  refine ⟨hfirst, ?_⟩
  rw [state_andThen, hf.honest hsecond]
  rfl

/-- A held item leaves first, and is closer to its end then. -/
theorem afterHeld {α : Type} {held : Option α} {p : Pipe α} {sent : Option α → Pipe α → σ}
    (k : Place) (hs : inv s) (hsent : ∀ left q, inv (sent left q))
    (hless : ∀ left q, Less k (lane k left q) (lane k held p) → load (sent left q) < load s)
    (hf : ∀ t, inv t → Pays inv load t (f t)) :
    Pays inv load s (Outcome.afterHeld held p sent f s) := by
  unfold Outcome.afterHeld
  cases held with
  | none => exact hf s hs
  | some item =>
    dsimp only
    generalize hflush : flush (some item) p = flushed
    obtain ⟨done, left, q⟩ := flushed
    cases done with
    | false => exact .idle hs
    | true => exact (moved (hsent left q) (hless left q (lane_flush_less hflush))).andThen hf

/-- The same part, as one of a larger state. -/
theorem map {invτ : τ → Prop} {loadτ : τ → Load} {t : τ} {o : Outcome τ} (put : τ → σ)
    (rest : Load) (ho : Pays invτ loadτ t o) (hput : ∀ u, invτ u → inv (put u))
    (hload : ∀ u, load (put u) = rest + loadτ u) (hsame : put t = s) :
    Pays inv load s (o.map put) where
  toSpends := ho.toSpends.map put rest hput hload hsame
  honest := (ho.toHonest.map put hput hsame).honest

/-- A part that does nothing at all does so again. -/
theorem settles (h : Pays inv load s (f s)) : Settles inv load f s where
  toSpends := h.toSpends
  settled hidle := by
    have hs := h.honest hidle
    rw [hs]
    exact hs

end Pays

namespace Rests

/-- A part that may move something without progress, and then one that does not. -/
theorem andThen (hf : Rests inv f s) (hg : ∀ t, inv t → Honest inv t (g t)) :
    Rests inv (fun s => (f s).andThen g) s where
  kept := (hg _ hf.kept).kept
  settled hidle := by
    obtain ⟨hfirst, hsecond⟩ := Bool.or_eq_false_iff.1 hidle
    have hsame : g (f s).state = .idle (f s).state := (hg _ hf.kept).honest hsecond
    show (f (g (f s).state).state).andThen g = .idle (g (f s).state).state
    rw [hsame]
    exact andThen_idle (hf.settled hfirst) hsame

/-- And if the second one does, too: what it moves must not give the first one
anything to do. -/
theorem after (hf : Rests inv f s) (hg : ∀ t, inv t → Rests inv g t)
    (hapart : ∀ t, inv t → f t = .idle t → (g t).progress = false →
      f (g t).state = .idle (g t).state) :
    Rests inv (fun s => (f s).andThen g) s where
  kept := (hg _ hf.kept).kept
  settled hidle := by
    obtain ⟨hfirst, hsecond⟩ := Bool.or_eq_false_iff.1 hidle
    exact andThen_idle (hapart _ hf.kept (hf.settled hfirst) hsecond)
      ((hg _ hf.kept).settled hsecond)

end Rests

namespace Settles

theorem andThen (hf : Settles inv load f s) (hg : ∀ t, inv t → Pays inv load t (g t)) :
    Settles inv load (fun s => (f s).andThen g) s where
  toSpends := hf.toSpends.andThen fun t ht => (hg t ht).toSpends
  settled := (hf.toRests.andThen fun t ht => (hg t ht).toHonest).settled

theorem after (hf : Settles inv load f s) (hg : ∀ t, inv t → Settles inv load g t)
    (hapart : ∀ t, inv t → f t = .idle t → (g t).progress = false →
      f (g t).state = .idle (g t).state) :
    Settles inv load (fun s => (f s).andThen g) s where
  toSpends := hf.toSpends.andThen fun t ht => (hg t ht).toSpends
  settled := (hf.toRests.after (fun t ht => (hg t ht).toRests) hapart).settled

/-- The same step, as one of a larger state. -/
theorem map {invτ : τ → Prop} {loadτ : τ → Load} {step : τ → Outcome τ} (part : σ → τ)
    (put : σ → τ → σ) (rest : Load) (h : Settles invτ loadτ step (part s))
    (hput : ∀ u, invτ u → inv (put s u))
    (hload : ∀ u, load (put s u) = rest + loadτ u) (hstart : load (put s (part s)) = load s)
    (hpart : ∀ u, part (put s u) = u) (hlast : ∀ u, put (put s u) u = put s u) :
    Settles inv load (fun s => (step (part s)).map (put s)) s := by
  have hspends : Spends inv load (put s (part s)) ((step (part s)).map (put s)) :=
    h.toSpends.map (put s) rest hput hload rfl
  refine ⟨⟨hspends.kept, hspends.le.trans_eq hstart, fun h => (hspends.lt h).trans_eq hstart⟩,
    fun hidle => ?_⟩
  dsimp only [state_map]
  rw [hpart, h.settled hidle]
  show idle (put (put s (step (part s)).state) (step (part s)).state) = _
  rw [hlast]

end Settles

/-! ## §4. Runs of steps. -/

section Runs

variable {step : σ → Outcome σ}

/-- What has been collected before only stays behind what is collected next. -/
theorem foldl_collected (step : σ → Outcome σ) {ι : Type} (xs : List ι) (s : σ)
    (answers : List Bool) (logs : List (List Log.Line)) :
    xs.foldl (fun (s, answers, logs) _ =>
        let o := step s
        (o.state, o.progress :: answers, o.log :: logs)) (s, answers, logs) =
      let r := xs.foldl (fun (s, answers, logs) _ =>
        let o := step s
        (o.state, o.progress :: answers, o.log :: logs)) (s, [], [])
      (r.1, r.2.1 ++ answers, r.2.2 ++ logs) := by
  induction xs generalizing s answers logs with
  | nil => rfl
  | cons x xs ih =>
    rw [List.foldl_cons, List.foldl_cons]
    dsimp only
    rw [ih (step s).state ((step s).progress :: answers) ((step s).log :: logs),
      ih (step s).state [(step s).progress] [(step s).log]]
    simp

theorem repeated_zero (step : σ → Outcome σ) (s : σ) : repeated step 0 s = (s, [], []) := rfl

theorem repeated_succ (step : σ → Outcome σ) (n : Nat) (s : σ) :
    repeated step (n + 1) s =
      let r := repeated step n (step s).state
      (r.1, (step s).progress :: r.2.1, (step s).log ++ r.2.2) := by
  unfold repeated
  rw [List.range_succ_eq_map, List.foldl_cons, List.foldl_map]
  dsimp only
  rw [foldl_collected]
  simp

/-- A step that does nothing does nothing again and again. -/
theorem repeated_of_idle (h : step s = .idle s) (n : Nat) :
    repeated step n s = (s, List.replicate n false, []) := by
  induction n with
  | zero => rfl
  | succ n ih =>
    rw [repeated_succ, h]
    show ((repeated step n s).1, false :: (repeated step n s).2.1, (repeated step n s).2.2) = _
    rw [ih]
    rfl

/-- Loads cannot fall for ever, so steps that spend come to one without progress. -/
theorem exists_repeated_idle (hstep : ∀ t, inv t → Spends inv load t (step t)) (hs : inv s) :
    ∃ k, (repeated step (k + 1) s).2.1 = List.replicate k true ++ [false] := by
  induction hload : load s using WellFoundedLT.induction generalizing s with
  | ind x ih =>
    have hspends := hstep s hs
    cases hprogress : (step s).progress with
    | false =>
      refine ⟨0, ?_⟩
      rw [repeated_succ, hprogress, repeated_zero]
      rfl
    | true =>
      obtain ⟨k, hk⟩ := ih _ (hload ▸ hspends.lt hprogress) hspends.kept rfl
      refine ⟨k + 1, ?_⟩
      rw [repeated_succ]
      show (step s).progress :: (repeated step (k + 1) (step s).state).2.1 = _
      rw [hk, hprogress]
      rfl

end Runs
end Outcome
end NetBoard
