/-
  NetBoard.Proofs.Crossbar.Fairness
  ─────────────────────────────────
  **NOBODY IS PASSED OVER TWICE.**

  The subscribers stand in a circle, and arbitration asks them in turn from
  one place on.  Whoever is served is asked last from then on, and those that
  were asked before it had nothing to send.  So the subscribers that can still
  be served before a waiting one are those between the turn and its place:
  each that is served leaves them and does not come back, and a new subscriber
  enters the circle once.

  Main definitions:

      asked     — the subscribers in the order in which they are asked
      ahead     — those that are asked before a given one
      canSend   — the way to the layer is not blocked by a held record
      won       — the records that a step takes from the subscribers
      Served    — a step took one record, of the first subscriber that had one
      Grown     — new subscribers, and more records of the old ones

  Main statements:

      firstReady_split   — those asked before the served one have nothing
      arbitrate_cases    — all that arbitration can do
      next_won           — all that an event can do
      waits_run          — over a run, those that overtake a subscriber are distinct
      arbitration_fair   — each other subscriber is served at most once before it
-/
import Mathlib.Data.List.Perm.Subperm
import Mathlib.Data.List.Rotate
import Mathlib.Data.List.TakeWhile
import NetBoard.Proofs.Crossbar.Conservation

namespace NetBoard.Crossbar

variable {α : Type}

/-! ## §1. The circle. -/

/-- The subscribers in the order in which arbitration asks them. -/
def asked (xb : Crossbar α) : List UInt16 := xb.keys.rotate xb.turn

/-- The subscribers that are asked before the one of `key`. -/
def ahead (xb : Crossbar α) (key : UInt16) : List UInt16 := xb.asked.takeWhile (· != key)

/-- Nothing is held in front of the outbox, or there is room for it. -/
def canSend (xb : Crossbar α) : Bool := xb.heldOut.isNone || xb.outbox.hasRoom

theorem mem_asked (xb : Crossbar α) (key : UInt16) : key ∈ xb.asked ↔ key ∈ xb.keys :=
  List.mem_rotate

/-- Arbitration asks the places of the list from the turn on, round the circle. -/
theorem order_eq (xb : Crossbar α) : xb.order = (List.range xb.ports.length).rotate xb.turn := by
  unfold order
  apply List.ext_getElem
  · simp
  · intro i hi hi'
    simp only [List.getElem_map, List.getElem_range, List.getElem_rotate, List.length_range]
    rw [Nat.add_comm]

/-- The keys of the places. -/
theorem keys_eq_map (xb : Crossbar α) :
    xb.keys = (List.range xb.ports.length).map fun i => xb.keys.getD i 0 := by
  apply List.ext_getElem
  · simp [keys]
  · intro i hi hi'
    simp [hi]

theorem asked_eq_map (xb : Crossbar α) : xb.asked = xb.order.map fun i => xb.keys.getD i 0 := by
  rw [order_eq, List.map_rotate, ← keys_eq_map]
  rfl

/-- A place that is asked is one in the list. -/
theorem lt_of_mem_order {xb : Crossbar α} {i : Nat} (h : i ∈ xb.order) : i < xb.ports.length := by
  rw [order_eq, List.mem_rotate] at h
  exact List.mem_range.1 h

theorem getD_keys {xb : Crossbar α} {i : Nat} {port : Port α} (h : xb.ports[i]? = some port) :
    xb.keys.getD i 0 = port.key := by
  simp [keys, h]

/-! ## §2. Who is served. -/

/-- Of the first subscriber that has sent a record one is taken, and those asked
before it had none. -/
theorem firstReady_split {ports : List (Port α)} {indices : List Nat} {i : Nat} {item : α}
    {port : Port α} (h : firstReady ports indices = some (i, item, port)) :
    ∃ before after, indices = before ++ i :: after ∧
      ∀ j ∈ before, ∀ old, ports[j]? = some old → old.link.outbound.items = [] := by
  induction indices with
  | nil => cases h
  | cons j rest ih =>
    unfold firstReady at h
    -- a place without a record is one more that was asked in vain
    have hskip : (∀ old, ports[j]? = some old → old.link.outbound.items = []) →
        firstReady ports rest = some (i, item, port) →
        ∃ before after, j :: rest = before ++ i :: after ∧
          ∀ k ∈ before, ∀ old, ports[k]? = some old → old.link.outbound.items = [] := by
      intro hnone hrest
      obtain ⟨before, after, hsplit, hbefore⟩ := ih hrest
      refine ⟨j :: before, after, by rw [hsplit]; rfl, ?_⟩
      intro k hk
      rcases List.mem_cons.1 hk with rfl | hk
      · exact hnone
      · exact hbefore k hk
    cases hport : ports[j]? with
    | none =>
      rw [hport] at h
      exact hskip (by simp [hport]) h
    | some old =>
      rw [hport] at h
      dsimp only at h
      cases htake : old.link.outbound.take with
      | none =>
        rw [htake] at h
        apply hskip _ h
        intro other hother
        have hsame : other = old := by simpa [hport] using hother.symm
        rw [hsame]
        exact Pipe.take_eq_none_iff.1 htake
      | some taken =>
        rw [htake] at h
        obtain ⟨rfl, -⟩ := Prod.mk.inj (Option.some.inj h)
        exact ⟨[], rest, rfl, by simp⟩

/-- If nobody is served, nobody has sent a record. -/
theorem firstReady_none {ports : List (Port α)} {indices : List Nat}
    (h : firstReady ports indices = none) :
    ∀ j ∈ indices, ∀ old, ports[j]? = some old → old.link.outbound.items = [] := by
  induction indices with
  | nil => simp
  | cons j rest ih =>
    unfold firstReady at h
    intro k hk old hold
    cases hport : ports[j]? with
    | none =>
      rw [hport] at h
      rcases List.mem_cons.1 hk with rfl | hk
      · rw [hport] at hold
        cases hold
      · exact ih h k hk old hold
    | some first =>
      rw [hport] at h
      dsimp only at h
      cases htake : first.link.outbound.take with
      | none =>
        rw [htake] at h
        rcases List.mem_cons.1 hk with rfl | hk
        · rw [hport] at hold
          obtain rfl := Option.some.inj hold
          exact Pipe.take_eq_none_iff.1 htake
        · exact ih h k hk old hold
      | some taken =>
        rw [htake] at h
        cases h

/-- One record was taken, of the subscriber of `key`: the first one asked that had
any, and the last one asked from then on. -/
structure Served (xb xb' : Crossbar α) (key : UInt16) (item : α) : Prop where
  keys : xb'.keys = xb.keys
  turn : xb'.turn ≤ xb'.keys.length
  asked : ∃ before after, xb.asked = before ++ key :: after ∧
    xb'.asked = after ++ (before ++ [key]) ∧ ∀ other ∈ before, xb.unsent other = []
  taken : xb.unsent key = item :: xb'.unsent key
  others : ∀ other, other ≠ key → xb'.unsent other = xb.unsent other
  arbitrated : xb'.stats.arbitrated = xb.stats.arbitrated + 1

/-- What a subscriber of the list has sent. -/
theorem unsent_of_getElem? {xb : Crossbar α} (hkeys : xb.keys.Nodup) {i : Nat} {port : Port α}
    (h : xb.ports[i]? = some port) : xb.unsent port.key = port.link.outbound.items :=
  unsent_of_link (link?_of_getElem? hkeys h)

/-- A step of the turn past the place that was served. -/
theorem rotate_past {keys before after : List UInt16} {key : UInt16} {turn i : Nat}
    (hasked : keys.rotate turn = before ++ key :: after)
    (hi : i = (turn + before.length) % keys.length) :
    keys.rotate ((i + 1) % keys.length) = after ++ (before ++ [key]) := by
  have hplace : (i + 1) % keys.length = (turn + (before.length + 1)) % keys.length := by
    rw [hi, Nat.mod_add_mod, Nat.add_assoc]
  have hlength : before.length + 1 = (before ++ [key]).length := by simp
  rw [hplace, List.rotate_mod, ← List.rotate_rotate, hasked, hlength, List.append_cons,
    List.rotate_append_length_eq]

theorem arbitrateNext_cases {xb : Crossbar α} (hkeys : xb.keys.Nodup) :
    ((∀ key, xb.unsent key = []) ∧ xb.arbitrateNext = .idle xb) ∨
    ∃ key item, Served xb xb.arbitrateNext.state key item ∧ xb.arbitrateNext.progress = true := by
  rcases arbitrateNext_eq hkeys with
    ⟨hready, hidle⟩ | ⟨i, old, item, outbound, hready, hold, htake, hserve⟩
  · left
    refine ⟨?_, hidle⟩
    intro key
    cases hlink : xb.link? key with
    | none => simp [unsent, hlink]
    | some link =>
      -- the subscriber has a place, and every place was asked
      obtain ⟨port, hfind, rfl⟩ := Option.map_eq_some_iff.1 hlink
      obtain ⟨i, hi⟩ := List.mem_iff_getElem?.1 (List.mem_of_find?_eq_some hfind)
      have horder : i ∈ xb.order := by
        rw [order_eq, List.mem_rotate, List.mem_range]
        exact (List.getElem?_eq_some_iff.1 hi).1
      rw [unsent_of_link hlink]
      exact firstReady_none hready i horder port hi
  · right
    obtain ⟨before, after, horder, hbefore⟩ := firstReady_split hready
    obtain ⟨houtbound, -, -⟩ := Pipe.take_eq_some htake
    have hlink : xb.link? old.key = some old.link := link?_of_getElem? hkeys hold
    have hlength : xb.keys.length = xb.ports.length := by simp [Crossbar.keys]
    have hkeys' : (xb.serve i old item outbound).keys = xb.keys := keys_setLink xb _ _
    have hunsent := unsent_setLink hlink { old.link with outbound }
    -- the keys of the places that were asked, the one that was served among them
    let keyAt : Nat → UInt16 := fun j => xb.keys.getD j 0
    have hasked : xb.asked = before.map keyAt ++ old.key :: after.map keyAt := by
      rw [asked_eq_map, horder, List.map_append, List.map_cons, getD_keys hold]
    have hplace : i = (xb.turn + (before.map keyAt).length) % xb.keys.length := by
      have hget : xb.order[before.length]? = some i := by simp [horder]
      rw [order, List.getElem?_map] at hget
      obtain ⟨j, hj, hij⟩ := Option.map_eq_some_iff.1 hget
      obtain ⟨hlt, rfl⟩ := List.getElem?_eq_some_iff.1 hj
      rw [List.length_map, hlength, ← hij, List.getElem_range]
    refine ⟨old.key, item, ?_, by rw [hserve]; rfl⟩
    rw [hserve]
    exact
      { keys := hkeys'
        turn := by
          show (i + 1) % _ ≤ (xb.serve i old item outbound).keys.length
          rw [hkeys', hlength]
          exact Nat.le_of_lt (Nat.mod_lt _ (Nat.zero_lt_of_lt (List.getElem?_eq_some_iff.1 hold).1))
        asked := by
          refine ⟨before.map keyAt, after.map keyAt, hasked, ?_, ?_⟩
          · show (xb.serve i old item outbound).keys.rotate ((i + 1) % _) = _
            rw [hkeys', ← hlength]
            exact rotate_past hasked hplace
          · intro other hother
            obtain ⟨j, hj, rfl⟩ := List.mem_map.1 hother
            have hin : j < xb.ports.length := by
              apply lt_of_mem_order
              rw [horder]
              exact List.mem_append_left _ hj
            have hget : xb.ports[j]? = some xb.ports[j] := List.getElem?_eq_getElem hin
            show xb.unsent (xb.keys.getD j 0) = []
            rw [getD_keys hget, unsent_of_getElem? hkeys hget]
            exact hbefore j hj _ hget
        taken := by
          show xb.unsent old.key = item :: (xb.setLink old.key _).unsent old.key
          rw [hunsent, if_pos rfl, unsent_of_link hlink]
          exact houtbound
        others := by
          intro other hother
          show (xb.setLink old.key _).unsent other = _
          rw [hunsent, if_neg hother]
        arbitrated := rfl }

/-- The way is free exactly if nothing is held any more after the release. -/
theorem canSend_iff_released {xb : Crossbar α} (hopen : xb.outbox.closed = false) :
    xb.canSend = true ↔ xb.released.heldOut = none := by
  show (xb.heldOut.isNone || xb.outbox.hasRoom) = true ↔ (flush xb.heldOut xb.outbox).2.1 = none
  cases xb.heldOut with
  | none => exact ⟨fun _ => rfl, fun _ => rfl⟩
  | some item =>
    rw [flush_of_open hopen, Option.isNone_some, Bool.false_or]
    by_cases hroom : xb.outbox.hasRoom = true
    · simp [hroom]
    · simp [hroom]

/-- **All that arbitration can do**: nothing while the way is blocked; only move
what was held if nobody has sent a record; or else serve one subscriber. -/
theorem arbitrate_cases {xb : Crossbar α} (hkeys : xb.keys.Nodup)
    (hopen : xb.outbox.closed = false) :
    (xb.canSend = false ∧ xb.arbitrate = .idle xb.released) ∨
    (xb.canSend = true ∧ (∀ key, xb.unsent key = []) ∧ xb.arbitrate = .idle xb.released) ∨
    (xb.canSend = true ∧ xb.arbitrate.progress = true ∧
      ∃ key item, Served xb xb.arbitrate.state key item) := by
  have hcan := canSend_iff_released hopen
  rcases arbitrate_eq xb with ⟨hheld, hsame, hidle⟩ | ⟨hfree, hasked⟩
  · left
    rw [hidle, hsame]
    rw [hsame] at hcan
    exact ⟨Bool.not_eq_true _ ▸ fun h => hheld (hcan.1 h), rfl⟩
  · right
    rw [hasked]
    rcases arbitrateNext_cases (show xb.released.keys.Nodup from hkeys) with
      ⟨hnone, hidle⟩ | ⟨key, item, hserved, hprogress⟩
    · exact .inl ⟨hcan.2 hfree, hnone, hidle⟩
    · refine .inr ⟨hcan.2 hfree, hprogress, key, item, ?_⟩
      exact ⟨hserved.keys, hserved.turn, hserved.asked, hserved.taken, hserved.others,
        hserved.arbitrated⟩

/-! ## §3. One event. -/

/-- Subscribers may have come, and the ones that were there may have sent more. -/
structure Grown (xb xb' : Crossbar α) : Prop where
  keys : ∃ new, xb'.keys = xb.keys ++ new
  turn : xb'.turn = xb.turn
  unsent : ∀ key, xb.unsent key <+: xb'.unsent key
  arbitrated : xb'.stats.arbitrated = xb.stats.arbitrated

/-- Nobody has come, and nobody has sent anything. -/
theorem Grown.of_same {xb xb' : Crossbar α} (hkeys : xb'.keys = xb.keys)
    (hturn : xb'.turn = xb.turn) (hunsent : ∀ key, xb'.unsent key = xb.unsent key)
    (harbitrated : xb'.stats.arbitrated = xb.stats.arbitrated) : Grown xb xb' where
  keys := ⟨[], by rw [hkeys, List.append_nil]⟩
  turn := hturn
  unsent := fun key => by rw [hunsent]
  arbitrated := harbitrated

theorem Grown.setLink {xb : Crossbar α} {key : UInt16} {old : Link α}
    (h : xb.link? key = some old) (link : Link α)
    (hlink : old.outbound.items <+: link.outbound.items) :
    Grown xb (xb.setLink key link) where
  keys := ⟨[], by rw [keys_setLink, List.append_nil]⟩
  turn := rfl
  unsent := by
    intro other
    rw [unsent_setLink h]
    by_cases hother : other = key
    · rw [if_pos hother, hother, unsent_of_link h]
      exact hlink
    · rw [if_neg hother]
  arbitrated := rfl

theorem Grown.register {xb : Crossbar α} {key : UInt16} {made : Crossbar α × List Log.Line}
    (h : xb.register key = .ok made) : Grown xb made.1 where
  keys := ⟨[key], (keys_register h).1⟩
  turn := by rw [(register_eq h).2]
  unsent := by
    intro other
    obtain ⟨hfree, -⟩ := register_eq h
    rw [Crossbar.unsent, Crossbar.unsent, link?_register h]
    by_cases hother : other = key
    · rw [hother, hfree]
      exact List.nil_prefix
    · rw [if_neg hother]
  arbitrated := by rw [(register_eq h).2]

/-- Who has sent a record still has. -/
theorem Grown.waiting {xb xb' : Crossbar α} (hg : Grown xb xb') {key : UInt16}
    (h : xb.unsent key ≠ []) : xb'.unsent key ≠ [] := by
  intro hnone
  have hprefix := hg.unsent key
  rw [hnone, List.prefix_nil] at hprefix
  exact h hprefix

/-- So has who was not served. -/
theorem Served.waiting {xb xb' : Crossbar α} {first key : UInt16} {item : α}
    (hs : Served xb xb' first item) (hfirst : first ≠ key) (h : xb.unsent key ≠ []) :
    xb'.unsent key ≠ [] := by
  rw [hs.others key (Ne.symm hfirst)]
  exact h

section Steps

variable [Keyed α]

theorem turn_dispatchNext (xb : Crossbar α) : xb.dispatchNext.state.turn = xb.turn := by
  unfold dispatchNext
  split
  · rfl
  · unfold deliver
    dsimp only
    split <;> rfl

theorem turn_dispatch {xb : Crossbar α} (hknown : xb.HeldKnown) :
    xb.dispatch.state.turn = xb.turn := by
  rcases dispatch_eq hknown with ⟨-, hnext⟩ | ⟨item, link, -, -, hidle | ⟨-, hnext⟩⟩
  · rw [hnext]
    exact turn_dispatchNext xb
  · rw [hidle]
    rfl
  · rw [hnext]
    exact turn_dispatchNext (xb.hand item link)

/-- The records that a step takes from the subscribers, each with the key of its subscriber. -/
def won (xb : Crossbar α) : List (UInt16 × α) :=
  xb.keys.flatMap fun key =>
    ((xb.unsent key).take ((xb.unsent key).length - (xb.step.state.unsent key).length)).map
      fun item => (key, item)

/-- If nobody's queue is shorter after a step, it took nothing. -/
theorem won_of_same {xb : Crossbar α} (h : ∀ key, xb.step.state.unsent key = xb.unsent key) :
    xb.won = [] := by
  unfold won
  rw [List.flatMap_eq_nil_iff]
  intro key _
  rw [h, Nat.sub_self]
  rfl

theorem won_of_served {xb : Crossbar α} (hkeys : xb.keys.Nodup) {key : UInt16} {item : α}
    (h : Served xb xb.step.state key item) : xb.won = [(key, item)] := by
  obtain ⟨before, after, hasked, -, -⟩ := h.asked
  have hmem : key ∈ xb.keys := by
    rw [← mem_asked, hasked]
    exact List.mem_append_right _ List.mem_cons_self
  obtain ⟨front, back, hsplit⟩ := List.append_of_mem hmem
  have hfresh := hkeys
  rw [hsplit, List.nodup_append] at hfresh
  obtain ⟨-, hback, hfront⟩ := hfresh
  -- the queues of the others have kept their length
  have hnone : ∀ other, other ≠ key →
      ((xb.unsent other).take ((xb.unsent other).length -
        (xb.step.state.unsent other).length)).map (fun item => (other, item)) = [] := by
    intro other hother
    rw [h.others other hother, Nat.sub_self]
    rfl
  have hleft : ∀ keys : List UInt16, key ∉ keys →
      (keys.flatMap fun other => ((xb.unsent other).take ((xb.unsent other).length -
        (xb.step.state.unsent other).length)).map fun item => (other, item)) = [] := by
    intro keys hkey
    rw [List.flatMap_eq_nil_iff]
    intro other hother
    apply hnone
    rintro rfl
    exact hkey hother
  have hone : ((xb.unsent key).take ((xb.unsent key).length -
      (xb.step.state.unsent key).length)).map (fun item => (key, item)) = [(key, item)] := by
    rw [h.taken, List.length_cons, Nat.add_sub_cancel_left]
    rfl
  unfold won
  rw [hsplit, List.flatMap_append, List.flatMap_cons, hone,
    hleft front (fun hin => hfront key hin key List.mem_cons_self rfl),
    hleft back (List.nodup_cons.1 hback).1]
  rfl

/-- **All that a step can do** to what the subscribers have sent. -/
theorem step_served {xb : Crossbar α} (hknown : xb.HeldKnown) (hkeys : xb.keys.Nodup)
    (hopen : xb.outbox.closed = false) :
    (Grown xb xb.step.state ∧ (∀ key, xb.step.state.unsent key = xb.unsent key) ∧
      (xb.canSend = true → ∀ key, xb.unsent key = [])) ∨
    ∃ key item, Served xb xb.step.state key item := by
  obtain ⟨new, hnew⟩ := dispatch_dispatched hknown
  let mid := xb.dispatch.state
  have hmid : mid.keys.Nodup := hnew.keys.symm ▸ hkeys
  have hturn : mid.turn = xb.turn := turn_dispatch hknown
  have hasked : mid.asked = xb.asked := by rw [asked, asked, hturn, hnew.keys]
  have hcan : mid.canSend = xb.canSend := by rw [canSend, canSend, hnew.heldOut, hnew.outbox]
  have hunsent : ∀ key, mid.unsent key = xb.unsent key := hnew.unsent
  have hrest : mid.arbitrate = .idle mid.released →
      Grown xb xb.step.state ∧ ∀ key, xb.step.state.unsent key = xb.unsent key := by
    intro hidle
    have hstep : xb.step.state = mid.released := by
      rw [step, Outcome.state_andThen, hidle]
      rfl
    rw [hstep]
    exact ⟨.of_same hnew.keys hturn hunsent hnew.arbitrated, hunsent⟩
  -- reception changes nothing that arbitration looks at
  rcases arbitrate_cases hmid (hnew.outbox ▸ hopen) with
    ⟨hblocked, hidle⟩ | ⟨-, hnone, hidle⟩ | ⟨-, -, key, item, hserved⟩
  · left
    refine ⟨(hrest hidle).1, (hrest hidle).2, ?_⟩
    intro hway
    rw [← hcan, hblocked] at hway
    cases hway
  · left
    refine ⟨(hrest hidle).1, (hrest hidle).2, ?_⟩
    intro _ key
    rw [← hunsent]
    exact hnone key
  · right
    refine ⟨key, item, ?_⟩
    rw [step, Outcome.state_andThen]
    exact
      { keys := hserved.keys.trans hnew.keys
        turn := hserved.turn
        asked := by
          obtain ⟨before, after, hfirst, hlast, hbefore⟩ := hserved.asked
          refine ⟨before, after, hasked.symm.trans hfirst, hlast, ?_⟩
          intro other hother
          rw [← hunsent]
          exact hbefore other hother
        taken := (hunsent key).symm.trans hserved.taken
        others := fun other hother => (hserved.others other hother).trans (hunsent other)
        arbitrated := by rw [hserved.arbitrated, hnew.arbitrated] }

end Steps

namespace History

section Events

variable [Keyed α] {h : History α}

/-- The records that an event takes from the subscribers. -/
def wonBy (h : History α) : Event α → List (UInt16 × α)
  | .step => h.crossbar.won
  | _ => []

/-- Is the event a step in which the way to the layer is not blocked? -/
def opens (h : History α) : Event α → Bool
  | .step => h.crossbar.canSend
  | _ => false

/-- The records that events take from the subscribers, in this order. -/
def won (h : History α) : List (Event α) → List (UInt16 × α)
  | [] => []
  | event :: events => h.wonBy event ++ (h.next event).won events

/-- The number of steps in which the way to the layer is not blocked. -/
def openings (h : History α) : List (Event α) → Nat
  | [] => 0
  | event :: events => (h.opens event).toNat + (h.next event).openings events

/-- Besides steps, events only add to what the subscribers have sent. -/
theorem next_grown (h : History α) {event : Event α} (hevent : event ≠ .step) :
    Grown h.crossbar (h.next event).crossbar := by
  have hrefl : Grown h.crossbar h.crossbar := .of_same rfl rfl (fun _ => rfl) rfl
  cases event with
  | offer item =>
    unfold next
    dsimp only
    split
    · exact .of_same rfl rfl (fun _ => rfl) rfl
    · exact hrefl
  | collect =>
    unfold next
    dsimp only
    split
    · exact hrefl
    · exact .of_same rfl rfl (fun _ => rfl) rfl
  | send key item =>
    unfold next
    dsimp only
    cases hlink : h.crossbar.link? key with
    | none => exact hrefl
    | some link =>
      dsimp only
      split
      · next outbound hoffer =>
        obtain ⟨hitems, -, -⟩ := Pipe.offer_sent hoffer
        apply Grown.setLink hlink
        rw [hitems]
        exact List.prefix_append _ _
      · exact hrefl
  | receive key =>
    unfold next
    dsimp only
    cases hlink : h.crossbar.link? key with
    | none => exact hrefl
    | some link =>
      dsimp only
      split
      · exact hrefl
      · exact Grown.setLink hlink _ (List.prefix_refl _)
  | register key =>
    unfold next
    dsimp only
    cases hregister : h.crossbar.register key with
    | error fault => exact hrefl
    | ok made => exact Grown.register hregister
  | abandon key =>
    unfold next abandon
    dsimp only
    cases hlink : h.crossbar.link? key with
    | none => exact hrefl
    | some link => exact Grown.setLink hlink _ (List.prefix_refl _)
  | step => exact absurd rfl hevent

/-- **All that an event can do** to what the subscribers have sent. -/
theorem next_won (hc : h.Conserved) (event : Event α) :
    (h.wonBy event = [] ∧ Grown h.crossbar (h.next event).crossbar ∧
      (h.opens event = true → ∀ key, h.crossbar.unsent key = [])) ∨
    ∃ key item, h.wonBy event = [(key, item)] ∧
      Served h.crossbar (h.next event).crossbar key item := by
  by_cases hevent : event = .step
  · subst hevent
    have hnext : (h.next .step).crossbar = h.crossbar.step.state := rfl
    rw [hnext]
    rcases step_served hc.received.held hc.keys hc.transmitted.opened with
      ⟨hgrown, hsame, hnone⟩ | ⟨key, item, hserved⟩
    · exact .inl ⟨won_of_same hsame, hgrown, hnone⟩
    · exact .inr ⟨key, item, won_of_served hc.keys hserved, hserved⟩
  · have hquiet : h.wonBy event = [] ∧ h.opens event = false := by
      cases event with
      | step => exact absurd rfl hevent
      | _ => exact ⟨rfl, rfl⟩
    refine .inl ⟨hquiet.1, next_grown h hevent, ?_⟩
    intro hopens
    rw [hquiet.2] at hopens
    cases hopens

end Events

/-! ## §4. Waiting. -/

section Circle

variable {key : UInt16}

/-- What is put into a list either shows in its first part, or does not change it. -/
theorem mem_takeWhile_insert {p : UInt16 → Bool} {front new back : List UInt16} {other : UInt16}
    (h : other ∈ (front ++ (new ++ back)).takeWhile p) :
    other ∈ new ∨ other ∈ (front ++ back).takeWhile p := by
  induction front with
  | nil =>
    induction new with
    | nil => exact .inr h
    | cons first new ih =>
      rw [List.nil_append, List.cons_append, List.takeWhile_cons] at h
      split at h
      · rcases List.mem_cons.1 h with rfl | h
        · exact .inl List.mem_cons_self
        · exact (ih h).imp_left (List.mem_cons_of_mem first)
      · cases h
  | cons first front ih =>
    rw [List.cons_append, List.takeWhile_cons] at h ⊢
    split at h
    · next hfirst =>
      rw [if_pos hfirst]
      rcases List.mem_cons.1 h with rfl | h
      · exact .inr List.mem_cons_self
      · exact (ih h).imp_right (List.mem_cons_of_mem first)
    · cases h

/-- What stands before the first `key` is not changed by what stands behind it. -/
theorem takeWhile_of_mem {front : List UInt16} (h : key ∈ front) (back : List UInt16) :
    (front ++ back).takeWhile (· != key) = front.takeWhile (· != key) := by
  induction front with
  | nil => cases h
  | cons first front ih =>
    rw [List.cons_append, List.takeWhile_cons, List.takeWhile_cons]
    by_cases hfirst : first = key
    · simp [hfirst]
    · have hrest : key ∈ front := (List.mem_cons.1 h).resolve_left (Ne.symm hfirst)
      rw [ih hrest]

/-- When new subscribers come, only they can be asked besides those asked before. -/
theorem mem_ahead_of_grown {xb xb' : Crossbar α} {new : List UInt16}
    (hkeys : xb'.keys = xb.keys ++ new) (hturn : xb'.turn = xb.turn)
    (hplace : xb.turn ≤ xb.keys.length) {other : UInt16} (h : other ∈ xb'.ahead key) :
    other ∈ new ∨ other ∈ xb.ahead key := by
  have hplace' : xb.turn ≤ (xb.keys ++ new).length := by
    rw [List.length_append]
    omega
  unfold ahead asked at h ⊢
  rw [hkeys, hturn, List.rotate_eq_drop_append_take hplace', List.drop_append_of_le_length hplace,
    List.take_append_of_le_length hplace, List.append_assoc] at h
  rw [List.rotate_eq_drop_append_take hplace]
  exact mem_takeWhile_insert h

/-- The one that is served was asked before the waiting one, and is so no longer;
nobody else has come before it. -/
theorem ahead_of_served {xb xb' : Crossbar α} {first : UInt16} {item : α}
    (hkeys : xb.keys.Nodup) (h : Served xb xb' first item) (hfirst : first ≠ key)
    (hwaiting : xb.unsent key ≠ []) (hmem : key ∈ xb.keys) :
    first ∈ xb.ahead key ∧ first ∉ xb'.ahead key ∧
      ∀ other ∈ xb'.ahead key, other ∈ xb.ahead key := by
  obtain ⟨before, after, hasked, hasked', hbefore⟩ := h.asked
  have hdistinct : (before ++ first :: after).Nodup := by
    rw [← hasked]
    exact List.nodup_rotate.2 hkeys
  obtain ⟨-, hafter, -⟩ := List.nodup_append.1 hdistinct
  -- the waiting one has a record, so it is behind the one that was served
  have hnot : key ∉ before := fun hin => hwaiting (hbefore key hin)
  have hin : key ∈ after := by
    have hcircle : key ∈ before ++ first :: after := by
      rw [← hasked]
      exact (mem_asked xb key).2 hmem
    rcases List.mem_append.1 hcircle with hin | hin
    · exact absurd hin hnot
    · exact (List.mem_cons.1 hin).resolve_left (Ne.symm hfirst)
  have hpassed : ∀ other ∈ before, (other != key) = true := by
    intro other hother
    apply bne_iff_ne.2
    rintro rfl
    exact hnot hother
  have hold : xb.ahead key = before ++ first :: after.takeWhile (· != key) := by
    rw [ahead, hasked, List.takeWhile_append_of_pos hpassed, List.takeWhile_cons,
      if_pos (bne_iff_ne.2 hfirst)]
  have hnew : xb'.ahead key = after.takeWhile (· != key) := by
    rw [ahead, hasked', takeWhile_of_mem hin]
  rw [hold, hnew]
  refine ⟨List.mem_append_right _ List.mem_cons_self, ?_, ?_⟩
  · intro hagain
    exact (List.nodup_cons.1 hafter).1 ((List.takeWhile_subset _) hagain)
  · intro other hother
    exact List.mem_append_right _ (List.mem_cons_of_mem _ hother)

end Circle

/-- The subscriber of `key` has a record to send, and the subscribers `passed`
were served before it, each once: they are not asked again before it. -/
structure Waits (key : UInt16) (passed : List UInt16) (xb : Crossbar α) : Prop where
  waiting : xb.unsent key ≠ []
  distinct : passed.Nodup
  known : ∀ other ∈ passed, other ∈ xb.keys
  behind : ∀ other ∈ passed, other ≠ key ∧ other ∉ xb.ahead key

section Waiting

variable {key : UInt16} {passed : List UInt16} {xb xb' : Crossbar α}

/-- Who has sent a record is a subscriber. -/
theorem mem_keys_of_unsent (h : xb.unsent key ≠ []) : key ∈ xb.keys := by
  rw [← has_iff_mem, has_eq_isSome]
  cases hlink : xb.link? key with
  | some link => rfl
  | none => exact absurd (by simp [unsent, hlink]) h

/-- So the subscribers that were served are fewer than all. -/
theorem Waits.length_lt (hw : Waits key passed xb) : passed.length < xb.keys.length := by
  have hdistinct : (key :: passed).Nodup :=
    List.nodup_cons.2 ⟨fun hin => (hw.behind key hin).1 rfl, hw.distinct⟩
  have hsubset : key :: passed ⊆ xb.keys := by
    intro other hother
    rcases List.mem_cons.1 hother with rfl | hother
    · exact mem_keys_of_unsent hw.waiting
    · exact hw.known other hother
  exact (hdistinct.subperm hsubset).length_le

/-- Waiting goes on while nobody is served. -/
theorem Waits.grown (hw : Waits key passed xb) (hg : Grown xb xb') (hkeys : xb'.keys.Nodup)
    (hplace : xb.turn ≤ xb.keys.length) : Waits key passed xb' := by
  obtain ⟨new, hnew⟩ := hg.keys
  rw [hnew] at hkeys
  obtain ⟨-, -, hfresh⟩ := List.nodup_append.1 hkeys
  refine ⟨hg.waiting hw.waiting, hw.distinct, ?_, ?_⟩
  · intro other hother
    rw [hnew]
    exact List.mem_append_left _ (hw.known other hother)
  · intro other hother
    obtain ⟨hne, hbehind⟩ := hw.behind other hother
    refine ⟨hne, ?_⟩
    intro hahead
    rcases mem_ahead_of_grown hnew hg.turn hplace hahead with hin | hin
    · exact hfresh other (hw.known other hother) other hin rfl
    · exact hbehind hin

/-- If somebody else is served, it had not been served since the waiting began. -/
theorem Waits.served (hw : Waits key passed xb) {first : UInt16} {item : α}
    (hs : Served xb xb' first item) (hfirst : first ≠ key) (hkeys : xb.keys.Nodup) :
    Waits key (passed ++ [first]) xb' := by
  obtain ⟨hin, hout, hsubset⟩ :=
    ahead_of_served hkeys hs hfirst hw.waiting (mem_keys_of_unsent hw.waiting)
  have hfresh : first ∉ passed := fun hpassed => (hw.behind first hpassed).2 hin
  refine ⟨hs.waiting hfirst hw.waiting, ?_, ?_, ?_⟩
  · rw [← List.concat_eq_append]
    exact hw.distinct.concat hfresh
  · intro other hother
    rw [hs.keys]
    rcases List.mem_append.1 hother with hother | hother
    · exact hw.known other hother
    · rw [List.mem_singleton.1 hother, ← mem_asked]
      exact (List.takeWhile_subset _) hin
  · intro other hother
    rcases List.mem_append.1 hother with hother | hother
    · obtain ⟨hne, hbehind⟩ := hw.behind other hother
      exact ⟨hne, fun hahead => hbehind (hsubset other hahead)⟩
    · rw [List.mem_singleton.1 hother]
      exact ⟨hfirst, hout⟩

end Waiting

/-! ## §5. Runs. -/

/-- The turn is at a place of the list, or behind it. -/
def Placed (xb : Crossbar α) : Prop := xb.turn ≤ xb.keys.length

theorem Placed.grown {xb xb' : Crossbar α} (hplace : Placed xb) (hg : Grown xb xb') :
    Placed xb' := by
  obtain ⟨new, hnew⟩ := hg.keys
  unfold Placed at hplace ⊢
  rw [hg.turn, hnew, List.length_append]
  omega

variable [Keyed α]

theorem next_placed {h : History α} (hc : h.Conserved) (hplace : Placed h.crossbar)
    (event : Event α) :
    Placed (h.next event).crossbar := by
  rcases next_won hc event with ⟨-, hgrown, -⟩ | ⟨key, item, -, hserved⟩
  · exact hplace.grown hgrown
  · exact hserved.turn

theorem run_placed (kind : Kind) (depth : Nat) (events : List (Event α)) :
    Placed (run kind depth events).crossbar := by
  have hrun : ∀ h : History α, h.Conserved → Placed h.crossbar →
      Placed (events.foldl next h).crossbar := by
    induction events with
    | nil =>
      intro h _ hplace
      exact hplace
    | cons event events ih =>
      intro h hc hplace
      exact ih _ (next_conserved hc event) (next_placed hc hplace event)
  exact hrun _ (make_conserved kind depth) (Nat.le_refl 0)

/-- Subscribers stay. -/
theorem keys_foldl {h : History α} (hc : h.Conserved) (events : List (Event α)) :
    h.crossbar.keys <+: (events.foldl next h).crossbar.keys := by
  induction events generalizing h with
  | nil => exact List.prefix_refl _
  | cons event events ih =>
    have hnext : h.crossbar.keys <+: (h.next event).crossbar.keys := by
      rcases next_won hc event with ⟨-, hgrown, -⟩ | ⟨key, item, -, hserved⟩
      · obtain ⟨new, hnew⟩ := hgrown.keys
        rw [hnew]
        exact List.prefix_append _ _
      · rw [hserved.keys]
    exact hnext.trans (ih (next_conserved hc event))

/-- The records that are taken are those that arbitration counts. -/
theorem arbitrated_foldl {h : History α} (hc : h.Conserved) (events : List (Event α)) :
    (events.foldl next h).crossbar.stats.arbitrated =
      h.crossbar.stats.arbitrated + (h.won events).length := by
  induction events generalizing h with
  | nil => rfl
  | cons event events ih =>
    rw [List.foldl_cons, ih (next_conserved hc event), won, List.length_append]
    rcases next_won hc event with ⟨hwon, hgrown, -⟩ | ⟨key, item, hwon, hserved⟩
    · rw [hwon, hgrown.arbitrated, List.length_nil]
      omega
    · rw [hwon, hserved.arbitrated, List.length_singleton]
      omega

/-- Each subscriber's records are taken in the order in which it sent them. -/
theorem unsent_foldl {h : History α} (hc : h.Conserved) (events : List (Event α)) (key : UInt16) :
    ∃ later, h.crossbar.unsent key ++ later =
      ofKey key (h.won events) ++ (events.foldl next h).crossbar.unsent key := by
  induction events generalizing h with
  | nil => exact ⟨[], List.append_nil _⟩
  | cons event events ih =>
    obtain ⟨later, hlater⟩ := ih (next_conserved hc event)
    rw [List.foldl_cons, won, ofKey_append, List.append_assoc, ← hlater]
    rcases next_won hc event with ⟨hwon, hgrown, -⟩ | ⟨first, item, hwon, hserved⟩
    · obtain ⟨sent, hsent⟩ := hgrown.unsent key
      refine ⟨sent ++ later, ?_⟩
      rw [hwon, ← hsent, List.append_assoc]
      rfl
    · refine ⟨later, ?_⟩
      rw [hwon, ofKey_singleton]
      by_cases hfirst : first = key
      · rw [if_pos hfirst, ← hfirst, hserved.taken]
        rfl
      · rw [if_neg hfirst, hserved.others key (Ne.symm hfirst)]
        rfl

/-- **Those that overtake a waiting subscriber are distinct**, and not those that
have passed it already. -/
theorem waits_run {h : History α} (hc : h.Conserved) (hplace : Placed h.crossbar) {key : UInt16}
    {passed : List UInt16} (hw : Waits key passed h.crossbar) (events : List (Event α)) :
    let overtaking := ((h.won events).map (·.1)).takeWhile (· != key)
    (passed ++ overtaking).Nodup ∧
      (passed ++ overtaking).length < (events.foldl next h).crossbar.keys.length := by
  induction events generalizing h passed with
  | nil =>
    intro overtaking
    rw [show passed ++ overtaking = passed from List.append_nil passed]
    exact ⟨hw.distinct, hw.length_lt⟩
  | cons event events ih =>
    have hc' := next_conserved hc event
    have hplace' := next_placed hc hplace event
    rw [won, List.map_append, List.foldl_cons]
    rcases next_won hc event with ⟨hwon, hgrown, -⟩ | ⟨first, item, hwon, hserved⟩
    · rw [hwon]
      exact ih hc' hplace' (hw.grown hgrown hc'.keys hplace)
    · rw [hwon, List.map_singleton, List.singleton_append, List.takeWhile_cons]
      by_cases hfirst : first = key
      · -- the waiting one itself is served, and later events do not matter
        have hmore := (keys_foldl hc (event :: events)).length_le
        have hlt := hw.length_lt
        simp only [hfirst, bne_self_eq_false, Bool.false_eq_true, if_false, List.append_nil]
        exact ⟨hw.distinct, Nat.lt_of_lt_of_le hlt hmore⟩
      · have hmore := ih hc' hplace' (hw.served hserved hfirst hc.keys)
        rw [if_pos (bne_iff_ne.2 hfirst)]
        simpa only [List.append_assoc, List.singleton_append] using hmore

/-- While a subscriber waits, every step serves somebody, unless the way is blocked. -/
theorem openings_le {h : History α} (hc : h.Conserved) {key : UInt16}
    (hwaiting : h.crossbar.unsent key ≠ []) (events : List (Event α))
    (hnot : key ∉ (h.won events).map (·.1)) : h.openings events ≤ (h.won events).length := by
  induction events generalizing h with
  | nil => exact Nat.le_refl 0
  | cons event events ih =>
    rw [won, List.map_append, List.mem_append, not_or] at hnot
    obtain ⟨hfirst, hrest⟩ := hnot
    rw [openings, won, List.length_append]
    rcases next_won hc event with ⟨-, hgrown, hnone⟩ | ⟨first, item, hwon, hserved⟩
    · have hblocked : h.opens event = false := by
        cases hopens : h.opens event with
        | false => rfl
        | true => exact absurd (hnone hopens key) hwaiting
      have hle := ih (next_conserved hc event) (hgrown.waiting hwaiting) hrest
      rw [hblocked, Bool.toNat_false]
      omega
    · have hne : key ≠ first := by simpa [hwon] using hfirst
      have hle := ih (next_conserved hc event) (hserved.waiting hne.symm hwaiting) hrest
      have hone := (h.opens event).toNat_lt
      rw [hwon, List.length_singleton]
      omega

/-- A record that is its key and the number of a message. -/
structure Token where
  key : UInt16
  number : Nat
  deriving Repr, DecidableEq, Inhabited

instance : Keyed Token := ⟨Token.key⟩

/-- **Arbitration is fair.**

From any moment at which a subscriber has a record to send, let `won` be the
records that are taken from the subscribers: they are those that arbitration
counts, and of each subscriber they are taken in the order in which it sent
them.  Before the first one of the waiting subscriber, every other one is
served at most once, also if it has come meanwhile, and so fewer than there are
subscribers.  If the way to the layer was open in as many steps as there are
subscribers, the waiting one was served. -/
theorem arbitration_fair (kind : Kind) (depth : Nat) (before after : List (Event α)) (key : UInt16)
    (hwaiting : (run kind depth before).crossbar.unsent key ≠ []) :
    let h := run kind depth before
    let h' := run kind depth (before ++ after)
    let won := h.won after
    let overtaking := (won.map (·.1)).takeWhile (· != key)
    h'.crossbar.stats.arbitrated = h.crossbar.stats.arbitrated + won.length ∧
    (∀ other, ∃ later, h.crossbar.unsent other ++ later =
      ofKey other won ++ h'.crossbar.unsent other) ∧
    (∀ other, overtaking.count other ≤ 1) ∧
    overtaking.length < h'.crossbar.keys.length ∧
    (h'.crossbar.keys.length ≤ h.openings after → key ∈ won.map (·.1)) := by
  intro h h' won overtaking
  have hc : h.Conserved := run_conserved kind depth before
  have hrun : h' = after.foldl next h := List.foldl_append
  have hwaits : Waits key [] h.crossbar := ⟨hwaiting, List.nodup_nil, by simp, by simp⟩
  obtain ⟨hdistinct, hfewer⟩ := waits_run hc (run_placed kind depth before) hwaits after
  rw [hrun]
  refine ⟨arbitrated_foldl hc after, unsent_foldl hc after, ?_, hfewer, ?_⟩
  · intro other
    exact List.nodup_iff_count_le_one.1 hdistinct other
  · intro hopen
    by_contra hnot
    have hall : overtaking = won.map (·.1) := by
      apply List.takeWhile_eq_self_iff.2
      intro other hother
      apply bne_iff_ne.2
      rintro rfl
      exact hnot hother
    have hle := openings_le hc hwaiting after hnot
    have hserved : overtaking.length = (h.won after).length := by rw [hall, List.length_map]
    have hlt : overtaking.length < (after.foldl next h).crossbar.keys.length := hfewer
    rw [hserved] at hlt
    omega

/-- The second record of one subscriber waits for the other one and for one that has just come. -/
theorem arbitration_fair_newcomer :
    let before : List (Event Token) :=
      [.register 8, .register 7, .send 8 ⟨8, 0⟩, .send 8 ⟨8, 1⟩, .send 7 ⟨7, 0⟩, .send 7 ⟨7, 1⟩,
        .step]
    let after : List (Event Token) := [.register 9, .send 9 ⟨9, 0⟩, .step, .step, .step]
    let h := run .udpPort 4 before
    let won := (h.won after).map (·.1)
    h.crossbar.unsent 8 ≠ [] ∧ won = [7, 9, 8] ∧ h.openings after = 3 ∧
      (∀ other, (won.takeWhile (· != 8)).count other ≤ 1) ∧ 8 ∈ won := by
  intro before after h won
  have hwaiting : h.crossbar.unsent 8 ≠ [] := by decide
  have hwon : won = [7, 9, 8] := by decide
  have hopenings : h.openings after = 3 := by decide
  have hkeys : (run .udpPort 4 (before ++ after)).crossbar.keys.length = 3 := by decide
  obtain ⟨-, -, honce, -, hserved⟩ := arbitration_fair .udpPort 4 before after 8 hwaiting
  exact ⟨hwaiting, hwon, hopenings, honce, hserved (hkeys.trans hopenings.symm).le⟩

end History
end NetBoard.Crossbar
