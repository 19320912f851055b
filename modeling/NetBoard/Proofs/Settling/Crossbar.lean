/-
  NetBoard.Proofs.Settling.Crossbar
  ─────────────────────────────────
  **A CROSSBAR SETTLES.**

  What a crossbar dispatches goes on to a subscriber or is dropped, and what it
  arbitrates goes on to the layer.  It can move one record that it held without
  a word about it; but that makes no other record ready, so the next step does
  nothing at all.

  Main definitions:

      Crossing            — the places of a crossbar
      Crossbar.load       — what waits in it
      Crossbar.Stuck      — reception can do nothing

  Main statements:

      sum_replaceKeyed     — replacing one part of a list of parts
      load_setLink        — what waits in one subscriber's pipes, and the rest
      step_settles        — a step spends, and settles
-/
import Mathlib.Tactic.Abel
import NetBoard.Proofs.Crossbar.Conservation
import NetBoard.Proofs.Settling.Load

namespace NetBoard

open Load Outcome

/-! ## §1. One part among others. -/

section Replace

variable {β γ : Type} {key : β → UInt16} {put : β → γ → β} {k : UInt16} {b : β} {xs : List β}

/-- The parts, with that of a key replaced. -/
def replaceKeyed (key : β → UInt16) (put : β → γ → β) (k : UInt16) (u : γ) (xs : List β) : List β :=
  xs.map fun b => if key b == k then put b u else b

/-- A key that is not there replaces nothing. -/
theorem replaceKeyed_of_notMem (h : k ∉ xs.map key) (u : γ) : replaceKeyed key put k u xs = xs := by
  refine (List.map_congr_left fun b hb => ?_).trans (List.map_id xs)
  have hne : key b ≠ k := fun heq => h (heq ▸ List.mem_map_of_mem hb)
  rw [if_neg (by simpa using hne)]
  rfl

/-- Putting back what is there changes nothing. -/
theorem replaceKeyed_self (hkeys : (xs.map key).Nodup) (hfind : xs.find? (key · == k) = some b)
    {u : γ} (hput : put b u = b) : replaceKeyed key put k u xs = xs := by
  refine (List.map_congr_left fun c hc => ?_).trans (List.map_id xs)
  split
  · next hkey =>
    have hb : key b = k := by simpa using List.find?_some hfind
    have hsame : key c = key b := (by simpa using hkey : key c = k).trans hb.symm
    rw [List.inj_on_of_nodup_map hkeys hc (List.mem_of_find?_eq_some hfind) hsame]
    exact hput
  · rfl

/-- The load of the parts is that of the one that is replaced, and a rest. -/
theorem sum_replaceKeyed (weight : β → Load) (part : γ → Load) (remainder : β → Load)
    (hweight : ∀ b u, weight (put b u) = remainder b + part u) (hkeys : (xs.map key).Nodup)
    (hfind : xs.find? (key · == k) = some b) :
    ∃ rest, ∀ u, ((replaceKeyed key put k u xs).map weight).sum = rest + part u := by
  induction xs with
  | nil => cases hfind
  | cons c xs ih =>
    rw [List.map_cons, List.nodup_cons] at hkeys
    cases hkey : key c == k with
    | true =>
      have hc : key c = k := by simpa using hkey
      refine ⟨remainder c + (xs.map weight).sum, fun u => ?_⟩
      show ((if key c == k then put c u else c) :: replaceKeyed key put k u xs |>.map weight).sum =
        _
      rw [replaceKeyed_of_notMem (hc ▸ hkeys.1), hkey, if_pos rfl, List.map_cons, List.sum_cons,
        hweight]
      exact add_right_comm _ _ _
    | false =>
      rw [List.find?_cons, hkey] at hfind
      obtain ⟨rest, hrest⟩ := ih hkeys.2 hfind
      refine ⟨weight c + rest, fun u => ?_⟩
      show ((if key c == k then put c u else c) :: replaceKeyed key put k u xs |>.map weight).sum =
        _
      rw [hkey, if_neg Bool.false_ne_true, List.map_cons, List.sum_cons, hrest, add_assoc]

end Replace

/-! ## §2. What waits in a crossbar. -/

/-- The places of a crossbar: received records, given to subscribers, asked of
them, and arbitrated. -/
structure Crossing where
  inbox : Place
  given : Place
  asked : Place
  outbox : Place
  inbox_given : inbox < given
  inbox_asked : inbox < asked
  asked_outbox : asked < outbox

variable {α : Type}

/-- What waits in the pipes of a subscriber. -/
def Link.load (given asked : Place) (l : Link α) : Load :=
  l.inbound.load given + l.outbound.load asked

namespace Crossing

/-- What waits in the pipes of all subscribers. -/
def ports (c : Crossing) (ports : List (Crossbar.Port α)) : Load :=
  (ports.map fun p => p.link.load c.given c.asked).sum

/-- All of it waits after the inbox. -/
theorem upTo_ports (c : Crossing) {j : Place} (hgiven : j < c.given) (hasked : j < c.asked)
    (ps qs : List (Crossbar.Port α)) : UpTo j (c.ports ps) (c.ports qs) := by
  have hnone : ∀ ps : List (Crossbar.Port α), ∀ i ≤ j, (c.ports ps).amount i = 0 := by
    intro ps i hi
    induction ps with
    | nil => rfl
    | cons p ps ih =>
      show (p.link.inbound.load c.given).amount i + (p.link.outbound.load c.asked).amount i +
        (c.ports ps).amount i = 0
      rw [ih, Pipe.load, Pipe.load, amount_pile_of_ne (hi.trans_lt hgiven).ne,
        amount_pile_of_ne (hi.trans_lt hasked).ne]
  intro i hi
  rw [hnone ps i hi]
  exact Nat.zero_le _

end Crossing

namespace Crossbar

/-- What waits in a crossbar and in its layer's hold before the inbox. -/
def load (c : Crossing) (held : Option α) (xb : Crossbar α) : Load :=
  lane c.inbox held xb.inbox + hold c.given xb.heldIn + c.ports xb.ports +
    lane c.outbox xb.heldOut xb.outbox

variable {c : Crossing} {held : Option α} {xb : Crossbar α} {key : UInt16} {old : Link α}

/-- A record leaves the outbox. -/
theorem load_outbox_less (c : Crossing) (held : Option α) {item : α} {outbox : Pipe α}
    (h : xb.outbox.take = some (item, outbox)) :
    Less c.outbox (load c held { xb with outbox }) (xb.load c held) :=
  UpTo.refl.less (lane_take_less _ h)

/-- The layer's hold and the inbox come closer to their end. -/
theorem load_inbox_less {left : Option α} {inbox : Pipe α}
    (h : Less c.inbox (lane c.inbox left inbox) (lane c.inbox held xb.inbox)) :
    Less c.inbox (load c left { xb with inbox }) (xb.load c held) :=
  ((h.add .refl).add .refl).add .refl

/-- Before the inbox it does not count what is in it. -/
theorem load_inbox_upTo {j : Place} (h : j < c.inbox) {left : Option α} {inbox : Pipe α} :
    UpTo j (load c left { xb with inbox }) (xb.load c held) :=
  (((UpTo.later h _ _).add .refl).add .refl).add .refl

/-- Putting back a subscriber's pipes changes nothing. -/
theorem setLink_self (hkeys : xb.keys.Nodup) (h : xb.link? key = some old) :
    xb.setLink key old = xb := by
  obtain ⟨port, hfind, rfl⟩ := Option.map_eq_some_iff.1 h
  show { xb with
    ports := replaceKeyed (·.key) (fun p link => { p with link }) key port.link xb.ports } = xb
  rw [replaceKeyed_self hkeys hfind rfl]

/-- What waits in the pipes of one subscriber, and in those of the others. -/
theorem ports_setLink (c : Crossing) (hkeys : xb.keys.Nodup) (h : xb.link? key = some old) :
    ∃ rest, ∀ link : Link α,
      c.ports (xb.setLink key link).ports = rest + link.load c.given c.asked := by
  obtain ⟨port, hfind, rfl⟩ := Option.map_eq_some_iff.1 h
  exact sum_replaceKeyed (fun p : Port α => p.link.load c.given c.asked)
    (fun link : Link α => link.load c.given c.asked) (fun _ => 0) (fun _ _ => (zero_add _).symm)
    hkeys hfind

/-- What waits in the pipes of one subscriber, and in the rest of the crossbar. -/
theorem load_setLink (c : Crossing) (held : Option α) (hkeys : xb.keys.Nodup)
    (h : xb.link? key = some old) :
    ∃ rest, ∀ link : Link α,
      (xb.setLink key link).load c held = rest + link.load c.given c.asked := by
  obtain ⟨rest, hrest⟩ := ports_setLink c hkeys h
  refine ⟨lane c.inbox held xb.inbox + hold c.given xb.heldIn + rest +
    lane c.outbox xb.heldOut xb.outbox, fun link => ?_⟩
  show lane c.inbox held xb.inbox + hold c.given xb.heldIn + c.ports (xb.setLink key link).ports +
    lane c.outbox xb.heldOut xb.outbox = _
  rw [hrest]
  abel

/-- What waits for one subscriber, in its pipe and before it, and in the rest of the crossbar. -/
theorem load_given (c : Crossing) (held : Option α) (hkeys : xb.keys.Nodup)
    (h : xb.link? key = some old) :
    ∃ rest, ∀ heldIn inbound,
      load c held { xb.setLink key { old with inbound } with heldIn } =
        rest + lane c.given heldIn inbound := by
  obtain ⟨rest, hrest⟩ := ports_setLink c hkeys h
  refine ⟨lane c.inbox held xb.inbox + rest + old.outbound.load c.asked +
    lane c.outbox xb.heldOut xb.outbox, fun heldIn inbound => ?_⟩
  show lane c.inbox held xb.inbox + hold c.given heldIn +
    c.ports (xb.setLink key { old with inbound }).ports + lane c.outbox xb.heldOut xb.outbox = _
  rw [hrest, lane_eq c.given, Link.load]
  abel

/-- The subscribers have these keys, and no two of them the same. -/
structure Registered (keys : List UInt16) (xb : Crossbar α) : Prop where
  keys_eq : xb.keys = keys
  nodup : keys.Nodup

variable {keys : List UInt16}

theorem keys_abandon (xb : Crossbar α) (key : UInt16) : (xb.abandon key).keys = xb.keys := by
  unfold abandon
  cases xb.link? key with
  | none => rfl
  | some link => exact keys_setLink xb key link.abandon

theorem Registered.distinct (hx : Registered keys xb) : xb.keys.Nodup := hx.keys_eq ▸ hx.nodup

/-! ## §3. Transmission. -/

theorem arbitrateNext_pays (hx : Registered keys xb) :
    Pays (Registered keys) (load c held) xb xb.arbitrateNext := by
  rcases arbitrateNext_eq hx.distinct with
    ⟨-, hidle⟩ | ⟨i, old, item, outbound, -, hold, htake, hserve⟩
  · rw [hidle]
    exact .idle hx
  · have hlink : xb.link? old.key = some old.link := link?_of_getElem? hx.distinct hold
    -- the record waited with its subscriber, and all else that changes is later
    obtain ⟨rest, hrest⟩ := ports_setLink c hx.distinct hlink
    have hports : c.ports xb.ports = rest + old.link.load c.given c.asked := by
      rw [← hrest, setLink_self hx.distinct hlink]
    have hasked : Less c.asked (c.ports (xb.serve i old item outbound).ports) (c.ports xb.ports) := by
      show Less c.asked (c.ports (xb.setLink old.key { old.link with outbound }).ports) _
      rw [hrest, hports]
      exact UpTo.refl.less (UpTo.refl.less (take_less htake))
    rw [hserve]
    refine .moved ⟨(keys_setLink xb _ _).trans hx.keys_eq, hx.nodup⟩ ?_
    exact ((UpTo.refl.less hasked).add (.later c.asked_outbox _ _)).lt

/-- The release brings what was held closer to its end. -/
theorem load_released_le (c : Crossing) (held : Option α) (xb : Crossbar α) :
    xb.released.load c held ≤ xb.load c held := by
  have hlane : lane c.outbox (flush xb.heldOut xb.outbox).2.1 (flush xb.heldOut xb.outbox).2.2 ≤
      lane c.outbox xb.heldOut xb.outbox := by
    cases xb.heldOut with
    | none => exact le_rfl
    | some item =>
      rcases flush_cases item xb.outbox with hkept | ⟨outbox, hleft⟩
      · rw [hkept]
      · rw [hleft]
        exact (lane_flush_less hleft).lt.le
  exact add_le_add_right hlane _

/-- Transmission can do nothing: no subscriber has a record, or there is no room
for the one that is held. -/
theorem arbitrate_spends (c : Crossing) (held : Option α) (hx : Registered keys xb) :
    Spends (Registered keys) (load c held) xb xb.arbitrate ∧
      (xb.arbitrate.progress = false →
        xb.arbitrate.state.arbitrate = .idle xb.arbitrate.state ∧
        xb.arbitrate.state.ports = xb.ports ∧ xb.arbitrate.state.inbox = xb.inbox ∧
        xb.arbitrate.state.heldIn = xb.heldIn) := by
  rcases arbitrate_eq xb with ⟨-, -, hsame⟩ | ⟨hfree, hnext⟩
  · rw [hsame]
    exact ⟨(Pays.idle hx).toSpends, fun _ => ⟨hsame, rfl, rfl, rfl⟩⟩
  · have hle := load_released_le c held xb
    have hpays : Pays (Registered keys) (load c held) xb.released xb.released.arbitrateNext :=
      arbitrateNext_pays ⟨hx.keys_eq, hx.nodup⟩
    rw [hnext]
    refine ⟨⟨hpays.kept, hpays.le.trans hle, fun h => (hpays.lt h).trans_le hle⟩, fun hidle => ?_⟩
    -- the held record has left without a word, but no other one was ready
    have hsame : xb.released.arbitrateNext = .idle xb.released := hpays.honest hidle
    have hagain : xb.released.arbitrate = xb.released.arbitrateNext := by
      unfold arbitrate
      rw [hfree]
    rw [hsame]
    exact ⟨hagain.trans hsame, rfl, rfl, rfl⟩

/-! ## §4. Reception. -/

variable [Keyed α]

theorem keys_deliver (xb : Crossbar α) (item : α) : (xb.deliver item).state.keys = xb.keys := by
  unfold deliver
  dsimp only
  cases xb.link? (Keyed.key item) with
  | none => rfl
  | some link => exact keys_setLink xb _ _

theorem progress_deliver (xb : Crossbar α) (item : α) : (xb.deliver item).progress = true := by
  unfold deliver
  dsimp only
  cases xb.link? (Keyed.key item) <;> rfl

/-- A delivered record waits in a later place than the inbox, or nowhere. -/
theorem deliver_upTo (c : Crossing) (held : Option α) (xb : Crossbar α) (item : α) :
    UpTo c.inbox ((xb.deliver item).state.load c held) (xb.load c held) := by
  unfold deliver
  dsimp only
  cases xb.link? (Keyed.key item) with
  | none => exact .refl
  | some link =>
    exact ((UpTo.refl.add (.later c.inbox_given _ _)).add
      (c.upTo_ports c.inbox_given c.inbox_asked _ _)).add .refl

theorem dispatchNext_pays (hx : Registered keys xb) :
    Pays (Registered keys) (load c held) xb xb.dispatchNext := by
  unfold dispatchNext
  cases htake : xb.inbox.take with
  | none => exact .idle hx
  | some taken =>
    obtain ⟨item, inbox⟩ := taken
    let rest : Crossbar α := { xb with inbox }
    have hupTo := deliver_upTo c held rest item
    have hless : Less c.inbox (rest.load c held) (xb.load c held) :=
      (((lane_take_less held htake).add .refl).add .refl).add .refl
    have hlt : (rest.deliver item).state.load c held < xb.load c held :=
      (hupTo.trans_less hless).lt
    refine ⟨⟨?_, hlt.le, fun _ => hlt⟩, fun hidle => ?_⟩
    · exact ⟨(keys_deliver rest item).trans hx.keys_eq, hx.nodup⟩
    · rw [progress_deliver] at hidle
      cases hidle

/-- Reception can do nothing: there is no record, or no room for the one that is held. -/
def Stuck (xb : Crossbar α) : Prop :=
  match xb.heldIn with
  | none => xb.inbox.take = none
  | some item => ∃ link, xb.link? (Keyed.key item) = some link ∧
      flush (some item) link.inbound = (false, some item, link.inbound)

theorem Stuck.dispatch (h : xb.Stuck) : xb.dispatch = .idle xb := by
  unfold Stuck at h
  unfold Crossbar.dispatch
  cases hheld : xb.heldIn with
  | none =>
    rw [hheld] at h
    unfold dispatchNext
    rw [h]
  | some item =>
    rw [hheld] at h
    obtain ⟨link, hlink, hfull⟩ := h
    dsimp only
    rw [hlink]
    dsimp only
    rw [hfull]

/-- With nothing held, no progress means that there is no record. -/
theorem stuck_of_dispatchNext (hheld : xb.heldIn = none) (hidle : xb.dispatchNext.progress = false) :
    xb.dispatchNext = .idle xb ∧ xb.Stuck := by
  cases htake : xb.inbox.take with
  | none =>
    have hsame : xb.dispatchNext = .idle xb := by
      unfold dispatchNext
      rw [htake]
    refine ⟨hsame, ?_⟩
    unfold Stuck
    rw [hheld]
    exact htake
  | some taken =>
    have hprogress : xb.dispatchNext.progress = true := by
      unfold dispatchNext
      rw [htake]
      exact progress_deliver _ _
    rw [hprogress] at hidle
    cases hidle

/-- A held record that gets into the pipe of its subscriber is closer to its end. -/
theorem load_given_lt (c : Crossing) (held : Option α) (hx : xb.keys.Nodup) {item : α}
    {link : Link α} (hheld : xb.heldIn = some item)
    (hlink : xb.link? (Keyed.key item) = some link) {heldIn : Option α} {inbound : Pipe α}
    (hflush : flush (some item) link.inbound = (true, heldIn, inbound)) :
    load c held { xb.setLink (Keyed.key item) { link with inbound } with heldIn } <
      xb.load c held := by
  obtain ⟨rest, hrest⟩ := load_given c held hx hlink
  have hsame : { xb.setLink (Keyed.key item) { link with inbound := link.inbound } with
      heldIn := some item } = xb := by
    rw [← hheld]
    exact setLink_self hx hlink
  have hbefore := hrest (some item) link.inbound
  rw [hsame] at hbefore
  rw [hbefore]
  exact (hrest heldIn inbound).trans_lt (UpTo.refl.less (lane_flush_less hflush)).lt

/-- Reception keeps the keys and never adds to the load; without progress it is stuck. -/
theorem dispatch_spends (c : Crossing) (held : Option α) (hx : Registered keys xb) :
    Spends (Registered keys) (load c held) xb xb.dispatch ∧
      (xb.dispatch.progress = false → xb.dispatch.state.Stuck ∧
        xb.dispatch.state.ports = xb.ports) := by
  unfold dispatch
  cases hheld : xb.heldIn with
  | none =>
    refine ⟨(dispatchNext_pays ⟨hx.keys_eq, hx.nodup⟩).toSpends, fun hidle => ?_⟩
    obtain ⟨hsame, hstuck⟩ := stuck_of_dispatchNext hheld hidle
    dsimp only at hidle ⊢
    rw [hsame]
    exact ⟨hstuck, rfl⟩
  | some item =>
    dsimp only
    cases hlink : xb.link? (Keyed.key item) with
    | none =>
      -- a record for nobody is forgotten without a word
      let freed : Crossbar α := { xb with heldIn := none }
      have hfreed : freed.load c held ≤ xb.load c held := by
        refine add_le_add_left (add_le_add_left (add_le_add_right ?_ _) _) _
        show pile c.given 0 ≤ hold c.given xb.heldIn
        rw [hheld]
        exact (Less.pile Nat.two_pos).lt.le
      have hpays : Pays (Registered keys) (load c held) freed freed.dispatchNext :=
        dispatchNext_pays ⟨hx.keys_eq, hx.nodup⟩
      refine ⟨⟨hpays.kept, hpays.le.trans hfreed, fun h => (hpays.lt h).trans_le hfreed⟩,
        fun hidle => ?_⟩
      obtain ⟨hsame, hstuck⟩ := stuck_of_dispatchNext (show freed.heldIn = none from rfl) hidle
      show freed.dispatchNext.state.Stuck ∧ freed.dispatchNext.state.ports = _
      rw [hsame]
      exact ⟨hstuck, rfl⟩
    | some link =>
      dsimp only
      generalize hflush : flush (some item) link.inbound = flushed
      obtain ⟨done, heldIn, inbound⟩ := flushed
      cases done with
      | false =>
        refine ⟨(Pays.idle hx).toSpends, fun _ => ⟨?_, rfl⟩⟩
        show xb.Stuck
        unfold Stuck
        rw [hheld]
        obtain ⟨rfl, rfl⟩ := flush_kept hflush
        exact ⟨link, hlink, hflush⟩
      | true =>
        let given : Crossbar α := { xb.setLink (Keyed.key item) { link with inbound } with heldIn }
        have hgiven : Registered keys given :=
          ⟨(keys_setLink xb _ _).trans hx.keys_eq, hx.nodup⟩
        have hlt : given.load c held < xb.load c held :=
          load_given_lt c held hx.distinct hheld hlink hflush
        refine ⟨((Pays.moved hgiven hlt).andThen fun _ h => dispatchNext_pays h).toSpends, ?_⟩
        intro hidle
        cases hidle

/-! ## §5. Steps. -/

/-- **A step of a crossbar settles.** -/
theorem step_settles (c : Crossing) (held : Option α) (hx : Registered keys xb) :
    Settles (Registered keys) (load c held) step xb where
  toSpends := (dispatch_spends c held hx).1.andThen fun _ ht => (arbitrate_spends c held ht).1
  settled hidle := by
    obtain ⟨hfirst, hsecond⟩ := Bool.or_eq_false_iff.1 hidle
    obtain ⟨hspends, hdispatch⟩ := dispatch_spends c held hx
    obtain ⟨hstuck, -⟩ := hdispatch hfirst
    obtain ⟨harbitrate, hports, hinbox, hheld⟩ :=
      (arbitrate_spends c held hspends.kept).2 hsecond
    -- what arbitration has moved is not what reception waits for
    have hstill : xb.dispatch.state.arbitrate.state.Stuck := by
      unfold Stuck link? at hstuck ⊢
      rw [hports, hinbox, hheld]
      exact hstuck
    exact andThen_idle hstill.dispatch harbitrate

/-- Without progress the subscribers' pipes are as they were. -/
theorem ports_step_of_idle (hx : Registered keys xb) (hidle : xb.step.progress = false) :
    xb.step.state.ports = xb.ports := by
  obtain ⟨hfirst, hsecond⟩ := Bool.or_eq_false_iff.1 hidle
  let c : Crossing := ⟨.macInbox, .macGiven, .macAsked, .macOutbox, by decide, by decide, by decide⟩
  obtain ⟨hspends, hdispatch⟩ := dispatch_spends c none hx
  obtain ⟨-, hports⟩ := hdispatch hfirst
  obtain ⟨-, hports', -⟩ := (arbitrate_spends c none hspends.kept).2 hsecond
  exact hports'.trans hports

end Crossbar
end NetBoard
