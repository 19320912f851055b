/-
  NetBoard.Proofs.Datapath.Oblivious
  ──────────────────────────────────
  **WHAT DOES NOT DEPEND ON THE DATAPATH.**

  A layer works on octets; only its stages work on bus words.  A step is
  oblivious of the datapath when it does the same whatever stages the layer
  has: it makes the same progress, logs the same lines and leaves the same
  state, but for the stages, which have handled a packet more.  Steps that are
  oblivious stay so when they are put together.

  Main definitions:

      Stages              — the stages of a header, formed for a supported width
      Outcome.Alike       — an outcome that is the same on every datapath
      Outcome.Oblivious   — a step with such an outcome from every state
      Outcome.afterHeld   — what is held goes first

  Main statements:

      Stages.packetize, Stages.depacketize
                          — the octets have no part of the width
      Alike.andThen, Alike.map, Oblivious.afterHeld
                          — oblivious parts make an oblivious whole
-/
import NetBoard.Outcome
import NetBoard.Pipe
import NetBoard.Proofs.Header.Stages

namespace NetBoard

/-! ## §1. Stages. -/

/-- A width that the bus supports. -/
abbrev BusWidth := { width : Nat // SupportedWidth width }

/-- What follows the header in some octets, and what the header says; none if
they end inside it. -/
def Header.split (h : Header) (bs : Bytes) : Option (Fields × Bytes) :=
  if bs.length < h.length then none
  else some (h.decode (bs.take h.length), bs.drop h.length)

/-- One stage puts the header before what is sent, the other takes it off what
is received, each on a bus of a supported width. -/
structure Stages (h : Header) where
  packetizer : Packetizer
  depacketizer : Depacketizer
  writes : packetizer.Writes h
  reads : depacketizer.Reads h

namespace Stages

variable {h : Header}

/-- Stages that have not handled a packet yet. -/
def make (h : Header) (width : BusWidth) : Stages h where
  packetizer := { header := h, width }
  depacketizer := { format := h, width }
  writes := ⟨rfl, width.2⟩
  reads := ⟨rfl, width.2⟩

/-- The stages after a packet has been sent. -/
def sent (d : Stages h) (hs : h.Sound) (values : Fields) (payload : Bytes) : Stages h :=
  { d with
    packetizer := (d.packetizer.packetize values payload).1
    writes := d.writes.next hs values payload }

/-- The stages after a packet has been received. -/
def received (d : Stages h) (hpos : 0 < h.length) (bs : Bytes) : Stages h :=
  { d with
    depacketizer := (d.depacketizer.depacketize bs).1
    reads := d.reads.next hpos bs }

theorem packetize (d : Stages h) (hs : h.Sound) (values : Fields) (payload : Bytes) :
    d.packetizer.packetize values payload =
      ((d.sent hs values payload).packetizer, h.encode values ++ payload) :=
  Prod.ext rfl (d.writes.octets hs values payload)

theorem depacketize (d : Stages h) (hpos : 0 < h.length) (bs : Bytes) :
    d.depacketizer.depacketize bs = ((d.received hpos bs).depacketizer, h.split bs) :=
  Prod.ext rfl (d.reads.packet hpos bs)

end Stages

/-! ## §2. Oblivious steps. -/

namespace Outcome

variable {σ τ δ ε : Type} {on : σ → δ → σ} {onτ : τ → ε → τ} {f g : σ → Outcome σ}

theorem andThen_assoc (o : Outcome σ) (f g : σ → Outcome σ) :
    (o.andThen f).andThen g = o.andThen fun s => (f s).andThen g := by
  simp only [andThen, Bool.or_assoc, List.append_assoc]

/-- The outcome is the same on every datapath; `on` puts a state on one. -/
def Alike (on : σ → δ → σ) (o : δ → Outcome σ) : Prop :=
  ∃ plain : Outcome σ, ∀ d, ∃ next, o d = plain.map (on · next)

/-- From every state the outcome is the same on every datapath. -/
def Oblivious (on : σ → δ → σ) (f : σ → Outcome σ) : Prop :=
  ∀ s, Alike on fun d => f (on s d)

theorem Alike.idle (s : σ) : Alike on fun d => .idle (on s d) := ⟨.idle s, fun d => ⟨d, rfl⟩⟩

theorem Alike.moved (s : σ) (log : List Log.Line) (next : δ → δ) :
    Alike on fun d => .moved (on s (next d)) log :=
  ⟨.moved s log, fun d => ⟨next d, rfl⟩⟩

/-- The same outcome, with a datapath on the way. -/
theorem Alike.reached {o p : δ → Outcome σ} (ho : Alike on o) (h : ∀ d, ∃ between, p d = o between) :
    Alike on p := by
  obtain ⟨plain, hplain⟩ := ho
  refine ⟨plain, fun d => ?_⟩
  obtain ⟨between, hbetween⟩ := h d
  obtain ⟨next, hnext⟩ := hplain between
  exact ⟨next, hbetween.trans hnext⟩

/-- A part that leaves the datapath alone. -/
theorem Alike.still (plain : Outcome σ) : Alike on fun d => plain.map (on · d) :=
  ⟨plain, fun d => ⟨d, rfl⟩⟩

theorem Alike.andThen {o : δ → Outcome σ} (ho : Alike on o) (hf : Oblivious on f) :
    Alike on fun d => (o d).andThen f := by
  obtain ⟨first, hfirst⟩ := ho
  obtain ⟨second, hsecond⟩ := hf first.state
  refine ⟨first.andThen fun _ => second, fun d => ?_⟩
  obtain ⟨between, hbetween⟩ := hfirst d
  obtain ⟨next, hnext⟩ := hsecond between
  refine ⟨next, ?_⟩
  show (o d).andThen f = _
  dsimp only at hnext
  rw [hbetween]
  unfold Outcome.andThen
  rw [state_map, hnext]
  rfl

theorem Oblivious.andThen (hf : Oblivious on f) (hg : Oblivious on g) :
    Oblivious on fun s => (f s).andThen g :=
  fun s => (hf s).andThen hg

/-- The same part, as one of a larger state on a larger datapath: `part` is what
the part sees of it, and `put` what it leaves of it. -/
theorem Alike.map {o : δ → Outcome σ} (ho : Alike on o) (part : ε → δ) (put : ε → δ → ε)
    (whole : σ → τ) {fill : ε → σ → τ} (h : ∀ e s d, fill e (on s d) = onτ (whole s) (put e d)) :
    Alike onτ fun e => (o (part e)).map (fill e) := by
  obtain ⟨plain, hplain⟩ := ho
  refine ⟨plain.map whole, fun e => ?_⟩
  obtain ⟨next, hnext⟩ := hplain (part e)
  refine ⟨put e next, ?_⟩
  show (o (part e)).map (fill e) = _
  rw [hnext]
  unfold Outcome.map
  rw [h]

/-! ## §3. Held items. -/

/-- How every layer goes about an item it holds: it is sent first, and without
room for it nothing else is done. -/
def afterHeld {α : Type} (held : Option α) (p : Pipe α) (sent : Option α → Pipe α → σ)
    (f : σ → Outcome σ) (s : σ) : Outcome σ :=
  match held with
  | none => f s
  | some item =>
    match flush (some item) p with
    | (false, _, _) => .idle s
    | (true, left, q) => (moved (sent left q)).andThen f

theorem Oblivious.afterHeld {α : Type} (hf : Oblivious on f) (held : σ → Option α)
    (pipe : σ → Pipe α) (sent : σ → Option α → Pipe α → σ)
    (hg : ∀ s, g s = afterHeld (held s) (pipe s) (sent s) f s)
    (hheld : ∀ s d, held (on s d) = held s := by intros; rfl)
    (hpipe : ∀ s d, pipe (on s d) = pipe s := by intros; rfl)
    (hsent : ∀ s d x q, sent (on s d) x q = on (sent s x q) d := by intros; rfl) :
    Oblivious on g := by
  intro s
  suffices h : Alike on fun d =>
      Outcome.afterHeld (held s) (pipe s) (fun x q => on (sent s x q) d) f (on s d) by
    obtain ⟨plain, hplain⟩ := h
    refine ⟨plain, fun d => ?_⟩
    obtain ⟨next, hnext⟩ := hplain d
    refine ⟨next, ?_⟩
    show g (on s d) = _
    rw [hg, hheld, hpipe, funext fun x => funext fun q => hsent s d x q]
    exact hnext
  unfold Outcome.afterHeld
  cases held s with
  | none => exact hf s
  | some item =>
    dsimp only
    generalize flush (some item) (pipe s) = flushed
    obtain ⟨left, held, q⟩ := flushed
    cases left with
    | false => exact .idle s
    | true => exact (Alike.moved (sent s held q) [] id).andThen hf

/-! ## §4. Steps that leave the datapath as it is. -/

/-- The step does the same on every datapath, and is still on the same one after it. -/
def Steady (on : σ → δ → σ) (f : σ → Outcome σ) : Prop :=
  ∀ s d e, f (on s e) = (f (on s d)).map (on · e)

theorem Steady.andThen (hf : Steady on f) (hg : Steady on g) :
    Steady on fun s => (f s).andThen g := by
  intro s d e
  let first := f (on s d)
  -- so the state between the two steps is on the datapath too
  have hbetween : on first.state d = first.state := (congrArg Outcome.state (hf s d d)).symm
  have hsecond : g (on first.state e) = (g first.state).map (on · e) := by
    rw [hg first.state d e, hbetween]
  show (f (on s e)).andThen g = _
  rw [hf s d e]
  unfold Outcome.andThen
  rw [state_map, hsecond]
  rfl

theorem Steady.afterHeld {α : Type} (hf : Steady on f) (held : σ → Option α)
    (pipe : σ → Pipe α) (sent : σ → Option α → Pipe α → σ)
    (hg : ∀ s, g s = Outcome.afterHeld (held s) (pipe s) (sent s) f s)
    (hheld : ∀ s d, held (on s d) = held s := by intros; rfl)
    (hpipe : ∀ s d, pipe (on s d) = pipe s := by intros; rfl)
    (hsent : ∀ s d x q, sent (on s d) x q = on (sent s x q) d := by intros; rfl)
    (hlast : ∀ s d e, on (on s d) e = on s e := by intros; rfl) :
    Steady on g := by
  intro s d e
  have hon : ∀ d, g (on s d) =
      Outcome.afterHeld (held s) (pipe s) (fun x q => on (sent s x q) d) f (on s d) := by
    intro d
    rw [hg, hheld, hpipe, funext fun x => funext fun q => hsent s d x q]
  rw [hon, hon]
  unfold Outcome.afterHeld
  cases held s with
  | none => exact hf s d e
  | some item =>
    dsimp only
    generalize flush (some item) (pipe s) = flushed
    obtain ⟨left, held, q⟩ := flushed
    cases left with
    | false => exact congrArg Outcome.idle (hlast s d e).symm
    | true =>
      have hmoved : Steady on fun s => moved s := fun s d e =>
        congrArg moved (hlast s d e).symm
      exact hmoved.andThen hf (sent s held q) d e

end Outcome

/-! ## §5. Faults. -/

/-- What is built for a datapath is the same for every one: the same fault, or
the same thing put on the datapath. -/
def BuiltAlike {α δ : Type} (on : α → δ → α) (r : δ → Except Fault α) : Prop :=
  ∃ plain : Except Fault α, ∀ d, r d = plain.map (on · d)

namespace BuiltAlike

variable {α β δ : Type} {on : α → δ → α} {onβ : β → δ → β}

theorem ok (a : α) : BuiltAlike on fun d => .ok (on a d) := ⟨.ok a, fun _ => rfl⟩

theorem error (fault : Fault) : BuiltAlike on fun _ => .error fault := ⟨.error fault, fun _ => rfl⟩

theorem bind {r : δ → Except Fault α} (hr : BuiltAlike on r) {f : δ → α → Except Fault β}
    (hf : ∀ a, BuiltAlike onβ fun d => f d (on a d)) : BuiltAlike onβ fun d => r d >>= f d := by
  obtain ⟨plain, hplain⟩ := hr
  cases plain with
  | error fault =>
    refine ⟨.error fault, fun d => ?_⟩
    show r d >>= f d = _
    rw [hplain]
    rfl
  | ok a =>
    obtain ⟨next, hnext⟩ := hf a
    refine ⟨next, fun d => ?_⟩
    show r d >>= f d = _
    rw [hplain]
    exact hnext d

end BuiltAlike
end NetBoard
