/-
  NetBoard.Proofs.Udp.Opening
  ───────────────────────────
  **OPENING PORTS, AND FAILING TO.**

  The opening of a port makes three checks: of the user's width, of the port,
  and of the layer's own width.  The first two leave no trace when they fail.
  The last one fails after the port was registered, for a layer that was made
  with a width no bus has, and there the port stays taken without a user.

  Main definitions:

      granted  — the calls of a sequence that succeed
      Booked   — what a layer knows of the ports that were opened

  Main statements:

      Booked.openPort       — one call adds the port, or nothing
      booked_opened         — over every sequence of calls
      ports_opened_or_kept  — which calls succeed, and what the others leave
-/
import NetBoard.Proofs.Udp.Bridges

namespace NetBoard.Udp.Layer

variable {l : Layer} {width : Nat} {ports : List (UInt16 × Nat)}

/-! ## §1. Calls that succeed. -/

/-- The calls that succeed, of a sequence of calls. -/
def granted (l : Layer) : List (UInt16 × Nat) → List (UInt16 × Nat)
  | [] => []
  | call :: calls =>
    let o := l.openPort call.1 call.2
    if o.fault = none then call :: o.layer.granted calls else o.layer.granted calls

/-- **What a layer knows of the ports that were opened.**  Its crossbar may know more
ports only if the layer's own width is not supported. -/
structure Booked (l : Layer) (own : Nat) (ports : List (UInt16 × Nat)) : Prop where
  width : l.width = own
  kind : l.crossbar.kind = .udpPort
  widths : l.widths = ports
  keys : SupportedWidth own → l.crossbar.keys = ports.map (·.1)

theorem booked_make (width depth : Nat) : (make width depth).Booked width [] :=
  ⟨rfl, rfl, rfl, fun _ => rfl⟩

/-- **One call adds the port, or nothing.** -/
theorem Booked.openPort (hl : l.Booked width ports) (call : UInt16 × Nat) :
    (l.openPort call.1 call.2).layer.Booked width
      (ports ++ if (l.openPort call.1 call.2).fault = none then [call] else []) := by
  have hopens := l.openPort_opens call.1 call.2
  generalize l.openPort call.1 call.2 = o at hopens
  cases hopens with
  | unfit | taken =>
    rw [if_neg nofun, List.append_nil]
    exact hl
  | stranded _ hown hregister =>
    -- the crossbar has one more port, which only a layer of no supported width can have
    rw [if_neg nofun, List.append_nil]
    have hkind := (Crossbar.kind_register hregister).trans hl.kind
    have hgone := (Crossbar.kind_abandon _ call.1).trans hkind
    exact ⟨hl.width, hgone, hl.widths, fun hw => absurd (hl.width ▸ hw) hown⟩
  | joined _ _ hregister =>
    rw [if_pos rfl]
    refine ⟨hl.width, (Crossbar.kind_register hregister).trans hl.kind, ?_, fun hw => ?_⟩
    · rw [← hl.widths]
      exact List.map_append
    · rw [List.map_append, ← hl.keys hw]
      exact (Crossbar.keys_register hregister).1

/-- **Over every sequence of calls** the ports are those of the calls that succeed. -/
theorem Booked.openAll (hl : l.Booked width ports) (calls : List (UInt16 × Nat)) :
    (l.openAll calls).Booked width (ports ++ l.granted calls) := by
  -- from the first call on, so that the calls after it start with its layer
  induction calls generalizing l ports with
  | nil =>
    rw [granted, List.append_nil]
    exact hl
  | cons call calls ih =>
    have hrest := ih (hl.openPort call)
    rw [granted]
    by_cases hopened : (l.openPort call.1 call.2).fault = none
    · rw [if_pos hopened, List.append_assoc] at hrest
      rw [if_pos hopened]
      exact hrest
    · rw [if_neg hopened, List.append_nil] at hrest
      rw [if_neg hopened]
      exact hrest

theorem booked_opened (width depth : Nat) (calls : List (UInt16 × Nat)) :
    (opened width depth calls).Booked width ((make width depth).granted calls) :=
  (booked_make width depth).openAll calls

/-! ## §2. The law. -/

/-- **A port is opened, or nothing has happened**, after every sequence of calls.

The ports that the layer lists are those of the calls that succeeded, in order.  A call
succeeds exactly if the user's width and the layer's own are supported and no call before it
has opened the port.  One that fails leaves the layer as it was, so that a valid one that
follows is not told that the port is taken; this leaves out the failure for the layer's own
width. -/
theorem ports_opened_or_kept (width depth : Nat) (calls : List (UInt16 × Nat)) :
    (opened width depth calls).widths = (make width depth).granted calls ∧
    ∀ (port : UInt16) (user : Nat),
      let l := opened width depth calls
      let earlier := ((make width depth).granted calls).map (·.1)
      let o := l.openPort port user
      (o.fault = none ↔ SupportedWidth user ∧ SupportedWidth width ∧ port ∉ earlier) ∧
      (∀ fault, o.fault = some fault →
        ¬(SupportedWidth user ∧ fault = .unsupportedWidth width) →
        o.layer = l ∧ (fault = .unsupportedWidth user ∨ fault = .portTaken port)) ∧
      (SupportedWidth width → o.fault = some (.portTaken port) → port ∈ earlier) := by
  have hl := booked_opened width depth calls
  refine ⟨hl.widths, fun port user => ?_⟩
  have hopens := (opened width depth calls).openPort_opens port user
  dsimp only
  -- only what is booked of the layer matters from here
  generalize opened width depth calls = l at hl hopens ⊢
  generalize l.openPort port user = o at hopens ⊢
  cases hopens with
  | unfit hunfit =>
    refine ⟨⟨nofun, fun h => absurd h.1 hunfit⟩, ?_, nofun⟩
    rintro _ ⟨⟩ -
    exact ⟨rfl, .inl rfl⟩
  | taken huser hmem =>
    refine ⟨⟨nofun, fun h => ?_⟩, ?_, fun hw _ => hl.keys hw ▸ hmem⟩
    · obtain ⟨-, hw, hfree⟩ := h
      exact absurd (hl.keys hw ▸ hmem) hfree
    · rintro _ ⟨⟩ -
      rw [hl.kind]
      exact ⟨rfl, .inr rfl⟩
  | stranded huser hown _ =>
    refine ⟨⟨nofun, fun h => absurd (hl.width.symm ▸ h.2.1) hown⟩, ?_, nofun⟩
    rintro _ ⟨⟩ hother
    exact absurd ⟨huser, congrArg Fault.unsupportedWidth hl.width⟩ hother
  | joined huser hown hregister =>
    have hw : SupportedWidth width := hl.width ▸ hown
    refine ⟨⟨fun _ => ⟨huser, hw, ?_⟩, fun _ => rfl⟩, nofun, nofun⟩
    rw [← hl.keys hw]
    exact (Crossbar.keys_register hregister).2

/-- A layer of three lanes: the port is registered before the layer's own width is looked
at, no user is there, and the next call is told that the port is taken. -/
theorem port_stranded :
    let l := make 3 64
    let first := l.openPort 80 4
    let second := first.layer.openPort 80 4
    SupportedWidth 4 ∧ first.fault = some (.unsupportedWidth 3) ∧ first.layer ≠ l ∧
      first.layer.crossbar.keys = [80] ∧ first.layer.widths = [] ∧
      second.fault = some (.portTaken 80) := by
  refine ⟨.inr (.inr (.inl rfl)), ?_, ?_, ?_, ?_, ?_⟩ <;> decide

end NetBoard.Udp.Layer
