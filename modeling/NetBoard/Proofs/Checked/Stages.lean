/-
  NetBoard.Proofs.Checked.Stages
  ──────────────────────────────
  **HEADERS ON AND OFF, CHECKED.**

  A field is read and written in a number of 128 bits, and a stage moves every
  payload word by the octets of the header that are left over.  A shift by the
  whole word would be one by all its lanes; it does not happen, as words are
  moved only where octets are left over.  That is the invariant of a packet on
  its way through a stage.

  Main definitions:

      Header.Proper                — no field is too wide, or lies outside
      Packetizer.Sending           — a packetizer within a packet
      Depacketizer.Receiving       — a depacketizer within a packet

  Main statements:

      Packetizer.Writes.packetize!_eq     — sending any payload
      Depacketizer.Reads.depacketize!_eq  — receiving any octets at all
-/
import NetBoard.Proofs.Checked.Beat

namespace NetBoard

open scoped Power

open Checked

/-! ## §1. Fields. -/

namespace Header

namespace Field

/-- One less than a shifted one. -/
def ones! (f : Field) : Checked Nat := do
  let n ← shift 128 f.width
  sub (1 <<< n) 1

/-- The number of the region is shifted down to the field and masked. -/
def read! (f : Field) (bs : Bytes) : Checked Nat := do
  let down ← shift 128 f.offset
  let ones ← f.ones!
  return ((f.region bs >>> down) &&& ones) % 2 ^ (64 : Nat)

/-- The bits below an octet of the region. -/
def below! (f : Field) (i : Nat) : Checked Nat := do
  shift 128 (8 * (← sub (← sub f.span 1) i))

/-- The value and the mask are shifted to the place of the field, and the
octets of the region shifted out again. -/
def write! (f : Field) (v : Nat) (bs : Bytes) : Checked Bytes := do
  let region ← slice bs f.byte (f.byte + f.span)
  discard f.ones!
  discard (shift 128 f.offset)
  region.zipIdx.forM fun (_, i) => discard (f.below! i)
  return f.write v bs

variable {f : Field} {bs : Bytes}

/-- A field of at most 64 bits has a mask. -/
theorem ones!_eq (h : f.width ≤ 64) : f.ones! = .ok (2 ^ f.width - 1) := by
  rw [ones!, shift_ok (by omega), ok_bind, Nat.one_shiftLeft, sub_ok (Nat.two_pow_pos _)]

/-- A field that begins below the last bit is read from any octets. -/
theorem read!_eq (h : f.width ≤ 64) (hoffset : f.offset < 128) (bs : Bytes) :
    f.read! bs = .ok (f.read bs) := by
  rw [read!, shift_ok hoffset, ok_bind, ones!_eq h, ok_bind, Nat.and_two_pow_sub_one_eq_mod]
  rfl

/-- A field inside of the octets is written with any value. -/
theorem write!_eq (h : f.Fits bs.length) (hoffset : f.offset < 128) (v : Nat) :
    f.write! v bs = .ok (f.write v bs) := by
  obtain ⟨hinside, hwidth, htop⟩ := h
  have hspan : f.span ≤ 16 := by
    unfold span
    omega
  have hoctets : ((bs.take (f.byte + f.span)).drop f.byte).zipIdx.forM
      (fun (_, i) => discard (f.below! i)) = .ok () := by
    refine forM_ok fun (b, i) hi => ?_
    obtain ⟨-, hlt, -⟩ := List.mem_zipIdx hi
    rw [List.length_drop, List.length_take] at hlt
    show discard (f.below! i) = _
    rw [below!, sub_ok (by omega), ok_bind, sub_ok (by omega), ok_bind, shift_ok (by omega)]
    rfl
  rw [write!, slice_ok (Nat.le_add_right _ _) hinside, ok_bind, ones!_eq hwidth, shift_ok hoffset]
  simp only [ok_bind, hoctets]
  rfl

end Field

/-! ## §2. Headers. -/

/-- The header is not empty, its fields do not overlap and lie inside it, and
none of them is too wide for the machine. -/
def Proper (h : Header) : Prop := h.Sound ∧ 0 < h.length ∧ ∀ f ∈ h.fields, f.offset < 128

instance (h : Header) : Decidable h.Proper := inferInstanceAs (Decidable (_ ∧ _ ∧ _))

/-- The fields are written one behind the other into zeros. -/
def encode! (h : Header) (values : Fields) : Checked Bytes :=
  h.fields.foldlM (fun bs f => f.write! (values.get f.name) bs) (List.replicate h.length 0)

/-- The fields are read one behind the other. -/
def decode! (h : Header) (bs : Bytes) : Checked Fields :=
  h.fields.foldlM (fun values f => return values.set f.name (← f.read! bs)) {}

variable {h : Header}

/-- A proper header is written with any values. -/
theorem encode!_eq (hp : h.Proper) (values : Fields) :
    h.encode! values = .ok (h.encode values) := by
  refine (foldlM_ok (P := fun bs : Bytes => bs.length = h.length) ?_ List.length_replicate).1
  intro f hf bs hlen
  have hfits : f.Fits bs.length := hlen ▸ hp.1.1 f hf
  exact ⟨f.write!_eq hfits (hp.2.2 f hf) _, (Field.length_write hfits.1 _).trans hlen⟩

/-- A proper header is read from any octets. -/
theorem decode!_eq (hp : h.Proper) (bs : Bytes) : h.decode! bs = .ok (h.decode bs) := by
  refine (foldlM_ok (P := fun _ : Fields => True) ?_ trivial).1
  intro f hf values _
  refine ⟨?_, trivial⟩
  rw [Field.read!_eq (hp.1.1 f hf).2.1 (hp.2.2 f hf)]
  rfl

end Header

/-! ## §3. Sending. -/

/-- One item after the other through a stage, and what comes out. -/
def Checked.collect {σ α β : Type} (f : σ → α → Checked (σ × List β)) (s : σ) (xs : List α) :
    Checked (σ × List β) := do
  let (s, out) ← xs.foldlM (fun (s, out) x => do
    let (s, more) ← f s x
    return (s, more.reverse ++ out)) (s, [])
  return (s, out.reverse)

/-- Items go through the stage if it takes each of them and keeps its invariant. -/
theorem Checked.collect_ok {σ α β : Type} {P : σ → Prop} {f : σ → α → Checked (σ × List β)}
    {g : σ → α → σ × List β} (h : ∀ s x, P s → f s x = .ok (g s x) ∧ P (g s x).1) {s : σ}
    (hs : P s) (xs : List α) :
    collect f s xs = .ok ((xs.foldl (collectOutput g) (s, [])).1,
        (xs.foldl (collectOutput g) (s, [])).2.reverse) ∧
      P (xs.foldl (collectOutput g) (s, [])).1 := by
  have hall : xs.foldlM (fun (s, out) x => do
      let (s, more) ← f s x
      return (s, more.reverse ++ out)) (s, []) = .ok (xs.foldl (collectOutput g) (s, [])) ∧
        P (xs.foldl (collectOutput g) (s, [])).1 := by
    refine foldlM_ok (P := fun acc : σ × List β => P acc.1) ?_ hs
    rintro x - ⟨s, out⟩ hs
    obtain ⟨hok, hnext⟩ := h s x hs
    refine ⟨?_, hnext⟩
    dsimp only
    rw [hok]
    rfl
  rw [collect, hall.1]
  exact ⟨rfl, hall.2⟩

namespace Packetizer

/-- A word, moved up by whole lanes. -/
def up! (word : UInt64) (n : Nat) : Checked UInt64 := do
  let bits ← shift 64 (8 * n)
  return word <<< UInt64.ofNat bits

/-- A word, moved down by whole lanes. -/
def down! (word : UInt64) (n : Nat) : Checked UInt64 := do
  let bits ← shift 64 (8 * n)
  return word >>> UInt64.ofNat bits

/-- The words of the header are cut as a packet of their own, whose end is not marked. -/
def begin! (p : Packetizer) (values : Fields) : Checked (Packetizer × List Beat) := do
  let bs ← p.header.encode! values
  require .division (p.width ≠ 0)
  let full := p.header.length / p.width * p.width
  let words ← Beat.ofBytes! p.width (← slice bs 0 full)
  let tail ← Beat.word! (← slice bs full bs.length)
  let carry := if p.leftover = 0 then none else some tail
  return ({ p with carry }, words.map fun beat => { data := beat.data })

/-- The carry goes below the word, and what the word leaves over is the next carry. -/
def push! (p : Packetizer) (beat : Beat) : Checked (Packetizer × List Beat) := do
  let mask ← lanesMask! p.width
  match p.carry with
  | none => return (p, [beat])
  | some carry =>
    let l := p.leftover
    let data := (carry ||| (← up! beat.data l)) &&& mask
    let rest := (← down! beat.data (← sub p.width l)) &&& mask
    if !beat.last then return ({ p with carry := some rest }, [{ data }])
    else
      let lastBe ← rotateFlags! beat.lastBe l p.width
      let beats :=
        if beat.lastBe > lastBe then [{ data }, { data := rest, last := true, lastBe }]
        else [{ data, last := true, lastBe }]
      return ({ p with carry := none }, beats)

/-- A packet without a payload is the header alone. -/
def packetizeBeats! (p : Packetizer) (values : Fields) (payload : List Beat) :
    Checked (Packetizer × List Beat) := do
  if payload.isEmpty then
    return ({ p with carry := none }, ← Beat.ofBytes! p.width (← p.header.encode! values))
  else
    let (p, head) ← p.begin! values
    let (p, body) ← collect push! p (Beat.packet payload)
    return (p, head ++ body)

/-- Octets of the payload into octets of the packet, through words of the bus. -/
def packetize! (p : Packetizer) (values : Fields) (payload : Bytes) :
    Checked (Packetizer × Bytes) := do
  let (p, beats) ← p.packetizeBeats! values (← Beat.ofBytes! p.width payload)
  return (p, ← Beat.toBytes! p.width beats)

variable {p : Packetizer} {h : Header}

/-- The stage is within a packet: octets wait for the next beat only if the
header leaves some over. -/
structure Sending (p : Packetizer) (h : Header) : Prop extends p.Writes h where
  shared : p.carry ≠ none → 0 < p.leftover

/-- A word is moved up by fewer lanes than it has. -/
theorem up!_eq {n : Nat} (hn : n < 8) (word : UInt64) : up! word n = .ok (up word n) := by
  rw [up!, shift_ok (by omega)]
  rfl

/-- It is moved down by fewer lanes than it has. -/
theorem down!_eq {n : Nat} (hn : n < 8) (word : UInt64) : down! word n = .ok (down word n) := by
  rw [down!, shift_ok (by omega)]
  rfl

/-- The header leaves less than a word over. -/
theorem Writes.leftover_lt (hp : p.Writes h) : p.leftover < p.width :=
  Nat.mod_lt _ hp.width.pos

/-- A word without its flag is a word inside the packet. -/
theorem map_data_ofBytes (w : Nat) (bs : Bytes) :
    (Beat.ofBytes w bs).map (fun beat => ({ data := beat.data } : Beat)) =
      (bs.words w).map Beat.inner := by
  rw [Beat.ofBytes, List.map_append, List.map_map, List.map_map,
    show (fun beat => ({ data := beat.data } : Beat)) ∘ Beat.inner = Beat.inner from rfl,
    show (fun beat => ({ data := beat.data } : Beat)) ∘ Beat.closing = Beat.inner from rfl,
    ← List.map_append]
  congr 1
  cases hlast : (bs.words w).getLast? with
  | none =>
    rw [List.getLast?_eq_none_iff.1 hlast]
    rfl
  | some last =>
    obtain ⟨body, hbody⟩ := List.getLast?_eq_some_iff.1 hlast
    rw [hbody, List.dropLast_concat]
    rfl

/-- The header of the stage is written with any values. -/
theorem Writes.encode!_eq (hp : p.Writes h) (hh : h.Proper) (values : Fields) :
    p.header.encode! values = .ok (p.header.encode values) := by
  rw [hp.header]
  exact Header.encode!_eq hh values

/-- The header is cut where its last whole word ends. -/
theorem Writes.begin!_eq (hp : p.Writes h) (hh : h.Proper) (values : Fields) :
    p.begin! values = .ok (p.begin values) := by
  have hpos : 0 < p.width := hp.width.pos
  have h8 : p.width ≤ 8 := hp.width.le_eight
  have hlen : (p.header.encode values).length = p.header.length := by
    rw [hp.header]
    exact Header.length_encode hh.1 values
  have hsplit : p.header.length / p.width * p.width + p.leftover = p.header.length :=
    Nat.div_add_mod' _ _
  have hlt : p.leftover < p.width := hp.leftover_lt
  have htail : ((p.header.encode values).take (p.header.encode values).length).drop
      (p.header.length / p.width * p.width) =
        (p.header.encode values).drop (p.header.length / p.width * p.width) := by
    rw [List.take_length]
  unfold begin! begin
  rw [hp.encode!_eq hh, ok_bind, require_ok (Nat.ne_of_gt hpos), ok_bind]
  dsimp only
  rw [slice_ok (Nat.zero_le _) (by omega), ok_bind, List.drop_zero, Beat.ofBytes!_eq hp.width,
    ok_bind, slice_ok (by omega) (Nat.le_refl _), ok_bind, htail,
    Beat.word!_eq (by rw [List.length_drop]; omega), ok_bind, map_data_ofBytes]
  rfl

/-- Any word of the payload is moved, and the stage stays within the packet. -/
theorem Sending.push!_eq (hp : p.Sending h) (beat : Beat) :
    p.push! beat = .ok (p.push beat) ∧ (p.push beat).1.Sending h := by
  have h8 : p.width ≤ 8 := hp.width.le_eight
  have hlt : p.leftover < p.width := hp.leftover_lt
  unfold push! push
  rw [lanesMask!_eq, ok_bind]
  cases hcarry : p.carry with
  | none => exact ⟨rfl, hp⟩
  | some carry =>
    have hpos : 0 < p.leftover := hp.shared (by rw [hcarry]; exact Option.some_ne_none carry)
    dsimp only
    rw [up!_eq (by omega), ok_bind, sub_ok (Nat.le_of_lt hlt), ok_bind, down!_eq (by omega),
      ok_bind]
    by_cases hlast : beat.last = true
    · rw [hlast, Bool.not_true, if_neg Bool.false_ne_true, if_neg Bool.false_ne_true,
        rotateFlags!_eq hp.width]
      exact ⟨rfl, ⟨⟨hp.header, hp.width⟩, fun hnone => absurd rfl hnone⟩⟩
    · rw [Bool.eq_false_iff.mpr hlast, Bool.not_false, if_pos rfl, if_pos rfl]
      exact ⟨rfl, ⟨⟨hp.header, hp.width⟩, fun _ => hpos⟩⟩

/-- A packet begins with a carry only if the header leaves octets over. -/
theorem Writes.sending_begin (hp : p.Writes h) (values : Fields) :
    (p.begin values).1.Sending h := by
  refine ⟨⟨hp.header, hp.width⟩, fun hcarry => Nat.pos_of_ne_zero fun hzero => hcarry ?_⟩
  exact if_pos hzero

/-- No packet stops a packetizer. -/
theorem Writes.packetize!_eq (hp : p.Writes h) (hh : h.Proper) (values : Fields)
    (payload : Bytes) : p.packetize! values payload = .ok (p.packetize values payload) := by
  have hbeats : p.packetizeBeats! values (Beat.ofBytes p.width payload) =
      .ok (p.packetizeBeats values (Beat.ofBytes p.width payload)) := by
    unfold packetizeBeats! packetizeBeats
    by_cases hempty : (Beat.ofBytes p.width payload).isEmpty = true
    · rw [if_pos hempty, if_pos hempty, hp.encode!_eq hh, ok_bind,
        Beat.ofBytes!_eq hp.width]
      rfl
    · rw [if_neg hempty, if_neg hempty, hp.begin!_eq hh, ok_bind]
      dsimp only
      have hbody := (collect_ok (f := push!) (g := push) (fun _ beat hp => Sending.push!_eq hp beat)
        (hp.sending_begin values) (Beat.packet (Beat.ofBytes p.width payload))).1
      rw [hbody]
      rfl
  have hnext : SupportedWidth (p.packetizeBeats values (Beat.ofBytes p.width payload)).1.width :=
    (hp.next hh.1 values payload).width
  rw [packetize!, Beat.ofBytes!_eq hp.width, ok_bind, hbeats, ok_bind]
  dsimp only
  rw [Beat.toBytes!_eq hnext.le_eight]
  rfl

end Packetizer

/-! ## §4. Receiving. -/

namespace Depacketizer

/-- A word that lies in the header as a whole. -/
def pushHeader! (d : Depacketizer) (seen : Bytes) (beat : Beat) : Checked Depacketizer := do
  let seen := seen ++ (← beat.lanes! d.width)
  if seen.length = d.full && d.leftover = 0
      && (!beat.last || (← beat.validLanes! d.width) = d.width) then
    return { d with fields := some (← d.format.decode! seen)
                    phase := if beat.last then .header [] else .aligned }
  else if beat.last then return { d with truncated := true, phase := .header [] }
  else return { d with phase := .header seen }

/-- The word in which the header ends and the payload begins. -/
def pushBoundary! (d : Depacketizer) (mask : UInt64) (seen : Bytes) (beat : Beat) :
    Checked (Depacketizer × List Beat) := do
  let l := d.leftover
  let fields ← d.format.decode! (seen ++ (← beat.lanes! l))
  let d := { d with fields := some fields }
  if !beat.last then return ({ d with phase := .shifted beat.data }, [])
  else
    let valid ← beat.validLanes! d.width
    if l < valid then
      let data := (← Packetizer.down! beat.data l) &&& mask
      let lastBe ← rotateFlags! beat.lastBe (← sub d.width l) d.width
      return (d.restart, [{ data, last := true, lastBe }])
    else return ({ d.restart with truncated := d.truncated || decide (valid < l) }, [])

/-- A payload word whose first octets have come with the word before. -/
def pushShifted! (d : Depacketizer) (mask previous : UInt64) (beat : Beat) :
    Checked (Depacketizer × List Beat) := do
  let l := d.leftover
  let low ← Packetizer.down! previous l
  let data := (low ||| (← Packetizer.up! beat.data (← sub d.width l))) &&& mask
  if !beat.last then return ({ d with phase := .shifted beat.data }, [{ data }])
  else
    let lastBe ← rotateFlags! beat.lastBe (← sub d.width l) d.width
    if beat.lastBe > lastBe then
      let rest := (← Packetizer.down! beat.data l) &&& mask
      return (d.restart, [{ data }, { data := rest, last := true, lastBe }])
    else
      let flags ← laneFlags! d.width
      return (d.restart, [{ data, last := true, lastBe := lastBe &&& flags }])

/-- The first word of a packet forgets the packet before. -/
def push! (d : Depacketizer) (beat : Beat) : Checked (Depacketizer × List Beat) := do
  let mask ← lanesMask! d.width
  match d.phase with
  | .header seen =>
    let d := if seen.isEmpty then { d with fields := none, truncated := false } else d
    require .division (d.width ≠ 0)
    if seen.length < d.full then return (← d.pushHeader! seen beat, [])
    else d.pushBoundary! mask seen beat
  | .aligned => return (if beat.last then d.restart else d, [beat])
  | .shifted previous => d.pushShifted! mask previous beat

/-- The stage starts afresh; of a truncated packet nothing comes out. -/
def depacketizeBeats! (d : Depacketizer) (beats : List Beat) :
    Checked (Depacketizer × Option (Fields × List Beat)) := do
  let (d, payload) ← collect push! d.reset (Beat.packet beats)
  if d.truncated then return (d, none)
  else return ({ d with fields := none }, d.fields.map (·, payload))

/-- Octets of the packet into octets of the payload, through words of the bus. -/
def depacketize! (d : Depacketizer) (bs : Bytes) :
    Checked (Depacketizer × Option (Fields × Bytes)) := do
  let (d, packet) ← d.depacketizeBeats! (← Beat.ofBytes! d.width bs)
  match packet with
  | none => return (d, none)
  | some (values, payload) => return (d, some (values, ← Beat.toBytes! d.width payload))

variable {d : Depacketizer} {h : Header}

/-- The stage is within a packet: inside the header it has seen whole words,
and payload words are moved only behind a header that ends inside a word. -/
structure Receiving (d : Depacketizer) (h : Header) : Prop extends d.Reads h where
  whole : ∀ seen, d.phase = .header seen →
    d.width ∣ seen.length ∧ (d.full ≤ seen.length → 0 < d.leftover)
  moved : ∀ previous, d.phase = .shifted previous → 0 < d.leftover

/-- The header leaves less than a word over. -/
theorem Reads.leftover_lt (hd : d.Reads h) : d.leftover < d.width :=
  Nat.mod_lt _ hd.width.pos

/-- At the start of a packet nothing has been seen; a header shorter than a
word ends inside the first. -/
theorem Reads.receiving (hd : d.Reads h) (hh : h.Proper) (hphase : d.phase = .header []) :
    d.Receiving h := by
  refine ⟨hd, fun seen hseen => ?_, fun previous hmoved => ?_⟩
  · rw [hphase] at hseen
    obtain rfl := Phase.header.inj hseen
    refine ⟨Nat.dvd_zero _, fun hfull => ?_⟩
    have hsplit := d.full_add_leftover
    have hpos : 0 < d.format.length := hd.format ▸ hh.2.1
    rw [List.length_nil] at hfull
    omega
  · rw [hphase] at hmoved
    cases hmoved

/-- Behind a packet the stage stands at the start of the next one. -/
theorem Receiving.restart (hd : d.Receiving h) (hh : h.Proper) : d.restart.Receiving h :=
  Reads.receiving ⟨hd.format, hd.width⟩ hh rfl

/-- The header of the stage is read from any octets. -/
theorem Reads.decode!_eq (hd : d.Reads h) (hh : h.Proper) (bs : Bytes) :
    d.format.decode! bs = .ok (d.format.decode bs) := by
  rw [hd.format]
  exact Header.decode!_eq hh bs

/-- A word in the header is collected; one behind the last whole word is left
to the payload only if the header ends in it. -/
theorem Receiving.pushHeader!_eq (hd : d.Receiving h) (hh : h.Proper) {seen : Bytes} (beat : Beat)
    (hwhole : d.width ∣ seen.length) (hlt : seen.length < d.full) :
    d.pushHeader! seen beat = .ok (d.pushHeader seen beat) ∧
      (d.pushHeader seen beat).Receiving h := by
  have hreads : ∀ (phase : Phase) (fields : Option Fields) (truncated : Bool),
      Reads { d with phase, fields, truncated } h := fun _ _ _ => ⟨hd.format, hd.width⟩
  unfold pushHeader! pushHeader
  rw [Beat.lanes!_eq hd.width.le_eight, ok_bind, Beat.validLanes!_eq, ok_bind]
  dsimp only
  split
  · rw [hd.decode!_eq hh]
    refine ⟨rfl, ?_⟩
    cases beat.last with
    | true => exact (hreads _ _ _).receiving hh rfl
    | false => exact ⟨hreads _ _ _, (fun _ h => nomatch h), (fun _ h => nomatch h)⟩
  · next hcomplete =>
    by_cases hlast : beat.last = true
    · rw [if_pos hlast, if_pos hlast]
      exact ⟨rfl, (hreads _ _ _).receiving hh rfl⟩
    · rw [if_neg hlast, if_neg hlast]
      refine ⟨rfl, hreads _ _ _, fun more hmore => ?_, fun _ h => nomatch h⟩
      obtain rfl := Phase.header.inj hmore
      rw [List.length_append, Beat.length_lanes] at hcomplete ⊢
      refine ⟨Nat.dvd_add hwhole (Nat.dvd_refl _), fun hfull => Nat.pos_of_ne_zero fun hzero => ?_⟩
      -- words are whole, so the last word of the header has just been seen
      obtain ⟨n, hn⟩ := hwhole
      have hle : seen.length + d.width ≤ d.full :=
        add_width_le_full (hn.trans (Nat.mul_comm _ _)) hlt
      have hend : seen.length + d.width = d.full := Nat.le_antisymm hle hfull
      have hnone : d.leftover = 0 := hzero
      apply hcomplete
      simp [hend, hnone, hlast]

/-- The word in which the header ends. -/
theorem Receiving.pushBoundary!_eq (hd : d.Receiving h) (hh : h.Proper) (hpos : 0 < d.leftover)
    (seen : Bytes) (beat : Beat) :
    d.pushBoundary! (lanesMask d.width) seen beat = .ok (d.pushBoundary seen beat) ∧
      (d.pushBoundary seen beat).1.Receiving h := by
  have hreads : ∀ (phase : Phase) (fields : Option Fields) (truncated : Bool),
      Reads { d with phase, fields, truncated } h := fun _ _ _ => ⟨hd.format, hd.width⟩
  have hlt : d.leftover < d.width := hd.leftover_lt
  have h8 : d.width ≤ 8 := hd.width.le_eight
  unfold pushBoundary! pushBoundary
  dsimp only
  rw [Beat.lanes!_eq (by omega), ok_bind, hd.decode!_eq hh, ok_bind]
  by_cases hlast : beat.last = true
  · rw [hlast, Bool.not_true, if_neg Bool.false_ne_true, if_neg Bool.false_ne_true,
      Beat.validLanes!_eq, ok_bind]
    by_cases hvalid : d.leftover < beat.validLanes d.width
    · rw [if_pos hvalid, if_pos hvalid, Packetizer.down!_eq (by omega), ok_bind,
        sub_ok (Nat.le_of_lt hlt), ok_bind, rotateFlags!_eq hd.width]
      exact ⟨rfl, (hreads _ _ _).receiving hh rfl⟩
    · rw [if_neg hvalid, if_neg hvalid]
      exact ⟨rfl, (hreads _ _ _).receiving hh rfl⟩
  · rw [Bool.eq_false_iff.mpr hlast, Bool.not_false, if_pos rfl, if_pos rfl]
    exact ⟨rfl, hreads _ _ _, (fun _ h => nomatch h), fun _ _ => hpos⟩

/-- A payload word behind a header that ended inside one. -/
theorem Receiving.pushShifted!_eq (hd : d.Receiving h) (hh : h.Proper) (hpos : 0 < d.leftover)
    (previous : UInt64) (beat : Beat) :
    d.pushShifted! (lanesMask d.width) previous beat = .ok (d.pushShifted previous beat) ∧
      (d.pushShifted previous beat).1.Receiving h := by
  have hlt : d.leftover < d.width := hd.leftover_lt
  have h8 : d.width ≤ 8 := hd.width.le_eight
  unfold pushShifted! pushShifted
  dsimp only
  rw [Packetizer.down!_eq (by omega), ok_bind, sub_ok (Nat.le_of_lt hlt), ok_bind,
    Packetizer.up!_eq (by omega), ok_bind]
  by_cases hlast : beat.last = true
  · rw [hlast, Bool.not_true, if_neg Bool.false_ne_true, if_neg Bool.false_ne_true, ok_bind,
      rotateFlags!_eq hd.width, ok_bind]
    refine ⟨?_, hd.restart hh⟩
    by_cases hwrap : beat.lastBe > rotateFlags beat.lastBe (d.width - d.leftover) d.width
    · rw [if_pos hwrap, if_pos hwrap, Packetizer.down!_eq (by omega)]
      rfl
    · rw [if_neg hwrap, if_neg hwrap, laneFlags!_eq]
      rfl
  · rw [Bool.eq_false_iff.mpr hlast, Bool.not_false, if_pos rfl, if_pos rfl]
    exact ⟨rfl, ⟨hd.format, hd.width⟩, (fun _ h => nomatch h), fun _ _ => hpos⟩

/-- **Any word is taken** in any phase, and the stage stays within a packet. -/
theorem Receiving.push!_eq (hd : d.Receiving h) (hh : h.Proper) (beat : Beat) :
    d.push! beat = .ok (d.push beat) ∧ (d.push beat).1.Receiving h := by
  have hheader : ∀ (e : Depacketizer) (seen : Bytes), e.Receiving h → e.phase = .header seen →
      e.width = d.width →
      (do
        require .division (e.width ≠ 0)
        if seen.length < e.full then return (← e.pushHeader! seen beat, [])
        else e.pushBoundary! (lanesMask d.width) seen beat) =
          Except.ok (if seen.length < e.full then (e.pushHeader seen beat, [])
            else e.pushBoundary seen beat) ∧
        (if seen.length < e.full then (e.pushHeader seen beat, ([] : List Beat))
          else e.pushBoundary seen beat).1.Receiving h := by
    intro e seen he hphase hwidth
    obtain ⟨hwhole, hshared⟩ := he.whole seen hphase
    rw [require_ok (Nat.ne_of_gt he.width.pos), ok_bind]
    by_cases hlt : seen.length < e.full
    · obtain ⟨hok, hnext⟩ := he.pushHeader!_eq hh beat hwhole hlt
      rw [if_pos hlt, if_pos hlt, hok]
      exact ⟨rfl, hnext⟩
    · rw [if_neg hlt, if_neg hlt, ← hwidth]
      exact he.pushBoundary!_eq hh (hshared (Nat.le_of_not_lt hlt)) seen beat
  unfold push! push
  rw [lanesMask!_eq, ok_bind]
  cases hphase : d.phase with
  | header seen =>
    dsimp only
    -- the first word of a packet forgets the packet before, and that alone
    by_cases hempty : seen.isEmpty = true
    · rw [if_pos hempty]
      exact hheader _ seen ⟨⟨hd.format, hd.width⟩, hphase ▸ hd.whole, hphase ▸ hd.moved⟩ rfl rfl
    · rw [if_neg hempty]
      exact hheader d seen hd hphase rfl
  | aligned =>
    refine ⟨rfl, ?_⟩
    dsimp only
    split
    · exact hd.restart hh
    · exact hd
  | shifted previous => exact hd.pushShifted!_eq hh (hd.moved previous hphase) previous beat

/-- No octets stop a depacketizer. -/
theorem Reads.depacketize!_eq (hd : d.Reads h) (hh : h.Proper) (bs : Bytes) :
    d.depacketize! bs = .ok (d.depacketize bs) := by
  have hreset : d.reset.Receiving h := Reads.receiving ⟨hd.format, hd.width⟩ hh rfl
  have hbeats : d.depacketizeBeats! (Beat.ofBytes d.width bs) =
      .ok (d.depacketizeBeats (Beat.ofBytes d.width bs)) := by
    have hall := (collect_ok (f := push!) (g := push)
      (fun _ beat hd => Receiving.push!_eq hd hh beat) hreset
      (Beat.packet (Beat.ofBytes d.width bs))).1
    unfold depacketizeBeats! depacketizeBeats
    rw [hall, ok_bind]
    dsimp only
    split
    · next htruncated => exact (if_pos htruncated).symm ▸ rfl
    · next hcomplete => exact (if_neg hcomplete).symm ▸ rfl
  have hnext : SupportedWidth (d.depacketizeBeats (Beat.ofBytes d.width bs)).1.width :=
    (hd.next hh.2.1 bs).width
  rw [depacketize!, Beat.ofBytes!_eq hd.width, ok_bind, hbeats, ok_bind, depacketize]
  dsimp only
  cases hpacket : (d.depacketizeBeats (Beat.ofBytes d.width bs)).2 with
  | none => rfl
  | some packet =>
    obtain ⟨values, payload⟩ := packet
    dsimp only
    rw [Beat.toBytes!_eq hnext.le_eight]
    rfl

end Depacketizer
end NetBoard
