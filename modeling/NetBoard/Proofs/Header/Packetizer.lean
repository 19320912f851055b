/-
  NetBoard.Proofs.Header.Packetizer
  ─────────────────────────────────
  **A HEADER IS PUT IN FRONT, WHATEVER THE WIDTH.**

  While a payload passes, the carry of the packetizer holds the octets that
  did not fit the words sent so far.  The invariant of the run is that these
  octets, followed by the payload still to come, are the packet still to be
  sent; so the beats that leave are those of header and payload together.

  Main statements:

      push_inner / push_closing — one payload beat, in terms of octets
      pushAll_ofBytes           — the beats of a payload, behind a carry
      packetizeBeats_ofBytes    — header and payload, beat for beat
      packetize_eq              — header and payload, as octets
-/
import NetBoard.Proofs.Beat.Realign

namespace NetBoard

/-! ## §1. Beats one after the other. -/

/-- One beat through a stage, its output put in front of the reversed output so far. -/
def collectOutput {σ α β : Type} (f : σ → α → σ × List β) (acc : σ × List β) (x : α) :
    σ × List β :=
  ((f acc.1 x).1, (f acc.1 x).2.reverse ++ acc.2)

/-- Output collected before stays behind the output of the rest. -/
theorem foldl_collectOutput {σ α β : Type} (f : σ → α → σ × List β) (xs : List α) :
    ∀ (s : σ) (out : List β), xs.foldl (collectOutput f) (s, out) =
      ((xs.foldl (collectOutput f) (s, [])).1,
        (xs.foldl (collectOutput f) (s, [])).2 ++ out) := by
  induction xs with
  | nil =>
    intro s out
    rfl
  | cons x xs ih =>
    intro s out
    rw [List.foldl_cons, List.foldl_cons, collectOutput, collectOutput, ih, ih _ (_ ++ [])]
    simp only [List.append_nil, List.append_assoc]

namespace Packetizer

@[simp] theorem pushAll_nil (p : Packetizer) : p.pushAll [] = (p, []) := rfl

theorem pushAll_cons (p : Packetizer) (beat : Beat) (rest : List Beat) :
    p.pushAll (beat :: rest) =
      (((p.push beat).1.pushAll rest).1, (p.push beat).2 ++ ((p.push beat).1.pushAll rest).2) := by
  have hall : ∀ (p : Packetizer) (beats : List Beat), p.pushAll beats =
      ((beats.foldl (collectOutput push) (p, [])).1,
        (beats.foldl (collectOutput push) (p, [])).2.reverse) := fun _ _ => rfl
  rw [hall, List.foldl_cons, collectOutput, foldl_collectOutput, hall]
  simp only [List.append_nil, List.reverse_append, List.reverse_reverse]

/-- Without a carry beats pass through. -/
theorem pushAll_of_carry_none (p : Packetizer) (h : p.carry = none) (beats : List Beat) :
    p.pushAll beats = (p, beats) := by
  induction beats with
  | nil => rfl
  | cons beat rest ih =>
    have hpush : p.push beat = (p, [beat]) := by rw [push, h]
    rw [pushAll_cons, hpush, ih]
    rfl

/-! ## §2. One beat. -/

variable {p : Packetizer} {carried : Bytes}

/-- A full word lends its head to the word that is sent and leaves its tail behind. -/
theorem push_inner (hw : FitsWord p.width) (hcarry : p.carry = some (laneWord carried))
    (hpos : 0 < carried.length) (hl : carried.length = p.leftover) (hlt : carried.length < p.width)
    {word : Bytes} (hword : word.length = p.width) :
    p.push (Beat.inner word) =
      ({ p with carry := some (laneWord (word.drop (p.width - carried.length))) },
        [Beat.inner (carried ++ word.take (p.width - carried.length))]) := by
  have h8 := hw.le_eight
  have hdata := word_append (w := p.width) (show carried.length < 8 by omega)
    (show word.length ≤ 8 by omega) (by omega) h8
  have hrest := word_tail (show word.length ≤ p.width by omega)
    (show p.width - carried.length < p.width by omega) h8
  have hlast : (Beat.inner word).last = false := rfl
  simp only [push, hcarry, hlast, ← hl, data_inner, hdata, hrest]
  rfl

/-- A last word that fits beside the carry is sent in one word, a longer one in two. -/
theorem push_closing (hw : FitsWord p.width) (hcarry : p.carry = some (laneWord carried))
    (hpos : 0 < carried.length) (hl : carried.length = p.leftover) (hlt : carried.length < p.width)
    {word : Bytes} (hne : word ≠ []) (hword : word.length ≤ p.width) :
    p.push (Beat.closing word) =
      ({ p with carry := none }, Beat.ofBytes p.width (carried ++ word)) := by
  have h8 := hw.le_eight
  have hk : 0 < word.length := List.length_pos_iff.mpr hne
  have hdata := word_append (w := p.width) (show carried.length < 8 by omega)
    (show word.length ≤ 8 by omega) (by omega) h8
  have hrest := word_tail (show word.length ≤ p.width by omega)
    (show p.width - carried.length < p.width by omega) h8
  have hflag := rotateFlags_flag hw (show word.length - 1 < p.width by omega) hlt
  have hlast : (Beat.closing word).last = true := rfl
  simp only [push, hcarry, hlast, ← hl, data_closing, lastBe_closing, hdata, hrest, hflag]
  have hmod : (word.length - 1 + carried.length) % p.width < 8 :=
    Nat.lt_of_lt_of_le (Nat.mod_lt _ hw.pos) h8
  refine Prod.ext rfl ?_
  by_cases hfit : carried.length + word.length ≤ p.width
  · -- the flag moves up with the octets it marks
    have hlane : (word.length - 1 + carried.length) % p.width =
        (carried ++ word).length - 1 := by
      rw [List.length_append, Nat.mod_eq_of_lt (by omega)]
      omega
    have hnot : ¬ (laneFlag (word.length - 1) > laneFlag ((carried ++ word).length - 1)) := by
      rw [gt_iff_lt, laneFlag_lt_iff (by omega) (by omega), List.length_append]
      omega
    rw [Beat.ofBytes_of_length_le hw.pos (by simp [hne]) (by rw [List.length_append]; omega)]
    simp only [Bool.not_true, Bool.false_eq_true, if_false, hlane]
    rw [List.take_of_length_le (by omega), if_neg hnot]
    rfl
  · -- the flag wraps round: its octets are the tail of the word
    have hlane : (word.length - 1 + carried.length) % p.width =
        (word.drop (p.width - carried.length)).length - 1 := by
      rw [List.length_drop, Nat.mod_eq_sub_mod (by omega), Nat.mod_eq_of_lt (by omega)]
      omega
    have hgt : laneFlag (word.length - 1) >
        laneFlag ((word.drop (p.width - carried.length)).length - 1) := by
      rw [gt_iff_lt, laneFlag_lt_iff (by omega) (by omega), List.length_drop]
      omega
    have htake : (carried ++ word).take p.width =
        carried ++ word.take (p.width - carried.length) := by
      rw [List.take_append, List.take_of_length_le (by omega)]
    have hdrop : (carried ++ word).drop p.width = word.drop (p.width - carried.length) := by
      rw [List.drop_append, List.drop_of_length_le (by omega), List.nil_append]
    have hdropne : word.drop (p.width - carried.length) ≠ [] := by
      rw [← List.length_pos_iff, List.length_drop]
      omega
    rw [Beat.ofBytes_of_lt_length hw.pos (by rw [List.length_append]; omega), htake, hdrop,
      Beat.ofBytes_of_length_le hw.pos hdropne (by rw [List.length_drop]; omega)]
    simp only [Bool.not_true, Bool.false_eq_true, if_false, hlane]
    rw [if_pos hgt]
    rfl

/-! ## §3. A whole payload. -/

/-- Behind a carry, the beats of a payload leave as those of carry and payload together. -/
theorem pushAll_ofBytes (p : Packetizer) (hw : FitsWord p.width) (hleft : 0 < p.leftover)
    {payload : Bytes} (hne : payload ≠ []) :
    ∀ carried : Bytes, carried.length = p.leftover →
      ({ p with carry := some (laneWord carried) } : Packetizer).pushAll
          (Beat.ofBytes p.width payload) =
        ({ p with carry := none }, Beat.ofBytes p.width (carried ++ payload)) := by
  have hlt : p.leftover < p.width := Nat.mod_lt _ hw.pos
  refine Beat.words_induction hw.pos (motive := fun payload => ∀ carried : Bytes,
    carried.length = p.leftover →
      ({ p with carry := some (laneWord carried) } : Packetizer).pushAll
          (Beat.ofBytes p.width payload) =
        ({ p with carry := none }, Beat.ofBytes p.width (carried ++ payload))) ?_ ?_ payload hne
  · intro payload hne hlen carried hl
    have hcarried : carried.length < p.width := by omega
    rw [Beat.ofBytes_of_length_le hw.pos hne hlen, pushAll_cons,
      push_closing (p := { p with carry := some (laneWord carried) }) hw rfl (by omega) hl
        hcarried hne hlen, pushAll_nil, List.append_nil]
  · -- the tail of the first word is the carry of the rest
    intro payload hlen ih carried hl
    have hcarried : carried.length < p.width := by omega
    have hword : (payload.take p.width).length = p.width := by
      rw [List.length_take, Nat.min_eq_left (by omega)]
    have htail : ((payload.take p.width).drop (p.width - carried.length)).length = p.leftover := by
      rw [List.length_drop, hword]
      omega
    have htake : (carried ++ payload).take p.width =
        carried ++ (payload.take p.width).take (p.width - carried.length) := by
      rw [List.take_append, List.take_of_length_le (by omega), List.take_take,
        Nat.min_eq_left (by omega)]
    have hdrop : (carried ++ payload).drop p.width =
        (payload.take p.width).drop (p.width - carried.length) ++ payload.drop p.width := by
      rw [List.drop_append, List.drop_of_length_le (by omega), List.nil_append, List.drop_take,
        show p.width - (p.width - carried.length) = carried.length by omega]
      conv => lhs; rw [← List.take_append_drop carried.length
        (payload.drop (p.width - carried.length))]
      rw [List.drop_drop, show p.width - carried.length + carried.length = p.width by omega]
    have hpacket : Beat.ofBytes p.width (carried ++ payload) =
        Beat.inner (carried ++ (payload.take p.width).take (p.width - carried.length)) ::
          Beat.ofBytes p.width ((payload.take p.width).drop (p.width - carried.length) ++
            payload.drop p.width) := by
      rw [Beat.ofBytes_of_lt_length hw.pos (by rw [List.length_append]; omega), htake, hdrop]
    rw [Beat.ofBytes_of_lt_length hw.pos hlen, pushAll_cons,
      push_inner (p := { p with carry := some (laneWord carried) }) hw rfl (by omega) hl
        hcarried hword, hpacket]
    show ((pushAll { p with carry := some _ } _).1,
      [_] ++ (pushAll { p with carry := some _ } _).2) = _
    rw [ih _ htail]
    rfl

/-! ## §4. Header and payload. -/

variable {values : Fields}

theorem begin_eq (p : Packetizer) (values : Fields) :
    p.begin values =
      ({ p with
          carry := if p.leftover = 0 then none
            else
              some (laneWord ((p.header.encode values).drop (p.header.length / p.width * p.width))) },
        (Bytes.words p.width
          ((p.header.encode values).take (p.header.length / p.width * p.width))).map Beat.inner) :=
  rfl

/-- **A packet leaves beat for beat as header and payload together**, at any
width and whatever the packetizer handled before; nothing of it stays behind. -/
theorem packetizeBeats_ofBytes (p : Packetizer) (hw : FitsWord p.width)
    (hlen : (p.header.encode values).length = p.header.length) (payload : Bytes) :
    p.packetizeBeats values (Beat.ofBytes p.width payload) =
      ({ p with carry := none }, Beat.ofBytes p.width (p.header.encode values ++ payload)) := by
  by_cases hne : payload = []
  · subst hne
    rw [Beat.ofBytes_nil, List.append_nil]
    rfl
  have hisEmpty : (Beat.ofBytes p.width payload).isEmpty = false := by
    rw [List.isEmpty_eq_false_iff]
    exact Beat.ofBytes_ne_nil hw.pos hne
  have hfull : p.header.length / p.width * p.width ≤ p.header.length := Nat.div_mul_le_self _ _
  have hdiv := Nat.div_add_mod' p.header.length p.width
  have hhead : ((p.header.encode values).take
      (p.header.length / p.width * p.width)).length = p.header.length / p.width * p.width := by
    rw [List.length_take, hlen, Nat.min_eq_left hfull]
  have htail : ((p.header.encode values).drop
      (p.header.length / p.width * p.width)).length = p.leftover := by
    rw [List.length_drop, hlen, leftover]
    omega
  have hsplit := Beat.ofBytes_append hw.pos (p.header.length / p.width) hhead
    (show (p.header.encode values).drop (p.header.length / p.width * p.width) ++ payload ≠ [] by
      simp [hne])
  rw [← List.append_assoc, List.take_append_drop] at hsplit
  simp only [packetizeBeats, hisEmpty, Bool.false_eq_true, if_false, begin_eq,
    Beat.packet_ofBytes hw.pos hne]
  rw [hsplit]
  by_cases hleft : p.leftover = 0
  · -- the header fills its words: nothing is moved
    have hnil : (p.header.encode values).drop (p.header.length / p.width * p.width) = [] :=
      List.length_eq_zero_iff.mp (by rw [htail, hleft])
    rw [if_pos hleft, pushAll_of_carry_none _ rfl, hnil, List.nil_append]
  · rw [if_neg hleft, pushAll_ofBytes p hw (by omega) hne _ htail]

/-- The octets of a packet are those of its header, then those of its payload. -/
theorem packetize_eq (p : Packetizer) (hw : FitsWord p.width)
    (hlen : (p.header.encode values).length = p.header.length) (payload : Bytes) :
    p.packetize values payload =
      ({ p with carry := none }, p.header.encode values ++ payload) := by
  rw [packetize, packetizeBeats_ofBytes p hw hlen]
  show (_, Beat.toBytes p.width (Beat.ofBytes p.width _)) = _
  rw [Beat.toBytes_ofBytes hw.pos hw.le_eight]

end Packetizer
end NetBoard
