/-
  NetBoard.Proofs.Header.Depacketizer
  ───────────────────────────────────
  **A HEADER IS TAKEN OFF, WHATEVER THE WIDTH.**

  A depacketizer that has seen some octets of a packet behaves as if these
  octets and those still to come were cut behind the header: what comes out
  are the beats of the part behind the cut.  A packet that is shorter than
  its header gives no beats and is marked.

  Main statements:

      pushAll_aligned / pushAll_shifted — the payload behind a complete header
      pushAll_packet                    — a whole packet, whatever came before
      depacketize_eq                    — header values and payload octets
-/
import NetBoard.Header.Depacketizer
import NetBoard.Proofs.Header.Packetizer

namespace NetBoard
namespace Depacketizer

/-! ## §1. Beats one after the other. -/

@[simp] theorem pushAll_nil (d : Depacketizer) : d.pushAll [] = (d, []) := rfl

theorem pushAll_cons (d : Depacketizer) (beat : Beat) (rest : List Beat) :
    d.pushAll (beat :: rest) =
      (((d.push beat).1.pushAll rest).1, (d.push beat).2 ++ ((d.push beat).1.pushAll rest).2) := by
  have hall : ∀ (d : Depacketizer) (beats : List Beat), d.pushAll beats =
      ((beats.foldl (collectOutput push) (d, [])).1,
        (beats.foldl (collectOutput push) (d, [])).2.reverse) := fun _ _ => rfl
  rw [hall, List.foldl_cons, collectOutput, foldl_collectOutput, hall]
  simp only [List.append_nil, List.reverse_append, List.reverse_reverse]

/-! ## §2. Behind a header. -/

/-- Behind a header that fills its words the payload passes unmoved. -/
theorem pushAll_aligned (d : Depacketizer) {w : Nat} (hd : d.width = w) (hw : 0 < w) {bs : Bytes}
    (hne : bs ≠ []) :
    ({ d with phase := .aligned } : Depacketizer).pushAll (Beat.ofBytes w bs) =
      (d.restart, Beat.ofBytes w bs) := by
  subst hd
  refine Beat.words_induction hw (motive := fun bs =>
    ({ d with phase := .aligned } : Depacketizer).pushAll (Beat.ofBytes d.width bs) =
      (d.restart, Beat.ofBytes d.width bs)) ?_ ?_ bs hne
  · intro bs hne hlen
    rw [Beat.ofBytes_of_length_le hw hne hlen]
    rfl
  · intro bs hlen ih
    have hpush : ({ d with phase := .aligned } : Depacketizer).push
        (Beat.inner (bs.take d.width)) =
          ({ d with phase := .aligned }, [Beat.inner (bs.take d.width)]) := rfl
    rw [Beat.ofBytes_of_lt_length hw hlen, pushAll_cons, hpush, ih]
    rfl

/-- The last lanes of a word and above them the head of the next. -/
theorem shifted_word {w l : Nat} (hw : w ≤ 8) (hl0 : 0 < l) (hl : l < w) {previous word : Bytes}
    (hp : previous.length = w) (hword : word.length ≤ w) :
    (Packetizer.down (laneWord previous) l ||| Packetizer.up (laneWord word) (w - l)) &&&
        lanesMask w =
      laneWord (previous.drop l ++ word.take l) := by
  have hdrop : (previous.drop l).length = w - l := by rw [List.length_drop, hp]
  have happend := word_append (show (previous.drop l).length < 8 by omega)
    (show word.length ≤ 8 by omega) (show (previous.drop l).length ≤ w by omega) hw
  rw [hdrop, show w - (w - l) = l by omega] at happend
  rw [word_drop (by omega) (by omega), happend]

theorem push_shifted_inner (d : Depacketizer) (hw : FitsWord d.width)
    (hleft : 0 < d.leftover) {previous word : Bytes} (hp : previous.length = d.width)
    (hword : word.length = d.width) :
    ({ d with phase := .shifted (laneWord previous) } : Depacketizer).push (Beat.inner word) =
      ({ d with phase := .shifted (laneWord word) },
        [Beat.inner (previous.drop d.leftover ++ word.take d.leftover)]) := by
  have hlt : d.leftover < d.width := Nat.mod_lt _ hw.pos
  have hdata := shifted_word hw.le_eight hleft hlt hp (Nat.le_of_eq hword)
  have hlast : (Beat.inner word).last = false := rfl
  show pushShifted _ (laneWord previous) (Beat.inner word) = _
  simp only [pushShifted, hlast, data_inner]
  show (_, [({ data := (Packetizer.down (laneWord previous) d.leftover |||
    Packetizer.up (laneWord word) (d.width - d.leftover)) &&& lanesMask d.width } : Beat)]) = _
  rw [hdata]
  rfl

/-- A last word that fits behind the word before is sent in one word, a longer one in two. -/
theorem push_shifted_closing (d : Depacketizer) (hw : FitsWord d.width)
    (hleft : 0 < d.leftover) {previous word : Bytes} (hp : previous.length = d.width)
    (hne : word ≠ []) (hword : word.length ≤ d.width) :
    ({ d with phase := .shifted (laneWord previous) } : Depacketizer).push (Beat.closing word) =
      (d.restart, Beat.ofBytes d.width (previous.drop d.leftover ++ word)) := by
  have h8 := hw.le_eight
  have hlt : d.leftover < d.width := Nat.mod_lt _ hw.pos
  have hk : 0 < word.length := List.length_pos_iff.mpr hne
  have hdrop : (previous.drop d.leftover).length = d.width - d.leftover := by
    rw [List.length_drop, hp]
  have hdata := shifted_word h8 hleft hlt hp hword
  have hrest := word_tail hword hlt h8
  have hflag := rotateFlags_flag hw (show word.length - 1 < d.width by omega)
    (show d.width - d.leftover < d.width by omega)
  have hlast : (Beat.closing word).last = true := rfl
  show pushShifted _ (laneWord previous) (Beat.closing word) = _
  simp only [pushShifted, hlast, data_closing, lastBe_closing]
  refine Prod.ext rfl ?_
  show (if laneFlag (word.length - 1) >
      rotateFlags (laneFlag (word.length - 1)) (d.width - d.leftover) d.width then
    [({ data := (Packetizer.down (laneWord previous) d.leftover |||
        Packetizer.up (laneWord word) (d.width - d.leftover)) &&& lanesMask d.width } : Beat),
      { data := Packetizer.down (laneWord word) d.leftover &&& lanesMask d.width, last := true
        lastBe := rotateFlags (laneFlag (word.length - 1)) (d.width - d.leftover) d.width }]
    else [{ data := (Packetizer.down (laneWord previous) d.leftover |||
        Packetizer.up (laneWord word) (d.width - d.leftover)) &&& lanesMask d.width, last := true
            lastBe := rotateFlags (laneFlag (word.length - 1)) (d.width - d.leftover) d.width &&&
              laneFlags d.width }]) = _
  rw [hdata, hrest, hflag]
  by_cases hfit : word.length ≤ d.leftover
  · have hlane : (word.length - 1 + (d.width - d.leftover)) % d.width =
        (previous.drop d.leftover ++ word).length - 1 := by
      rw [List.length_append, hdrop, Nat.mod_eq_of_lt (by omega)]
      omega
    have hnot : ¬ (laneFlag (word.length - 1) >
        laneFlag ((previous.drop d.leftover ++ word).length - 1)) := by
      rw [List.length_append, hdrop, gt_iff_lt, laneFlag_lt_iff (by omega) (by omega)]
      omega
    have hmask := laneFlag_and_laneFlags h8
      (show (previous.drop d.leftover ++ word).length - 1 < d.width by
        rw [List.length_append, hdrop]
        omega)
    rw [Beat.ofBytes_of_length_le hw.pos (by simp [hne])
      (by rw [List.length_append, hdrop]; omega), hlane, if_neg hnot, hmask,
      List.take_of_length_le hfit]
    rfl
  · -- the flag moved down past lane 0: its octets are the tail of the word
    have hlane : (word.length - 1 + (d.width - d.leftover)) % d.width =
        (word.drop d.leftover).length - 1 := by
      rw [List.length_drop, Nat.mod_eq_sub_mod (by omega), Nat.mod_eq_of_lt (by omega)]
      omega
    have hgt : laneFlag (word.length - 1) > laneFlag ((word.drop d.leftover).length - 1) := by
      rw [List.length_drop, gt_iff_lt, laneFlag_lt_iff (by omega) (by omega)]
      omega
    have htake : (previous.drop d.leftover ++ word).take d.width =
        previous.drop d.leftover ++ word.take d.leftover := by
      rw [List.take_append, hdrop, List.take_of_length_le (by omega),
        show d.width - (d.width - d.leftover) = d.leftover by omega]
    have hdropped : (previous.drop d.leftover ++ word).drop d.width = word.drop d.leftover := by
      rw [List.drop_append, hdrop, List.drop_of_length_le (by omega), List.nil_append,
        show d.width - (d.width - d.leftover) = d.leftover by omega]
    have hdropne : word.drop d.leftover ≠ [] := by
      rw [← List.length_pos_iff, List.length_drop]
      omega
    rw [hlane, if_pos hgt,
      Beat.ofBytes_of_lt_length hw.pos (by rw [List.length_append, hdrop]; omega), htake, hdropped,
      Beat.ofBytes_of_length_le hw.pos hdropne (by rw [List.length_drop]; omega)]
    rfl

/-- Behind a header that ends inside a word the payload moves down. -/
theorem pushAll_shifted (d : Depacketizer) {w : Nat} (hd : d.width = w) (hw : FitsWord w)
    (hleft : 0 < d.leftover) {bs : Bytes} (hne : bs ≠ []) :
    ∀ previous : Bytes, previous.length = w →
      ({ d with phase := .shifted (laneWord previous) } : Depacketizer).pushAll
          (Beat.ofBytes w bs) =
        (d.restart, Beat.ofBytes w (previous.drop d.leftover ++ bs)) := by
  subst hd
  have hlt : d.leftover < d.width := Nat.mod_lt _ hw.pos
  refine Beat.words_induction hw.pos (motive := fun bs => ∀ previous : Bytes,
    previous.length = d.width →
      ({ d with phase := .shifted (laneWord previous) } : Depacketizer).pushAll
          (Beat.ofBytes d.width bs) =
        (d.restart, Beat.ofBytes d.width (previous.drop d.leftover ++ bs))) ?_ ?_ bs hne
  · intro bs hne hlen previous hp
    rw [Beat.ofBytes_of_length_le hw.pos hne hlen, pushAll_cons,
      push_shifted_closing d hw hleft hp hne hlen, pushAll_nil, List.append_nil]
  · -- the tail of the first word goes in front of the rest
    intro bs hlen ih previous hp
    have hword : (bs.take d.width).length = d.width := by
      rw [List.length_take, Nat.min_eq_left (by omega)]
    have hdrop : (previous.drop d.leftover).length = d.width - d.leftover := by
      rw [List.length_drop, hp]
    have hpacket : Beat.ofBytes d.width (previous.drop d.leftover ++ bs) =
        Beat.inner (previous.drop d.leftover ++ (bs.take d.width).take d.leftover) ::
          Beat.ofBytes d.width ((bs.take d.width).drop d.leftover ++ bs.drop d.width) := by
      rw [Beat.ofBytes_of_lt_length hw.pos (by rw [List.length_append, hdrop]; omega),
        List.take_append, List.drop_append, hdrop, List.take_of_length_le (by omega),
        List.drop_of_length_le (l := previous.drop d.leftover) (by omega), List.nil_append,
        show d.width - (d.width - d.leftover) = d.leftover by omega, List.take_take,
        Nat.min_eq_left (by omega), List.drop_take]
      conv => lhs; rw [← List.take_append_drop (d.width - d.leftover) (bs.drop d.leftover)]
      rw [List.drop_drop, show d.leftover + (d.width - d.leftover) = d.width by omega]
    rw [Beat.ofBytes_of_lt_length hw.pos hlen, pushAll_cons,
      push_shifted_inner d hw hleft hp hword, hpacket, ih _ hword]
    rfl

/-! ## §3. At the end of the header. -/

/-- The depacketizer as the first beat of a packet finds it. -/
def fresh (d : Depacketizer) (seen : Bytes) : Depacketizer :=
  if seen.isEmpty then { d with fields := none, truncated := false } else d

@[simp] theorem width_fresh (d : Depacketizer) (seen : Bytes) :
    (d.fresh seen).width = d.width := by
  unfold fresh
  split <;> rfl

@[simp] theorem format_fresh (d : Depacketizer) (seen : Bytes) :
    (d.fresh seen).format = d.format := by
  unfold fresh
  split <;> rfl

/-- The header octets in full words and those in the word it shares. -/
theorem full_add_leftover (d : Depacketizer) : d.full + d.leftover = d.format.length :=
  Nat.div_add_mod' _ _

/-- Whole words that do not fill the header leave room for one more. -/
theorem add_width_le_full {d : Depacketizer} {seen : Bytes} {n : Nat}
    (hseen : seen.length = n * d.width) (hlt : seen.length < d.full) :
    seen.length + d.width ≤ d.full := by
  have hn : n < d.format.length / d.width := by
    rw [hseen] at hlt
    exact Nat.lt_of_mul_lt_mul_right hlt
  calc seen.length + d.width = (n + 1) * d.width := by rw [hseen, Nat.add_one_mul]
    _ ≤ d.full := Nat.mul_le_mul_right _ hn

/-- A beat in front of the end of the header is collected, the one that the
header shares with the payload is cut. -/
theorem push_header {d : Depacketizer} {seen : Bytes} (hphase : d.phase = .header seen)
    (beat : Beat) :
    d.push beat =
      if seen.length < d.full then ((d.fresh seen).pushHeader seen beat, [])
      else (d.fresh seen).pushBoundary seen beat := by
  unfold fresh push
  rw [hphase]
  cases hseen : seen.isEmpty <;> simp only [hseen] <;> rfl

/-- To forget the packet before a second time does nothing. -/
theorem fresh_fresh (d : Depacketizer) (seen : Bytes) :
    (d.fresh seen).fresh seen = d.fresh seen := by
  unfold fresh
  cases seen with
  | nil => rfl
  | cons o seen => rfl

/-- The first beat does not depend on what is forgotten with it. -/
theorem push_fresh {d : Depacketizer} {seen : Bytes} (hphase : d.phase = .header seen)
    (beat : Beat) :
    (d.fresh seen).push beat = d.push beat := by
  have hsame : (d.fresh seen).phase = .header seen := by
    unfold fresh
    split
    · exact hphase
    · exact hphase
  have hfull : (d.fresh seen).full = d.full := by
    rw [full, full, format_fresh, width_fresh]
  rw [push_header hsame, push_header hphase, fresh_fresh, hfull]

theorem pushHeader_inner (d : Depacketizer) (h8 : d.width ≤ 8) (seen : Bytes) {word : Bytes}
    (hword : word.length = d.width) :
    d.pushHeader seen (Beat.inner word) =
      if seen.length + d.width = d.full ∧ d.leftover = 0 then
        { d with fields := some (d.format.decode (seen ++ word)), phase := .aligned }
      else { d with phase := .header (seen ++ word) } := by
  have hlanes : (Beat.inner word).lanes d.width = word := by
    rw [← hword]
    exact Beat.lanes_length (by omega) rfl
  have hlast : (Beat.inner word).last = false := rfl
  simp only [pushHeader, hlanes, hlast, List.length_append, hword]
  by_cases hend : seen.length + d.width = d.full ∧ d.leftover = 0
  · simp [hend]
  · rw [if_neg hend, if_neg (by simpa using hend)]
    simp

/-- A packet may end with its header, or inside it. -/
theorem pushHeader_closing (d : Depacketizer) (h8 : d.width ≤ 8) {seen word : Bytes}
    (hne : word ≠ []) (hword : word.length ≤ d.width) (hfull : seen.length + d.width ≤ d.full) :
    d.pushHeader seen (Beat.closing word) =
      if seen.length + word.length = d.format.length then
        { d with fields := some (d.format.decode (seen ++ word)), phase := .header [] }
      else { d with truncated := true, phase := .header [] } := by
  have hsum := d.full_add_leftover
  have hlast : (Beat.closing word).last = true := rfl
  have hvalid := Beat.validLanes_closing d.width hne (show word.length ≤ 8 by omega)
  simp only [pushHeader, hlast, hvalid, List.length_append, Beat.length_lanes]
  by_cases hend : seen.length + word.length = d.format.length
  · have hlanes : (Beat.closing word).lanes d.width = word := by
      rw [show d.width = word.length by omega]
      exact Beat.lanes_length (by omega) rfl
    rw [if_pos hend, if_pos (by simp; omega), hlanes]
    simp
  · rw [if_neg hend, if_neg (by simp; omega)]
    simp

theorem pushBoundary_inner (d : Depacketizer) (hw : FitsWord d.width) (seen : Bytes)
    {word : Bytes} (hword : word.length = d.width) :
    d.pushBoundary seen (Beat.inner word) =
      ({ d with
          fields := some (d.format.decode (seen ++ word.take d.leftover))
          phase := .shifted (laneWord word) }, []) := by
  have hlt : d.leftover < d.width := Nat.mod_lt _ hw.pos
  have h8 := hw.le_eight
  have hlanes : (Beat.inner word).lanes d.leftover = word.take d.leftover :=
    Beat.lanes_take (by omega) rfl (by omega)
  have hlast : (Beat.inner word).last = false := rfl
  simp only [pushBoundary, hlanes, hlast]
  rfl

/-- What lies above the header in its last word is the payload, if the word reaches that far. -/
theorem pushBoundary_closing (d : Depacketizer) (hw : FitsWord d.width)
    (hleft : 0 < d.leftover) (seen : Bytes) {word : Bytes} (hne : word ≠ [])
    (hword : word.length ≤ d.width) (hl : d.leftover ≤ word.length) :
    d.pushBoundary seen (Beat.closing word) =
      ({ d with
          fields := some (d.format.decode (seen ++ word.take d.leftover))
          phase := .header [] }, Beat.ofBytes d.width (word.drop d.leftover)) := by
  have hlt : d.leftover < d.width := Nat.mod_lt _ hw.pos
  have h8 := hw.le_eight
  have hlanes : (Beat.closing word).lanes d.leftover = word.take d.leftover :=
    Beat.lanes_take (by omega) rfl hl
  have hlast : (Beat.closing word).last = true := rfl
  have hvalid := Beat.validLanes_closing d.width hne (show word.length ≤ 8 by omega)
  simp only [pushBoundary, hlanes, hlast, hvalid, data_closing, lastBe_closing]
  -- either payload octets are left in the word, or it ends with the header
  by_cases hlen : d.leftover < word.length
  · have hdata := word_tail hword hlt h8
    have hflag : rotateFlags (laneFlag (word.length - 1)) (d.width - d.leftover) d.width =
        laneFlag ((word.drop d.leftover).length - 1) := by
      rw [rotateFlags_flag hw (by omega) (by omega), List.length_drop,
        Nat.mod_eq_sub_mod (by omega), Nat.mod_eq_of_lt (by omega)]
      congr 1
      omega
    have hdropne : word.drop d.leftover ≠ [] := by
      rw [← List.length_pos_iff, List.length_drop]
      omega
    rw [if_neg (by simp), if_pos hlen, Beat.ofBytes_of_length_le hw.pos hdropne
      (by rw [List.length_drop]; omega)]
    show (_, [({ data := Packetizer.down (laneWord word) d.leftover &&& lanesMask d.width
                 last := true
                 lastBe := rotateFlags (laneFlag (word.length - 1)) (d.width - d.leftover)
                   d.width } : Beat)]) = _
    rw [hdata, hflag]
    rfl
  · have hdrop : word.drop d.leftover = [] := List.drop_of_length_le (by omega)
    have hge : ¬ word.length < d.leftover := by omega
    rw [if_neg (by simp), if_neg hlen, hdrop, Beat.ofBytes_nil]
    simp [restart, hge]

/-- A packet that ends before the header octets of its last word is marked. -/
theorem pushBoundary_short (d : Depacketizer) (seen : Bytes) {word : Bytes} (hne : word ≠ [])
    (h8 : word.length ≤ 8) (hl : word.length < d.leftover) :
    d.pushBoundary seen (Beat.closing word) =
      ({ d with
          fields := some (d.format.decode (seen ++ (Beat.closing word).lanes d.leftover))
          phase := .header [], truncated := true }, []) := by
  have hlast : (Beat.closing word).last = true := rfl
  have hvalid := Beat.validLanes_closing d.width hne h8
  simp only [pushBoundary, hlast, hvalid]
  rw [if_neg (by simp), if_neg (by omega)]
  simp [restart, hl]

/-! ## §4. A whole packet. -/

/-- A depacketizer after a packet: where the packet was long enough its header
is known, and in any case the next packet is awaited. -/
structure Received (d : Depacketizer) (bs : Bytes) (after : Depacketizer) : Prop where
  format : after.format = d.format
  width : after.width = d.width
  phase : after.phase = .header []
  truncated : after.truncated = decide (bs.length < d.format.length)
  fields : d.format.length ≤ bs.length →
    after.fields = some (d.format.decode (bs.take d.format.length))

/-- Some words of the header have been seen, and it is not complete. -/
structure Inside (d : Depacketizer) (seen : Bytes) : Prop where
  phase : d.phase = .header seen
  /-- Nothing is known of the packet before. -/
  fresh : d.fresh seen = d
  clean : d.truncated = false
  words : ∃ n, seen.length = n * d.width
  ahead : seen.length < d.full ∨ seen.length = d.full ∧ 0 < d.leftover

/-- The rest of a packet leads to what is behind its header. -/
def Comes (d : Depacketizer) (seen bs : Bytes) : Prop :=
  ∃ after, d.pushAll (Beat.ofBytes d.width bs) =
      (after, Beat.ofBytes d.width ((seen ++ bs).drop d.format.length)) ∧
    Received d (seen ++ bs) after

section Inside

variable {d : Depacketizer} {seen bs : Bytes}

/-- Whole words that do not fill the header leave room for one more. -/
theorem Inside.room (hin : d.Inside seen) (hlt : seen.length < d.full) :
    seen.length + d.width ≤ d.full := by
  obtain ⟨n, hn⟩ := hin.words
  exact add_width_le_full hn hlt

theorem Inside.push (hin : d.Inside seen) (beat : Beat) :
    d.push beat =
      if seen.length < d.full then (d.pushHeader seen beat, []) else d.pushBoundary seen beat := by
  rw [push_header hin.phase, hin.fresh]

/-- The packet ends with the header, or before. -/
theorem Inside.closing_within (hin : d.Inside seen) (hw : FitsWord d.width)
    (hlt : seen.length < d.full) (hne : bs ≠ []) (hlen : bs.length ≤ d.width) :
    d.Comes seen bs := by
  have hsum := d.full_add_leftover
  have hroom := hin.room hlt
  have htotal : (seen ++ bs).length = seen.length + bs.length := List.length_append
  have hdrop : (seen ++ bs).drop d.format.length = [] := List.drop_of_length_le (by omega)
  refine ⟨d.pushHeader seen (Beat.closing bs), ?_, ?_⟩
  · rw [Beat.ofBytes_of_length_le hw.pos hne hlen, pushAll_cons, hin.push, if_pos hlt, pushAll_nil,
      List.append_nil, hdrop, Beat.ofBytes_nil]
  · rw [pushHeader_closing d hw.le_eight hne hlen hroom]
    by_cases hend : seen.length + bs.length = d.format.length
    · rw [if_pos hend]
      exact
        { format := rfl
          width := rfl
          phase := rfl
          truncated := hin.clean.trans (decide_eq_false (by omega)).symm
          fields := fun _ => by rw [List.take_of_length_le (by omega)] }
    · rw [if_neg hend]
      exact
        { format := rfl
          width := rfl
          phase := rfl
          truncated := (decide_eq_true (by omega)).symm
          fields := fun hle => absurd hle (by omega) }

/-- What the header shares with the last word it begins. -/
theorem take_drop_boundary (hfull : seen.length = d.full) (bs : Bytes) :
    (seen ++ bs).take d.format.length = seen ++ bs.take d.leftover ∧
      (seen ++ bs).drop d.format.length = bs.drop d.leftover := by
  have hsum := d.full_add_leftover
  have hcut : d.format.length - seen.length = d.leftover := by omega
  rw [List.take_append, List.drop_append, List.take_of_length_le (by omega),
    List.drop_of_length_le (by omega), List.nil_append, hcut]
  exact ⟨rfl, rfl⟩

/-- The packet ends inside the word that header and payload share. -/
theorem Inside.closing_boundary (hin : d.Inside seen) (hw : FitsWord d.width)
    (hfull : seen.length = d.full) (hleft : 0 < d.leftover) (hne : bs ≠ [])
    (hlen : bs.length ≤ d.width) : d.Comes seen bs := by
  have hsum := d.full_add_leftover
  have h8 := hw.le_eight
  have htotal : (seen ++ bs).length = seen.length + bs.length := List.length_append
  obtain ⟨htake, hdrop⟩ := take_drop_boundary hfull bs
  have hrun : d.pushAll (Beat.ofBytes d.width bs) = d.pushBoundary seen (Beat.closing bs) := by
    rw [Beat.ofBytes_of_length_le hw.pos hne hlen, pushAll_cons, hin.push, if_neg (by omega),
      pushAll_nil, List.append_nil]
  unfold Comes
  rw [hrun, hdrop]
  by_cases hshort : bs.length < d.leftover
  · rw [pushBoundary_short d seen hne (by omega) hshort, List.drop_of_length_le (by omega),
      Beat.ofBytes_nil]
    exact ⟨_, rfl,
      { format := rfl
        width := rfl
        phase := rfl
        truncated := (decide_eq_true (by omega)).symm
        fields := fun hle => absurd hle (by omega) }⟩
  · rw [pushBoundary_closing d hw hleft seen hne hlen (Nat.le_of_not_lt hshort)]
    exact ⟨_, rfl,
      { format := rfl
        width := rfl
        phase := rfl
        truncated := hin.clean.trans (decide_eq_false (by omega)).symm
        fields := fun _ => by rw [htake] }⟩

/-- The header ends with this word, and the payload begins with the next. -/
theorem Inside.inner_ends (hin : d.Inside seen) (hw : FitsWord d.width)
    (hfull : seen.length + d.width = d.full) (hleft : d.leftover = 0) (hlen : d.width < bs.length) :
    d.Comes seen bs := by
  have hsum := d.full_add_leftover
  have hpos := hw.pos
  have hword : (bs.take d.width).length = d.width := by
    rw [List.length_take, Nat.min_eq_left (by omega)]
  have hrest : bs.drop d.width ≠ [] := by
    rw [← List.length_pos_iff, List.length_drop]
    omega
  have hsplit : seen ++ bs = (seen ++ bs.take d.width) ++ bs.drop d.width := by
    rw [List.append_assoc, List.take_append_drop]
  have hcut : (seen ++ bs.take d.width).length = d.format.length := by
    rw [List.length_append, hword]
    omega
  have hdrop : (seen ++ bs).drop d.format.length = bs.drop d.width := by
    rw [hsplit, ← hcut, List.drop_left]
  have htake : (seen ++ bs).take d.format.length = seen ++ bs.take d.width := by
    rw [hsplit, ← hcut, List.take_left]
  let e : Depacketizer := { d with fields := some (d.format.decode (seen ++ bs.take d.width)) }
  have hpass : ({ e with phase := .aligned } : Depacketizer).pushAll
      (Beat.ofBytes d.width (bs.drop d.width)) = _ := pushAll_aligned e rfl hpos hrest
  refine ⟨e.restart, ?_, ?_⟩
  · rw [Beat.ofBytes_of_lt_length hpos hlen, pushAll_cons, hin.push, if_pos (by omega),
      pushHeader_inner d hw.le_eight seen hword, if_pos ⟨hfull, hleft⟩, hdrop]
    exact hpass
  · exact
      { format := rfl
        width := rfl
        phase := rfl
        truncated := by
          rw [hsplit, List.length_append, hcut, decide_eq_false (by omega)]
          exact hin.clean
        fields := fun _ => by
          rw [htake]
          rfl }

/-- The word lies within the header. -/
theorem Inside.grow (hin : d.Inside seen) (hw : FitsWord d.width) (hlt : seen.length < d.full)
    (hmore : ¬(seen.length + d.width = d.full ∧ d.leftover = 0)) {word : Bytes}
    (hword : word.length = d.width) :
    Inside { d with phase := .header (seen ++ word) } (seen ++ word) := by
  have hroom := hin.room hlt
  have hpos := hw.pos
  obtain ⟨n, hn⟩ := hin.words
  have hgrown : (seen ++ word).length = seen.length + d.width := by
    rw [List.length_append, hword]
  refine
    { phase := rfl
      fresh := ?_
      clean := hin.clean
      words := ⟨n + 1, by rw [hgrown, hn, Nat.add_one_mul]⟩
      ahead := ?_ }
  · have hne : ¬(seen ++ word).isEmpty = true := by
      rw [List.isEmpty_iff_length_eq_zero]
      omega
    exact if_neg hne
  · show (seen ++ word).length < d.full ∨ (seen ++ word).length = d.full ∧ 0 < d.leftover
    omega

/-- So the packet comes as it does with this word seen. -/
theorem Inside.inner_within (hin : d.Inside seen) (hw : FitsWord d.width)
    (hlt : seen.length < d.full) (hmore : ¬(seen.length + d.width = d.full ∧ d.leftover = 0))
    (hlen : d.width < bs.length)
    (hrest : Comes { d with phase := .header (seen ++ bs.take d.width) } (seen ++ bs.take d.width)
      (bs.drop d.width)) : d.Comes seen bs := by
  have hword : (bs.take d.width).length = d.width := by
    rw [List.length_take, Nat.min_eq_left (by omega)]
  have hsplit : seen ++ bs = (seen ++ bs.take d.width) ++ bs.drop d.width := by
    rw [List.append_assoc, List.take_append_drop]
  obtain ⟨after, hrun, hafter⟩ := hrest
  refine ⟨after, ?_, ?_⟩
  · rw [Beat.ofBytes_of_lt_length hw.pos hlen, pushAll_cons, hin.push, if_pos hlt,
      pushHeader_inner d hw.le_eight seen hword, if_neg hmore, hsplit]
    exact hrun
  · rw [hsplit]
    exact ⟨hafter.format, hafter.width, hafter.phase, hafter.truncated, hafter.fields⟩

/-- The header ends inside this word, and the payload moves down. -/
theorem Inside.inner_boundary (hin : d.Inside seen) (hw : FitsWord d.width)
    (hfull : seen.length = d.full) (hleft : 0 < d.leftover) (hlen : d.width < bs.length) :
    d.Comes seen bs := by
  have hsum := d.full_add_leftover
  have hpos := hw.pos
  have hlt : d.leftover < d.width := Nat.mod_lt _ hpos
  have hword : (bs.take d.width).length = d.width := by
    rw [List.length_take, Nat.min_eq_left (by omega)]
  have hrest : bs.drop d.width ≠ [] := by
    rw [← List.length_pos_iff, List.length_drop]
    omega
  obtain ⟨htake, hdrop⟩ := take_drop_boundary hfull bs
  have hhead : (bs.take d.width).take d.leftover = bs.take d.leftover := by
    rw [List.take_take, Nat.min_eq_left (by omega)]
  have htail : bs.drop d.leftover = (bs.take d.width).drop d.leftover ++ bs.drop d.width := by
    rw [← List.drop_append_of_le_length (by omega), List.take_append_drop]
  let e : Depacketizer := { d with fields := some (d.format.decode (seen ++ bs.take d.leftover)) }
  have hmove : ({ e with phase := .shifted (laneWord (bs.take d.width)) } : Depacketizer).pushAll
      (Beat.ofBytes d.width (bs.drop d.width)) = _ :=
    pushAll_shifted e rfl hw hleft hrest (bs.take d.width) hword
  refine ⟨e.restart, ?_, ?_⟩
  · rw [Beat.ofBytes_of_lt_length hpos hlen, pushAll_cons, hin.push, if_neg (by omega),
      pushBoundary_inner d hw seen hword, hhead, hdrop, htail]
    exact hmove
  · exact
      { format := rfl
        width := rfl
        phase := rfl
        truncated := by
          rw [List.length_append, decide_eq_false (by omega)]
          exact hin.clean
        fields := fun _ => by
          rw [htake]
          rfl }

end Inside

/-- The octets of a packet seen so far, and the rest of it as beats: the header
is complete once enough octets have come, and what lies behind it comes out. -/
theorem Inside.comes {w : Nat} (hw : FitsWord w) {bs : Bytes} (hne : bs ≠ []) :
    ∀ {d : Depacketizer} {seen : Bytes}, d.width = w → d.Inside seen → d.Comes seen bs := by
  refine Beat.words_induction hw.pos (motive := fun bs =>
    ∀ {d : Depacketizer} {seen : Bytes}, d.width = w → d.Inside seen → d.Comes seen bs) ?_ ?_ bs hne
  · rintro bs hne hlen d seen rfl hin
    rcases hin.ahead with hlt | ⟨hfull, hleft⟩
    · exact hin.closing_within hw hlt hne hlen
    · exact hin.closing_boundary hw hfull hleft hne hlen
  · rintro bs hlen ih d seen rfl hin
    have hword : (bs.take d.width).length = d.width := by
      rw [List.length_take, Nat.min_eq_left (by omega)]
    rcases hin.ahead with hlt | ⟨hfull, hleft⟩
    · by_cases hend : seen.length + d.width = d.full ∧ d.leftover = 0
      · exact hin.inner_ends hw hend.1 hend.2 hlen
      · exact hin.inner_within hw hlt hend hlen (ih rfl (hin.grow hw hlt hend hword))
    · exact hin.inner_boundary hw hfull hleft hlen

/-- **A packet comes out behind its header, beat for beat**, whatever packets
were pushed before it, and after it the next one is awaited. -/
theorem pushAll_packet (d : Depacketizer) (hw : FitsWord d.width)
    (hpos : 0 < d.format.length) (hphase : d.phase = .header []) {bs : Bytes} (hne : bs ≠ []) :
    ∃ after, d.pushAll (Beat.ofBytes d.width bs) =
        (after, Beat.ofBytes d.width (bs.drop d.format.length)) ∧
      Received d bs after := by
  have hsum := d.full_add_leftover
  have hin : (d.fresh []).Inside [] := by
    refine ⟨hphase, fresh_fresh d [], rfl, ⟨0, ?_⟩, ?_⟩
    · rw [List.length_nil, Nat.zero_mul]
    · show 0 < d.full ∨ 0 = d.full ∧ 0 < d.leftover
      omega
  obtain ⟨after, hrun, hafter⟩ := Inside.comes hw hne (d.width_fresh []) hin
  -- the first beat forgets the packet before, so it may as well be forgotten already
  have hsame :
      d.pushAll (Beat.ofBytes d.width bs) = (d.fresh []).pushAll (Beat.ofBytes d.width bs) := by
    obtain ⟨beat, rest, hbeats⟩ := List.exists_cons_of_ne_nil (Beat.ofBytes_ne_nil hw.pos hne)
    rw [hbeats, pushAll_cons, pushAll_cons, push_fresh hphase]
  rw [hsame]
  exact ⟨after, hrun, hafter.format, hafter.width, hafter.phase, hafter.truncated, hafter.fields⟩

/-- Header values and payload beats of a packet; none if it is shorter than its header. -/
theorem depacketizeBeats_ofBytes (d : Depacketizer) (hw : FitsWord d.width)
    (hpos : 0 < d.format.length) (bs : Bytes) :
    (d.depacketizeBeats (Beat.ofBytes d.width bs)).2 =
        (if bs.length < d.format.length then none
          else some (d.format.decode (bs.take d.format.length),
            Beat.ofBytes d.width (bs.drop d.format.length))) ∧
      (d.depacketizeBeats (Beat.ofBytes d.width bs)).1.format = d.format ∧
      (d.depacketizeBeats (Beat.ofBytes d.width bs)).1.width = d.width := by
  by_cases hne : bs = []
  · subst hne
    rw [List.length_nil, if_pos hpos, Beat.ofBytes_nil]
    exact ⟨rfl, rfl, rfl⟩
  obtain ⟨after, hrun, hafter⟩ := pushAll_packet d.reset hw hpos rfl hne
  have hrun' : d.reset.pushAll (Beat.ofBytes d.width bs) =
      (after, Beat.ofBytes d.width (bs.drop d.format.length)) := hrun
  have htrunc : after.truncated = decide (bs.length < d.format.length) := hafter.truncated
  simp only [depacketizeBeats, Beat.packet_ofBytes hw.pos hne, hrun', htrunc, decide_eq_true_eq]
  by_cases hshort : bs.length < d.format.length
  · rw [if_pos hshort, if_pos hshort]
    exact ⟨rfl, hafter.format, hafter.width⟩
  · have hfields : after.fields = some (d.format.decode (bs.take d.format.length)) :=
      hafter.fields (Nat.le_of_not_lt hshort)
    rw [if_neg hshort, if_neg hshort, hfields]
    exact ⟨rfl, hafter.format, hafter.width⟩

/-- Header values and payload octets of a packet; none if it is shorter than its header. -/
theorem depacketize_eq (d : Depacketizer) (hw : FitsWord d.width)
    (hpos : 0 < d.format.length) (bs : Bytes) :
    (d.depacketize bs).2 =
      if bs.length < d.format.length then none
      else some (d.format.decode (bs.take d.format.length), bs.drop d.format.length) := by
  obtain ⟨hbeats, -, hwidth⟩ := depacketizeBeats_ofBytes d hw hpos bs
  unfold depacketize
  dsimp only
  rw [hbeats, hwidth]
  by_cases hshort : bs.length < d.format.length
  · rw [if_pos hshort, if_pos hshort, Option.map_none]
  · rw [if_neg hshort, if_neg hshort, Option.map_some, Beat.toBytes_ofBytes hw.pos hw.le_eight]

/-- A header that was put in front is taken off again. -/
theorem depacketize_append (d : Depacketizer) (hw : FitsWord d.width)
    (hpos : 0 < d.format.length) {header : Bytes} (hlen : header.length = d.format.length)
    (payload : Bytes) :
    (d.depacketize (header ++ payload)).2 = some (d.format.decode header, payload) := by
  rw [depacketize_eq d hw hpos, if_neg (by rw [List.length_append]; omega), ← hlen,
    List.take_left, List.drop_left]

/-- Handling a packet changes neither the format nor the width. -/
theorem depacketize_format (d : Depacketizer) (hw : FitsWord d.width)
    (hpos : 0 < d.format.length) (bs : Bytes) :
    (d.depacketize bs).1.format = d.format ∧ (d.depacketize bs).1.width = d.width :=
  (depacketizeBeats_ofBytes d hw hpos bs).2

end Depacketizer
end NetBoard
