/-
  NetBoard.Proofs.Beat.Stride
  ───────────────────────────
  **A CHANGE OF WIDTH LOSES NOTHING.**

  Whatever beats a user hands over, a converter only looks at the octets that
  they carry; where both widths are the same it does not even do that, and
  hands the beats on with the marks they have.  So the octets are always the
  same on both sides, while the beats themselves come back only if they are
  those of a packet.  Which lists of beats these are can be said without the
  octets, by their marks and their empty lanes.

  Main definitions:

      WellFormed          — beats as a packet has them

  Main statements:

      marks_ofBytes       — the marks of a packet, by its length
      wellFormed_iff      — well formed are the beats of a packet, and no others
      toBytes_convert     — octets are kept, whatever the beats are
      convert_ofBytes     — the beats of a packet become those at the other width
      conversions_lossless
                          — all of this for converters of supported widths
-/
import NetBoard.Proofs.Beat.Realign

namespace NetBoard

open scoped Power

namespace Beat

variable {w : Nat}

/-! ## §1. Octets, beat by beat. -/

/-- The octets of the first packet: those of its first beat, then those of the others. -/
theorem toBytes_cons (b : Beat) (beats : List Beat) :
    toBytes w (b :: beats) = b.octets w ++ if b.last then [] else toBytes w beats := by
  unfold toBytes
  rw [packet_cons, List.flatMap_cons]
  cases b.last with
  | true => rfl
  | false => rfl

/-- A word without anything on its other lanes is the word of its first lanes. -/
theorem laneWord_lanes {b : Beat} {n : Nat} (h : b.data.toNat < 256 ^ n) :
    laneWord (b.lanes n) = b.data := by
  rw [laneWord, lanes_eq_ofNatLE, Bytes.toNatLE_ofNatLE, Nat.mod_eq_of_lt h, UInt64.ofNat_toNat]

/-! ## §2. Marks. -/

/-- **The marks of a packet**: the final beat alone is flagged, on the lane of the final octet;
the beats in front of it are full. -/
theorem marks_ofBytes (hw : 0 < w) {bs : Bytes} (h : bs ≠ []) :
    (ofBytes w bs).map (fun b => (b.last, b.lastBe)) =
      List.replicate ((bs.length - 1) / w) (false, 0) ++
        [(true, laneFlag ((bs.length - 1) % w))] := by
  refine words_induction hw (motive := fun bs =>
    (ofBytes w bs).map (fun b => (b.last, b.lastBe)) =
      List.replicate ((bs.length - 1) / w) (false, 0) ++
        [(true, laneFlag ((bs.length - 1) % w))]) ?_ ?_ bs h
  · intro bs h hlen
    have hpos : 0 < bs.length := List.length_pos_iff.mpr h
    have hlt : bs.length - 1 < w := by omega
    rw [ofBytes_of_length_le hw h hlen, Nat.div_eq_of_lt hlt, Nat.mod_eq_of_lt hlt]
    rfl
  · intro bs hlen ih
    have hsplit : bs.length - 1 = (bs.drop w).length - 1 + w := by
      rw [List.length_drop]
      omega
    rw [ofBytes_of_lt_length hw hlen, List.map_cons, ih, hsplit, Nat.add_div_right _ hw,
      Nat.add_mod_right, List.replicate_succ]
    rfl

/-! ## §3. Well-formed beats. -/

/-- **Beats as a packet has them.**  The final one ends the packet and is flagged on one lane;
no other beat has a mark; and there is nothing on the lanes that are not valid. -/
structure WellFormed (w : Nat) (beats : List Beat) : Prop where
  inner : ∀ b ∈ beats.dropLast, b.last = false ∧ b.lastBe = 0 ∧ b.data.toNat < 256 ^ w
  closing : ∀ b ∈ beats.getLast?,
    b.last = true ∧ ∃ lane < w, b.lastBe = laneFlag lane ∧ b.data.toNat < 256 ^ (lane + 1)

theorem wellFormed_nil : WellFormed w [] := ⟨nofun, nofun⟩

theorem wellFormed_singleton_iff {b : Beat} :
    WellFormed w [b] ↔
      b.last = true ∧ ∃ lane < w, b.lastBe = laneFlag lane ∧ b.data.toNat < 256 ^ (lane + 1) := by
  constructor
  · intro h
    exact h.closing b rfl
  · intro h
    refine ⟨nofun, fun c hc => ?_⟩
    obtain rfl := Option.some.inj hc
    exact h

theorem wellFormed_cons_iff {b : Beat} {beats : List Beat} (h : beats ≠ []) :
    WellFormed w (b :: beats) ↔
      (b.last = false ∧ b.lastBe = 0 ∧ b.data.toNat < 256 ^ w) ∧ WellFormed w beats := by
  obtain ⟨c, rest, rfl⟩ := List.exists_cons_of_ne_nil h
  have hlast : (b :: c :: rest).getLast? = (c :: rest).getLast? := List.getLast?_cons_cons
  constructor
  · rintro ⟨hinner, hclosing⟩
    rw [List.dropLast_cons_cons] at hinner
    rw [hlast] at hclosing
    exact ⟨hinner b List.mem_cons_self, fun d hd => hinner d (List.mem_cons_of_mem b hd), hclosing⟩
  · rintro ⟨hb, hinner, hclosing⟩
    refine ⟨fun d hd => ?_, hlast ▸ hclosing⟩
    rw [List.dropLast_cons_cons] at hd
    rcases List.mem_cons.1 hd with rfl | hd
    · exact hb
    · exact hinner d hd

/-- The word of some octets has nothing on other lanes. -/
theorem toNat_laneWord_lt {bs : Bytes} {n : Nat} (hlen : bs.length ≤ n) (h8 : n ≤ 8) :
    (laneWord bs).toNat < 256 ^ n := by
  rw [toNat_laneWord (by omega)]
  exact Bytes.toNatLE_lt_of_length_le hlen

theorem wellFormed_ofBytes (hw : FitsWord w) (bs : Bytes) : WellFormed w (ofBytes w bs) := by
  have hpos := hw.pos
  have h8 := hw.le_eight
  by_cases h : bs = []
  · subst h
    rw [ofBytes_nil]
    exact wellFormed_nil
  · refine words_induction hpos (motive := fun bs => WellFormed w (ofBytes w bs)) ?_ ?_ bs h
    · intro bs h hlen
      have hlane : 0 < bs.length := List.length_pos_iff.mpr h
      rw [ofBytes_of_length_le hpos h hlen, wellFormed_singleton_iff]
      exact ⟨rfl, bs.length - 1, by omega, rfl, toNat_laneWord_lt (by omega) (by omega)⟩
    · intro bs hlen ih
      have hrest : bs.drop w ≠ [] := by
        rw [Ne, List.drop_eq_nil_iff]
        omega
      have htake : (bs.take w).length ≤ w := List.length_take_le w bs
      rw [ofBytes_of_lt_length hpos hlen, wellFormed_cons_iff (ofBytes_ne_nil hpos hrest)]
      exact ⟨⟨rfl, rfl, toNat_laneWord_lt htake h8⟩, ih⟩

/-- A beat without marks is the inner word of its lanes. -/
theorem inner_lanes {b : Beat} (hlast : b.last = false) (hflag : b.lastBe = 0)
    (hdata : b.data.toNat < 256 ^ w) : inner (b.lanes w) = b := by
  have hword := laneWord_lanes hdata
  obtain ⟨data, last, lastBe⟩ := b
  obtain rfl : last = false := hlast
  obtain rfl : lastBe = 0 := hflag
  exact congrArg (fun data => (⟨data, false, 0⟩ : Beat)) hword

/-- A beat flagged on one lane is the closing word of the lanes up to it. -/
theorem closing_lanes {b : Beat} {lane : Nat} (hlast : b.last = true)
    (hflag : b.lastBe = laneFlag lane) (hdata : b.data.toNat < 256 ^ (lane + 1)) :
    closing (b.lanes (lane + 1)) = b := by
  have hword := laneWord_lanes hdata
  have hlen : (b.lanes (lane + 1)).length - 1 = lane := by
    rw [length_lanes, Nat.add_sub_cancel]
  obtain ⟨data, last, lastBe⟩ := b
  obtain rfl : last = true := hlast
  have hlastBe : lastBe = laneFlag lane := hflag
  show (⟨laneWord (lanes _ _), true, laneFlag (List.length (lanes _ _) - 1)⟩ : Beat) = _
  rw [hword, hlen, hlastBe]

/-- Well-formed beats are those of the octets that they carry. -/
theorem ofBytes_toBytes (hw : FitsWord w) {beats : List Beat} (h : WellFormed w beats) :
    ofBytes w (toBytes w beats) = beats := by
  have hpos := hw.pos
  have h8 := hw.le_eight
  induction beats with
  | nil => exact ofBytes_nil w
  | cons b beats ih =>
    by_cases hrest : beats = []
    · subst hrest
      obtain ⟨hlast, lane, hlane, hflag, hdata⟩ := wellFormed_singleton_iff.1 h
      have hlen : (b.lanes (lane + 1)).length = lane + 1 := length_lanes _ _
      have hne : b.lanes (lane + 1) ≠ [] := List.length_pos_iff.mp (by omega)
      have hb := closing_lanes hlast hflag hdata
      have hbytes : toBytes w [b] = b.lanes (lane + 1) := by
        rw [toBytes_cons, hlast, if_pos rfl, List.append_nil]
        conv => lhs; rw [← hb]
        exact octets_closing w hne (by omega)
      rw [hbytes, ofBytes_of_length_le hpos hne (by omega), hb]
    · obtain ⟨⟨hlast, hflag, hdata⟩, htail⟩ := (wellFormed_cons_iff hrest).1 h
      have hlen : (b.lanes w).length = w := length_lanes _ _
      have hb := inner_lanes hlast hflag hdata
      have hbytes : toBytes w (b :: beats) = b.lanes w ++ toBytes w beats := by
        rw [toBytes_cons, hlast, if_neg Bool.false_ne_true]
        conv => lhs; rw [← hb]
        rw [octets_inner hlen h8]
      have hmore : toBytes w beats ≠ [] := by
        intro hnil
        rw [hnil, ofBytes_nil] at ih
        exact hrest (ih htail).symm
      have hlonger : w < (b.lanes w ++ toBytes w beats).length := by
        have hmorelen : 0 < (toBytes w beats).length := List.length_pos_iff.mpr hmore
        rw [List.length_append]
        omega
      rw [hbytes, ofBytes_of_lt_length hpos hlonger, List.take_left' hlen, List.drop_left' hlen,
        hb, ih htail]

/-- **Well formed are the beats of a packet**, and no others. -/
theorem wellFormed_iff (hw : FitsWord w) {beats : List Beat} :
    WellFormed w beats ↔ ∃ bs, ofBytes w bs = beats := by
  constructor
  · intro h
    exact ⟨toBytes w beats, ofBytes_toBytes hw h⟩
  · rintro ⟨bs, rfl⟩
    exact wellFormed_ofBytes hw bs

end Beat

namespace Stride

open Beat

/-! ## §4. Converters. -/

/-- A converter is made for supported widths. -/
theorem make?_eq_ok {source target : Nat} (hsource : SupportedWidth source)
    (htarget : SupportedWidth target) : make? source target = .ok ⟨source, target⟩ := by
  unfold make?
  rw [checkWidth_eq_ok_iff.2 ⟨hsource, rfl⟩, checkWidth_eq_ok_iff.2 ⟨htarget, rfl⟩]
  rfl

variable {s : Stride}

/-- **The octets are kept**, whatever beats carry them and however these are marked. -/
theorem toBytes_convert (htarget : FitsWord s.target) (beats : List Beat) :
    toBytes s.target (s.convert beats) = toBytes s.source beats := by
  unfold convert
  by_cases hsame : s.source = s.target
  · rw [if_pos hsame, hsame]
  · rw [if_neg hsame, toBytes_ofBytes htarget.pos htarget.le_eight]

/-- **The beats of a packet** become its beats at the other width. -/
theorem convert_ofBytes (hsource : FitsWord s.source) (bs : Bytes) :
    s.convert (ofBytes s.source bs) = ofBytes s.target bs := by
  unfold convert
  by_cases hsame : s.source = s.target
  · rw [if_pos hsame, hsame]
  · rw [if_neg hsame, toBytes_ofBytes hsource.pos hsource.le_eight]

/-- **There and back**, the beats of a packet are what they were. -/
theorem convert_convert_ofBytes (hsource : FitsWord s.source) (htarget : FitsWord s.target)
    (bs : Bytes) : s.reverse.convert (s.convert (ofBytes s.source bs)) = ofBytes s.source bs := by
  rw [convert_ofBytes hsource]
  exact convert_ofBytes (s := s.reverse) htarget bs

/-- **A change of width loses nothing.**

For every two supported widths there is a converter.  Octets that are put on beats are read
back from them; whatever the beats are, and however they are marked, as many octets come out
of the converter as went in, and the same ones.  The beats of a packet become its beats at the
other width, and come back as they were.  These are the lists of beats of which only the final
one is flagged, on its last valid lane, with nothing on lanes that are not valid. -/
theorem conversions_lossless {source target : Nat} (hsource : SupportedWidth source)
    (htarget : SupportedWidth target) :
    ∃ s, make? source target = .ok s ∧
      (∀ bs, toBytes source (ofBytes source bs) = bs) ∧
      (∀ beats, toBytes target (s.convert beats) = toBytes source beats) ∧
      (∀ bs, s.convert (ofBytes source bs) = ofBytes target bs ∧
        s.reverse.convert (s.convert (ofBytes source bs)) = ofBytes source bs) ∧
      (∀ beats, WellFormed source beats ↔ ∃ bs, ofBytes source bs = beats) ∧
      ∀ bs ≠ [], (ofBytes source bs).map (fun b => (b.last, b.lastBe)) =
        List.replicate ((bs.length - 1) / source) (false, 0) ++
          [(true, laneFlag ((bs.length - 1) % source))] := by
  refine ⟨⟨source, target⟩, make?_eq_ok hsource htarget, ?_, ?_, ?_, ?_, ?_⟩
  · exact toBytes_ofBytes hsource.pos hsource.le_eight
  · exact toBytes_convert (s := ⟨source, target⟩) htarget.fits
  · intro bs
    exact ⟨convert_ofBytes (s := ⟨source, target⟩) hsource.fits bs,
      convert_convert_ofBytes (s := ⟨source, target⟩) hsource.fits htarget.fits bs⟩
  · intro beats
    exact wellFormed_iff hsource.fits
  · intro bs hbs
    exact marks_ofBytes hsource.pos hbs

/-- Two flags on one beat, a flag where no packet ends, and a beat behind the end: from two
lanes to eight the octets are those up to the highest flag of the beat that ends the packet. -/
theorem conversions_lossless_ragged :
    let s : Stride := ⟨2, 8⟩
    let beats : List Beat :=
      [{ data := 0x0201, lastBe := 1 }, { data := 0x050403, last := true, lastBe := 6 },
        { data := 0x0706 }]
    SupportedWidth 2 ∧ SupportedWidth 8 ∧ make? 2 8 = .ok s ∧
      toBytes 8 (s.convert beats) = [1, 2, 3, 4, 5] := by
  intro s beats
  have htwo : SupportedWidth 2 := .inr (.inl rfl)
  have height : SupportedWidth 8 := .inr (.inr (.inr rfl))
  obtain ⟨made, hmade, -, hbytes, -⟩ := conversions_lossless htwo height
  obtain rfl : s = made := Except.ok.inj ((make?_eq_ok htwo height).symm.trans hmade)
  exact ⟨htwo, height, hmade, (hbytes beats).trans (by decide)⟩

end Stride
end NetBoard
