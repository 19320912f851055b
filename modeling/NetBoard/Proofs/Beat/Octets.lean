/-
  NetBoard.Proofs.Beat.Octets
  ───────────────────────────
  **BEATS AND THE OCTETS THEY CARRY.**

  A bus word is a number whose low octet is lane 0, so cutting and joining
  words is arithmetic on numbers read least significant octet first.  This
  module relates the two, and unrolls the cut of a packet into beats one word
  at a time.

  Main statements:

      Bytes.toNatLE_append   — joining words adds a shifted number
      Beat.octets_inner      — an inner word carries its octets
      Beat.octets_closing    — so does a closing word, however short
      Beat.ofBytes_append    — whole words in front are cut off one by one
      Beat.toBytes_ofBytes   — beats carry exactly the octets they were made of
-/
import Mathlib.Data.List.TakeDrop
import NetBoard.Beat

namespace NetBoard

open scoped Power

namespace Bytes

/-! ## §1. Numbers, least significant octet first. -/

@[simp] theorem toNatLE_nil : toNatLE [] = 0 := rfl

theorem toNatLE_cons (b : UInt8) (bs : Bytes) :
    toNatLE (b :: bs) = b.toNat + 256 * toNatLE bs := rfl

theorem toNatLE_append (xs ys : Bytes) :
    toNatLE (xs ++ ys) = toNatLE xs + 256 ^ xs.length * toNatLE ys := by
  induction xs with
  | nil => simp
  | cons x xs ih =>
    rw [List.cons_append, toNatLE_cons, toNatLE_cons, ih, List.length_cons, Nat.pow_succ',
      Nat.mul_add, Nat.add_assoc, Nat.mul_assoc]

theorem toNatLE_lt (bs : Bytes) : toNatLE bs < 256 ^ bs.length := by
  induction bs with
  | nil => simp
  | cons b bs ih =>
    have hb := b.toNat_lt
    rw [toNatLE_cons, List.length_cons, Nat.pow_succ]
    omega

/-- A number of fewer octets fits a word of more. -/
theorem toNatLE_lt_of_length_le {bs : Bytes} {n : Nat} (h : bs.length ≤ n) :
    toNatLE bs < 256 ^ n :=
  Nat.lt_of_lt_of_le (toNatLE_lt bs) (Nat.pow_le_pow_right (by decide) h)

/-- The first octets are the number modulo a power of 256. -/
theorem toNatLE_take (n : Nat) (bs : Bytes) : toNatLE (bs.take n) = toNatLE bs % 256 ^ n := by
  by_cases h : n ≤ bs.length
  · have hlen : (bs.take n).length = n := by simp [h]
    have hlt := toNatLE_lt (bs.take n)
    rw [hlen] at hlt
    conv => rhs; rw [← List.take_append_drop n bs, toNatLE_append, hlen]
    rw [Nat.add_mul_mod_self_left, Nat.mod_eq_of_lt hlt]
  · rw [List.take_of_length_le (by omega),
      Nat.mod_eq_of_lt (toNatLE_lt_of_length_le (by omega))]

/-- The octets behind the first ones are the quotient by a power of 256. -/
theorem toNatLE_drop (n : Nat) (bs : Bytes) : toNatLE (bs.drop n) = toNatLE bs / 256 ^ n := by
  by_cases h : n ≤ bs.length
  · have hlen : (bs.take n).length = n := by simp [h]
    have hlt := toNatLE_lt (bs.take n)
    rw [hlen] at hlt
    conv => rhs; rw [← List.take_append_drop n bs, toNatLE_append, hlen]
    rw [Nat.add_mul_div_left _ _ (Nat.pow_pos (by decide)), Nat.div_eq_of_lt hlt, Nat.zero_add]
  · rw [List.drop_of_length_le (by omega),
      Nat.div_eq_of_lt (toNatLE_lt_of_length_le (by omega))]
    rfl

/-- Writing a number that was read gives the octets back. -/
theorem ofNatLE_toNatLE (bs : Bytes) : ofNatLE bs.length (toNatLE bs) = bs := by
  induction bs with
  | nil => rfl
  | cons b bs ih =>
    have hb := b.toNat_lt
    have hdiv : (b.toNat + 256 * toNatLE bs) / 256 = toNatLE bs := by omega
    rw [List.length_cons, ofNatLE, toNatLE_cons, hdiv, ih]
    congr 1
    apply UInt8.toNat_inj.1
    rw [UInt8.toNat_ofNat']
    omega

/-- Reading a number that was written gives its low octets back. -/
theorem toNatLE_ofNatLE (n v : Nat) : toNatLE (ofNatLE n v) = v % 256 ^ n := by
  induction n generalizing v with
  | zero =>
    rw [Nat.pow_zero, Nat.mod_one]
    rfl
  | succ n ih => rw [ofNatLE, toNatLE_cons, ih, Nat.pow_succ', Nat.mod_mul, UInt8.toNat_ofNat']

/-! ## §2. The cut into words. -/

/-- One word in front of the words of the rest. -/
theorem words_eq_cons {w : Nat} (hw : 0 < w) {bs : Bytes} (h : bs ≠ []) :
    words w bs = bs.take w :: words w (bs.drop w) := by
  obtain ⟨b, rest, rfl⟩ := List.exists_cons_of_ne_nil h
  obtain ⟨k, rfl⟩ : ∃ k, w = k + 1 := ⟨w - 1, by omega⟩
  rw [words_cons, List.take_succ_cons, List.drop_succ_cons, Nat.add_sub_cancel]

/-- Whole words in front are cut off as they are. -/
theorem words_append {w : Nat} (hw : 0 < w) (n : Nat) :
    ∀ {xs : Bytes} (ys : Bytes), xs.length = n * w →
      words w (xs ++ ys) = words w xs ++ words w ys := by
  induction n with
  | zero =>
    intro xs ys h
    have hx : xs = [] := List.length_eq_zero_iff.mp (by omega)
    subst hx
    simp
  | succ n ih =>
    intro xs ys h
    rw [Nat.add_one_mul] at h
    have hne : xs ≠ [] := by
      intro hx
      subst hx
      rw [List.length_nil] at h
      omega
    rw [words_eq_cons hw (by simp [hne]), words_eq_cons hw hne,
      List.take_append_of_le_length (by omega), List.drop_append_of_le_length (by omega),
      ih ys (by rw [List.length_drop]; omega), List.cons_append]

theorem words_ne_nil {w : Nat} (hw : 0 < w) {bs : Bytes} (h : bs ≠ []) : words w bs ≠ [] := by
  rw [words_eq_cons hw h]
  simp

/-- The words one by one: as many as begin before the end. -/
theorem getElem?_words {w : Nat} (hw : 0 < w) (bs : Bytes) (i : Nat) :
    (words w bs)[i]? = if i * w < bs.length then some ((bs.drop (i * w)).take w) else none := by
  induction i generalizing bs with
  | zero =>
    by_cases hne : bs = []
    · subst hne
      rw [words_nil, Nat.zero_mul]
      rfl
    · have hpos : 0 < bs.length := List.length_pos_iff.mpr hne
      rw [words_eq_cons hw hne, Nat.zero_mul, if_pos hpos, List.drop_zero]
      rfl
  | succ i ih =>
    by_cases hne : bs = []
    · subst hne
      rw [words_nil, List.length_nil, if_neg (Nat.not_lt_zero _)]
      rfl
    · rw [words_eq_cons hw hne, List.getElem?_cons_succ, ih, List.length_drop, List.drop_drop,
        Nat.succ_mul, Nat.add_comm w]
      have hiff : i * w < bs.length - w ↔ i * w + w < bs.length := by omega
      simp only [hiff]

theorem lt_length_words_iff {w : Nat} (hw : 0 < w) (bs : Bytes) (i : Nat) :
    i < (words w bs).length ↔ i * w < bs.length := by
  have hword := getElem?_words hw bs i
  by_cases hlt : i * w < bs.length
  · rw [if_pos hlt] at hword
    obtain ⟨hi, -⟩ := List.getElem?_eq_some_iff.1 hword
    exact iff_of_true hi hlt
  · rw [if_neg hlt] at hword
    have hi := List.getElem?_eq_none_iff.1 hword
    exact iff_of_false (by omega) hlt

/-- Octets that fill `n` words are cut into as many. -/
theorem length_words {w : Nat} (hw : 0 < w) {bs : Bytes} {n : Nat} (h : bs.length = n * w) :
    (words w bs).length = n := by
  apply Nat.le_antisymm
  · apply Nat.le_of_not_lt
    intro hmore
    rw [lt_length_words_iff hw, h] at hmore
    exact Nat.lt_irrefl _ hmore
  · apply Nat.le_of_not_lt
    intro hfewer
    have hbegins : (words w bs).length * w < bs.length := by
      rw [h]
      exact Nat.mul_lt_mul_of_pos_right hfewer hw
    exact Nat.lt_irrefl _ ((lt_length_words_iff hw bs _).2 hbegins)

/-- Eight octets and a rest. -/
theorem exists_octets {bs : Bytes} (h : 8 ≤ bs.length) :
    ∃ a b c d e f g h rest, bs = a :: b :: c :: d :: e :: f :: g :: h :: rest := by
  match bs, h with
  | a :: b :: c :: d :: e :: f :: g :: h :: rest, _ => exact ⟨a, b, c, d, e, f, g, h, rest, rfl⟩

end Bytes

namespace Beat

/-! ## §3. Lanes. -/

/-- The first lanes of a word are the low octets of its number. -/
theorem lanes_eq_ofNatLE (n : Nat) (b : Beat) : b.lanes n = Bytes.ofNatLE n b.data.toNat := by
  suffices h : ∀ n v, (List.range n).map (fun i => UInt8.ofNat (v >>> (8 * i))) =
      Bytes.ofNatLE n v from h n b.data.toNat
  intro n
  induction n with
  | zero => intro v; rfl
  | succ n ih =>
    intro v
    rw [List.range_succ_eq_map, List.map_cons, List.map_map, Bytes.ofNatLE, ← ih (v / 256)]
    refine List.cons_eq_cons.mpr ⟨rfl, List.map_congr_left fun i _ => ?_⟩
    show UInt8.ofNat (v >>> (8 * (i + 1))) = UInt8.ofNat ((v / 256) >>> (8 * i))
    rw [Nat.mul_add, Nat.add_comm, Nat.shiftRight_add, Nat.shiftRight_eq_div_pow v]

/-- The number on the lanes of a word of at most eight octets. -/
theorem toNat_ofNat_toNatLE {word : Bytes} (h : word.length ≤ 8) :
    (UInt64.ofNat word.toNatLE).toNat = word.toNatLE := by
  rw [UInt64.toNat_ofNat']
  exact Nat.mod_eq_of_lt (Bytes.toNatLE_lt_of_length_le h)

/-- The lanes of a word are its octets. -/
theorem lanes_length {word : Bytes} (h : word.length ≤ 8) {b : Beat}
    (hb : b.data = UInt64.ofNat word.toNatLE) : b.lanes word.length = word := by
  rw [lanes_eq_ofNatLE, hb, toNat_ofNat_toNatLE h, Bytes.ofNatLE_toNatLE]

/-- The first lanes of a word are its first octets. -/
theorem lanes_take {word : Bytes} (h : word.length ≤ 8) {b : Beat}
    (hb : b.data = UInt64.ofNat word.toNatLE) {n : Nat} (hn : n ≤ word.length) :
    b.lanes n = word.take n := by
  have htake : b.lanes n = (b.lanes word.length).take n := by
    rw [lanes, lanes, ← List.map_take, List.take_range, Nat.min_eq_left hn]
  rw [htake, lanes_length h hb]

/-! ## §4. Words inside a packet and at its end. -/

/-- A flag is one of the eight powers of two. -/
theorem toNat_flag {k : Nat} (h : k < 8) : (UInt8.ofNat (2 ^ k)).toNat = 2 ^ k := by
  rw [UInt8.toNat_ofNat']
  exact Nat.mod_eq_of_lt (Nat.pow_lt_pow_right (by decide) h)

theorem flag_ne_zero {k : Nat} (h : k < 8) : UInt8.ofNat (2 ^ k) ≠ 0 := by
  intro h0
  have hn := toNat_flag h
  rw [h0] at hn
  exact absurd hn.symm (Nat.pos_iff_ne_zero.mp (Nat.pow_pos (by decide)))

/-- A closing word holds as many octets as its flag says. -/
theorem validLanes_closing (w : Nat) {word : Bytes} (h0 : word ≠ []) (h8 : word.length ≤ 8) :
    (closing word).validLanes w = word.length := by
  have hpos : 0 < word.length := List.length_pos_iff.mpr h0
  have hk : word.length - 1 < 8 := by omega
  have hflag : (closing word).lastBe = UInt8.ofNat (2 ^ (word.length - 1)) := rfl
  have hne : ((closing word).lastBe != 0) = true := by
    simpa [hflag] using flag_ne_zero hk
  rw [validLanes, hne, hflag, toNat_flag hk, Nat.log2_two_pow]
  show word.length - 1 + 1 = word.length
  omega

theorem octets_inner {w : Nat} {word : Bytes} (hw : word.length = w) (h8 : w ≤ 8) :
    (inner word).octets w = word := by
  subst hw
  exact lanes_length h8 rfl

theorem octets_closing (w : Nat) {word : Bytes} (h0 : word ≠ []) (h8 : word.length ≤ 8) :
    (closing word).octets w = word := by
  rw [octets, validLanes_closing w h0 h8]
  exact lanes_length h8 rfl

/-! ## §5. The beats of a packet, word by word. -/

/-- A packet of one word. -/
theorem ofBytes_of_length_le {w : Nat} (hw : 0 < w) {bs : Bytes} (h : bs ≠ [])
    (hlen : bs.length ≤ w) : ofBytes w bs = [closing bs] := by
  rw [ofBytes, Bytes.words_eq_cons hw h, List.take_of_length_le hlen,
    List.drop_of_length_le hlen, Bytes.words_nil]
  rfl

/-- Whole words in front of more octets are inner words. -/
theorem ofBytes_append {w : Nat} (hw : 0 < w) (n : Nat) {xs ys : Bytes}
    (hx : xs.length = n * w) (hy : ys ≠ []) :
    ofBytes w (xs ++ ys) = (xs.words w).map inner ++ ofBytes w ys := by
  have hne := Bytes.words_ne_nil hw hy
  have hlast : (xs.words w ++ ys.words w).getLast? = (ys.words w).getLast? := by
    rw [List.getLast?_append, List.getLast?_eq_some_getLast hne, Option.some_or]
  simp only [ofBytes, Bytes.words_append hw n ys hx, List.dropLast_append_of_ne_nil hne, hlast,
    List.map_append, List.append_assoc]

/-- A packet of more than one word. -/
theorem ofBytes_of_lt_length {w : Nat} (hw : 0 < w) {bs : Bytes} (hlen : w < bs.length) :
    ofBytes w bs = inner (bs.take w) :: ofBytes w (bs.drop w) := by
  have htake : (bs.take w).length = 1 * w := by
    rw [List.length_take, Nat.min_eq_left (by omega), Nat.one_mul]
  have htakene : bs.take w ≠ [] := by
    intro h
    rw [h] at htake
    simp at htake
    omega
  have hdrop : bs.drop w ≠ [] := by
    intro h
    have := congrArg List.length h
    simp at this
    omega
  conv => lhs; rw [← List.take_append_drop w bs]
  rw [ofBytes_append hw 1 htake hdrop, Bytes.words_eq_cons hw htakene,
    List.take_of_length_le (by omega), List.drop_of_length_le (by omega), Bytes.words_nil]
  rfl

theorem ofBytes_ne_nil {w : Nat} (hw : 0 < w) {bs : Bytes} (h : bs ≠ []) : ofBytes w bs ≠ [] := by
  by_cases hlen : bs.length ≤ w
  · rw [ofBytes_of_length_le hw h hlen]
    simp
  · rw [ofBytes_of_lt_length hw (by omega)]
    simp

/-- Induction along the words of a packet that is not empty. -/
theorem words_induction {w : Nat} (hw : 0 < w) {motive : Bytes → Prop}
    (last : ∀ bs : Bytes, bs ≠ [] → bs.length ≤ w → motive bs)
    (step : ∀ bs : Bytes, w < bs.length → motive (bs.drop w) → motive bs)
    (bs : Bytes) (h : bs ≠ []) : motive bs := by
  by_cases hlen : bs.length ≤ w
  · exact last bs h hlen
  · have hdrop : bs.drop w ≠ [] := by
      intro h0
      have hlen0 := congrArg List.length h0
      rw [List.length_drop] at hlen0
      exact hlen (by simpa using Nat.sub_eq_zero_iff_le.mp hlen0)
    exact step bs (by omega) (words_induction hw last step (bs.drop w) hdrop)
termination_by bs.length
decreasing_by rw [List.length_drop]; omega

theorem packet_cons (b : Beat) (beats : List Beat) :
    packet (b :: beats) = b :: if b.last then [] else packet beats := by
  cases hb : b.last <;> simp [packet, List.span_eq_takeWhile_dropWhile, hb]

/-- The beats of a packet end with its only last beat. -/
theorem packet_ofBytes {w : Nat} (hw : 0 < w) {bs : Bytes} (h : bs ≠ []) :
    packet (ofBytes w bs) = ofBytes w bs := by
  refine words_induction hw (motive := fun bs => packet (ofBytes w bs) = ofBytes w bs) ?_ ?_ bs h
  · intro bs h hlen
    rw [ofBytes_of_length_le hw h hlen]
    rfl
  · intro bs hlen ih
    rw [ofBytes_of_lt_length hw hlen, packet_cons, ih]
    rfl

/-- The octets of a packet are those its beats were made of. -/
theorem toBytes_ofBytes {w : Nat} (hw : 0 < w) (h8 : w ≤ 8) (bs : Bytes) :
    toBytes w (ofBytes w bs) = bs := by
  by_cases h : bs = []
  · subst h
    rw [ofBytes_nil]
    rfl
  · rw [toBytes, packet_ofBytes hw h]
    refine words_induction hw (motive := fun bs => (ofBytes w bs).flatMap (octets w) = bs)
      ?_ ?_ bs h
    · intro bs h hlen
      rw [ofBytes_of_length_le hw h hlen, List.flatMap_singleton, octets_closing w h (by omega)]
    · intro bs hlen ih
      rw [ofBytes_of_lt_length hw hlen, List.flatMap_cons, ih,
        octets_inner (by rw [List.length_take]; omega) h8, List.take_append_drop]

end Beat
end NetBoard
