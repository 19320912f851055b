/-
  NetBoard.Proofs.Config.Address
  ──────────────────────────────
  **WHICH TEXTS ARE HARDWARE ADDRESSES.**

  A literal is six groups of two hexadecimal digits, with a colon between any
  two groups.  The reader does not follow that grammar: it cuts a text at its
  colons, takes pieces of two characters, and reads each of them as a number,
  which may have a plus sign in front.  So besides the literals it takes texts
  in which a plus sign stands in the place of a first digit, and that is all
  that it takes besides.

  Main definitions:

      HexDigit          — a character and its value, from the two rows of digits
      Group, LooseGroup — what writes an octet, and what is read as one
      Spelled           — a text of groups joined by colons
      Literal           — a text that is an address by the grammar

  Main statements:

      split_intercalate       — pieces joined by a separator are found again
      digit?_sixteen          — the digits of the base sixteen
      group?_eq_some_iff      — a group, from two characters
      literal_text            — a printed address is a literal
      literals_read           — which texts are read, and as what
      ofText?_eq_encoded      — the same if a group is measured in octets
-/
import Mathlib.Data.List.Forall2
import NetBoard.Config.Address

namespace NetBoard

namespace Text

/-! ## §1. Pieces and separators. -/

theorem split_eq_splitOn (separator : Char) (cs : List Char) :
    split separator cs = cs.splitOn separator := by
  induction cs with
  | nil => rfl
  | cons c cs ih =>
    rw [List.splitOn, List.splitOnP_cons_eq_if_modifyHead, ← List.splitOn, ← ih]
    by_cases h : c = separator
    · subst h
      rw [split_separator, if_pos (beq_self_eq_true c)]
    · obtain ⟨piece, rest, hpieces⟩ := List.exists_cons_of_ne_nil (split_ne_nil separator cs)
      rw [split_other h hpieces, hpieces, if_neg (by simpa using h)]
      rfl

/-- Pieces joined by a separator that none of them has are found again. -/
theorem split_intercalate {separator : Char} {pieces : List (List Char)} (hne : pieces ≠ [])
    (h : ∀ piece ∈ pieces, separator ∉ piece) :
    split separator ([separator].intercalate pieces) = pieces := by
  rw [split_eq_splitOn]
  exact List.splitOn_intercalate separator h hne

/-- What stands in joined pieces is the separator, or stands in one of the pieces. -/
theorem mem_intercalate {separator c : Char} {pieces : List (List Char)}
    (h : c ∈ [separator].intercalate pieces) : c = separator ∨ ∃ piece ∈ pieces, c ∈ piece := by
  induction pieces with
  | nil => simp at h
  | cons piece rest ih =>
    by_cases hrest : rest = []
    · subst hrest
      rw [List.intercalate_singleton] at h
      exact .inr ⟨piece, List.mem_cons_self, h⟩
    · rw [List.intercalate_cons_of_ne_nil hrest, List.append_assoc, List.mem_append,
        List.mem_append, List.mem_singleton] at h
      rcases h with hpiece | hseparator | hmore
      · exact .inr ⟨piece, List.mem_cons_self, hpiece⟩
      · exact .inl hseparator
      · rcases ih hmore with hseparator | ⟨other, hother, hmem⟩
        · exact .inl hseparator
        · exact .inr ⟨other, List.mem_cons_of_mem _ hother, hmem⟩

/-- What stands in a piece stands in the joined pieces. -/
theorem mem_intercalate_of_mem {separator c : Char} {pieces : List (List Char)}
    {piece : List Char} (hpiece : piece ∈ pieces) (h : c ∈ piece) :
    c ∈ [separator].intercalate pieces := by
  induction pieces with
  | nil => exact absurd hpiece List.not_mem_nil
  | cons first rest ih =>
    by_cases hrest : rest = []
    · subst hrest
      rw [List.intercalate_singleton]
      exact List.mem_singleton.1 hpiece ▸ h
    · rw [List.intercalate_cons_of_ne_nil hrest, List.append_assoc, List.mem_append]
      rcases List.mem_cons.1 hpiece with rfl | hlater
      · exact .inl h
      · exact .inr (List.mem_append_right _ (ih hlater))

/-! ## §2. Digits. -/

/-- **The digits of the base sixteen**, small or capital, with their values. -/
def HexDigit (c : Char) (value : Nat) : Prop :=
  "0123456789abcdef".toList[value]? = some c ∨ "0123456789ABCDEF".toList[value]? = some c

instance (c : Char) (value : Nat) : Decidable (HexDigit c value) :=
  inferInstanceAs (Decidable (_ ∨ _))

theorem HexDigit.lt {c : Char} {value : Nat} (h : HexDigit c value) : value < 16 := by
  rcases h with h | h
  · exact (List.getElem?_eq_some_iff.1 h).1
  · exact (List.getElem?_eq_some_iff.1 h).1

/-- Every digit is one of the first 128 characters. -/
theorem toNat_lt_of_digit? {c : Char} {value : Nat} (h : digit? 16 c = some value) :
    c.toNat < 128 := by
  have hle : ∀ {a b : Char}, a ≤ b → a.toNat ≤ b.toNat := fun h => UInt32.le_iff_toNat_le.1 h
  unfold digit? at h
  dsimp only at h
  split at h
  · next hrange =>
    have hhigh : c.toNat ≤ 0x39 := hle hrange.2
    omega
  · split at h
    · next hrange =>
      have hhigh : c.toNat ≤ 0x7a := hle hrange.2
      omega
    · split at h
      · next hrange =>
        have hhigh : c.toNat ≤ 0x5a := hle hrange.2
        omega
      · -- outside of the three ranges the value is the base
        exact absurd h (by simp)

/-- The reader's ranges of characters are the two rows of digits. -/
theorem digit?_sixteen {c : Char} {value : Nat} : digit? 16 c = some value ↔ HexDigit c value := by
  constructor
  · intro h
    have all : ∀ n < 128, ∀ v ∈ digit? 16 (Char.ofNat n), HexDigit (Char.ofNat n) v := by decide
    have hc := all c.toNat (toNat_lt_of_digit? h) value
    rw [Char.ofNat_toNat] at hc
    exact hc h
  · intro h
    have small : ∀ v < 16, "0123456789abcdef".toList[v]?.bind (digit? 16) = some v := by decide
    have capital : ∀ v < 16, "0123456789ABCDEF".toList[v]?.bind (digit? 16) = some v := by decide
    have hlt := h.lt
    rcases h with hsmall | hcapital
    · have hread := small value hlt
      rwa [hsmall] at hread
    · have hread := capital value hlt
      rwa [hcapital] at hread

/-- A digit is none of the characters that are not read. -/
theorem HexDigit.ne {c d : Char} {value : Nat} (h : HexDigit c value) (hd : digit? 16 d = none) :
    c ≠ d := by
  rintro rfl
  rw [digit?_sixteen.2 h] at hd
  cases hd

/-! ## §3. Numbers. -/

/-- All items of a list are read if every one of them is. -/
theorem mapM_eq_some_iff {α β : Type} {f : α → Option β} {xs : List α} {ys : List β} :
    xs.mapM f = some ys ↔ List.Forall₂ (fun x y => f x = some y) xs ys := by
  induction xs generalizing ys with
  | nil => simp [eq_comm]
  | cons x xs ih =>
    rw [List.mapM_cons]
    constructor
    · intro h
      obtain ⟨y, hy, h⟩ := Option.bind_eq_some_iff.1 h
      obtain ⟨rest, hrest, h⟩ := Option.bind_eq_some_iff.1 h
      obtain rfl := Option.some.inj h
      exact .cons hy (ih.1 hrest)
    · intro h
      cases h with
      | cons hy hrest =>
        rw [hy, ih.2 hrest]
        rfl

/-- Of two lists that agree item by item, an item of the first has its counterpart. -/
theorem exists_of_forall₂ {α β : Type} {R : α → β → Prop} {xs : List α} {ys : List β}
    (h : List.Forall₂ R xs ys) {x : α} (hx : x ∈ xs) : ∃ y ∈ ys, R x y := by
  induction h with
  | nil => exact absurd hx List.not_mem_nil
  | cons hxy _ ih =>
    rcases List.mem_cons.1 hx with rfl | hx
    · exact ⟨_, List.mem_cons_self, hxy⟩
    · obtain ⟨y, hy, hR⟩ := ih hx
      exact ⟨y, List.mem_cons_of_mem _ hy, hR⟩

theorem ofDigits_single (low : Nat) : ofDigits 16 [low] = low := by
  simp [ofDigits]

theorem ofDigits_pair (high low : Nat) : ofDigits 16 [high, low] = 16 * high + low := by
  simp [ofDigits]

/-- A number is its digits, at least one of them. -/
theorem digits?_eq_some_iff {cs : List Char} {n : Nat} :
    digits? 16 cs = some n ↔
      cs ≠ [] ∧ ∃ ds, List.Forall₂ HexDigit cs ds ∧ ofDigits 16 ds = n := by
  have hread : ∀ ds, cs.mapM (digit? 16) = some ds ↔ List.Forall₂ HexDigit cs ds := by
    intro ds
    rw [mapM_eq_some_iff]
    exact ⟨fun h => h.imp fun _ _ => digit?_sixteen.1, fun h => h.imp fun _ _ => digit?_sixteen.2⟩
  unfold digits?
  cases cs with
  | nil => simp
  | cons c cs =>
    rw [if_neg (by simp), Option.map_eq_some_iff]
    simp only [hread]
    exact ⟨fun h => ⟨List.cons_ne_nil c cs, h⟩, fun h => h.2⟩

/-- Only numbers of eight bits are octets. -/
theorem toOctet_eq_some_iff {number? : Option Nat} {o : UInt8} :
    (match number? with
      | some n => if n < 256 then some (UInt8.ofNat n) else none
      | none => none) = some o ↔ ∃ n, number? = some n ∧ n < 256 ∧ UInt8.ofNat n = o := by
  cases number? with
  | none => simp
  | some n => simp

theorem octet?_plus {cs : List Char} {o : UInt8} :
    octet? 16 ('+' :: cs) = some o ↔ ∃ n, digits? 16 cs = some n ∧ n < 256 ∧ UInt8.ofNat n = o :=
  toOctet_eq_some_iff

theorem octet?_unsigned {c : Char} {cs : List Char} {o : UInt8} (h : c ≠ '+') :
    octet? 16 (c :: cs) = some o ↔
      ∃ n, digits? 16 (c :: cs) = some n ∧ n < 256 ∧ UInt8.ofNat n = o := by
  rw [← toOctet_eq_some_iff]
  unfold octet?
  split
  · next hplus => exact absurd (List.cons_eq_cons.1 hplus).1 h
  · rfl

/-- The digits that are printed are small ones. -/
theorem hexDigit_digitChar {value : Nat} (h : value < 16) :
    HexDigit (Nat.digitChar value) value := by
  have all : ∀ v < 16, HexDigit (Nat.digitChar v) v := by decide
  exact all value h

/-- An octet is printed as two digits. -/
theorem toList_hexPadded {n : Nat} (h : n < 256) :
    (hexPadded 2 n).toList = [Nat.digitChar (n / 16), Nat.digitChar (n % 16)] := by
  rw [hexPadded, padLeft, hex, String.toList_ofList, String.toList_ofList,
    Nat.toDigits_eq_if (by decide)]
  by_cases hsmall : n < 16
  · rw [if_pos hsmall, Nat.div_eq_of_lt hsmall, Nat.mod_eq_of_lt hsmall]
    rfl
  · rw [if_neg hsmall, Nat.toDigits_of_lt_base (by omega)]
    rfl

end Text

namespace MacAddress

open Text

/-! ## §4. Groups. -/

/-- **A group of a literal** is two digits. -/
inductive Group : List Char → UInt8 → Prop
  | digits {c d : Char} {high low : Nat} (hhigh : HexDigit c high) (hlow : HexDigit d low) :
    Group [c, d] (UInt8.ofNat (16 * high + low))

/-- **What is read as a group**: a group, or a plus sign and one digit. -/
inductive LooseGroup : List Char → UInt8 → Prop
  | group {cs : List Char} {o : UInt8} (h : Group cs o) : LooseGroup cs o
  | plus {d : Char} {low : Nat} (hlow : HexDigit d low) : LooseGroup ['+', d] (UInt8.ofNat low)

/-- What is read as a group is one of these. -/
theorem looseGroup_of_group? {cs : List Char} {o : UInt8} (h : group? cs = some o) :
    LooseGroup cs o := by
  unfold group? at h
  split at h
  · next hlen =>
    obtain ⟨c, d, rfl⟩ := List.length_eq_two.1 hlen
    by_cases hplus : c = '+'
    · subst hplus
      obtain ⟨n, hn, -, rfl⟩ := octet?_plus.1 h
      obtain ⟨-, ds, hds, rfl⟩ := digits?_eq_some_iff.1 hn
      cases hds with
      | cons hlow hrest =>
        cases hrest
        rw [ofDigits_single]
        exact .plus hlow
    · obtain ⟨n, hn, -, rfl⟩ := (octet?_unsigned hplus).1 h
      obtain ⟨-, ds, hds, rfl⟩ := digits?_eq_some_iff.1 hn
      cases hds with
      | cons hhigh hrest =>
        cases hrest with
        | cons hlow hrest =>
          cases hrest
          rw [ofDigits_pair]
          exact .group (.digits hhigh hlow)
  · cases h

/-- All of these are read, each as its octet. -/
theorem LooseGroup.read {cs : List Char} {o : UInt8} (h : LooseGroup cs o) :
    group? cs = some o := by
  cases h with
  | group h =>
    cases h with
    | @digits c d high low hhigh hlow =>
      have hhigh16 := hhigh.lt
      have hlow16 := hlow.lt
      show octet? 16 [c, d] = _
      rw [octet?_unsigned (hhigh.ne (by decide))]
      refine ⟨16 * high + low, digits?_eq_some_iff.2 ⟨List.cons_ne_nil c [d], [high, low], ?_, ?_⟩,
        by omega, rfl⟩
      · exact .cons hhigh (.cons hlow .nil)
      · exact ofDigits_pair high low
  | @plus d low hlow =>
    have hlow16 := hlow.lt
    show octet? 16 ['+', d] = _
    rw [octet?_plus]
    refine ⟨low, digits?_eq_some_iff.2 ⟨List.cons_ne_nil d [], [low], ?_, ?_⟩, by omega, rfl⟩
    · exact .cons hlow .nil
    · exact ofDigits_single low

theorem group?_eq_some_iff {cs : List Char} {o : UInt8} : group? cs = some o ↔ LooseGroup cs o :=
  ⟨looseGroup_of_group?, LooseGroup.read⟩

/-- Nothing but digits stands in a group. -/
theorem Group.not_mem {cs : List Char} {o : UInt8} {c : Char} (h : Group cs o)
    (hc : digit? 16 c = none) : c ∉ cs := by
  intro hmem
  cases h with
  | digits hhigh hlow =>
    rcases List.mem_cons.1 hmem with hfirst | hmem
    · exact hhigh.ne hc hfirst.symm
    · exact hlow.ne hc (List.mem_singleton.1 hmem).symm

/-- Nothing but digits and the plus sign stands in what is read as a group. -/
theorem LooseGroup.not_mem {cs : List Char} {o : UInt8} {c : Char} (h : LooseGroup cs o)
    (hc : digit? 16 c = none) (hsign : c ≠ '+') : c ∉ cs := by
  intro hmem
  cases h with
  | group h => exact h.not_mem hc hmem
  | plus hlow =>
    rcases List.mem_cons.1 hmem with hfirst | hmem
    · exact hsign hfirst
    · exact hlow.ne hc (List.mem_singleton.1 hmem).symm

theorem LooseGroup.group_of_not_mem {cs : List Char} {o : UInt8} (h : LooseGroup cs o)
    (hplus : '+' ∉ cs) : Group cs o := by
  cases h with
  | group h => exact h
  | plus => exact absurd List.mem_cons_self hplus

/-! ## §5. Addresses. -/

/-- **A text of groups**, one for each octet of an address, with a colon between any two. -/
def Spelled (group : List Char → UInt8 → Prop) (s : String) (m : MacAddress) : Prop :=
  ∃ groups : List (List Char),
    s.toList = [':'].intercalate groups ∧ List.Forall₂ group groups m.octets

/-- **The literals of hardware addresses.** -/
def Literal : String → MacAddress → Prop := Spelled Group

theorem ofText?_eq_some_iff {s : String} {m : MacAddress} :
    ofText? s = some m ↔ Spelled LooseGroup s m := by
  unfold ofText?
  constructor
  · intro h
    split at h
    · next a b c d e f hgroups =>
      obtain rfl := Option.some.inj h
      refine ⟨split ':' s.toList, (intercalate_split ':' s.toList).symm, ?_⟩
      exact (mapM_eq_some_iff.1 hgroups).imp fun _ _ => group?_eq_some_iff.1
    · cases h
  · rintro ⟨groups, htext, hgroups⟩
    have hne : groups ≠ [] := by
      rintro rfl
      cases hgroups
    have hcolon : ∀ group ∈ groups, ':' ∉ group := by
      intro group hmem
      obtain ⟨o, -, ho⟩ := exists_of_forall₂ hgroups hmem
      exact ho.not_mem (by decide) (by decide)
    have hread : groups.mapM group? = some m.octets :=
      mapM_eq_some_iff.2 (hgroups.imp fun _ _ => group?_eq_some_iff.2)
    rw [htext, split_intercalate hne hcolon, hread]
    rfl

theorem parse_eq_ok_iff {s : String} {m : MacAddress} :
    parse s = .ok m ↔ Spelled LooseGroup s m := by
  rw [← ofText?_eq_some_iff, parse]
  cases ofText? s with
  | none => simp
  | some read => simp

theorem parse_eq_error_iff {s : String} {fault : Fault} :
    parse s = .error fault ↔
      fault = .config s!"invalid MAC address {Text.quoted s}" ∧ ¬∃ m, Spelled LooseGroup s m := by
  simp only [← ofText?_eq_some_iff]
  rw [parse]
  cases ofText? s with
  | none => simp [eq_comm]
  | some read => simp

/-- The literals are those spellings that do without a sign. -/
theorem literal_iff {s : String} {m : MacAddress} :
    Literal s m ↔ Spelled LooseGroup s m ∧ '+' ∉ s.toList := by
  constructor
  · rintro ⟨groups, htext, hgroups⟩
    refine ⟨⟨groups, htext, hgroups.imp fun _ _ => .group⟩, ?_⟩
    rw [htext]
    intro hplus
    rcases mem_intercalate hplus with hcolon | ⟨group, hmem, hplus⟩
    · exact absurd hcolon (by decide)
    · obtain ⟨o, -, ho⟩ := exists_of_forall₂ hgroups hmem
      exact ho.not_mem (by decide) hplus
  · rintro ⟨⟨groups, htext, hgroups⟩, hplus⟩
    rw [htext] at hplus
    have hunsigned : ∀ group ∈ groups, '+' ∉ group :=
      fun group hmem hsign => hplus (mem_intercalate_of_mem hmem hsign)
    have hboth := (List.forall₂_and_left groups m.octets).2 ⟨hunsigned, hgroups⟩
    exact ⟨groups, htext, hboth.imp fun _ _ h => h.2.group_of_not_mem h.1⟩

theorem group_hexPadded (o : UInt8) : Group (hexPadded 2 o.toNat).toList o := by
  have hlt := o.toNat_lt
  have hvalue : UInt8.ofNat (16 * (o.toNat / 16) + o.toNat % 16) = o := by
    rw [Nat.div_add_mod, UInt8.ofNat_toNat]
  rw [toList_hexPadded hlt]
  conv => rhs; rw [← hvalue]
  exact .digits (hexDigit_digitChar (by omega)) (hexDigit_digitChar (by omega))

/-- **What is printed is a literal.** -/
theorem literal_text (m : MacAddress) : Literal m.text m := by
  refine ⟨m.octets.map fun o => (hexPadded 2 o.toNat).toList, ?_, ?_⟩
  · rw [text, String.toList_intercalate, List.map_map]
    rfl
  · rw [List.forall₂_map_left_iff]
    exact List.forall₂_same.2 fun o _ => group_hexPadded o

/-- **Which texts are read as a hardware address, and as which.**

Those that are six groups joined by colons, where a group is two hexadecimal digits, small or
capital, or a plus sign and one digit; the octets are the values of the groups in their order.
Without the plus signs these are the literals.  All other texts are refused with a fault that
names the text, and a printed address is read as itself. -/
theorem literals_read (s : String) :
    (∀ m, parse s = .ok m ↔ Spelled LooseGroup s m) ∧
    (∀ m, Literal s m ↔ parse s = .ok m ∧ '+' ∉ s.toList) ∧
    (parse s = .error (.config s!"invalid MAC address {Text.quoted s}") ↔
      ¬∃ m, Spelled LooseGroup s m) ∧
    ∀ m : MacAddress, parse m.text = .ok m := by
  refine ⟨fun m => parse_eq_ok_iff, fun m => ?_, ?_, fun m => ?_⟩
  · rw [parse_eq_ok_iff]
    exact literal_iff
  · rw [parse_eq_error_iff]
    exact and_iff_right rfl
  · exact parse_eq_ok_iff.2 (literal_iff.1 (literal_text m)).1

/-- A sign in the place of a first digit: the text is read, and is no literal of any address. -/
theorem literals_read_signed :
    parse "+f:00:5E:01:02:0a" = .ok ⟨0x0f, 0x00, 0x5e, 0x01, 0x02, 0x0a⟩ ∧
      ¬∃ m, Literal "+f:00:5E:01:02:0a" m := by
  obtain ⟨-, hliteral, -⟩ := literals_read "+f:00:5E:01:02:0a"
  refine ⟨rfl, ?_⟩
  rintro ⟨m, hm⟩
  obtain ⟨-, hunsigned⟩ := (hliteral m).1 hm
  exact hunsigned (by decide)

/-! ## §6. Groups measured in octets. -/

/-- Encoded, a character of the first 128 is one octet. -/
theorem utf8ByteSize_of_ascii {cs : List Char} (h : ∀ c ∈ cs, c.toNat < 128) :
    (String.ofList cs).utf8ByteSize = cs.length := by
  induction cs with
  | nil => rfl
  | cons c cs ih =>
    have hle : c.toNat ≤ 127 := Nat.le_of_lt_succ (h c List.mem_cons_self)
    have hone : c.utf8Size = 1 := Char.utf8Size_eq_one_iff.2 (UInt32.le_iff_toNat_le.2 hle)
    rw [String.ofList_cons, String.utf8ByteSize_append, String.utf8ByteSize_singleton, hone,
      ih fun d hd => h d (List.mem_cons_of_mem c hd), List.length_cons, Nat.add_comm]

/-- The digits of a number are among the first 128 characters. -/
theorem toNat_lt_of_digits? {cs : List Char} {n : Nat} (h : digits? 16 cs = some n) :
    ∀ c ∈ cs, c.toNat < 128 := by
  intro c hc
  obtain ⟨-, ds, hds, -⟩ := digits?_eq_some_iff.1 h
  obtain ⟨value, -, hvalue⟩ := exists_of_forall₂ hds hc
  exact toNat_lt_of_digit? (digit?_sixteen.2 hvalue)

/-- So is all that is read as an octet, the sign included. -/
theorem toNat_lt_of_octet? {cs : List Char} {o : UInt8} (h : octet? 16 cs = some o) :
    ∀ c ∈ cs, c.toNat < 128 := by
  cases cs with
  | nil => simp
  | cons c cs =>
    by_cases hplus : c = '+'
    · subst hplus
      obtain ⟨n, hn, -⟩ := octet?_plus.1 h
      intro d hd
      rcases List.mem_cons.1 hd with rfl | hd
      · decide
      · exact toNat_lt_of_digits? hn d hd
    · obtain ⟨n, hn, -⟩ := (octet?_unsigned hplus).1 h
      exact toNat_lt_of_digits? hn

/-- A group of two octets in the encoding of the text. -/
def encodedGroup? (cs : List Char) : Option UInt8 :=
  if (String.ofList cs).utf8ByteSize = 2 then octet? 16 cs else none

theorem encodedGroup?_eq : encodedGroup? = group? := by
  funext cs
  unfold encodedGroup? group?
  cases hread : octet? 16 cs with
  | none => simp
  | some o => rw [utf8ByteSize_of_ascii (toNat_lt_of_octet? hread)]

/-- **Groups may be measured in characters or in octets of their encoding.**  No character that
is read needs more than one octet, so the same texts are read, as the same addresses. -/
theorem ofText?_eq_encoded (s : String) :
    ofText? s = match (split ':' s.toList).mapM encodedGroup? with
      | some [a, b, c, d, e, f] => some ⟨a, b, c, d, e, f⟩
      | _ => none := by
  rw [encodedGroup?_eq]
  rfl

end MacAddress
end NetBoard
