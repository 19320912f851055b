/-
  NetBoard.Proofs.Dhcp.Options
  ────────────────────────────
  **THE GRAMMAR OF OPTIONS.**

  A list of options is a sequence of items: padding is a single octet, an
  option its code, the number of octets of its value, and the value.  A close
  ends the list, and whatever follows it is not looked at.  Octets that are no
  such list come to their end too early: before the close, behind a code, or
  inside a value.  Every string of octets is one or the other, and the reader
  tells which.

  Of several options of one code the last one counts that is long enough.

  Main definitions:

      Closed   — a list of options, and the options in it
      Broken   — octets that end before the close of the list
      Latest   — the value that counts of a code

  Main statements:

      options_eq_some_iff, options_eq_none_iff
                            — the reader accepts the lists of the grammar
      options_encode        — options that are written are read back
      value?_eq_some_iff, value?_eq_none_iff
                            — the value that is found is the one that counts
-/
import NetBoard.Dhcp.Message

namespace NetBoard.Dhcp

/-! ## §1. Lists. -/

/-- An option that is neither padding nor the close, and whose length fits its octet. -/
structure Item.Formed (i : Item) : Prop where
  not_pad : i.code ≠ Code.pad
  not_close : i.code ≠ Code.close
  length : i.value.length < 256

/-- The octets begin with a list of these options. -/
inductive Closed : Bytes → List Item → Prop where
  /-- Anything may follow the close. -/
  | close (rest : Bytes) : Closed (Code.close :: rest) []
  | pad {bs : Bytes} {items : List Item} : Closed bs items → Closed (Code.pad :: bs) items
  | item {i : Item} {bs : Bytes} {items : List Item} :
      i.Formed → Closed bs items → Closed (i.encode ++ bs) (i :: items)

/-- The octets end before the close of a list. -/
inductive Broken : Bytes → Prop where
  /-- There is no close. -/
  | unclosed : Broken []
  /-- The last option has no length. -/
  | unmeasured {code : UInt8} : code ≠ Code.pad → code ≠ Code.close → Broken [code]
  /-- The length of the last option runs past the end. -/
  | overlong {code length : UInt8} {value : Bytes} : code ≠ Code.pad → code ≠ Code.close →
      value.length < length.toNat → Broken (code :: length :: value)
  | pad {bs : Bytes} : Broken bs → Broken (Code.pad :: bs)
  | item {i : Item} {bs : Bytes} : i.Formed → Broken bs → Broken (i.encode ++ bs)

/-! ## §2. The reader. -/

section Reader

variable {bs : Bytes} {items found : List Item} {i : Item}

theorem go_pad (found : List Item) (bs : Bytes) :
    options.go found (Code.pad :: bs) = options.go found bs := by
  rw [options.go.eq_def]
  exact if_pos rfl

theorem go_close (found : List Item) (rest : Bytes) :
    options.go found (Code.close :: rest) = some found.reverse := by
  rw [options.go.eq_def]
  exact (if_neg (by decide)).trans (if_pos rfl)

/-- An option that is written is read, and the reader goes on behind it. -/
theorem go_item (hi : i.Formed) (found : List Item) (bs : Bytes) :
    options.go found (i.encode ++ bs) = options.go (i :: found) bs := by
  have hcount : (UInt8.ofNat i.value.length).toNat = i.value.length := Nat.mod_eq_of_lt hi.length
  show options.go found (i.code :: UInt8.ofNat i.value.length :: (i.value ++ bs)) = _
  rw [options.go, if_neg hi.not_pad, if_neg hi.not_close]
  dsimp only
  rw [hcount, List.take_left, List.drop_left, if_neg (Nat.lt_irrefl _)]

/-- A value that is there makes an option with its code and length. -/
theorem encode_append {code length : UInt8} {rest : Bytes} (hlong : length.toNat ≤ rest.length) :
    Item.encode ⟨code, rest.take length.toNat⟩ ++ rest.drop length.toNat = code :: length :: rest := by
  have htake : (rest.take length.toNat).length = length.toNat := List.length_take_of_le hlong
  unfold Item.encode
  rw [htake, UInt8.ofNat_toNat, List.cons_append, List.cons_append, List.take_append_drop]

/-- Whatever the octets are, they begin with a list, or end before its close. -/
theorem go_cases (found : List Item) (bs : Bytes) :
    (∃ items, options.go found bs = some (found.reverse ++ items) ∧ Closed bs items) ∨
      options.go found bs = none ∧ Broken bs := by
  induction found, bs using options.go.induct with
  | case1 found => exact .inr ⟨by rw [options.go], .unclosed⟩
  | case2 found rest ih =>
    rw [go_pad]
    obtain ⟨items, hgo, hclosed⟩ | ⟨hgo, hbroken⟩ := ih
    · exact .inl ⟨items, hgo, hclosed.pad⟩
    · exact .inr ⟨hgo, hbroken.pad⟩
  | case3 found rest _ => exact .inl ⟨[], by rw [go_close, List.append_nil], .close rest⟩
  | case4 found code hpad hclose =>
    refine .inr ⟨?_, .unmeasured hpad hclose⟩
    rw [options.go, if_neg hpad, if_neg hclose]
  | case5 found code hpad hclose length rest value hshort =>
    have hvalue : rest.length < length.toNat := by
      rw [List.length_take] at hshort
      omega
    refine .inr ⟨?_, .overlong hpad hclose hvalue⟩
    rw [options.go, if_neg hpad, if_neg hclose]
    exact if_pos hshort
  | case6 found code hpad hclose length rest value hlong ih =>
    have hvalue : length.toNat ≤ rest.length := by
      rw [List.length_take] at hlong
      omega
    have hformed : Item.Formed ⟨code, value⟩ :=
      ⟨hpad, hclose, Nat.lt_of_le_of_lt (List.length_take_le ..) length.toNat_lt⟩
    rw [← encode_append hvalue, go_item hformed]
    obtain ⟨items, hgo, hclosed⟩ | ⟨hgo, hbroken⟩ := ih
    · refine .inl ⟨⟨code, value⟩ :: items, ?_, hclosed.item hformed⟩
      rw [hgo, List.reverse_cons, List.append_assoc]
      rfl
    · exact .inr ⟨hgo, hbroken.item hformed⟩

/-- A list is read to its close. -/
theorem Closed.go (h : Closed bs items) (found : List Item) :
    options.go found bs = some (found.reverse ++ items) := by
  induction h generalizing found with
  | close rest => rw [go_close, List.append_nil]
  | pad _ ih => rw [go_pad, ih]
  | item hi _ ih =>
    rw [go_item hi, ih, List.reverse_cons, List.append_assoc]
    rfl

theorem Broken.go (h : Broken bs) (found : List Item) : options.go found bs = none := by
  induction h generalizing found with
  | unclosed => rw [options.go]
  | unmeasured hpad hclose => rw [options.go, if_neg hpad, if_neg hclose]
  | @overlong code length value hpad hclose hshort =>
    rw [options.go, if_neg hpad, if_neg hclose]
    refine if_pos ?_
    rw [List.length_take]
    omega
  | pad _ ih => rw [go_pad, ih]
  | item hi _ ih => rw [go_item hi, ih]

/-- The reader accepts the lists of the grammar, with the options in them. -/
theorem options_eq_some_iff : options bs = some items ↔ Closed bs items := by
  constructor
  · intro hread
    obtain ⟨others, hgo, hclosed⟩ | ⟨hgo, -⟩ := go_cases [] bs
    · obtain rfl : others = items := Option.some.inj (hgo.symm.trans hread)
      exact hclosed
    · cases hgo.symm.trans hread
  · intro hclosed
    exact hclosed.go []

/-- The reader refuses what ends before the close. -/
theorem options_eq_none_iff : options bs = none ↔ Broken bs := by
  constructor
  · intro hread
    obtain ⟨items, hgo, -⟩ | ⟨-, hbroken⟩ := go_cases [] bs
    · cases hgo.symm.trans hread
    · exact hbroken
  · intro hbroken
    exact hbroken.go []

/-- Options written one after another, with anything behind them. -/
theorem Closed.of_items (hitems : ∀ i ∈ items, i.Formed) (rest : Bytes) :
    Closed (items.flatMap Item.encode ++ Code.close :: rest) items := by
  induction items with
  | nil => exact .close rest
  | cons i items ih =>
    rw [List.flatMap_cons, List.append_assoc]
    exact .item (hitems i List.mem_cons_self) (ih fun j hj => hitems j (List.mem_cons_of_mem i hj))

/-- Options that are written one after another and closed are read back. -/
theorem options_encode (hitems : ∀ i ∈ items, i.Formed) :
    options (items.flatMap Item.encode ++ [Code.close]) = some items :=
  options_eq_some_iff.mpr (.of_items hitems [])

end Reader

/-! ## §3. The value that counts. -/

/-- The value of the last option of a code that has at least `least` octets. -/
def Latest (items : List Item) (code : UInt8) (least : Nat) (value : Bytes) : Prop :=
  ∃ before after, items = before ++ ⟨code, value⟩ :: after ∧ least ≤ value.length ∧
    ∀ i ∈ after, i.code = code → i.value.length < least

section Values

variable {items : List Item} {code : UInt8} {least : Nat} {value : Bytes}

theorem value?_eq_some_iff : value? items code least = some value ↔ Latest items code least value := by
  unfold value? Latest
  simp only [Option.map_eq_some_iff, List.find?_eq_some_iff_append, Bool.and_eq_true, beq_iff_eq,
    decide_eq_true_eq]
  constructor
  · rintro ⟨⟨_, _⟩, ⟨⟨rfl, hlong⟩, after, before, hreverse, hafter⟩, rfl⟩
    refine ⟨before.reverse, after.reverse, ?_, hlong, ?_⟩
    · rw [← List.reverse_reverse items, hreverse, List.reverse_append, List.reverse_cons,
        List.append_assoc]
      rfl
    · intro i hi hcode
      have hshort := hafter i (List.mem_reverse.mp hi)
      simpa [hcode] using hshort
  · rintro ⟨before, after, rfl, hlong, hafter⟩
    refine ⟨⟨code, value⟩, ⟨⟨rfl, hlong⟩, after.reverse, before.reverse, ?_, ?_⟩, rfl⟩
    · rw [List.reverse_append, List.reverse_cons, List.append_assoc]
      rfl
    · intro i hi
      have hshort := hafter i (List.mem_reverse.mp hi)
      simpa [Decidable.imp_iff_not_or] using hshort

theorem value?_eq_none_iff :
    value? items code least = none ↔ ∀ i ∈ items, i.code = code → i.value.length < least := by
  simp [value?]

/-- Some value counts exactly if one is long enough. -/
theorem exists_value?_iff :
    (∃ value, value? items code least = some value) ↔
      ∃ i ∈ items, i.code = code ∧ least ≤ i.value.length := by
  rw [← Option.isSome_iff_exists]
  simp [value?]

/-- A later option does not count if it is too short. -/
example : value? [⟨Code.router, [10, 0, 0, 1]⟩, ⟨Code.router, [10]⟩] Code.router 4 =
    some [10, 0, 0, 1] := by decide

end Values

end NetBoard.Dhcp
