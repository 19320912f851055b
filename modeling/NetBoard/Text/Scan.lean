/-
  NetBoard.Text.Scan
  ──────────────────
  **READING TEXTS.**

  A text to be read is the list of its characters.  This module cuts it into
  the pieces between separators and reads unsigned numbers.

  Main statements:

      intercalate_split  — the pieces and separators make up the text
-/

namespace NetBoard.Text

/-! ## §1. Pieces. -/

/-- The pieces between separators.  Without a separator the text is one piece. -/
def split (separator : Char) (cs : List Char) : List (List Char) :=
  cs.foldr (fun c pieces =>
    if c = separator then [] :: pieces
    else match pieces with
      | piece :: rest => (c :: piece) :: rest
      | [] => [[c]]) [[]]

theorem split_ne_nil (separator : Char) (cs : List Char) : split separator cs ≠ [] := by
  cases cs with
  | nil => simp [split]
  | cons c cs =>
    simp only [split, List.foldr_cons]
    split
    · simp
    · split <;> simp

/-- A separator ends the first piece. -/
theorem split_separator (separator : Char) (cs : List Char) :
    split separator (separator :: cs) = [] :: split separator cs := by
  simp [split]

/-- Any other character belongs to the first piece. -/
theorem split_other {separator c : Char} (h : c ≠ separator) {cs piece : List Char}
    {rest : List (List Char)} (e : split separator cs = piece :: rest) :
    split separator (c :: cs) = (c :: piece) :: rest := by
  unfold split at e ⊢
  simp [h, e]

/-- The pieces, joined by separators, are the text again. -/
theorem intercalate_split (separator : Char) (cs : List Char) :
    [separator].intercalate (split separator cs) = cs := by
  induction cs with
  | nil => rfl
  | cons c cs ih =>
    obtain ⟨piece, rest, e⟩ := List.exists_cons_of_ne_nil (split_ne_nil separator cs)
    by_cases h : c = separator
    · subst h
      rw [split_separator, e]
      rw [e] at ih
      simpa [List.intercalate, List.intersperse] using ih
    · rw [split_other h e]
      rw [e] at ih
      cases rest with
      | nil => simpa [List.intercalate] using ih
      | cons r rs => simpa [List.intercalate, List.intersperse] using ih

/-! ## §2. Numbers. -/

/-- The value of a digit in the base `radix`; letters of both cases are digits from ten on. -/
def digit? (radix : Nat) (c : Char) : Option Nat :=
  let value :=
    if '0' ≤ c ∧ c ≤ '9' then c.toNat - 0x30
    else if 'a' ≤ c ∧ c ≤ 'z' then c.toNat - 0x61 + 10
    else if 'A' ≤ c ∧ c ≤ 'Z' then c.toNat - 0x41 + 10
    else radix
  if value < radix then some value else none

/-- The number with these digits, most significant first. -/
def ofDigits (radix : Nat) (ds : List Nat) : Nat := ds.foldl (fun n d => radix * n + d) 0

/-- A number of one or more digits and nothing else. -/
def digits? (radix : Nat) (cs : List Char) : Option Nat :=
  if cs.isEmpty then none else (cs.mapM (digit? radix)).map (ofDigits radix)

/-- A number of eight bits; a plus sign may stand before its digits. -/
def octet? (radix : Nat) (cs : List Char) : Option UInt8 :=
  let digits := match cs with
    | '+' :: rest => rest
    | cs => cs
  match digits? radix digits with
  | some n => if n < 256 then some (UInt8.ofNat n) else none
  | none => none

end NetBoard.Text
