/-
  NetBoard.Toml.Decode
  ────────────────────
  **FROM VALUES TO SETTINGS.**

  A reader takes a value of the shape it wants and refuses all others.  A
  record is read from a table: known keys at most once, unknown keys ignored.
  It is also read from an array of all its fields in order, and from a date,
  which has none of them.

  Main definitions:

      parse     — the table of a document
      unsigned  — a number of some bits
      record    — the fields of a record
-/
import NetBoard.Toml.Grammar

namespace NetBoard.Toml

open scoped Power

/-- The table of a document. -/
def parse (text : String) : Option Entries := do
  let ts ← tokenize text
  Section.assemble (← Grammar.sections (ts.length + 1) [] ts)

/-- A reader of values. -/
abbrev Reader (α : Type) := Value → Option α

namespace Reader

/-- A text. -/
def text : Reader String
  | .string s => some s
  | _ => none

/-- A truth value. -/
def truth : Reader Bool
  | .boolean b => some b
  | _ => none

/-- A whole number from zero that fits into `bits` bits. -/
def unsigned (bits : Nat) : Reader Nat
  | .integer n => if 0 ≤ n ∧ n < 2 ^ bits then some n.toNat else none
  | _ => none

/-- A size or a time: a number of 64 bits. -/
def size : Reader Nat := unsigned 64

/-- The items of an array. -/
def many {α : Type} (read : Reader α) : Reader (List α)
  | .array items => items.mapM read
  | _ => none

/-- The fields of a record with these names. -/
def record (names : List String) : Reader Entries
  | .table _ entries =>
    let known := entries.filter fun e => names.contains e.1
    if (known.map (·.1)).Nodup then some known else none
  | .array items => if items.length = names.length then some (names.zip items) else none
  | .datetime => some []
  | _ => none

end Reader

/-- A field that may be absent. -/
def Entries.optional {α : Type} (entries : Entries) (name : String) (read : Reader α) :
    Option (Option α) :=
  match entries.lookup name with
  | none => some none
  | some v => (read v).map some

/-- A field that must be there. -/
def Entries.required {α : Type} (entries : Entries) (name : String) (read : Reader α) :
    Option α :=
  (entries.lookup name).bind read

end NetBoard.Toml
