/-
  NetBoard.Text.Record
  ────────────────────
  **VALUES IN MESSAGES.**

  Log lines show states and counters in a structural notation: lists in
  square brackets, constructors followed by their arguments in parentheses,
  records with named entries in braces.
-/
import NetBoard.Address

namespace NetBoard.Text

/-- A list: entries between square brackets. -/
def list (entries : List String) : String := "[" ++ ", ".intercalate entries ++ "]"

/-- Octets as decimal numbers. -/
def octets (bs : Bytes) : String := list (bs.map fun o => toString o.toNat)

/-- A constructor with arguments. -/
def apply (name : String) (args : List String) : String :=
  name ++ "(" ++ ", ".intercalate args ++ ")"

/-- A record with named entries. -/
def record (name : String) (entries : List (String × String)) : String :=
  name ++ " \x7b " ++ ", ".intercalate (entries.map fun (k, v) => k ++ ": " ++ v) ++ " \x7d"

/-- A record of counters. -/
def counters (name : String) (entries : List (String × Nat)) : String :=
  record name (entries.map fun (k, n) => (k, toString n))

/-- An optional value. -/
def optional (value : Option String) : String :=
  match value with
  | none => "None"
  | some v => apply "Some" [v]

end NetBoard.Text
