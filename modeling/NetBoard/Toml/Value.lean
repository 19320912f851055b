/-
  NetBoard.Toml.Value
  ───────────────────
  **WHAT A DOCUMENT HOLDS.**

  A document is a table: keys with values.  A table keeps its entries in the
  order of the document and keeps repeated keys; whoever reads the table
  decides whether a repetition matters.  No setting is a fraction or a date,
  so of those values only the kind is kept.
-/

namespace NetBoard.Toml

/-- A value. -/
inductive Value where
  | string (text : String)
  | integer (n : Int)
  /-- A number with fraction or exponent, an infinity or no number. -/
  | float
  | boolean (b : Bool)
  /-- A date, a time or both. -/
  | datetime
  | array (items : List Value)
  /-- A table.  An open one was begun by a dotted key; further dotted keys may add to it. -/
  | table (isOpen : Bool) (entries : List (String × Value))
  deriving Repr, BEq, Inhabited

/-- The entries of a table. -/
abbrev Entries := List (String × Value)

/-- The entries with `f` applied to the value of the first of the key. -/
def Entries.update (f : Value → Value) (key : String) : Entries → Entries
  | [] => []
  | (k, v) :: rest => if k = key then (k, f v) :: rest else (k, v) :: Entries.update f key rest

/-- Add a value under a dotted key.  All keys but the last name open tables,
which are begun when they are missing.  A repeated last key is kept. -/
def Entries.add : List String → Value → Entries → Option Entries
  | [], _, _ => none
  | [key], v, entries => some (entries ++ [(key, v)])
  | key :: path, v, entries =>
    match entries.lookup key with
    | none => do
      let inner ← Entries.add path v []
      return entries ++ [(key, .table true inner)]
    | some (.table true inner) => do
      let inner ← Entries.add path v inner
      return entries.update (fun _ => .table true inner) key
    | some _ => none

end NetBoard.Toml
