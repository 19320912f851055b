/-
  NetBoard.Toml.Section
  ─────────────────────
  **FROM SECTIONS TO A TABLE.**

  The sections of a document name where in its table they belong.  Sections
  below a key belong together, wherever they stand; a section that is an
  element of an array begins a new table, to which the sections behind it
  belong up to the next element.

  Main definitions:

      below     — the sections below a key
      elements  — the sections of an array, element by element
      assemble  — the table of all sections
-/
import NetBoard.Toml.Value

namespace NetBoard.Toml

/-- A section: entries and where they belong. -/
structure Section where
  /-- The keys that lead to the table of the section. -/
  path : List String
  /-- Is the table a new element of an array? -/
  isElement : Bool
  entries : Entries
  deriving Repr, BEq, Inhabited

namespace Section

/-- Does the section begin an element of the array at hand? -/
def opens (s : Section) : Bool := s.path.isEmpty && s.isElement

/-- The sections below a key, with what is left of their paths. -/
def below (key : String) (ss : List Section) : List Section :=
  ss.filterMap fun s =>
    match s.path with
    | k :: path => if k = key then some { s with path } else none
    | [] => none

/-- The keys with sections below them, in order. -/
def keys (ss : List Section) : List String := (ss.filterMap (·.path.head?)).eraseDups

/-- The sections of an array, element by element.  The section that begins an
element becomes the section of its table. -/
def elements (ss : List Section) : List (List Section) :=
  (ss.foldr (fun s (latest, done) =>
    if s.opens then ([], ({ s with isElement := false } :: latest) :: done)
    else (s :: latest, done)) ([], [])).2

/-- The entries of the section of the table itself: there is at most one, and
it does not make the table an array. -/
def own (ss : List Section) : Option Entries :=
  match ss.filter (·.path.isEmpty) with
  | [] => some []
  | [s] => if s.isElement then none else some s.entries
  | _ => none

/-- The table of these sections: their own entries and, for every key, the
sections below it.  They form an array if the first of them begins an element.
The fuel is more than the length of the paths. -/
def table : Nat → List Section → Option Entries
  | 0, _ => none
  | fuel + 1, ss => do
    let entries ← own ss
    let inner ← (keys ss).mapM fun key => do
      let part := below key ss
      -- the first section below a key decides between table and array
      if part.head?.any opens then
        let items ← (elements part).mapM fun e => (table fuel e).map (.table false)
        return (key, .array items)
      else
        let inner ← table fuel part
        return (key, .table false inner)
    return entries ++ inner

/-- The table of a document. -/
def assemble (ss : List Section) : Option Entries :=
  table ((ss.map (·.path.length)).foldl max 0 + 1) ss

end Section
end NetBoard.Toml
