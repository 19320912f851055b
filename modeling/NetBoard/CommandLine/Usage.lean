/-
  NetBoard.CommandLine.Usage
  ──────────────────────────
  **THE HELP TEXT.**

  Every flag has a row: its names, and from a fixed column on what it does, in
  lines of limited length.  When the names reach that column the help begins
  on the next line.
-/
import NetBoard.CommandLine.Flag

namespace NetBoard.CommandLine

/-! ## §1. Lines. -/

/-- The column at which the help of a flag begins. -/
def helpColumn : Nat := 24

/-- The length of the lines of help. -/
def helpWidth : Nat := 54

/-- Words joined by spaces to lines of at most `width` characters; a longer
word has a line of its own. -/
def fill (width : Nat) (words : List String) : List String :=
  let (lines, line) := words.foldl (fun (lines, line) word =>
    match line with
    | none => (lines, some word)
    | some line =>
      if line.length + 1 + word.length ≤ width then (lines, some (line ++ " " ++ word))
      else (line :: lines, some word)) (([], none) : List String × Option String)
  (line.toList ++ lines).reverse

/-- The lines of a text, each filled anew. -/
def wrap (width : Nat) (text : String) : List String :=
  (Text.split '\n' text.toList).flatMap fun line =>
    fill width (((Text.split ' ' line).filter (!·.isEmpty)).map String.ofList)

/-! ## §2. Flags. -/

/-- Spaces. -/
def spaces (n : Nat) : String := String.ofList (List.replicate n ' ')

/-- The names of a flag and of its argument. -/
def Flag.names (f : Flag) : String := s!"    -{f.short}, --{f.long} " ++ f.argument.getD ""

/-- The row of a flag. -/
def Flag.row (f : Flag) : String :=
  let indent := "\n" ++ spaces helpColumn
  let names := f.names
  names ++ (if names.length < helpColumn then spaces (helpColumn - names.length) else indent)
    ++ indent.intercalate (wrap helpWidth f.help)

/-- The help on all flags, behind a brief text. -/
def usage (brief : String) (flags : List Flag) : String :=
  brief ++ "\n\nOptions:\n" ++ "\n".intercalate (flags.map Flag.row) ++ "\n"

end NetBoard.CommandLine
