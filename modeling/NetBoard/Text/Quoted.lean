/-
  NetBoard.Text.Quoted
  ────────────────────
  **QUOTED TEXTS IN MESSAGES.**

  A message shows a text it was given between double quotes, with escapes for
  quotes, backslashes and everything that would not be seen.
-/
import NetBoard.Text.Number
import NetBoard.Text.Visible

namespace NetBoard.Text

/-- A character inside quotes. -/
def escape (c : Char) : String :=
  match c with
  | '\x00' => "\\0"
  | '\t' => "\\t"
  | '\r' => "\\r"
  | '\n' => "\\n"
  | '\x22' => "\\\""
  | '\\' => "\\\\"
  | c => if isVisible c then c.toString else "\\u\x7b" ++ hex c.toNat ++ "\x7d"

/-- A text between double quotes. -/
def quoted (s : String) : String := "\"" ++ String.join (s.toList.map escape) ++ "\""

end NetBoard.Text
