/-
  NetBoard.Text.Number
  ────────────────────
  **NUMBERS IN MESSAGES.**

  Messages show keys, addresses and octets in lower case hexadecimal, with or
  without a `0x` tag, filled with zeros on the left up to a fixed number of
  digits.  A number that needs more digits is never cut.
-/

namespace NetBoard.Text

/-- Lower case hexadecimal digits, without leading zeros. -/
def hex (n : Nat) : String := String.ofList (Nat.toDigits 16 n)

/-- Fill a text with `c` on the left up to `width` characters. -/
def padLeft (width : Nat) (c : Char) (s : String) : String :=
  String.ofList (s.toList.leftpad width c)

/-- Hexadecimal with at least `digits` digits. -/
def hexPadded (digits n : Nat) : String := padLeft digits '0' (hex n)

/-- Hexadecimal after a `0x` tag, with at least `digits` digits. -/
def hexTagged (digits n : Nat) : String := "0x" ++ hexPadded digits n

end NetBoard.Text
