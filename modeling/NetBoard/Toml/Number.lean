/-
  NetBoard.Toml.Number
  ────────────────────
  **NUMBERS.**

  Numbers have 64 bits: an integer must fit into the signed ones, and a
  decimal fraction must round to a finite number of double precision.

  Main definitions:

      run        — digits with single underscores between them
      integer?   — a whole number
      isFinite   — is a decimal number within double precision?
-/
import NetBoard.Bytes
import NetBoard.Text.Scan

namespace NetBoard.Toml.Number

open scoped Power

/-! ## §1. Runs of digits. -/

/-- Digits, the sign before them and the characters behind them. -/
structure Run where
  negative : Bool
  /-- The digits, most significant first. -/
  digits : List Nat
  rest : List Char
  deriving Repr, DecidableEq, Inhabited

/-- Digits and single underscores behind at least one digit, read backwards
into `acc`.  A number that must not have leading zeros and began with zero has
no further digit. -/
def tail (radix : Nat) (single : Bool) :
    Bool → List Nat → List Char → Option (List Nat × List Char)
  | underscore, acc, c :: cs =>
    match Text.digit? radix c with
    | some d => if single then none else tail radix single false (d :: acc) cs
    | none =>
      if underscore then none
      else if c = '_' then tail radix single true acc cs
      else some (acc.reverse, c :: cs)
  | underscore, acc, [] => if underscore then none else some (acc.reverse, [])

/-- The run of digits at the front, which may have a sign or leading zeros if
these are allowed. -/
def run (radix : Nat) (signs zeros : Bool) (cs : List Char) : Option Run :=
  let (negative, unsigned) := match cs with
    | '-' :: cs' => if signs then (true, cs') else (false, cs)
    | '+' :: cs' => if signs then (false, cs') else (false, cs)
    | cs => (false, cs)
  match unsigned with
  | [] => none
  | c :: cs => do
    let d ← Text.digit? radix c
    let (digits, rest) ← tail radix (d == 0 && !zeros) false [d] cs
    return { negative, digits, rest }

/-! ## §2. Whole numbers. -/

/-- The signed number of a run. -/
def Run.value (radix : Nat) (r : Run) : Int :=
  if r.negative then -(Text.ofDigits radix r.digits : Int) else Text.ofDigits radix r.digits

/-- A whole number of 64 bits and nothing behind it.  Only decimal numbers
have signs, and only the others leading zeros. -/
def integer? (radix : Nat) (cs : List Char) : Option Int := do
  let r ← run radix (radix == 10) (radix != 10) cs
  let n := r.value radix
  if r.rest.isEmpty ∧ -2 ^ (63 : Nat) ≤ n ∧ n < 2 ^ (63 : Nat) then some n else none

/-! ## §3. Decimal fractions. -/

/-- Does `mantissa * 10 ^ exponent` round to a finite number of double
precision?  The bound is half a unit above the greatest one.  Numbers of
clearly more or fewer digits than the bound are not computed. -/
def isFinite (mantissa : Nat) (exponent : Int) : Bool :=
  let bound : Nat := 2 ^ (1024 : Nat) - 2 ^ (970 : Nat)
  let digits : Int := (Nat.toDigits 10 mantissa).length + exponent
  if mantissa = 0 ∨ digits < 300 then true
  else if 320 < digits then false
  else if 0 ≤ exponent then mantissa * 10 ^ exponent.toNat < bound
  else mantissa < bound * 10 ^ (-exponent).toNat

end NetBoard.Toml.Number
