/-
  NetBoard.Toml.Grammar
  ─────────────────────
  **FROM TOKENS TO SECTIONS.**

  A document is a list of lines: headers begin sections, the other lines add
  entries to the latest section.  Each reader takes the tokens it understands
  off the front and returns what it read with the tokens left.

  Main definitions:

      key       — a dotted key
      number    — a number that begins with a given word
      datetime  — what follows the first word of a date or time
      value     — a value
      sections  — the sections of a document
-/
import NetBoard.Toml.Token
import NetBoard.Toml.Number
import NetBoard.Toml.Section

namespace NetBoard.Toml.Grammar

/-! ## §1. Blanks and line ends. -/

/-- The tokens without blanks in front. -/
def skipBlank : List Token → List Token
  | .blank _ :: ts => ts
  | ts => ts

/-- Is nothing said by the token? -/
def isSilent : Token → Bool
  | .blank _ | .newline | .comment => true
  | _ => false

/-- The tokens without blanks, comments and line ends in front. -/
def skipLines (ts : List Token) : List Token := ts.dropWhile isSilent

/-- The end of a line, after blanks and a comment: the tokens of the next one. -/
def endOfLine (ts : List Token) : Option (List Token) :=
  let ts := match skipBlank ts with
    | .comment :: ts => ts
    | ts => ts
  match ts with
  | [] => some []
  | .newline :: ts => some ts
  | _ => none

/-! ## §2. Keys. -/

/-- A dotted key: names with periods and blanks between them, and the blanks
behind the last.  The fuel is more than the number of periods. -/
def key : Nat → List Token → Option (List String × List Token)
  | 0, _ => none
  | fuel + 1, ts => do
    let (name, ts) ← match ts with
      | .word name :: ts => some (name, ts)
      | .string name false :: ts => some (name, ts)
      | _ => none
    match skipBlank ts with
    | .period :: ts =>
      let (path, ts) ← key fuel (skipBlank ts)
      return (name :: path, ts)
    | ts => return ([name], ts)

/-! ## §3. Numbers, dates and truth values. -/

/-- The exponent of a decimal fraction: `e`, a sign and digits.  A plus sign
is a token of its own. -/
def exponent (cs : List Char) (ts : List Token) : Option (Int × List Token) :=
  match cs with
  | [] => some (0, ts)
  | c :: cs =>
    if c = 'e' ∨ c = 'E' then do
      let (r, ts) ← if cs.isEmpty then
          let ts := match ts with
            | .plus :: ts => ts
            | ts => ts
          match ts with
          | .word w :: ts => (Number.run 10 false true w.toList).map (·, ts)
          | _ => none
        else (Number.run 10 true true cs).map (·, ts)
      if r.rest.isEmpty then some (r.value 10, ts) else none
    else none

/-- A decimal fraction whose digits behind the period, if there are any, begin `fraction`. -/
def decimal (whole : List Char) (fraction : Option (List Char)) (ts : List Token) :
    Option (Value × List Token) := do
  let r ← Number.run 10 true false whole
  let (digits, behind) ← match fraction with
    | none => some ([], r.rest)
    | some cs =>
      if r.rest.isEmpty then (Number.run 10 false true cs).map fun f => (f.digits, f.rest)
      else none
  let (e, ts) ← exponent behind ts
  if Number.isFinite (Text.ofDigits 10 (r.digits ++ digits)) (e - digits.length) then
    some (.float, ts)
  else none

/-- The names of the numbers without digits. -/
def special : List String := ["inf", "-inf", "nan", "-nan"]

/-- A number that begins with this word. -/
def number (w : String) (ts : List Token) : Option (Value × List Token) :=
  let cs := w.toList
  let whole (radix : Nat) (cs : List Char) : Option (Value × List Token) :=
    (Number.integer? radix cs).map fun n => (.integer n, ts)
  match cs with
  | '0' :: 'x' :: cs => whole 16 cs
  | '0' :: 'o' :: cs => whole 8 cs
  | '0' :: 'b' :: cs => whole 2 cs
  | cs =>
    -- without a base in front the letter e begins an exponent
    if cs.any fun c => c == 'e' || c == 'E' then decimal cs none ts
    else match ts with
      | .period :: .word w :: ts => decimal cs (some w.toList) ts
      | .period :: _ => none
      | ts => if special.contains w then some (.float, ts) else whole 10 cs

/-- A mark and the word behind it, if the mark is there. -/
def marked (mark : Token) : List Token → Option (List Token)
  | t :: ts =>
    if t = mark then
      match ts with
      | .word _ :: ts => some ts
      | _ => none
    else some (t :: ts)
  | [] => some []

/-- What follows the first word of a date or time: a time after a space, then
minutes, seconds, a fraction and an offset.  `within` tells that the colon
before the minutes has been read.  The words are not checked. -/
def datetime (within : Bool) (ts : List Token) : Option (Value × List Token) :=
  let ts := match ts with
    -- the hour may stand behind one space
    | .blank " " :: .word _ :: ts => ts
    | ts => ts
  let clock := if within then some ts else match ts with
    | .colon :: ts => some ts
    | _ => none
  match clock with
  | none => some (.datetime, ts)
  | some (.word _ :: .colon :: .word _ :: ts) => do
    let ts ← marked .period ts
    let ts ← marked .plus ts
    let ts ← marked .colon ts
    return (.datetime, ts)
  | some _ => none

/-- Does a word begin a date or time?  It has a `T`, or a dash that is neither
a sign nor the sign of an exponent. -/
def isDate (cs : List Char) : Bool :=
  cs.any (fun c => c == 'T' || c == 't')
    || ((cs.drop 1).contains '-'
      && !(cs.zip (cs.drop 1)).any fun (a, b) => (a == 'e' || a == 'E') && b == '-')

/-- A value that begins with a bare word. -/
def bare (w : String) (ts : List Token) : Option (Value × List Token) :=
  if w = "true" then some (.boolean true, ts)
  else if w = "false" then some (.boolean false, ts)
  else if w = "inf" ∨ w = "nan" ∨ w.toList.head?.any (fun c => c == '-' || c.isDigit) then
    if isDate w.toList then datetime false ts
    else match ts with
      | .colon :: ts => datetime true ts
      | ts => number w ts
  else none

/-! ## §4. Values. -/

mutual

/-- A value.  The fuel is at least twice the number of tokens. -/
def value : Nat → List Token → Option (Value × List Token)
  | fuel + 1, .openBracket :: ts => items fuel [] ts
  | fuel + 1, .openBrace :: ts =>
    match skipBlank ts with
    | .closeBrace :: ts => some (.table false [], ts)
    | ts => pairs fuel [] ts
  | _, .string s _ :: ts => some (.string s, ts)
  | _, .word w :: ts => bare w ts
  | _, .plus :: .word w :: ts => number w ts
  | _, _ => none

/-- The items of an array, read backwards into `acc`, and its end.  Items may
stand on lines of their own, and a comma may follow the last. -/
def items : Nat → List Value → List Token → Option (Value × List Token)
  | 0, _, _ => none
  | fuel + 1, acc, ts =>
    match skipLines ts with
    | .closeBracket :: ts => some (.array acc.reverse, ts)
    | ts =>
      match value fuel ts with
      | none => none
      | some (v, ts) =>
        match skipLines ts with
        | .comma :: ts => items fuel (v :: acc) ts
        | .closeBracket :: ts => some (.array (v :: acc).reverse, ts)
        | _ => none

/-- The entries of a table within braces, behind `entries`, and its end.  All
stand on one line, and no comma follows the last. -/
def pairs : Nat → Entries → List Token → Option (Value × List Token)
  | 0, _, _ => none
  | fuel + 1, entries, ts =>
    match key ts.length ts with
    | some (path, .equals :: ts) =>
      match value fuel (skipBlank ts) with
      | none => none
      | some (v, ts) =>
        match entries.add path v, skipBlank ts with
        | some entries, .closeBrace :: ts => some (.table false entries, ts)
        | some entries, .comma :: ts => pairs fuel entries (skipBlank ts)
        | _, _ => none
    | _ => none

end

/-! ## §5. Sections. -/

/-- A header behind its first bracket: `[path]`, or `[[path]]` for an element
of an array, and the rest of its line. -/
def header (ts : List Token) : Option (Section × List Token) := do
  let (isElement, ts) := match ts with
    | .openBracket :: ts => (true, ts)
    | ts => (false, ts)
  let (path, ts) ← key ts.length (skipBlank ts)
  let ts ← match isElement, ts with
    | false, .closeBracket :: ts => endOfLine ts
    | true, .closeBracket :: .closeBracket :: ts => endOfLine ts
    | _, _ => none
  return ({ path, isElement, entries := [] }, ts)

/-- An entry: a key, a value and the rest of their line. -/
def pair (ts : List Token) : Option ((List String × Value) × List Token) := do
  match ← key ts.length ts with
  | (path, .equals :: ts) =>
    let ts := skipBlank ts
    let (v, ts) ← value (2 * ts.length) ts
    let ts ← endOfLine ts
    return ((path, v), ts)
  | _ => none

/-- The sections of a document behind those in `done`, the latest first.  The
fuel is more than the number of tokens. -/
def sections : Nat → List Section → List Token → Option (List Section)
  | 0, _, _ => none
  | fuel + 1, done, ts =>
    match skipLines ts with
    | [] => some done.reverse
    | .openBracket :: ts =>
      match header ts with
      | some (s, ts) => sections fuel (s :: done) ts
      | none => none
    | ts =>
      match pair ts with
      | some ((path, v), ts) =>
        -- entries in front of the first header belong to the document itself
        let (s, before) := match done with
          | s :: before => (s, before)
          | [] => ({ path := [], isElement := false, entries := [] }, [])
        match s.entries.add path v with
        | some entries => sections fuel ({ s with entries } :: before) ts
        | none => none
      | none => none

end NetBoard.Toml.Grammar
