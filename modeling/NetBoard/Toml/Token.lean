/-
  NetBoard.Toml.Token
  ───────────────────
  **FROM CHARACTERS TO TOKENS.**

  A document is cut into runs of blanks, line ends, comments, marks, bare
  words and strings.  Strings arrive without their quotes, with escapes
  replaced and line ends as single characters.

  Main definitions:

      Token          — what a document is made of
      Lexer.string   — a string behind its first mark
      Lexer.next     — the first token
      tokenize       — all tokens
-/
import NetBoard.Text.Scan

namespace NetBoard.Toml

/-! ## §1. Tokens. -/

/-- A token of a document. -/
inductive Token where
  /-- A run of spaces and tabs. -/
  | blank (run : String)
  | newline
  | comment
  | equals
  | period
  | comma
  | colon
  | plus
  | openBrace
  | closeBrace
  | openBracket
  | closeBracket
  /-- A bare word: a key, a truth value, a number or a part of one. -/
  | word (text : String)
  /-- A string; a multi-line one is not a key. -/
  | string (text : String) (multiline : Bool)
  deriving Repr, DecidableEq, Inhabited

namespace Lexer

/-! ## §2. Characters. -/

/-- Spaces and tabs. -/
def isBlank (c : Char) : Bool := c == ' ' || c == '\t'

/-- The characters of bare words. -/
def isWord (c : Char) : Bool := c.isAlphanum || c == '-' || c == '_'

/-- The characters of a comment: all but controls; tabs are allowed. -/
def isComment (c : Char) : Bool := c == '\t' || 0x20 ≤ c.toNat

/-- The characters that stand for themselves in a string. -/
def isPlain (c : Char) : Bool := isComment c && c.toNat != 0x7f

/-- The character with this code, if there is one. -/
def scalar? (n : Nat) : Option Char := if n.isValidChar then some (Char.ofNat n) else none

/-! ## §3. Strings. -/

/-- The two kinds of strings: only basic ones know escapes. -/
inductive Quote where
  | basic
  | literal
  deriving Repr, DecidableEq, Inhabited

/-- The mark around a string. -/
def Quote.mark : Quote → Char
  | .basic => '\x22'
  | .literal => '\x27'

/-- A character by its code of `n` hexadecimal digits. -/
def coded (n : Nat) (cs : List Char) : Option (List Char × List Char) := do
  let digits := cs.take n
  if digits.length < n then none
  else
    let c ← scalar? (← Text.digits? 16 digits)
    return ([c], cs.drop n)

/-- What stands behind a backslash: the characters meant and the rest.  In a
multi-line string a backslash at the end of a line swallows the blanks and
line ends that follow. -/
def escape (multiline : Bool) : List Char → Option (List Char × List Char)
  | [] => none
  | c :: cs =>
    match c with
    | '\x22' | '\\' => some ([c], cs)
    | 'b' => some (['\x08'], cs)
    | 'f' => some (['\x0c'], cs)
    | 'n' => some (['\n'], cs)
    | 'r' => some (['\r'], cs)
    | 't' => some (['\t'], cs)
    | 'u' => coded 4 cs
    | 'U' => coded 8 cs
    | c =>
      -- the only other escape is the end of a line
      match (c :: cs).dropWhile isBlank with
      | '\n' :: rest =>
        if multiline then some ([], rest.dropWhile fun c => isBlank c || c == '\n') else none
      | _ => none

/-- A piece of a string: some characters of its text, or its end. -/
inductive Piece where
  | more (text rest : List Char)
  | close (text rest : List Char)
  deriving Repr, DecidableEq, Inhabited

/-- The first piece.  Three marks end a multi-line string; up to two more in
front of them belong to its text. -/
def piece (q : Quote) (multiline : Bool) : List Char → Option Piece
  | [] => none
  | c :: cs =>
    if c = q.mark then
      if multiline then
        -- of up to five marks in a row the last three are the end
        let n := min 5 ((c :: cs).takeWhile (· == c)).length
        let rest := (c :: cs).drop n
        if n < 3 then some (.more (List.replicate n c) rest)
        else some (.close (List.replicate (n - 3) c) rest)
      else some (.close [] cs)
    else if c = '\n' then if multiline then some (.more [c] cs) else none
    else if c = '\\' ∧ q = .basic then
      (escape multiline cs).map fun (text, rest) => .more text rest
    else if isPlain c then some (.more [c] cs)
    else none

/-- The text of a string, read backwards into `acc`, up to its end.  The fuel
is at least the number of characters left. -/
def body (q : Quote) (multiline : Bool) :
    Nat → List Char → List Char → Option (List Char × List Char)
  | 0, _, _ => none
  | fuel + 1, acc, cs =>
    match piece q multiline cs with
    | none => none
    | some (.more text rest) => body q multiline fuel (text.reverse ++ acc) rest
    | some (.close text rest) => some ((text.reverse ++ acc).reverse, rest)

/-- A string behind its first mark.  Two more marks begin a multi-line string,
whose text does not include a line end right there. -/
def string (q : Quote) (cs : List Char) : Option (Token × List Char) :=
  let (multiline, cs) := match cs with
    | a :: b :: rest =>
      if a = q.mark ∧ b = q.mark then
        (true, match rest with | '\n' :: rest => rest | rest => rest)
      else (false, cs)
    | cs => (false, cs)
  (body q multiline cs.length [] cs).map fun (text, rest) =>
    (.string (String.ofList text) multiline, rest)

/-! ## §4. Documents. -/

/-- The first token. -/
def next : List Char → Option (Token × List Char)
  | [] => none
  | c :: cs =>
    match c with
    | '\n' => some (.newline, cs)
    | '=' => some (.equals, cs)
    | '.' => some (.period, cs)
    | ',' => some (.comma, cs)
    | ':' => some (.colon, cs)
    | '+' => some (.plus, cs)
    | '\x7b' => some (.openBrace, cs)
    | '\x7d' => some (.closeBrace, cs)
    | '[' => some (.openBracket, cs)
    | ']' => some (.closeBracket, cs)
    | '#' => some (.comment, cs.dropWhile isComment)
    | '\x22' => string .basic cs
    | '\x27' => string .literal cs
    | c =>
      if isBlank c then
        some (.blank (String.ofList (c :: cs.takeWhile isBlank)), cs.dropWhile isBlank)
      else if isWord c then
        some (.word (String.ofList (c :: cs.takeWhile isWord)), cs.dropWhile isWord)
      else none

/-- All tokens, read backwards into `acc`.  The fuel is at least the number of
characters left. -/
def all : Nat → List Token → List Char → Option (List Token)
  | _, acc, [] => some acc.reverse
  | 0, _, _ :: _ => none
  | fuel + 1, acc, cs =>
    match next cs with
    | none => none
    | some (t, rest) => all fuel (t :: acc) rest

/-- Line ends of two characters made one, read backwards into `acc`. -/
def foldLineEnds : List Char → List Char → List Char
  | acc, '\r' :: '\n' :: cs => foldLineEnds ('\n' :: acc) cs
  | acc, c :: cs => foldLineEnds (c :: acc) cs
  | acc, [] => acc.reverse

/-- The characters of a document: without a byte order mark, with plain line ends. -/
def characters (text : String) : List Char :=
  foldLineEnds [] (match text.toList with
    | '\ufeff' :: cs => cs
    | cs => cs)

end Lexer

/-- The tokens of a document. -/
def tokenize (text : String) : Option (List Token) :=
  let cs := Lexer.characters text
  Lexer.all cs.length [] cs

end NetBoard.Toml
