/-
  NetBoard.CommandLine.Flag
  ─────────────────────────
  **FLAGS ON A COMMAND LINE.**

  A flag has a short name of one letter and a long one, and may take an
  argument.  Short flags can be joined behind one dash; the text behind one
  that takes an argument is its argument.  Everything that is not a flag is
  passed over.

  Main definitions:

      scan   — the flags of a command line, in order
      parse  — the same, when no flag is repeated
-/
import NetBoard.Text.Scan

namespace NetBoard.CommandLine

/-! ## §1. Flags. -/

/-- A flag the program knows. -/
structure Flag where
  short : Char
  long : String
  /-- What the argument is called, if the flag takes one. -/
  argument : Option String
  help : String
  deriving Repr, DecidableEq, Inhabited

/-- A flag that was given, with its argument. -/
structure Setting where
  flag : Flag
  argument : Option String
  deriving Repr, DecidableEq, Inhabited

/-- What is wrong with a command line; flags are named as they were given. -/
inductive Misuse where
  | missingArgument (name : String)
  | unknown (name : String)
  | repeated (name : String)
  | unexpectedArgument (name : String)
  deriving Repr, DecidableEq, Inhabited

/-- The text shown to the operator. -/
def Misuse.message : Misuse → String
  | missingArgument name => s!"Argument to option '{name}' missing"
  | unknown name => s!"Unrecognized option: '{name}'"
  | repeated name => s!"Option '{name}' given more than once"
  | unexpectedArgument name => s!"Option '{name}' does not take an argument"

/-! ## §2. Words. -/

/-- The flags named by one word of a command line. -/
structure Naming where
  /-- The flags without argument, in order. -/
  plain : List Flag
  /-- The flag with an argument, which is the last, as it was given. -/
  last : Option (Flag × String)
  /-- The argument within the word. -/
  argument : Option String
  deriving Repr, DecidableEq, Inhabited

/-- The flags joined behind one dash. -/
def joined (flags : List Flag) : List Char → Except Misuse Naming
  | [] => .ok ⟨[], none, none⟩
  | c :: cs =>
    match flags.find? (·.short == c) with
    | none => .error (.unknown c.toString)
    | some f =>
      match f.argument with
      | some _ =>
        .ok ⟨[], some (f, c.toString), if cs.isEmpty then none else some (String.ofList cs)⟩
      | none => do
        let n ← joined flags cs
        return { n with plain := f :: n.plain }

/-- The flag behind two dashes: a name, of one letter or long, and maybe an
equals sign and an argument. -/
def named (flags : List Flag) (cs : List Char) : Except Misuse Naming :=
  let name := String.ofList (cs.takeWhile (· != '='))
  let argument := match cs.dropWhile (· != '=') with
    | _ :: argument => some (String.ofList argument)
    | [] => none
  match flags.find? fun f => f.long == name || f.short.toString == name with
  | none => .error (.unknown name)
  | some f =>
    match f.argument, argument with
    | some _, argument => .ok ⟨[], some (f, name), argument⟩
    | none, some _ => .error (.unexpectedArgument name)
    | none, none => .ok ⟨[f], none, none⟩

/-- The flags of a word; none if it is no flag. -/
def naming (flags : List Flag) (word : String) : Except Misuse Naming :=
  match word.toList with
  | '-' :: '-' :: cs => named flags cs
  | '-' :: c :: cs => joined flags (c :: cs)
  | _ => .ok ⟨[], none, none⟩

/-! ## §3. Command lines. -/

/-- The flags of a command line, in order.  A flag that takes an argument and
has none in its word takes the next word, whatever it is.  Behind two lone
dashes there are no flags. -/
def scan (flags : List Flag) : List String → Except Misuse (List Setting)
  | [] => .ok []
  | "--" :: _ => .ok []
  | word :: words => do
    let n ← naming flags word
    let plain := n.plain.map (⟨·, none⟩)
    match n.last, n.argument with
    | none, _ => return plain ++ (← scan flags words)
    | some (f, _), some argument => return plain ++ ⟨f, some argument⟩ :: (← scan flags words)
    | some (f, name), none =>
      match words with
      | [] => .error (.missingArgument name)
      -- even a word that looks like a flag
      | argument :: words => return plain ++ ⟨f, some argument⟩ :: (← scan flags words)

/-- The flags of a command line, none of them twice. -/
def parse (flags : List Flag) (words : List String) : Except Misuse (List Setting) := do
  let settings ← scan flags words
  match flags.find? fun f => 1 < settings.countP (·.flag == f) with
  | some f => .error (.repeated f.long)
  | none => return settings

/-- Was the flag with this long name given? -/
def has (settings : List Setting) (long : String) : Bool :=
  settings.any (·.flag.long == long)

/-- The argument of the flag with this long name. -/
def argument? (settings : List Setting) (long : String) : Option String :=
  (settings.find? (·.flag.long == long)).bind (·.argument)

end NetBoard.CommandLine
