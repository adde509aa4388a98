/-!
# Blanks, line endings and comments

What may stand between the parts of a TOML text. A line ends with a line feed,
which a carriage return may precede; a carriage return alone ends nothing. A
comment runs to the end of its line and has no control characters but tabs.
-/

namespace TypedClient.Toml

def isControl (c : Char) : Bool :=
  (c.toNat < 0x20 && c != '\t') || c.toNat == 0x7f

def skipBlanks (text : List Char) : List Char :=
  text.dropWhile fun c => c == ' ' || c == '\t'

/-- Drops one line ending. -/
def newline? : List Char → Option (List Char)
  | '\n' :: rest => some rest
  | '\r' :: '\n' :: rest => some rest
  | _ => none

/-- Drops blanks and line endings. -/
def skipBreaks : List Char → List Char
  | ' ' :: rest => skipBreaks rest
  | '\t' :: rest => skipBreaks rest
  | '\n' :: rest => skipBreaks rest
  | '\r' :: '\n' :: rest => skipBreaks rest
  | text => text

/-- Drops a comment up to the end of its line. -/
def skipComment : List Char → Option (List Char)
  | '#' :: rest =>
    let body := rest.takeWhile fun c => c != '\n' && c != '\r'
    if body.any isControl then none
    else some (rest.dropWhile fun c => c != '\n' && c != '\r')
  | text => some text

/-- Drops the rest of a line that has nothing more to say. -/
def endOfLine (text : List Char) : Option (List Char) := do
  match ← skipComment (skipBlanks text) with
  | [] => some []
  | rest => newline? rest

/-- Drops blanks, line endings and comments. -/
def skipFiller : Nat → List Char → Option (List Char)
  | 0, text => some text
  | fuel + 1, text =>
    match skipBlanks text with
    | '#' :: rest => do skipFiller fuel (← skipComment ('#' :: rest))
    | rest =>
      match newline? rest with
      | some rest => skipFiller fuel rest
      | none => some rest

end TypedClient.Toml
