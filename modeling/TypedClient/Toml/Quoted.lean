import TypedClient.Text.Ascii
import TypedClient.Toml.Filler

/-!
# TOML strings

Strings come in four kinds: in one quotation mark or in three, and with escapes
or taken as they are. In three quotation marks a string may have several lines,
whose endings are all read as line feeds; a line ending right after the opening
marks is dropped, and a backslash at the end of a line drops all up to the next
character that is neither blank nor part of a line ending.
-/

namespace TypedClient.Toml

def hexNumber (text : List Char) : Option Nat :=
  (text.mapM Text.hexValue?).map fun digits => digits.foldl (fun value digit => value * 16 + digit) 0

/-- The character of an escape with the given number of hexadecimal digits. -/
def codePoint (count : Nat) (text : List Char) : Option (Char × List Char) := do
  let digits := text.take count
  let code ← hexNumber digits
  if digits.length = count ∧ code.isValidChar then some (Char.ofNat code, text.drop count)
  else none

/-- The character after a backslash. -/
def escaped : List Char → Option (Char × List Char)
  | 'b' :: rest => some (Char.ofNat 8, rest)
  | 't' :: rest => some ('\t', rest)
  | 'n' :: rest => some ('\n', rest)
  | 'f' :: rest => some (Char.ofNat 12, rest)
  | 'r' :: rest => some ('\r', rest)
  | '"' :: rest => some ('"', rest)
  | '\\' :: rest => some ('\\', rest)
  | 'u' :: rest => codePoint 4 rest
  | 'U' :: rest => codePoint 8 rest
  | _ => none

/-- A string after its opening quote; what is done is kept in reverse. -/
def basicString (done : List Char) : Nat → List Char → Option (String × List Char)
  | 0, _ => none
  | _, [] => none
  | fuel + 1, c :: rest =>
    if c = '"' then some (String.ofList done.reverse, rest)
    else if c = '\\' then do
      let (meant, rest) ← escaped rest
      basicString (meant :: done) fuel rest
    else if isControl c then none
    else basicString (c :: done) fuel rest

def literalString (text : List Char) : Option (String × List Char) :=
  let body := text.takeWhile (· != '\'')
  match text.dropWhile (· != '\'') with
  | _ :: rest => if body.any isControl then none else some (String.ofList body, rest)
  | [] => none

/-- The end of a string in triple quotes, of which up to two may belong to the string. -/
def tripleEnd? (quote : Char) (text : List Char) : Option (List Char × List Char) :=
  let quotes := text.takeWhile (· == quote)
  if 3 ≤ quotes.length then
    let kept := min (quotes.length - 3) 2
    some (List.replicate kept quote, text.drop (kept + 3))
  else none

/-- Drops what a backslash at the end of a line drops. -/
def continuation? (text : List Char) : Option (List Char) :=
  (newline? (skipBlanks text)).map skipBreaks

def multilineString (quote : Char) (done : List Char) : Nat → List Char → Option (String × List Char)
  | 0, _ => none
  | _, [] => none
  | fuel + 1, c :: rest =>
    match tripleEnd? quote (c :: rest) with
    | some (kept, after) => some (String.ofList (done.reverse ++ kept), after)
    | none =>
      match newline? (c :: rest) with
      | some rest => multilineString quote ('\n' :: done) fuel rest
      | none =>
        if c = '\\' ∧ quote = '"' then
          match continuation? rest with
          | some rest => multilineString quote done fuel rest
          | none => do
            let (meant, rest) ← escaped rest
            multilineString quote (meant :: done) fuel rest
        else if isControl c then none
        else multilineString quote (c :: done) fuel rest

/-- Drops a line ending right after the opening quotes. -/
def afterOpening (text : List Char) : List Char :=
  (newline? text).getD text

def stringValue (fuel : Nat) : List Char → Option (String × List Char)
  | '"' :: '"' :: '"' :: rest => multilineString '"' [] fuel (afterOpening rest)
  | '\'' :: '\'' :: '\'' :: rest => multilineString '\'' [] fuel (afterOpening rest)
  | '"' :: rest => basicString [] fuel rest
  | '\'' :: rest => literalString rest
  | _ => none

end TypedClient.Toml
