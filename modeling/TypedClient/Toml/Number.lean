import TypedClient.Decimal.Nearest
import TypedClient.Text.Ascii
import TypedClient.Toml.Basic

/-!
# TOML numbers

Integers have 64 bits and are decimal, hexadecimal, octal or binary; a number
with a fraction or an exponent is real. Only decimal numbers may have a sign,
and only a zero may start with a zero. Single underscores may stand between
digits. A positive number beyond the largest real one has no value.
-/

namespace TypedClient.Toml

def digit? (base : Nat) (c : Char) : Option Nat :=
  (Text.hexValue? c).filter (· < base)

/-- The digits that go on in front of a text. -/
def moreDigits (base : Nat) : List Char → Option (List Nat × List Char)
  | '_' :: c :: rest => do
    let digit ← digit? base c
    let (digits, rest) ← moreDigits base rest
    return (digit :: digits, rest)
  | c :: rest =>
    match digit? base c with
    | some digit => do
      let (digits, rest) ← moreDigits base rest
      return (digit :: digits, rest)
    | none => some ([], c :: rest)
  | [] => some ([], [])

/-- The digits in front of a text, of which there has to be one. -/
def digitsIn (base : Nat) : List Char → Option (List Nat × List Char)
  | c :: rest => do
    let digit ← digit? base c
    let (digits, rest) ← moreDigits base rest
    return (digit :: digits, rest)
  | [] => none

def ofDigits (base : Nat) (digits : List Nat) : Nat :=
  digits.foldl (fun value digit => value * base + digit) 0

def wholeDigits : List Char → Option (List Nat × List Char)
  | '0' :: rest => some ([0], rest)
  | text => digitsIn 10 text

/-- Whether there is a minus, and what follows the sign. -/
def signOf : List Char → Bool × List Char
  | '-' :: rest => (true, rest)
  | '+' :: rest => (false, rest)
  | text => (false, text)

def withSign (negative : Bool) (value : Nat) : Int :=
  if negative then -value else value

def integerOf (value : Int) : Option Toml :=
  if -0x8000000000000000 ≤ value ∧ value < 0x8000000000000000 then some (.integer value) else none

def realOf (value : Float) : Option Toml :=
  if value == Decimal.infinity then none else some (.real value)

def isExponentMark (c : Char) : Bool :=
  c == 'e' || c == 'E'

/-- The exponent in front of a text; zero if there is none. -/
def exponentIn : List Char → Option (Int × List Char)
  | c :: rest =>
    if isExponentMark c then do
      let (negative, rest) := signOf rest
      let (digits, rest) ← digitsIn 10 rest
      return (withSign negative (ofDigits 10 digits), rest)
    else some (0, c :: rest)
  | [] => some (0, [])

/-- What follows the digits of a decimal number: its fraction and exponent, if it has any. -/
def afterWhole (negative : Bool) (whole : List Nat) (text : List Char) :
    Option (Toml × List Char) := do
  let (fraction, rest) ← match text with
    | '.' :: rest => digitsIn 10 rest
    | text => some ([], text)
  let (exponent, rest) ← exponentIn rest
  let value := ofDigits 10 (whole ++ fraction)
  let isWhole := match text with
    | c :: _ => c != '.' && !isExponentMark c
    | [] => true
  let number ←
    if isWhole then integerOf (withSign negative value)
    else realOf (Decimal.toFloat ⟨negative, value, exponent - fraction.length⟩)
  return (number, rest)

/-- The number in front of a text. -/
def numberValue : List Char → Option (Toml × List Char)
  | '0' :: 'x' :: rest => based 16 rest
  | '0' :: 'o' :: rest => based 8 rest
  | '0' :: 'b' :: rest => based 2 rest
  | text =>
    match signOf text with
    | (negative, 'i' :: 'n' :: 'f' :: rest) =>
      some (.real (if negative then -Decimal.infinity else Decimal.infinity), rest)
    | (_, 'n' :: 'a' :: 'n' :: rest) => some (.real (0 / 0), rest)
    | (negative, text) => do
      let (whole, rest) ← wholeDigits text
      afterWhole negative whole rest
where
  based (base : Nat) (text : List Char) : Option (Toml × List Char) := do
    let (digits, rest) ← digitsIn base text
    return (← integerOf (ofDigits base digits), rest)

end TypedClient.Toml
