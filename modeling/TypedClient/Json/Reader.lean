import TypedClient.Json.Tree
import TypedClient.Text.Ascii

/-!
# Reading JSON text

Text is read in the strict grammar: no comments, no trailing commas, no control
characters inside strings, no leading zeros. A number without fraction and
exponent is an integer if it fits into 64 bits, and a floating-point number
otherwise; one beyond the largest floating-point number has no value.
-/

namespace TypedClient.Json

def isSpace (c : Char) : Bool :=
  c == ' ' || c == '\n' || c == '\t' || c == '\r'

def skipSpace (text : List Char) : List Char :=
  text.dropWhile isSpace

/-- Drops the given characters from the text. -/
def expect : List Char → List Char → Except Fault (List Char)
  | [], text => .ok text
  | _ :: _, [] => .error .ended
  | c :: word, d :: text => if c = d then expect word text else .error .malformed

/-! ## Strings -/

/-- What has been read of an escape. A pending high surrogate waits for its partner. -/
inductive Escape where
  | none
  | backslash
  | hex (count value : Nat) (high : Option Nat)
  | highSurrogate (high : Nat)
  | highBackslash (high : Nat)

def shortEscape? (c : Char) : Option Char :=
  if c = '"' ∨ c = '\\' ∨ c = '/' then some c
  else if c = 'b' then some (Char.ofNat 8)
  else if c = 'f' then some (Char.ofNat 12)
  else if c = 'n' then some '\n'
  else if c = 'r' then some '\r'
  else if c = 't' then some '\t'
  else Option.none

def isHighSurrogate (code : Nat) : Bool :=
  0xd800 ≤ code && code < 0xdc00

def isLowSurrogate (code : Nat) : Bool :=
  0xdc00 ≤ code && code < 0xe000

def joinSurrogates (high low : Nat) : Char :=
  Char.ofNat (0x10000 + (high - 0xd800) * 0x400 + (low - 0xdc00))

/-- Size of a text in UTF-8. -/
def utf8Size (text : List Char) : Nat :=
  (String.ofList text).utf8ByteSize

/-- A character that is no hexadecimal digit after `count` digits of an escape. The escape
lacks text if the text has fewer than four bytes left for it. -/
def hexFault (count : Nat) (text : List Char) : Fault :=
  if count + utf8Size (text.take 4) < 4 then .ended else .malformed

/-- What a complete four-digit escape stands for. Without strictness, halves of surrogate
pairs are dropped. -/
def hexMeaning (strict : Bool) (code : Nat) (high : Option Nat) :
    Except Fault (List Char × Escape) :=
  match strict, high with
  | false, _ => .ok ([], .none)
  | true, some high =>
    if isLowSurrogate code then .ok ([joinSurrogates high code], .none) else .error .malformed
  | true, Option.none =>
    if isLowSurrogate code then .error .malformed
    else if isHighSurrogate code then .ok ([], .highSurrogate code)
    else .ok ([Char.ofNat code], .none)

/-- The characters of a string up to its closing quote, and the text after it. -/
def stringFrom (strict : Bool) (done : List Char) : Escape → List Char →
    Except Fault (List Char × List Char)
  | _, [] => .error .ended
  | .none, c :: rest =>
    if c = '"' then .ok (done.reverse, rest)
    else if c = '\\' then stringFrom strict done .backslash rest
    else if c.toNat < 0x20 then .error .malformed
    else stringFrom strict (c :: done) .none rest
  | .backslash, c :: rest =>
    if c = 'u' then stringFrom strict done (.hex 0 0 Option.none) rest
    else match shortEscape? c with
      | some meant => stringFrom strict (meant :: done) .none rest
      | Option.none => .error .malformed
  | .hex count value high, c :: rest =>
    match Text.hexValue? c with
    | Option.none => .error (hexFault count (c :: rest))
    | some digit =>
      if count = 3 then
        match hexMeaning strict (value * 16 + digit) high with
        | .error fault => .error fault
        | .ok (meant, next) => stringFrom strict (meant ++ done) next rest
      else stringFrom strict done (.hex (count + 1) (value * 16 + digit) high) rest
  | .highSurrogate high, c :: rest =>
    if c = '\\' then stringFrom strict done (.highBackslash high) rest else .error .malformed
  | .highBackslash high, c :: rest =>
    if c = 'u' then stringFrom strict done (.hex 0 0 (some high)) rest else .error .malformed

/-- A string after its opening quote, and the text after it unless the text breaks. -/
def readString (text : List Char) : Reading String × Option (List Char) :=
  match stringFrom true [] .none text with
  | .ok (value, rest) => (.good (String.ofList value), some rest)
  | .error fault =>
    match stringFrom false [] .none text with
    | .ok (_, rest) => (.bad fault Option.none, some rest)
    | .error broken => (.bad fault (some broken), Option.none)

/-! ## Numbers -/

structure NumberText where
  negative : Bool
  whole : List Char
  fraction : List Char := []
  /-- Sign and digits of the exponent. -/
  exponent : Option (Bool × List Char) := none
  isWhole : Bool := true

/-- The digits at the front of a text, of which there has to be one. The flag of the error
tells whether the text ends where the digit is missing. -/
def digits (text : List Char) : Except Bool (List Char × List Char) :=
  match text.takeWhile Char.isDigit with
  | [] => .error text.isEmpty
  | found => .ok (found, text.dropWhile Char.isDigit)

def exponentFrom (number : NumberText) (text : List Char) :
    Except Bool (NumberText × List Char) :=
  match text with
  | c :: rest =>
    if c = 'e' ∨ c = 'E' then
      let (negative, unsigned) := match rest with
        | '+' :: rest => (false, rest)
        | '-' :: rest => (true, rest)
        | rest => (false, rest)
      (digits unsigned).map fun (found, rest) =>
        ({ number with exponent := some (negative, found), isWhole := false }, rest)
    else .ok (number, text)
  | [] => .ok (number, [])

def fractionFrom (number : NumberText) (text : List Char) :
    Except Bool (NumberText × List Char) :=
  match text with
  | '.' :: rest => do
    let (found, rest) ← digits rest
    exponentFrom { number with fraction := found, isWhole := false } rest
  | text => exponentFrom number text

/-- The number at the front of a text. -/
def numberText (text : List Char) : Except Bool (NumberText × List Char) := do
  let (negative, unsigned) := match text with
    | '-' :: rest => (true, rest)
    | text => (false, text)
  let (whole, rest) ← digits unsigned
  if whole.head? = some '0' ∧ whole.length ≠ 1 then .error false
  else fractionFrom { negative, whole } rest

def largestWord : Nat := 0xffffffffffffffff

/-- Appends digits to a significand as long as it fits into 64 bits, and tells which digits
are left over. -/
def significand (start : Nat) : List Char → Nat × List Char
  | [] => (start, [])
  | c :: rest =>
    let next := start * 10 + (c.toNat - '0'.toNat)
    if largestWord < next then (start, c :: rest) else significand next rest

def largestExponent : Nat := 0x7fffffff

def natOfDigits (text : List Char) : Nat :=
  text.foldl (fun value c => value * 10 + (c.toNat - '0'.toNat)) 0

def powerOfTen (exponent : Nat) : Float :=
  Float.ofScientific 1 false exponent

/-- Scales a number by a power of ten, in steps of at most 308 places; there is no result
beyond the largest floating-point number. -/
def scale : Nat → Float → Int → Option Float
  | 0, value, _ => some value
  | steps + 1, value, exponent =>
    if exponent.natAbs ≤ 308 then
      if 0 ≤ exponent then
        let scaled := value * powerOfTen exponent.natAbs
        if scaled.isInf then Option.none else some scaled
      else some (value / powerOfTen exponent.natAbs)
    else if value == 0 then some value
    else if 0 ≤ exponent then Option.none
    else scale steps (value / powerOfTen 308) (exponent + 308)

/-- The sign of the number is put on at the end. -/
def realOf (negative : Bool) (significand : Nat) (exponent : Int) : Option Float :=
  (scale 5 (Float.ofNat significand) exponent).map fun value => if negative then -value else value

def NumberText.real? (number : NumberText) : Option Float :=
  let (whole, left) := significand 0 number.whole
  let (all, dropped) := significand whole number.fraction
  let point : Int := left.length - (number.fraction.length - dropped.length)
  match number.exponent with
  | Option.none => realOf number.negative all point
  | some (negative, text) =>
    let exponent := natOfDigits text
    if largestExponent < exponent ∧ (all = 0 ∨ negative) then
      some (if number.negative then -0.0 else 0.0)
    else if largestExponent < exponent then Option.none
    else realOf number.negative all (if negative then point - exponent else point + exponent)

/-- The value of a number, unless it is too large to have one. -/
def NumberText.value? (number : NumberText) : Option Number :=
  let (whole, left) := significand 0 number.whole
  if number.isWhole ∧ left = [] then
    if number.negative then
      if whole = 0 ∨ 0x8000000000000000 < whole then some (.real (-(Float.ofNat whole)))
      else some (.integer (-whole))
    else some (.integer whole)
  else number.real?.map .real

def readNumber (text : List Char) : Reading Number × Option (List Char) :=
  match numberText text with
  | .error atEnd => (.bad (if atEnd then .ended else .malformed) (some .malformed), Option.none)
  | .ok (found, rest) =>
    match found.value? with
    | some value => (.good value, some rest)
    | Option.none => (.bad .malformed Option.none, some rest)

/-! ## Values -/

def readWord (word : List Char) (value : Tree) (text : List Char) : Tree × Option (List Char) :=
  match expect word text with
  | .ok rest => (value, some rest)
  | .error fault => (.broken fault, Option.none)

mutual

/-- The value at the front of a text and the text after it, unless the text breaks. The fuel
has to exceed three times the length of the text. -/
def readValue : Nat → List Char → Tree × Option (List Char)
  | 0, _ => (.missing .ended, Option.none)
  | fuel + 1, text =>
    match skipSpace text with
    | [] => (.missing .ended, Option.none)
    | c :: rest =>
      if c = 'n' then readWord ['u', 'l', 'l'] .null rest
      else if c = 't' then readWord ['r', 'u', 'e'] (.bool true) rest
      else if c = 'f' then readWord ['a', 'l', 's', 'e'] (.bool false) rest
      else if c = '"' then
        let (reading, rest) := readString rest
        (.string reading, rest)
      else if c = '-' ∨ c.isDigit then
        let (reading, rest) := readNumber (c :: rest)
        (.number reading, rest)
      else if c = '[' then
        match skipSpace rest with
        | ']' :: rest => (.list .close, some rest)
        | [] => (.list (.cut .ended), Option.none)
        | rest =>
          let (items, rest) := readItem fuel rest
          (.list items, rest)
      else if c = '{' then
        match skipSpace rest with
        | '}' :: rest => (.object .close, some rest)
        | '"' :: rest =>
          let (fields, rest) := readField fuel rest
          (.object fields, rest)
        | [] => (.object (.cut .ended), Option.none)
        | rest => (.object (.noKey (readValue fuel rest).1), Option.none)
      else (.missing .malformed, Option.none)

/-- An item and the rest of its list. -/
def readItem : Nat → List Char → Items × Option (List Char)
  | 0, _ => (.cut .ended, Option.none)
  | fuel + 1, text =>
    match readValue fuel text with
    | (value, Option.none) => (.item value (.cut .malformed), Option.none)
    | (value, some rest) =>
      match skipSpace rest with
      | ']' :: rest => (.item value .close, some rest)
      | ',' :: rest =>
        let (items, rest) := readItem fuel rest
        (.item value items, rest)
      | [] => (.item value (.cut .ended), Option.none)
      | _ => (.item value (.cut .malformed), Option.none)

/-- A field after the opening quote of its key, and the rest of its object. -/
def readField : Nat → List Char → Fields × Option (List Char)
  | 0, _ => (.cut .ended, Option.none)
  | fuel + 1, text =>
    match readString text with
    | (key, Option.none) => (.field key (.missing .malformed) (.cut .malformed), Option.none)
    | (key, some rest) =>
      match skipSpace rest with
      | ':' :: rest =>
        match readValue fuel rest with
        | (value, Option.none) => (.field key value (.cut .malformed), Option.none)
        | (value, some rest) =>
          match skipSpace rest with
          | '}' :: rest => (.field key value .close, some rest)
          | ',' :: rest =>
            match skipSpace rest with
            | '"' :: rest =>
              let (fields, rest) := readField fuel rest
              (.field key value fields, rest)
            | rest =>
              let fault := if rest = [] then Fault.ended else .malformed
              (.field key value (.field (.bad fault (some fault)) (.missing fault) (.cut fault)),
                Option.none)
          | [] => (.field key value (.cut .ended), Option.none)
          | _ => (.field key value (.cut .malformed), Option.none)
      | [] => (.field key (.missing .ended) (.cut .malformed), Option.none)
      | _ => (.field key (.missing .malformed) (.cut .malformed), Option.none)

end

/-- A whole text: its value, and the fault of what follows the value. -/
structure Document where
  root : Tree
  tail : Option Fault

def readDocument (text : String) : Document :=
  let chars := text.toList
  match readValue (3 * chars.length + 3) chars with
  | (root, Option.none) => ⟨root, Option.none⟩
  | (root, some rest) => ⟨root, if skipSpace rest = [] then Option.none else some .malformed⟩

/-- The largest number of containers around a value. -/
def depthLimit : Nat := 127

/-- The value that a text says. -/
def parse (text : String) : Except Fault Json := do
  let document := readDocument text
  let value ← document.root.value depthLimit
  match document.tail with
  | some fault => .error fault
  | Option.none => .ok value

end TypedClient.Json
