import TypedClient.Decimal.Positional
import TypedClient.Decimal.Shortest
import TypedClient.Json.Basic

/-!
# JSON text

Values are written without blanks. Strings escape the quote, the backslash and
the controls; every other character stands for itself. A real number is written
with its shortest digits and always shows that it is one: positionally with a
fraction from 1e-5 up to 1e16, and with an exponent outside.
-/

namespace TypedClient.Json

def hexDigit (n : Nat) : Char :=
  Nat.digitChar (n % 16)

def escapeChar (c : Char) : List Char :=
  if c = '"' then ['\\', '"']
  else if c = '\\' then ['\\', '\\']
  else if c = '\n' then ['\\', 'n']
  else if c = '\r' then ['\\', 'r']
  else if c = '\t' then ['\\', 't']
  else if c.toNat = 8 then ['\\', 'b']
  else if c.toNat = 12 then ['\\', 'f']
  else if c.toNat < 0x20 then ['\\', 'u', '0', '0', hexDigit (c.toNat / 16), hexDigit c.toNat]
  else [c]

def quote (text : String) : String :=
  String.ofList ('"' :: text.toList.flatMap escapeChar ++ ['"'])

def exponentText (exponent : Int) : List Char :=
  'e' :: (if exponent < 0 then '-' else '+') :: (toString exponent.natAbs).toList

def scientific (digits : List Char) (exponent : Int) : List Char :=
  match digits with
  | [] => []
  | [digit] => digit :: exponentText exponent
  | digit :: rest => digit :: '.' :: rest ++ exponentText exponent

/-- The text of a decimal without its sign. -/
def decimalChars (digits : Nat) (power : Int) : List Char :=
  let text := (toString digits).toList
  let exponent := power + text.length - 1
  if -5 ≤ exponent ∧ exponent ≤ 15 then Decimal.positionalChars digits power
  else scientific text exponent

def decimalText (decimal : Decimal) : String :=
  String.ofList (decimal.signed (decimalChars decimal.digits decimal.exponent))

/-- The text of a real number; a number without a decimal is written as null. -/
def realText (value : Float) : String :=
  match Decimal.ofBits? value.toBits with
  | some decimal => decimalText decimal
  | none => "null"

def Number.text : Number → String
  | integer value => toString value
  | real value => realText value

mutual

def print : Json → String
  | null => "null"
  | bool true => "true"
  | bool false => "false"
  | number value => value.text
  | string value => quote value
  | array items => "[" ++ ",".intercalate (printItems items) ++ "]"
  | object fields => "\x7b" ++ ",".intercalate (printFields fields) ++ "\x7d"

def printItems : List Json → List String
  | [] => []
  | item :: items => print item :: printItems items

def printFields : List (String × Json) → List String
  | [] => []
  | (name, value) :: fields => (quote name ++ ":" ++ print value) :: printFields fields

end

end TypedClient.Json
