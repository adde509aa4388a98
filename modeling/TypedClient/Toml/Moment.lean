import TypedClient.Toml.Basic

/-!
# TOML dates and times

A moment is a date, a time of day, or a date with a time, which may then have
an offset. Only days of the calendar are dates. A text that starts like a
moment is nothing else, since no other value has a dash or a colon behind
digits.
-/

namespace TypedClient.Toml

/-- The number of exactly `count` digits in front of a text, within bounds. -/
def fieldIn (count low high : Nat) (text : List Char) : Option (Nat × List Char) :=
  let digits := text.take count
  let value := digits.foldl (fun value c => value * 10 + (c.toNat - '0'.toNat)) 0
  if digits.length = count ∧ digits.all Char.isDigit ∧ low ≤ value ∧ value ≤ high then
    some (value, text.drop count)
  else none

def skipMark (mark : Char) : List Char → Option (List Char)
  | c :: rest => if c = mark then some rest else none
  | [] => none

def isLeapYear (year : Nat) : Bool :=
  year % 4 == 0 && (year % 100 != 0 || year % 400 == 0)

def monthLength (year month : Nat) : Nat :=
  if month = 2 then if isLeapYear year then 29 else 28
  else if month ∈ [4, 6, 9, 11] then 30
  else 31

/-- Drops a date. -/
def skipDate (text : List Char) : Option (List Char) := do
  let (year, rest) ← fieldIn 4 0 9999 text
  let (month, rest) ← fieldIn 2 1 12 (← skipMark '-' rest)
  let (_, rest) ← fieldIn 2 1 (monthLength year month) (← skipMark '-' rest)
  return rest

/-- Drops the fraction of a second, if there is one. -/
def skipFraction : List Char → List Char
  | '.' :: c :: rest => if c.isDigit then rest.dropWhile Char.isDigit else '.' :: c :: rest
  | text => text

/-- Drops a time of day. A minute may have a leap second. -/
def skipTime (text : List Char) : Option (List Char) := do
  let (_, rest) ← fieldIn 2 0 23 text
  let (_, rest) ← fieldIn 2 0 59 (← skipMark ':' rest)
  let (_, rest) ← fieldIn 2 0 60 (← skipMark ':' rest)
  return skipFraction rest

/-- Drops the offset of a time, if there is one. -/
def skipOffset : List Char → Option (List Char)
  | c :: rest =>
    if c = 'Z' ∨ c = 'z' then some rest
    else if c = '+' ∨ c = '-' then do
      let (_, rest) ← fieldIn 2 0 23 rest
      let (_, rest) ← fieldIn 2 0 59 (← skipMark ':' rest)
      return rest
    else some (c :: rest)
  | [] => some []

/-- Drops the time after a date, if there is one. -/
def skipTimeOfDate : List Char → Option (List Char)
  | c :: rest =>
    if c = 'T' ∨ c = 't' ∨ c = ' ' then
      match skipTime rest with
      | some rest => skipOffset rest
      | none => some (c :: rest)
    else some (c :: rest)
  | [] => some []

def startsLikeDate (text : List Char) : Bool :=
  (text.takeWhile Char.isDigit).length == 4 && (text.dropWhile Char.isDigit).head? == some '-'

def startsLikeTime (text : List Char) : Bool :=
  (text.takeWhile Char.isDigit).length == 2 && (text.dropWhile Char.isDigit).head? == some ':'

/-- The moment in front of a text that starts like one. -/
def momentValue (text : List Char) : Option (Toml × List Char) := do
  let rest ← if startsLikeDate text then skipTimeOfDate (← skipDate text) else skipTime text
  return (.moment (String.ofList (text.take (text.length - rest.length))), rest)

end TypedClient.Toml
