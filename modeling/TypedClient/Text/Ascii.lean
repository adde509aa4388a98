/-!
# ASCII letters and digits

Keywords of the input (request methods, binding sources, placeholder names) are
compared without regard to the case of ASCII letters; no other character has a
case here. Hexadecimal digits may have either case.
-/

namespace TypedClient.Text

def isAsciiLetter (c : Char) : Bool :=
  c.isAlpha

def isAsciiAlphanumeric (c : Char) : Bool :=
  c.isAlphanum

def hexValue? (c : Char) : Option Nat :=
  if '0' ≤ c ∧ c ≤ '9' then some (c.toNat - '0'.toNat)
  else if 'a' ≤ c ∧ c ≤ 'f' then some (c.toNat - 'a'.toNat + 10)
  else if 'A' ≤ c ∧ c ≤ 'F' then some (c.toNat - 'A'.toNat + 10)
  else none

def lowercaseAscii (text : String) : String :=
  String.ofList (text.toList.map Char.toLower)

def uppercaseAscii (text : String) : String :=
  String.ofList (text.toList.map Char.toUpper)

def eqIgnoringCase (left right : String) : Bool :=
  left.toList.map Char.toLower == right.toList.map Char.toLower

@[simp]
theorem eqIgnoringCase_iff {left right : String} : eqIgnoringCase left right = true ↔
    left.toList.map Char.toLower = right.toList.map Char.toLower := by
  simp [eqIgnoringCase]

end TypedClient.Text
