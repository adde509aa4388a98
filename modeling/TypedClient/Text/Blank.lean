/-!
# Blank characters

A character is blank when the Unicode property White_Space holds of it: the
ASCII blanks including the vertical tab and the form feed, U+0085, the no-break
space and the wider spaces. The zero-width space and the byte-order mark are
not blank. Trimming removes blanks at both ends of a text.
-/

namespace TypedClient.Text

def isBlank (c : Char) : Bool :=
  let code := c.toNat
  (0x09 ≤ code && code ≤ 0x0d) || code == 0x20 || code == 0x85 || code == 0xa0 ||
    code == 0x1680 || (0x2000 ≤ code && code ≤ 0x200a) || code == 0x2028 || code == 0x2029 ||
    code == 0x202f || code == 0x205f || code == 0x3000

def trimStartChars (text : List Char) : List Char :=
  text.dropWhile isBlank

def trimEndChars (text : List Char) : List Char :=
  (text.reverse.dropWhile isBlank).reverse

def trimChars (text : List Char) : List Char :=
  trimEndChars (trimStartChars text)

def trim (text : String) : String :=
  String.ofList (trimChars text.toList)

def trimEnd (text : String) : String :=
  String.ofList (trimEndChars text.toList)

theorem trimChars_eq_self {text : List Char} (hfirst : ∀ c ∈ text.head?, isBlank c = false)
    (hlast : ∀ c ∈ text.getLast?, isBlank c = false) : trimChars text = text := by
  have hstart : trimStartChars text = text := by
    cases text with
    | nil => rfl
    | cons c rest => simp [trimStartChars, hfirst c (by simp)]
  rw [trimChars, hstart, trimEndChars]
  cases hrev : text.reverse with
  | nil => simpa using hrev.symm
  | cons c rest =>
    have hc : isBlank c = false := hlast c (by
      rw [List.getLast?_eq_head?_reverse, hrev]
      rfl)
    rw [List.dropWhile_cons_of_neg (by simp [hc]), ← hrev, List.reverse_reverse]

end TypedClient.Text
