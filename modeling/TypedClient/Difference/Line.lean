/-!
# Lines with their endings

For a comparison a text is cut right after every line ending, so that nothing of
it is lost. A line ends with a line feed, with a carriage return and a line
feed, or with a carriage return alone.
-/

namespace TypedClient.Difference

/-- Puts a character in front of the first line. -/
def prepend (c : Char) : List (List Char) → List (List Char)
  | [] => [[c]]
  | line :: lines => (c :: line) :: lines

def lineChars : List Char → List (List Char)
  | [] => []
  | '\r' :: '\n' :: text => ['\r', '\n'] :: lineChars text
  | c :: text =>
    if c = '\n' ∨ c = '\r' then [c] :: lineChars text else prepend c (lineChars text)

def lines (text : String) : List String :=
  (lineChars text.toList).map String.ofList

def isEnded (line : String) : Bool :=
  match line.toList.getLast? with
  | some c => c = '\n' || c = '\r'
  | none => false

theorem flatten_prepend (c : Char) (lines : List (List Char)) :
    (prepend c lines).flatten = c :: lines.flatten := by
  cases lines <;> rfl

/-- Cutting a text into lines loses nothing. -/
theorem flatten_lineChars (text : List Char) : (lineChars text).flatten = text := by
  fun_induction lineChars text with
  | case1 => rfl
  | case2 text ih => simp [ih]
  | case3 c text _ _ ih => simp [ih]
  | case4 c text _ _ ih => simp [flatten_prepend, ih]

end TypedClient.Difference
