/-!
# Lines

A line ends with a line feed, and a carriage return right before the line feed
belongs to the ending. A text that ends with a line feed has no further empty
line after it.
-/

namespace TypedClient.Text

/-- The pieces of `text` between line feeds, the last one included even if it is empty. -/
def splitLines : List Char → List (List Char)
  | [] => [[]]
  | c :: text =>
    if c = '\n' then [] :: splitLines text
    else match splitLines text with
      | [] => [[c]]
      | line :: lines => (c :: line) :: lines

def dropCarriageReturn (line : List Char) : List Char :=
  if line.getLast? = some '\r' then line.dropLast else line

/-- The lines of a text as `splitLines` gives them: all but the last ended in a line feed. -/
def endLines : List (List Char) → List (List Char)
  | [] => []
  | [last] => if last = [] then [] else [last]
  | line :: lines => dropCarriageReturn line :: endLines lines

def linesChars (text : List Char) : List (List Char) :=
  endLines (splitLines text)

def lines (text : String) : List String :=
  (linesChars text.toList).map String.ofList

end TypedClient.Text
