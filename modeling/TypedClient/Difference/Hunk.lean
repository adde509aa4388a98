import TypedClient.Difference.Line
import TypedClient.Difference.Script
import TypedClient.Difference.Slide

/-!
# Differences as text

A difference is shown as hunks: what changes, with up to three unchanged lines
around it. In one place the deleted lines come before the inserted ones. Changes
that are at most six lines apart share a hunk.
-/

namespace TypedClient.Difference

/-- Lines that stay, or lines that give way to others. -/
inductive Segment where
  | same (lines : List String)
  | change (deleted inserted : List String)
  deriving DecidableEq, Repr

namespace Segment

def cons : Edit → List Segment → List Segment
  | .keep line, same lines :: rest => same (line :: lines) :: rest
  | .keep line, rest => same [line] :: rest
  | .delete line, change deleted inserted :: rest => change (line :: deleted) inserted :: rest
  | .delete line, rest => change [line] [] :: rest
  | .insert lines, change deleted inserted :: rest => change deleted (lines ++ inserted) :: rest
  | .insert lines, rest => change [] lines :: rest

def ofScript (script : List Edit) : List Segment :=
  script.foldr cons []

end Segment

/-- The number of unchanged lines shown before and after a change. -/
def context : Nat := 3

def takeLast (count : Nat) (lines : List String) : List String :=
  lines.drop (lines.length - count)

/-- Of the unchanged lines before the first change only the last ones are shown. -/
def trimFirst : List Segment → List Segment
  | .same lines :: rest => .same (takeLast context lines) :: rest
  | segments => segments

/-- Of the unchanged lines after the last change only the first ones are shown. -/
def trimLast : List Segment → List Segment
  | [] => []
  | [.same lines] => [.same (lines.take context)]
  | segment :: rest => segment :: trimLast rest

def isShown : List Segment → Bool
  | [] => false
  | [.same _] => false
  | _ => true

/-- Splits a difference where the unchanged lines are too many for one hunk; the segments of
the current hunk are in reverse. -/
def splitFrom (current : List Segment) : List Segment → List (List Segment)
  | [] => if isShown current then [current.reverse] else []
  | .same lines :: rest =>
    if 2 * context < lines.length then
      (.same (lines.take context) :: current).reverse ::
        splitFrom [.same (takeLast context lines)] rest
    else splitFrom (.same lines :: current) rest
  | segment :: rest => splitFrom (segment :: current) rest

def hunks (old new : List String) : List (List Segment) :=
  splitFrom [] (trimLast (trimFirst (Segment.ofScript (settle (script old new)))))

/-- A line behind its mark; a line without an ending gets one. -/
def markLine (mark line : String) : String :=
  mark ++ line ++ if isEnded line then "" else "\n"

def markLines (mark : String) (lines : List String) : String :=
  String.join (lines.map (markLine mark))

def Segment.text : Segment → String
  | same lines => markLines " " lines
  | change deleted inserted => markLines "-" deleted ++ markLines "+" inserted

/-- The difference between what a file says and what it should say. -/
def report (name existing wanted : String) : String :=
  "--- " ++ name ++ " (on disk)\n+++ " ++ name ++ " (generated)\n" ++
    "...\n".intercalate
      ((hunks (lines existing) (lines wanted)).map fun hunk => String.join (hunk.map Segment.text))

end TypedClient.Difference
