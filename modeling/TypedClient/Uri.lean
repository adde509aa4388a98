/-!
# URI templates

A request address is a path of literal and parameter segments, followed by
query entries. A catch-all parameter keeps the slashes of its value. An
optional query entry is left out when it has no value, and a repeated one is
written once for each element.
-/

namespace TypedClient

inductive UriSegment where
  | literal (text : String)
  | parameter (name : String) (catchAll : Bool)
  deriving DecidableEq, Repr

structure QueryEntry where
  key : String
  parameter : String
  optional : Bool
  repeated : Bool
  deriving DecidableEq, Repr

structure UriTemplate where
  segments : List UriSegment := []
  query : List QueryEntry := []
  deriving DecidableEq, Repr

def UriSegment.display : UriSegment → String
  | literal text => text
  | parameter name true => "\x7b*" ++ name ++ "\x7d"
  | parameter name false => "\x7b" ++ name ++ "\x7d"

def QueryEntry.display (entry : QueryEntry) : String :=
  entry.key ++ "=\x7b" ++ entry.parameter ++ (if entry.optional then "?" else "") ++ "\x7d"

namespace UriTemplate

/-- The query entries with their separators. -/
def displayQuery : List QueryEntry → String
  | [] => ""
  | entry :: entries =>
    "?" ++ entry.display ++ String.join (entries.map fun entry => "&" ++ entry.display)

def display (uri : UriTemplate) : String :=
  String.join (uri.segments.map UriSegment.display) ++ displayQuery uri.query

end UriTemplate

end TypedClient
