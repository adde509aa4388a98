import TypedClient.Text.Replace
import TypedClient.TypeScript.Identifier

/-!
# Quotation of text

Inside double quotes, the backslash and the quote are escaped. Inside a template
literal, the backslash, the backtick and the opening of a substitution are
escaped. The backslash comes first, so that it is not escaped again where a
later step puts it in.
-/

namespace TypedClient.TypeScript

def escapeString (text : String) : String :=
  Text.replace "\"" "\\\"" (Text.replace "\\" "\\\\" text)

def escapeTemplate (text : String) : String :=
  Text.replace "$\x7b" "\\$\x7b"
    (Text.replace "\x60" "\\\x60" (Text.replace "\\" "\\\\" text))

/-- A string literal. -/
def stringLiteral (text : String) : String :=
  "\"" ++ escapeString text ++ "\""

/-- A property key, in quotes if it is no identifier. -/
def propertyKey (name : String) : String :=
  if needsQuoting name then stringLiteral name else name

end TypedClient.TypeScript
