import TypedClient.Proofs.TypeScript.Token

/-!
# Code that methods carry as text

Every piece of code with a name of a parameter in it is read back token by
token. The name stays one word, since it is an identifier and the text around it
starts and ends with other characters.
-/

namespace TypedClient

open TypeScript (Token Expr IsIdentifier isIdentChar localName isIdentifier_localName)
open TypeScript.Token (idle run scan ofCode scan_append scan_word scan_stringLiteral)

namespace Callable

/-- The text is read apart from what follows it, unless that continues a word. -/
def ReadsAs (text : String) (tokens : List Token) : Prop :=
  ∀ (c : Char) (rest : List Char), rest.head? = some c → isIdentChar c = false →
    scan (text.toList ++ rest) = tokens ++ scan rest

theorem readsAs_of_isIdentifier {ident : String} (h : IsIdentifier ident.toList) :
    ReadsAs ident [.word ident] := by
  intro c rest hhead hc
  have hrest : ∀ d ∈ rest.head?, isIdentChar d = false := by
    rw [hhead]
    simpa using hc
  rw [scan_word h.chars h.ne_nil hrest, String.ofList_toList, List.singleton_append]

theorem readsAs_localName (name : String) : ReadsAs (localName name) [.word (localName name)] :=
  readsAs_of_isIdentifier (isIdentifier_localName name)

theorem ReadsAs.append {text rest : String} {tokens more : List Token} {c : Char}
    (h : ReadsAs text tokens) (hhead : rest.toList.head? = some c) (hc : isIdentChar c = false)
    (hrest : run idle rest.toList = (idle, more)) : ReadsAs (text ++ rest) (tokens ++ more) := by
  intro _ after _ _
  have hnext : (rest.toList ++ after).head? = some c := by
    rw [List.head?_append, hhead, Option.some_or]
  rw [String.toList_append, List.append_assoc, h c _ hnext hc, scan_append hrest,
    List.append_assoc]

/-- An argument in a path, which may be missing. -/
theorem readsAs_orEmpty (name : String) : ReadsAs (localName name ++ " ?? \"\"")
    [.word (localName name), .mark '?', .mark '?', .quoted ""] :=
  (readsAs_localName name).append rfl rfl (by decide)

/-- A repeated argument, which may be missing. -/
theorem readsAs_orNone (name : String) : ReadsAs (localName name ++ " ?? []")
    [.word (localName name), .mark '?', .mark '?', .mark '[', .mark ']'] :=
  (readsAs_localName name).append rfl rfl (by decide)

theorem ofCode_presence (name : String) :
    ofCode (localName name ++ " !== undefined && " ++ localName name ++ " !== null") =
      [.word (localName name), .mark '!', .mark '=', .mark '=', .word "undefined", .mark '&',
        .mark '&', .word (localName name), .mark '!', .mark '=', .mark '=', .word "null"] := by
  have hundefined : run idle " !== undefined && ".toList = (idle, [.mark '!', .mark '=',
      .mark '=', .word "undefined", .mark '&', .mark '&']) := by decide
  have hnull : scan " !== null".toList = [.mark '!', .mark '=', .mark '=', .word "null"] := by
    decide
  simp only [ofCode, String.toList_append, List.append_assoc]
  rw [readsAs_localName name _ _ rfl rfl, scan_append hundefined,
    readsAs_localName name _ _ rfl rfl, hnull]
  rfl

theorem ofCode_encoded {value : String} {tokens : List Token} (h : ReadsAs value tokens) :
    ofCode ("encodeURIComponent(String(" ++ value ++ "))") =
      .word "encodeURIComponent" :: .mark '(' :: .word "String" :: .mark '(' ::
        tokens ++ [.mark ')', .mark ')'] := by
  have hopen : run idle "encodeURIComponent(String(".toList = (idle, [.word "encodeURIComponent",
      .mark '(', .word "String", .mark '(']) := by decide
  have hclose : scan "))".toList = [.mark ')', .mark ')'] := by decide
  simp only [ofCode, String.toList_append, List.append_assoc]
  rw [scan_append hopen, h _ _ rfl rfl, hclose]
  rfl

/-- The parts between slashes, each of them encoded. -/
def encodedParts : List Token :=
  [.mark ')', .mark '.', .word "split", .mark '(', .quoted "/", .mark ')', .mark '.', .word "map",
    .mark '(', .word "encodeURIComponent", .mark ')', .mark '.', .word "join", .mark '(',
    .quoted "/", .mark ')']

theorem ofCode_encodedParts {value : String} {tokens : List Token} (h : ReadsAs value tokens) :
    ofCode ("String(" ++ value ++ ").split(\"/\").map(encodeURIComponent).join(\"/\")") =
      .word "String" :: .mark '(' :: tokens ++ encodedParts := by
  have hopen : run idle "String(".toList = (idle, [.word "String", .mark '(']) := by decide
  have hclose :
      scan ").split(\"/\").map(encodeURIComponent).join(\"/\")".toList = encodedParts := by
    decide
  simp only [ofCode, String.toList_append, List.append_assoc]
  rw [scan_append hopen, h _ _ rfl rfl, hclose]
  rfl

theorem print_string (text : String) :
    (Expr.string text).print = TypeScript.stringLiteral text := by
  simp only [Expr.string, Expr.print, TypeScript.Literal.print]

/-- Appends one item to the query. -/
def appendItem (key : String) : List Token :=
  [.word "query", .mark '.', .word "append", .mark '(', .quoted key, .mark ',', .word "String",
    .mark '(', .word "item", .mark ')', .mark ')', .mark ';']

theorem ofCode_loop {value : String} {tokens : List Token} (h : ReadsAs value tokens)
    (key : String) :
    ofCode ("for (const item of " ++ value ++ ") \x7b\n  query.append(" ++
        (Expr.string key).print ++ ", String(item));\n\x7d") =
      .word "for" :: .mark '(' :: .word "const" :: .word "item" :: .word "of" ::
        tokens ++ .mark ')' :: .mark '{' :: appendItem key ++ [.mark '}'] := by
  have hopen : run idle "for (const item of ".toList = (idle, [.word "for", .mark '(',
      .word "const", .word "item", .word "of"]) := by decide
  have hbody : run idle ") \x7b\n  query.append(".toList = (idle, [.mark ')', .mark '{',
      .word "query", .mark '.', .word "append", .mark '(']) := by decide
  have hclose : scan ", String(item));\n\x7d".toList = [.mark ',', .word "String", .mark '(',
      .word "item", .mark ')', .mark ')', .mark ';', .mark '}'] := by decide
  simp only [print_string, ofCode, String.toList_append, List.append_assoc]
  rw [scan_append hopen, h _ _ rfl rfl, scan_append hbody, scan_stringLiteral, hclose]
  simp [appendItem]

theorem ofCode_assignment (key name : String) :
    ofCode ("headers[" ++ (Expr.string key).print ++ "] = " ++ (asString (localName name)).print ++
        ";") =
      [.word "headers", .mark '[', .quoted key, .mark ']', .mark '=', .word "String", .mark '(',
        .word (localName name), .mark ')', .mark ';'] := by
  have hopen : run idle "headers[".toList = (idle, [.word "headers", .mark '[']) := by decide
  have hcall : run idle "] = String(".toList = (idle, [.mark ']', .mark '=', .word "String",
      .mark '(']) := by decide
  have hclose : scan ");".toList = [.mark ')', .mark ';'] := by decide
  have hstring : (asString (localName name)).print = "String(" ++ localName name ++ ")" := by
    simp [asString, Expr.print]
  rw [hstring, print_string]
  have htext : ("headers[" ++ TypeScript.stringLiteral key ++ "] = " ++
        ("String(" ++ localName name ++ ")") ++ ";").toList =
      "headers[".toList ++ ((TypeScript.stringLiteral key).toList ++ ("] = String(".toList ++
        ((localName name).toList ++ ");".toList))) := by
    simp
  rw [ofCode, htext, scan_append hopen, scan_stringLiteral, scan_append hcall,
    readsAs_localName name _ _ rfl rfl, hclose]
  rfl

end Callable

end TypedClient
