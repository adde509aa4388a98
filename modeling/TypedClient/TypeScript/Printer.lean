import TypedClient.Text.Blank
import TypedClient.Text.Lines
import TypedClient.TypeScript.Quotation
import TypedClient.TypeScript.Syntax

/-!
# TypeScript text

Every tree has one text. Types and expressions are written on one line;
statements, definitions, methods and classes are written at an indentation of
two spaces for each level and end with a line feed. A documentation comment of
one line stays on one line, and the end of a comment inside its text is broken
by a backslash.
-/

namespace TypedClient.TypeScript

def Keyword.print : Keyword → String
  | string => "string"
  | number => "number"
  | boolean => "boolean"
  | null => "null"
  | undefined => "undefined"
  | void => "void"
  | unknown => "unknown"

def optionalMark (optional : Bool) : String :=
  if optional then "?" else ""

/-- Text between braces, each with a space inside. -/
def inBraces (separator : String) : List String → String
  | [] => "\x7b\x7d"
  | parts => "\x7b " ++ separator.intercalate parts ++ " \x7d"

mutual

def Ty.print : Ty → String
  | .keyword keyword => keyword.print
  | .array (.union members) => "(" ++ " | ".intercalate (Ty.printList members) ++ ")[]"
  | .array element => Ty.print element ++ "[]"
  | .union members => " | ".intercalate (Ty.printList members)
  | .object properties => inBraces "; " (Property.printList properties)
  | .record key value => "Record<" ++ Ty.print key ++ ", " ++ Ty.print value ++ ">"
  | .reference name args =>
    match Ty.printList args with
    | [] => name
    | args => name ++ "<" ++ ", ".intercalate args ++ ">"

def Ty.printList : List Ty → List String
  | [] => []
  | type :: types => Ty.print type :: Ty.printList types

def Property.print : Property → String
  | { name, type, optional, .. } =>
    propertyKey name ++ optionalMark optional ++ ": " ++ Ty.print type

def Property.printList : List Property → List String
  | [] => []
  | property :: properties => Property.print property :: Property.printList properties

end

def Literal.print : Literal → String
  | string value => stringLiteral value
  | integer value => toString value
  | bool true => "true"
  | bool false => "false"
  | null => "null"

mutual

def Expr.print : Expr → String
  | .ident name => name
  | .literal literal => literal.print
  | .call callee args => Expr.print callee ++ "(" ++ ", ".intercalate (Expr.printList args) ++ ")"
  | .member object property => Expr.print object ++ "." ++ property
  | .template pieces => "\x60" ++ TemplatePiece.printList pieces ++ "\x60"
  | .await expr => "await " ++ Expr.print expr
  | .construct callee args =>
    "new " ++ Expr.print callee ++ "(" ++ ", ".intercalate (Expr.printList args) ++ ")"
  | .object entries => inBraces ", " (ObjectEntry.printList entries)
  | .cast expr type => Expr.print expr ++ " as " ++ type.print
  | .code text => text

def Expr.printList : List Expr → List String
  | [] => []
  | expr :: exprs => Expr.print expr :: Expr.printList exprs

def TemplatePiece.print : TemplatePiece → String
  | .text text => escapeTemplate text
  | .substitution expr => "$\x7b" ++ Expr.print expr ++ "\x7d"

def TemplatePiece.printList : List TemplatePiece → String
  | [] => ""
  | piece :: pieces => TemplatePiece.print piece ++ TemplatePiece.printList pieces

def ObjectEntry.print : ObjectEntry → String
  | .property key value => propertyKey key ++ ": " ++ Expr.print value
  | .spread expr => "..." ++ Expr.print expr

def ObjectEntry.printList : List ObjectEntry → List String
  | [] => []
  | entry :: entries => ObjectEntry.print entry :: ObjectEntry.printList entries

end

def Param.print (param : Param) : String :=
  param.name ++ optionalMark param.optional ++ ": " ++ param.type.print

def indentation (level : Nat) : String :=
  String.ofList (List.replicate (2 * level) ' ')

def line (indent text : String) : String :=
  indent ++ text ++ "\n"

/-- Code at an indentation; empty lines stay empty. -/
def codeLines (indent code : String) : String :=
  String.join ((Text.lines code).map fun text => if text = "" then "\n" else line indent text)

def Binder.print : Binder → String
  | const => "const"
  | var => "let"

mutual

def Stmt.print (level : Nat) : Stmt → String
  | .declare binder name init =>
    line (indentation level) (binder.print ++ " " ++ name ++ " = " ++ init.print ++ ";")
  | .expr value => line (indentation level) (value.print ++ ";")
  | .return (some value) => line (indentation level) ("return " ++ value.print ++ ";")
  | .return none => line (indentation level) "return;"
  | .when condition body =>
    line (indentation level) ("if (" ++ condition.print ++ ") \x7b") ++
      Stmt.printList (level + 1) body ++ line (indentation level) "\x7d"
  | .code text => codeLines (indentation level) text

def Stmt.printList (level : Nat) : List Stmt → String
  | [] => ""
  | stmt :: stmts => Stmt.print level stmt ++ Stmt.printList level stmts

end

/-- Breaks every end of a comment. -/
def breakCommentEnd (text : String) : String :=
  Text.replace "*/" "*\\/" text

def docLine (indent text : String) : String :=
  if text = "" then line indent " *" else line indent (" * " ++ text)

def docComment (indent : String) : Option String → String
  | none => ""
  | some doc =>
    match ((Text.lines doc).map Text.trim).map breakCommentEnd with
    | [single] => line indent ("/** " ++ single ++ " */")
    | texts =>
      line indent "/**" ++ String.join (texts.map (docLine indent)) ++ line indent " */"

def EnumMember.print (level : Nat) (member : EnumMember) : String :=
  let indent := indentation level
  docComment indent member.doc ++ line indent (match member.initializer with
    | some value => propertyKey member.name ++ " = " ++ toString value ++ ","
    | none => propertyKey member.name ++ ",")

def Property.printLine (level : Nat) (property : Property) : String :=
  let indent := indentation level
  docComment indent property.doc ++ line indent (property.print ++ ";")

def typeParamList : List String → String
  | [] => ""
  | params => "<" ++ ", ".intercalate params ++ ">"

def TypeDefinition.print (level : Nat) (type : TypeDefinition) : String :=
  let indent := indentation level
  docComment indent type.doc ++ match type.definition with
    | .interface typeParams base properties =>
      let extension := match base with
        | some base => " extends " ++ base.print
        | none => ""
      line indent ("export interface " ++ type.name ++ typeParamList typeParams ++ extension ++
        " \x7b") ++
        String.join (properties.map (Property.printLine (level + 1))) ++ line indent "\x7d"
    | .enumeration members =>
      line indent ("export enum " ++ type.name ++ " \x7b") ++
        String.join (members.map (EnumMember.print (level + 1))) ++ line indent "\x7d"

def Method.print (level : Nat) (method : Method) : String :=
  let indent := indentation level
  docComment indent method.doc ++
    line indent ((if method.isAsync then "async " else "") ++ method.name ++ "(" ++
      ", ".intercalate (method.params.map Param.print) ++ "): " ++ method.returns.print ++ " \x7b") ++
    Stmt.printList (level + 1) method.body ++ line indent "\x7d"

def Class.print (level : Nat) (cls : Class) : String :=
  let indent := indentation level
  docComment indent cls.doc ++ line indent ("export class " ++ cls.name ++ " \x7b") ++
    line (indentation (level + 1)) ("constructor(" ++ cls.constructorParams ++ ") \x7b\x7d") ++
    String.join (cls.methods.map fun method => "\n" ++ method.print (level + 1)) ++
    line indent "\x7d"

def Namespace.print (space : Namespace) : String :=
  "export namespace " ++ space.name ++ " \x7b\n" ++
    "\n".intercalate (space.types.map (TypeDefinition.print 1) ++
      space.classes.map (Class.print 1)) ++ "\x7d\n"

def Module.print (module : Module) : String :=
  let sections := module.header :: (module.preamble ++ module.namespaces.map Namespace.print)
  "\n\n".intercalate ((sections.map Text.trimEnd).filter (· ≠ "")) ++ "\n"

@[simp]
theorem Ty.printList_eq_map (types : List Ty) : Ty.printList types = types.map Ty.print := by
  induction types with
  | nil => rfl
  | cons type types ih => simp [Ty.printList, ih]

@[simp]
theorem Property.printList_eq_map (properties : List Property) :
    Property.printList properties = properties.map Property.print := by
  induction properties with
  | nil => rfl
  | cons property properties ih => simp [Property.printList, ih]

@[simp]
theorem Expr.printList_eq_map (exprs : List Expr) :
    Expr.printList exprs = exprs.map Expr.print := by
  induction exprs with
  | nil => rfl
  | cons expr exprs ih => simp [Expr.printList, ih]

end TypedClient.TypeScript
