import TypedClient.Proofs.TypeScript.Evaluation

/-!
# Names that code refers to

A word of code refers to something in scope, unless it is a reserved word or a
number, a property behind a dot, or an operator like `of` right behind another
name. Statements refer to the names in their expressions, and they declare the
names of their locals.
-/

namespace TypedClient.TypeScript

namespace Token

/-- What a word would be at a place in the code. -/
inductive Place where
  | operand
  | property
  | operator
  deriving DecidableEq

def isName (content : String) : Bool :=
  !isReserved content && !content.toList.head?.any Char.isDigit

/-- The names in a row of tokens that starts at the given place. -/
def namesFrom : Place → List Token → List String
  | _, [] => []
  | .operand, .word content :: rest =>
    if isReserved content then namesFrom .operand rest
    else (if isName content then [content] else []) ++ namesFrom .operator rest
  | .property, .word _ :: rest => namesFrom .operator rest
  | .operator, .word _ :: rest => namesFrom .operand rest
  | _, .mark c :: rest => namesFrom (if c = '.' then .property else .operand) rest
  | _, .quoted _ :: rest => namesFrom .operator rest
  | _, .chunk _ :: rest => namesFrom .operand rest

def names (tokens : List Token) : List String :=
  namesFrom .operand tokens

/-- The names that a row of tokens declares. -/
def declared : List Token → List String
  | .word keyword :: .word name :: rest =>
    (if keyword ∈ ["const", "let", "var"] then [name] else []) ++ declared (.word name :: rest)
  | _ :: rest => declared rest
  | [] => []

end Token

mutual

def Expr.names : Expr → List String
  | .ident name => if isReserved name then [] else [name]
  | .literal _ => []
  | .call callee args => Expr.names callee ++ Expr.namesList args
  | .member receiver _ => Expr.names receiver
  | .template pieces => TemplatePiece.namesList pieces
  | .await expr => Expr.names expr
  | .construct callee args => Expr.names callee ++ Expr.namesList args
  | .object entries => ObjectEntry.namesList entries
  | .cast expr _ => Expr.names expr
  | .code text => Token.names (Token.ofCode text)

def Expr.namesList : List Expr → List String
  | [] => []
  | expr :: exprs => Expr.names expr ++ Expr.namesList exprs

def TemplatePiece.names : TemplatePiece → List String
  | .text _ => []
  | .substitution expr => Expr.names expr

def TemplatePiece.namesList : List TemplatePiece → List String
  | [] => []
  | piece :: pieces => TemplatePiece.names piece ++ TemplatePiece.namesList pieces

def ObjectEntry.names : ObjectEntry → List String
  | .property _ value => Expr.names value
  | .spread expr => Expr.names expr

def ObjectEntry.namesList : List ObjectEntry → List String
  | [] => []
  | entry :: entries => ObjectEntry.names entry ++ ObjectEntry.namesList entries

end

mutual

def Stmt.names : Stmt → List String
  | .declare _ _ init => init.names
  | .expr value => value.names
  | .return (some value) => value.names
  | .return none => []
  | .when condition body => condition.names ++ Stmt.namesList body
  | .code text => Token.names (Token.ofCode text)

def Stmt.namesList : List Stmt → List String
  | [] => []
  | stmt :: stmts => Stmt.names stmt ++ Stmt.namesList stmts

end

mutual

def Stmt.declared : Stmt → List String
  | .declare _ binding _ => [declaredName binding]
  | .expr _ => []
  | .return _ => []
  | .when _ body => Stmt.declaredList body
  | .code text => Token.declared (Token.ofCode text)

def Stmt.declaredList : List Stmt → List String
  | [] => []
  | stmt :: stmts => Stmt.declared stmt ++ Stmt.declaredList stmts

end

theorem TemplatePiece.namesList_eq_flatMap (pieces : List TemplatePiece) :
    TemplatePiece.namesList pieces = pieces.flatMap TemplatePiece.names := by
  induction pieces with
  | nil => rfl
  | cons piece pieces ih => rw [TemplatePiece.namesList, ih, List.flatMap_cons]

theorem ObjectEntry.namesList_eq_flatMap (entries : List ObjectEntry) :
    ObjectEntry.namesList entries = entries.flatMap ObjectEntry.names := by
  induction entries with
  | nil => rfl
  | cons entry entries ih => rw [ObjectEntry.namesList, ih, List.flatMap_cons]

theorem Stmt.namesList_eq_flatMap (stmts : List Stmt) :
    Stmt.namesList stmts = stmts.flatMap Stmt.names := by
  induction stmts with
  | nil => rfl
  | cons stmt stmts ih => rw [Stmt.namesList, ih, List.flatMap_cons]

theorem Stmt.namesList_append (front rest : List Stmt) :
    Stmt.namesList (front ++ rest) = Stmt.namesList front ++ Stmt.namesList rest := by
  simp only [Stmt.namesList_eq_flatMap, List.flatMap_append]

theorem Stmt.declaredList_eq_flatMap (stmts : List Stmt) :
    Stmt.declaredList stmts = stmts.flatMap Stmt.declared := by
  induction stmts with
  | nil => rfl
  | cons stmt stmts ih => rw [Stmt.declaredList, ih, List.flatMap_cons]

namespace Token

section

variable (rest : List Token)

@[simp]
theorem namesFrom_nil (place : Place) : namesFrom place [] = [] := by
  cases place <;> rfl

@[simp]
theorem namesFrom_mark (place : Place) (c : Char) :
    namesFrom place (.mark c :: rest) =
      namesFrom (if c = '.' then .property else .operand) rest := by
  cases place <;> rfl

@[simp]
theorem namesFrom_quoted (place : Place) (content : String) :
    namesFrom place (.quoted content :: rest) = namesFrom .operator rest := by
  cases place <;> rfl

@[simp]
theorem namesFrom_property_word (content : String) :
    namesFrom .property (.word content :: rest) = namesFrom .operator rest :=
  rfl

@[simp]
theorem namesFrom_operator_word (content : String) :
    namesFrom .operator (.word content :: rest) = namesFrom .operand rest :=
  rfl

@[simp]
theorem namesFrom_reserved {content : String} (h : isReserved content = true) :
    namesFrom .operand (.word content :: rest) = namesFrom .operand rest :=
  if_pos h

@[simp]
theorem namesFrom_name {content : String} (h : isName content = true) :
    namesFrom .operand (.word content :: rest) = content :: namesFrom .operator rest := by
  have hunreserved : isReserved content = false := by
    rw [isName, Bool.and_eq_true, Bool.not_eq_true'] at h
    exact h.1
  rw [namesFrom, hunreserved, h]
  rfl

end

theorem isName_of_isIdentifier {ident : String} (h : IsIdentifier ident.toList) :
    isName ident = true := by
  have hunreserved := h.unreserved
  rw [String.ofList_toList] at hunreserved
  have hhead : ident.toList.head?.any Char.isDigit = false := by
    rw [Option.any_eq_false]
    intro c hc
    simp [h.head c hc]
  rw [isName, hunreserved, hhead]
  rfl

end Token

end TypedClient.TypeScript
