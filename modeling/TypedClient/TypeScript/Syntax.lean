/-!
# TypeScript syntax

Trees for the part of TypeScript that a client is made of: types, a few
expressions and statements, interfaces, enumerations, classes and namespaces.
Code outside this part is carried as text.
-/

namespace TypedClient.TypeScript

inductive Keyword where
  | string | number | boolean | null | undefined | void | unknown
  deriving DecidableEq, Repr

mutual

inductive Ty where
  | keyword (keyword : Keyword)
  /-- `T[]` -/
  | array (element : Ty)
  /-- `A | B` -/
  | union (members : List Ty)
  /-- An object type with its properties. -/
  | object (properties : List Property)
  /-- `Record<K, V>` -/
  | record (key value : Ty)
  /-- A named type with its arguments, as in `Page<Order>`. -/
  | reference (name : String) (args : List Ty)

structure Property where
  name : String
  type : Ty
  optional : Bool := false
  doc : Option String := none

end

inductive Literal where
  | string (value : String)
  | integer (value : Int)
  | bool (value : Bool)
  | null
  deriving DecidableEq, Repr

mutual

inductive Expr where
  | ident (name : String)
  | literal (literal : Literal)
  | call (callee : Expr) (args : List Expr)
  | member (object : Expr) (property : String)
  /-- A template literal. -/
  | template (pieces : List TemplatePiece)
  | await (expr : Expr)
  | construct (callee : Expr) (args : List Expr)
  | object (entries : List ObjectEntry)
  /-- `expr as Type` -/
  | cast (expr : Expr) (type : Ty)
  | code (text : String)

inductive TemplatePiece where
  | text (text : String)
  | substitution (expr : Expr)

inductive ObjectEntry where
  | property (key : String) (value : Expr)
  | spread (expr : Expr)

end

inductive Binder where
  | const
  | var
  deriving DecidableEq, Repr

inductive Stmt where
  | declare (binder : Binder) (name : String) (init : Expr)
  | expr (expr : Expr)
  | return (value : Option Expr)
  | when (condition : Expr) (body : List Stmt)
  /-- Lines of code, each written at the indentation of the statement. -/
  | code (text : String)

structure Param where
  name : String
  type : Ty
  optional : Bool := false

structure EnumMember where
  name : String
  /-- The value, where counting on from the member before does not give it. -/
  initializer : Option Int
  doc : Option String := none
  deriving DecidableEq

inductive Definition where
  | interface (typeParams : List String) (base : Option Ty) (properties : List Property)
  | enumeration (members : List EnumMember)

structure TypeDefinition where
  name : String
  doc : Option String
  definition : Definition

structure Method where
  name : String
  doc : Option String
  params : List Param
  returns : Ty
  body : List Stmt
  isAsync : Bool

structure Class where
  name : String
  doc : Option String
  /-- Parameter list of the constructor. -/
  constructorParams : String
  methods : List Method

structure Namespace where
  name : String
  types : List TypeDefinition
  classes : List Class

structure Module where
  header : String
  /-- Imports and helpers in front of the namespaces. -/
  preamble : List String
  namespaces : List Namespace

namespace Ty

def isNull : Ty → Bool
  | keyword .null => true
  | _ => false

/-- `T | null`, without a second null. -/
def orNull : Ty → Ty
  | union members =>
    if members.any isNull then union members else union (members ++ [keyword .null])
  | keyword .null => keyword .null
  | type => union [type, keyword .null]

/-- `T | undefined` -/
def orUndefined : Ty → Ty
  | union members => union (members ++ [keyword .undefined])
  | type => union [type, keyword .undefined]

def promise (type : Ty) : Ty :=
  reference "Promise" [type]

/-- The type is a union with null among its members. -/
def admitsNull : Ty → Bool
  | union members => members.any isNull
  | _ => false

def isUnion : Ty → Bool
  | union _ => true
  | _ => false

end Ty

namespace Expr

def string (value : String) : Expr :=
  literal (.string value)

def invoke (object : Expr) (method : String) (args : List Expr) : Expr :=
  call (member object method) args

end Expr

end TypedClient.TypeScript
