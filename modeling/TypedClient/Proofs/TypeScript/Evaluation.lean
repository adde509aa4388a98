import TypedClient.Proofs.TypeScript.Token

/-!
# Running the body of a method

The statements in front of a request are run with the arguments of the call.
An expression stands for a value, a statement changes what the names in scope
stand for, and the first statement that sends a request decides what is sent.
A name refers to a parameter or a local of the method, and only otherwise to a
value that is there globally. Code that fails, and code outside the part that
is described here, has no result.
-/

namespace TypedClient.TypeScript

/-- What the surroundings of a client provide. -/
structure Platform where
  /-- Escapes a text for use in an address. -/
  encode : String → String
  /-- The text of a search query. -/
  serialize : List (String × String) → String
  /-- Address in front of every path. -/
  base : String

/-- A scalar is known by its text, and an object that is only handed on by its identity. -/
inductive Value where
  | undefined
  | null
  | bool (holds : Bool)
  | text (content : String)
  | list (items : List String)
  | object (identity : Nat)
  /-- Entries of a search query. -/
  | search (entries : List (String × String))
  /-- Properties with texts. -/
  | record (entries : List (String × String))
  deriving DecidableEq

namespace Value

def isAbsent : Value → Bool
  | undefined => true
  | null => true
  | _ => false

def truthy : Value → Bool
  | undefined => false
  | null => false
  | bool holds => holds
  | text content => content ≠ ""
  | _ => true

/-- The right operand of `&&`, unless the left one decides. -/
def both (left right : Value) : Value :=
  if left.truthy then right else left

/-- The left operand of `??`, unless it is missing. -/
def orElse (left right : Value) : Value :=
  if left.isAbsent then right else left

def toText (platform : Platform) : Value → String
  | undefined => "undefined"
  | null => "null"
  | bool holds => if holds then "true" else "false"
  | text content => content
  | list items => ",".intercalate items
  | object _ => "[object Object]"
  | search entries => platform.serialize entries
  | record _ => "[object Object]"

/-- What a loop runs over; a text is run over character by character. -/
def items? : Value → Option (List String)
  | text content => some (content.toList.map Char.toString)
  | list items => some items
  | _ => none

end Value

/-- What the names of parameters and locals stand for. -/
abbrev Environment := String → Option Value

namespace Environment

def lookup (env : Environment) (name : String) : Option Value :=
  if name = "null" then some .null
  else (env name).or (if name = "undefined" then some .undefined else none)

/-- Calls a global function. -/
def call (platform : Platform) (env : Environment) (function : String) (argument : Value) :
    Option Value :=
  if env function ≠ none then none
  else if function = "String" then some (.text (argument.toText platform))
  else if function = "encodeURIComponent" then
    some (.text (platform.encode (argument.toText platform)))
  else none

/-- Calls a method of a text or of a list. -/
def invoke (platform : Platform) (env : Environment) (object : Value) (method : String)
    (argument : Token) : Option Value :=
  match object, argument with
  | .text content, .quoted separator =>
    if method = "split" then some (.list (content.splitOn separator)) else none
  | .list items, .quoted separator =>
    if method = "join" then some (.text (separator.intercalate items)) else none
  | .list items, .word function =>
    if method = "map" ∧ function = "encodeURIComponent" ∧ env function = none then
      some (.list (items.map platform.encode))
    else none
  | _, _ => none

end Environment

/-! ## Code -/

/-- A part of an expression that waits for the value of what follows. -/
inductive Waiting where
  | call (function : String)
  | differs (left : Value)
  | both (left : Value)
  | orElse (left : Value)
  /-- A condition, of which the first branch follows. -/
  | test (holds : Bool)
  | choice (holds : Bool) (first : Value)
  | template (before : String)
  | substitution

namespace Waiting

/-- How tightly an operator binds, and its result. -/
def operator? : Waiting → Option (Nat × (Value → Value))
  | differs left => some (3, fun right ↦ .bool (left ≠ right))
  | both left => some (2, left.both)
  | orElse left => some (2, left.orElse)
  | choice holds first => some (1, fun second ↦ if holds then first else second)
  | _ => none

/-- Applies the operators that bind at least as tightly as the given level. -/
def settle (level : Nat) : List Waiting → Value → List Waiting × Value
  | [], value => ([], value)
  | waiting :: stack, value =>
    match waiting.operator? with
    | some (precedence, combine) =>
      if level ≤ precedence then settle level stack (combine value) else (waiting :: stack, value)
    | none => (waiting :: stack, value)

end Waiting

open Waiting (settle)

namespace Token

variable (platform : Platform) (env : Environment)

/-- The value of an expression, of which a part has been read already. Operands have no effects,
so all of them are evaluated. -/
def evalFrom : List Waiting → Option Value → List Token → Option Value
  | stack, none, .word function :: .mark '(' :: rest => evalFrom (.call function :: stack) none rest
  | stack, none, .word keyword :: .word cls :: .mark '(' :: .mark ')' :: rest =>
    if keyword = "new" ∧ cls = "URLSearchParams" ∧ env cls = none then
      evalFrom stack (some (.search [])) rest
    else none
  | stack, none, .word name :: rest =>
    match env.lookup name with
    | some value => evalFrom stack (some value) rest
    | none => none
  | stack, none, .quoted text :: rest => evalFrom stack (some (.text text)) rest
  | stack, none, .mark '[' :: .mark ']' :: rest => evalFrom stack (some (.list [])) rest
  | .template text :: stack, none, .mark '\x60' :: rest => evalFrom stack (some (.text text)) rest
  | stack, none, .mark '\x60' :: rest => evalFrom (.template "" :: stack) none rest
  | .template before :: stack, none, .chunk text :: rest =>
    evalFrom (.template (before ++ text) :: stack) none rest
  | .template before :: stack, none, .mark '{' :: rest =>
    evalFrom (.substitution :: .template before :: stack) none rest
  | stack, some value, .mark '!' :: .mark '=' :: .mark '=' :: rest =>
    evalFrom (.differs (settle 3 stack value).2 :: (settle 3 stack value).1) none rest
  | stack, some value, .mark '&' :: .mark '&' :: rest =>
    evalFrom (.both (settle 2 stack value).2 :: (settle 2 stack value).1) none rest
  | stack, some value, .mark '?' :: .mark '?' :: rest =>
    evalFrom (.orElse (settle 2 stack value).2 :: (settle 2 stack value).1) none rest
  | stack, some value, .mark '?' :: rest =>
    evalFrom (.test (settle 2 stack value).2.truthy :: (settle 2 stack value).1) none rest
  | stack, some value, .mark ':' :: rest =>
    match settle 1 stack value with
    | (.test holds :: stack, first) => evalFrom (.choice holds first :: stack) none rest
    | _ => none
  | stack, some value, .mark ')' :: rest =>
    match settle 1 stack value with
    | (.call function :: stack, argument) =>
      match env.call platform function argument with
      | some result => evalFrom stack (some result) rest
      | none => none
    | _ => none
  | stack, some value, .mark '}' :: rest =>
    match settle 1 stack value with
    | (.substitution :: .template before :: stack, part) =>
      evalFrom (.template (before ++ part.toText platform) :: stack) none rest
    | _ => none
  | stack, some value, .mark '.' :: .word method :: .mark '(' :: argument :: .mark ')' :: rest =>
    match env.invoke platform value method argument with
    | some result => evalFrom stack (some result) rest
    | none => none
  | stack, some value, [] =>
    match settle 1 stack value with
    | ([], value) => some value
    | _ => none
  | _, _, _ => none

def eval (tokens : List Token) : Option Value :=
  evalFrom platform env [] none tokens

end Token

/-! ## Expressions -/

/-- Sets an entry. The first one of its key is replaced, and further ones are removed. -/
def putEntry (key value : String) : List (String × String) → List (String × String)
  | [] => [(key, value)]
  | (other, old) :: rest =>
    if other = key then (key, value) :: rest.filter (·.1 ≠ key)
    else (other, old) :: putEntry key value rest

section

variable (platform : Platform) (env : Environment)

mutual

def Expr.eval : Expr → Option Value
  | .ident name => env.lookup name
  | .literal (.string content) => some (.text content)
  | .member (.ident receiver) property =>
    if receiver = "this" ∧ property = "baseUrl" then some (.text platform.base) else none
  | .call (.ident function) [argument] =>
    match Expr.eval argument with
    | some argument => env.call platform function argument
    | none => none
  | .call (.member (.ident receiver) method) [] =>
    if method = "toString" then (env.lookup receiver).map fun value ↦ .text (value.toText platform)
    else none
  | .template pieces => (TemplatePiece.evalList pieces).map .text
  | .object entries => (ObjectEntry.evalList [] entries).map .record
  | .cast expr _ => Expr.eval expr
  | .code text => Token.eval platform env (Token.ofCode text)
  | _ => none

def TemplatePiece.eval : TemplatePiece → Option String
  | .text content => some content
  | .substitution expr => (Expr.eval expr).map (·.toText platform)

def TemplatePiece.evalList : List TemplatePiece → Option String
  | [] => some ""
  | piece :: pieces =>
    match TemplatePiece.eval piece, TemplatePiece.evalList pieces with
    | some first, some rest => some (first ++ rest)
    | _, _ => none

def ObjectEntry.eval (properties : List (String × String)) :
    ObjectEntry → Option (List (String × String))
  | .property key expr =>
    match Expr.eval expr with
    | some (.text content) => some (putEntry key content properties)
    | _ => none
  | .spread _ => none

/-- Properties with texts, written one after the other. -/
def ObjectEntry.evalList (properties : List (String × String)) :
    List ObjectEntry → Option (List (String × String))
  | [] => some properties
  | entry :: entries =>
    match ObjectEntry.eval properties entry with
    | some properties => ObjectEntry.evalList properties entries
    | none => none

end

end

/-! ## Statements -/

namespace Environment

/-- Writes an entry of a search query. -/
def write (env : Environment) (receiver method key content : String) : Option Environment :=
  match env receiver with
  | some (.search entries) =>
    if method = "set" then
      some (Function.update env receiver (some (.search (putEntry key content entries))))
    else if method = "append" then
      some (Function.update env receiver (some (.search (entries ++ [(key, content)]))))
    else none
  | _ => none

/-- Sets a property. -/
def assign (env : Environment) (receiver key content : String) : Option Environment :=
  match env receiver with
  | some (.record entries) =>
    some (Function.update env receiver (some (.record (putEntry key content entries))))
  | _ => none

end Environment

namespace Token

/-- A statement that writes an entry or sets a property. -/
def execSimple (platform : Platform) (env : Environment) : List Token → Option Environment
  | .word receiver :: .mark '.' :: .word method :: .mark '(' :: .quoted key :: .mark ',' :: rest =>
    match (rest.dropSuffix? [.mark ')', .mark ';']).bind (eval platform env) with
    | some (.text content) => env.write receiver method key content
    | _ => none
  | .word receiver :: .mark '[' :: .quoted key :: .mark ']' :: .mark '=' :: rest =>
    match (rest.dropSuffix? [.mark ';']).bind (eval platform env) with
    | some (.text content) => env.assign receiver key content
    | _ => none
  | _ => none

/-- Runs the body of a loop once for each item. -/
def execLoop (platform : Platform) (name : String) (body : List Token) :
    Environment → List String → Option Environment
  | env, [] => some env
  | env, item :: items =>
    match execSimple platform (Function.update env name (some (.text item))) body with
    | some next => execLoop platform name body next items
    | none => none

def exec (platform : Platform) (env : Environment) (tokens : List Token) : Option Environment :=
  match tokens with
  | .word keyword :: .mark '(' :: .word binder :: .word name :: .word preposition :: rest =>
    if keyword = "for" ∧ binder = "const" ∧ preposition = "of" then
      let range := rest.takeWhile (· ≠ .mark ')')
      match rest.drop range.length with
      | .mark ')' :: .mark '{' :: rest =>
        match (eval platform env range).bind Value.items?, rest.dropSuffix? [.mark '}'] with
        | some items, some body =>
          -- the name of an item is in scope inside the loop only
          (execLoop platform name body env items).map fun last ↦
            Function.update last name (env name)
        | _, _ => none
      | _ => none
    else none
  | tokens => execSimple platform env tokens

end Token

/-- The name of a local, which may have a type behind it. -/
def declaredName (binding : String) : String :=
  match Token.ofCode binding with
  | .word name :: _ => name
  | _ => binding

mutual

def Stmt.exec (platform : Platform) : Environment → Stmt → Option Environment
  | env, .declare _ binding init =>
    (init.eval platform env).map fun value ↦ Function.update env (declaredName binding) (some value)
  | env, .expr (.call (.member (.ident receiver) method) [key, content]) =>
    match key.eval platform env, content.eval platform env with
    | some (.text key), some (.text content) => env.write receiver method key content
    | _, _ => none
  | env, .when condition body =>
    match condition.eval platform env with
    | some value => if value.truthy then Stmt.execList platform env body else some env
    | none => none
  | env, .code text => Token.exec platform env (Token.ofCode text)
  | _, _ => none

def Stmt.execList (platform : Platform) : Environment → List Stmt → Option Environment
  | env, [] => some env
  | env, stmt :: stmts =>
    match Stmt.exec platform env stmt with
    | some next => Stmt.execList platform next stmts
    | none => none

end

/-! ## Requests -/

/-- The body of a request. -/
inductive Payload where
  | json (value : Value)
  | form (value : Value)
  deriving DecidableEq

/-- What a method sends. -/
structure Sent where
  method : String
  url : String
  /-- Absent if the method sets no headers. -/
  headers : Option (List (String × String))
  body : Option Payload
  deriving DecidableEq

/-- The value that an object has for a key. -/
def property? (key : String) : List ObjectEntry → Option Expr
  | [] => none
  | .property name value :: entries =>
    (property? key entries).or (if name = key then some value else none)
  | .spread _ :: entries => property? key entries

section

variable (platform : Platform) (env : Environment)

def Expr.payload? : Expr → Option Payload
  | .call (.member (.ident receiver) method) [argument] =>
    if receiver = "JSON" ∧ method = "stringify" ∧ env receiver = none then
      (argument.eval platform env).map .json
    else none
  | .construct (.ident cls) [argument] =>
    if cls = "URLSearchParams" ∧ env cls = none then (argument.eval platform env).map .form
    else none
  | _ => none

def Expr.text? (expr : Expr) : Option String :=
  match expr.eval platform env with
  | some (.text content) => some content
  | _ => none

def Expr.record? (expr : Expr) : Option (List (String × String)) :=
  match expr.eval platform env with
  | some (.record entries) => some entries
  | _ => none

/-- A property that may be missing. -/
def optional? {α : Type} (read : Expr → Option α) : Option Expr → Option (Option α)
  | none => some none
  | some expr => (read expr).map some

/-- Reads the options of a request; the body has the given key. -/
def sentBy (url : Expr) (bodyKey : String) (options : List ObjectEntry) : Option Sent := do
  let url ← url.text? platform env
  let method ← (← property? "method" options).text? platform env
  let headers ← optional? (Expr.record? platform env) (property? "headers" options)
  let body ← optional? (Expr.payload? platform env) (property? bodyKey options)
  return { method, url, headers, body }

/-- What a call sends. The options of the instance come first, so the method overrides them. -/
def Expr.sent? : Expr → Option Sent
  | .call (.ident function) [url, .object options] =>
    if function = "fetch" ∧ env function = none then sentBy platform env url "body" options
    else none
  | .call (.member (.member (.ident receiver) client) method) [.object options] =>
    if receiver = "this" ∧ client = "http" ∧ method = "request" then
      (property? "url" options).bind fun url ↦ sentBy platform env url "data" options
    else none
  | _ => none

end

/-- Runs statements up to the first one that waits for a response. -/
def Stmt.send (platform : Platform) : Environment → List Stmt → Option Sent
  | env, .declare _ _ (.await call) :: _ => call.sent? platform env
  | env, stmt :: stmts =>
    match stmt.exec platform env with
    | some next => Stmt.send platform next stmts
    | none => none
  | _, [] => none

/-! ## Laws of running -/

section

variable {platform : Platform} {env : Environment}

theorem Environment.lookup_null (env : Environment) : env.lookup "null" = some .null :=
  if_pos rfl

theorem Environment.lookup_eq {name : String} {value : Value} (hname : name ≠ "null")
    (h : env name = some value) : env.lookup name = some value := by
  rw [lookup, if_neg hname, h, Option.some_or]

theorem Token.eval_word {name : String} {value : Value} (h : env.lookup name = some value) :
    Token.eval platform env [.word name] = some value := by
  simp [Token.eval, Token.evalFrom, h, settle]

theorem Expr.eval_string (content : String) :
    (Expr.string content).eval platform env = some (.text content) := by
  simp only [Expr.string, Expr.eval]

theorem Stmt.exec_declare (binding name : String) (hname : declaredName binding = name)
    {init : Expr} {value : Value} (hinit : init.eval platform env = some value) :
    (Stmt.declare .const binding init).exec platform env =
      some (Function.update env name (some value)) := by
  rw [Stmt.exec, hinit, hname]
  rfl

theorem Stmt.execList_singleton (stmt : Stmt) :
    Stmt.execList platform env [stmt] = stmt.exec platform env := by
  rw [Stmt.execList]
  cases stmt.exec platform env <;> rfl

theorem Stmt.execList_append (front rest : List Stmt) :
    Stmt.execList platform env (front ++ rest) =
      (Stmt.execList platform env front).bind (Stmt.execList platform · rest) := by
  induction front generalizing env with
  | nil => simp [Stmt.execList]
  | cons stmt front ih =>
    rw [List.cons_append, Stmt.execList, Stmt.execList]
    cases stmt.exec platform env with
    | none => rfl
    | some next => exact ih

/-- The statement waits for a response. -/
def Stmt.awaits : Stmt → Bool
  | .declare _ _ (.await _) => true
  | _ => false

/-- Statements that do not wait are run before the request is sent. -/
theorem Stmt.send_append {front : List Stmt} (hfront : ∀ stmt ∈ front, stmt.awaits = false)
    (rest : List Stmt) :
    Stmt.send platform env (front ++ rest) =
      (Stmt.execList platform env front).bind (Stmt.send platform · rest) := by
  induction front generalizing env with
  | nil => simp [Stmt.execList]
  | cons stmt front ih =>
    obtain ⟨hstmt, hfront⟩ := List.forall_mem_cons.1 hfront
    have hsend : Stmt.send platform env (stmt :: (front ++ rest)) =
        (stmt.exec platform env).bind (Stmt.send platform · (front ++ rest)) := by
      rw [Stmt.send]
      · cases stmt.exec platform env <;> rfl
      · rintro binder name call rfl
        simp [Stmt.awaits] at hstmt
    rw [List.cons_append, hsend, Stmt.execList]
    cases stmt.exec platform env with
    | none => rfl
    | some next => exact ih hfront

end

end TypedClient.TypeScript
