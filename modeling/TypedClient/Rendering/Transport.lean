import TypedClient.Client
import TypedClient.Config
import TypedClient.TypeScript.Syntax

/-!
# Sending a request and reading the response

The two flavors of clients differ in how they send a request and in where they
find the response, not in what a function promises. A response that may be null
arrives with the status 204 and no body.
-/

namespace TypedClient

open TypeScript (Ty Expr Stmt ObjectEntry Keyword)

/-- What a function has prepared when it sends its request. -/
structure Request where
  method : String
  hasHeaders : Bool
  body : Option Expr

/-- The text of a body and its content type. -/
def BodySerialization.encode (serialization : BodySerialization) (value : Expr) : Expr × String :=
  match serialization with
  | json => (.invoke (.ident "JSON") "stringify" [value], "application/json")
  | formUrlEncoded =>
    (.construct (.ident "URLSearchParams") [
      .cast (.cast value (.keyword .unknown)) (.record (.keyword .string) (.keyword .string))],
      "application/x-www-form-urlencoded")

namespace Request

/-- The options that both flavors share; the body goes by the given key. -/
def options (request : Request) (bodyKey : String) : List ObjectEntry :=
  .property "method" (.string request.method) ::
    ((if request.hasHeaders then [.property "headers" (.ident "headers")] else []) ++
      request.body.toList.map (.property bodyKey))

def constRes (init : Expr) : Stmt :=
  .declare .const "res" (.await init)

def sendFetch (request : Request) : List Stmt :=
  [constRes (.call (.ident "fetch") [
      .ident "url",
      .object (.spread (.member (.ident "this") "init") :: request.options "body")]),
    .when (.code "!res.ok") [
      .code "throw new ApiError(res.status, res.statusText, await res.text());"]]

/-- The response type that has to be asked for; structured data is the default. -/
def responseType? : ReturnStrategy → Option String
  | .stream => some "blob"
  | .text => some "text"
  | _ => none

def sendAxios (request : Request) (strategy : ReturnStrategy) : List Stmt :=
  [constRes (.invoke (.member (.ident "this") "http") "request" [
    .object (.property "url" (.ident "url") :: request.options "data" ++
      (responseType? strategy).toList.map fun type =>
        .property "responseType" (.string type))])]

end Request

namespace ReturnStrategy

def nullGuard : Stmt :=
  .when (.code "res.status === 204") [.return (some (.literal .null))]

/-- Returns a value, and null for an empty response if the type admits it. -/
def returnNullable (value : Expr) (type : Ty) : List Stmt :=
  (if type.admitsNull then [nullGuard] else []) ++ [.return (some value)]

def awaitRes (method : String) : Expr :=
  .await (.invoke (.ident "res") method [])

def readFetch (strategy : ReturnStrategy) (type : Ty) : List Stmt :=
  match strategy with
  | stream => [.return (some (awaitRes "blob"))]
  | dynamic => [.return (some (awaitRes "json"))]
  | text => [nullGuard, .return (some (awaitRes "text"))]
  | scalar => returnNullable (.cast (.invoke (.ident "JSON") "parse" [awaitRes "text"]) type) type
  | structured => returnNullable (.cast (.code "(await res.json())") type) type
  | nothing => [.return none]

def resData : Expr :=
  .member (.ident "res") "data"

def readAxios (strategy : ReturnStrategy) (type : Ty) : List Stmt :=
  match strategy with
  | stream => [.return (some (.cast resData type))]
  | dynamic => [.return (some resData)]
  | text => [nullGuard, .return (some (.cast resData (.keyword .string)))]
  | scalar => returnNullable (.cast resData type) type
  | structured => returnNullable (.cast resData type) type
  | nothing => [.return none]

end ReturnStrategy

namespace Flavor

/-- The error that a fetch client throws when a request fails. -/
def apiErrorClass : String :=
  "export class ApiError extends Error \x7b
  status: number;
  statusText: string;
  body: string;

  constructor(status: number, statusText: string, body: string) \x7b
    super(\x60HTTP $\x7bstatus\x7d: $\x7bstatusText\x7d\x60);
    this.name = \"ApiError\";
    this.status = status;
    this.statusText = statusText;
    this.body = body;
  \x7d
\x7d"

def preamble : Flavor → List String
  | fetch => [apiErrorClass]
  | axios => ["import type \x7b AxiosInstance \x7d from \"axios\";"]

def constructorParams : Flavor → String
  | fetch =>
    "private readonly baseUrl: string = \"\", private readonly init: RequestInit = \x7b\x7d"
  | axios => "private readonly http: AxiosInstance, private readonly baseUrl: string = \"\""

/-- Statements that send the request and bind the response to `res`. -/
def send (flavor : Flavor) (request : Request) (strategy : ReturnStrategy) : List Stmt :=
  match flavor with
  | fetch => request.sendFetch
  | axios => request.sendAxios strategy

/-- Statements that turn `res` into the value the function returns. -/
def readBack (flavor : Flavor) (strategy : ReturnStrategy) (type : Ty) : List Stmt :=
  match flavor with
  | fetch => strategy.readFetch type
  | axios => strategy.readAxios type

end Flavor

end TypedClient
