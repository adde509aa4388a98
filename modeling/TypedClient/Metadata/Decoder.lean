import TypedClient.LoadError
import TypedClient.Operation

/-!
# Metadata documents

The JSON form of metadata: names of fields are in camel case, names of kinds are
hyphenated, and fields with a default may be left out. The kind of a type is an
object with its tag in the field `type` and is collected as a whole before its
other fields are looked at, so that the tag may stand anywhere in it.
-/

namespace TypedClient

open Json (Decoder Tree Items Fields Place Problem)
open Json.Decoder (Schema required withDefault)

namespace SourceType

inductive KindTag where
  | primitive | string | enumeration | array | generic | parameter | custom
  deriving DecidableEq, Repr

namespace KindTag

def all : List KindTag :=
  [primitive, string, enumeration, array, generic, parameter, custom]

def tag : KindTag → String
  | primitive => "primitive"
  | string => "string"
  | enumeration => "enum"
  | array => "array"
  | generic => "generic"
  | parameter => "generic-parameter"
  | custom => "custom"

end KindTag

def blank : SourceType :=
  { name := "", kind := .custom }

def primitiveSchema : Schema Primitive where
  title := "struct variant TypeKind::Primitive"
  blank := .boolean
  parts := [required "primitive" (Json.Decoder.oneOf Primitive.all Primitive.tag) fun scalar _ => scalar]

def arraySchema (type : Decoder SourceType) : Schema (UInt32 × SourceType) where
  title := "struct variant TypeKind::Array"
  blank := (1, blank)
  parts := [
    withDefault "rank" Json.Decoder.uint32 fun rank draft => (rank, draft.2),
    required "element" type fun element draft => (draft.1, element)]

def genericSchema (type : Decoder SourceType) : Schema (GenericFamily × List SourceType) where
  title := "struct variant TypeKind::Generic"
  blank := (.custom, [])
  parts := [
    required "generic" (Json.Decoder.oneOf GenericFamily.all GenericFamily.tag)
      fun family draft => (family, draft.2),
    withDefault "args" (Json.Decoder.list type) fun args draft => (draft.1, args)]

/-- A kind without contents: an object may say more, a list may not. -/
def plainKind (kind : TypeKind) : Decoder TypeKind := fun place tree =>
  match tree with
  | .list items => (Json.Decoder.finish place 0 items).map fun _ => kind
  | _ => .ok kind

/-- The kind with a given tag, from the collected rest of it. -/
def kindOf (type : Decoder SourceType) : KindTag → Decoder TypeKind
  | .primitive => Json.Decoder.map .primitive (Json.Decoder.record primitiveSchema)
  | .array => Json.Decoder.map (fun (rank, element) => .array rank element)
      (Json.Decoder.record (arraySchema type))
  | .generic => Json.Decoder.map (fun (family, args) => .generic family args)
      (Json.Decoder.record (genericSchema type))
  | .string => plainKind .string
  | .enumeration => plainKind .enumeration
  | .parameter => plainKind .parameter
  | .custom => plainKind .custom

def tagName : String := "type"

def readTag : Decoder KindTag :=
  Json.Decoder.tagOf KindTag.all KindTag.tag

/-- Collects a value: its text is read to the end, but nothing is expected of it. -/
def collect (place : Place) (tree : Tree) : Except Problem Unit :=
  match tree.value place.depth with
  | .ok _ => .ok ()
  | .error fault => Json.Decoder.throwFault fault

/-- Reads the tag of an object where it stands and collects the other fields. -/
def splitTag (place : Place) (found : Option KindTag) :
    Fields → Except Problem (Option KindTag × List (String × Tree))
  | .close => .ok (found, [])
  | .cut fault => Json.Decoder.throwFault fault
  | .noKey key => Json.Decoder.throwFault key.keyFault
  | .field key value rest => do
    let name ← Json.Decoder.take key
    if name = tagName then
      if found.isSome then Json.Decoder.throwShape (.duplicateField tagName)
      else splitTag place (some (← readTag place value)) rest
    else
      collect place value
      let (tag, others) ← splitTag place found rest
      return (tag, (name, value) :: others)

def collectItems (place : Place) : Items → Except Problem Unit
  | .close => .ok ()
  | .cut fault => Json.Decoder.throwFault fault
  | .item value rest => do
    collect place value
    collectItems place rest

/-- The kind of a type. In a list the tag comes first. -/
def kindDecoder (type : Decoder SourceType) : Decoder TypeKind := fun place tree =>
  match tree with
  | .object fields => do
    let (tag, others) ← splitTag (← Json.Decoder.enter place) none fields
    match tag with
    | none => Json.Decoder.throwShape (.missingField tagName)
    | some tag => kindOf type tag { place with collected := true } (.object (Fields.ofTrees others))
  | .list items => do
    let inner ← Json.Decoder.enter place
    match items with
    | .close => Json.Decoder.throwShape (.missingField tagName)
    | .cut fault => Json.Decoder.throwFault fault
    | .item value rest => do
      let tag ← readTag inner value
      collectItems inner rest
      kindOf type tag { place with collected := true } (.list rest)
  | tree => Json.Decoder.mismatch "internally tagged enum TypeKind" tree

def memberSchema (type : Decoder SourceType) : Schema Member where
  title := "struct MemberDescriptor"
  blank := { name := "", type := blank }
  parts := [
    required "name" Json.Decoder.string fun name draft => { draft with name },
    required "type" type fun type draft => { draft with type },
    withDefault "required" Json.Decoder.bool fun required draft => { draft with required },
    withDefault "visibility" (Json.Decoder.oneOf Visibility.all Visibility.tag)
      fun visibility draft => { draft with visibility },
    withDefault "ignored" Json.Decoder.bool fun ignored draft => { draft with ignored },
    withDefault "docKey" (Json.Decoder.option Json.Decoder.string)
      fun docKey draft => { draft with docKey }]

def constantSchema : Schema Constant where
  title := "struct EnumMember"
  blank := { name := "", value := 0 }
  parts := [
    required "name" Json.Decoder.string fun name draft => { draft with name },
    required "value" Json.Decoder.int64 fun value draft => { draft with value },
    withDefault "docKey" (Json.Decoder.option Json.Decoder.string)
      fun docKey draft => { draft with docKey }]

/-- A type descriptor, given the decoder of the descriptors inside it. -/
def typeSchema (type : Decoder SourceType) : Schema SourceType where
  title := "struct TypeDescriptor"
  blank := blank
  parts := [
    required "name" Json.Decoder.string fun name draft => { draft with name },
    withDefault "namespace" Json.Decoder.string fun space draft => { draft with space },
    required "kind" (kindDecoder type) fun kind draft => { draft with kind },
    withDefault "members" (Json.Decoder.list (Json.Decoder.record (memberSchema type)))
      fun members draft => { draft with members },
    withDefault "base" (Json.Decoder.option type) fun base draft => { draft with base },
    withDefault "enumMembers" (Json.Decoder.list (Json.Decoder.record constantSchema))
      fun constants draft => { draft with constants },
    withDefault "typeParams" (Json.Decoder.list Json.Decoder.string)
      fun typeParams draft => { draft with typeParams },
    withDefault "docKey" (Json.Decoder.option Json.Decoder.string)
      fun docKey draft => { draft with docKey }]

def decoder : Decoder SourceType :=
  Json.Decoder.fixed fun type => Json.Decoder.record (typeSchema type)

end SourceType

namespace Parameter

def schema : Schema Parameter where
  title := "struct ParameterBinding"
  blank := { name := "", type := SourceType.blank }
  parts := [
    required "name" Json.Decoder.string fun name draft => { draft with name },
    required "type" SourceType.decoder fun type draft => { draft with type },
    withDefault "source" (Json.Decoder.map BindingSource.ofName Json.Decoder.string)
      fun source draft => { draft with source },
    withDefault "optional" Json.Decoder.bool fun optional draft => { draft with optional }]

end Parameter

namespace Operation

def schema : Schema Operation where
  title := "struct ApiOperation"
  blank := { name := "", container := "", verb := .get, route := "" }
  parts := [
    required "name" Json.Decoder.string fun name draft => { draft with name },
    required "container" Json.Decoder.string fun container draft => { draft with container },
    required "verb" (Json.Decoder.map Verb.ofName Json.Decoder.string)
      fun verb draft => { draft with verb },
    required "route" Json.Decoder.string fun route draft => { draft with route },
    withDefault "parameters" (Json.Decoder.list (Json.Decoder.record Parameter.schema))
      fun parameters draft => { draft with parameters },
    withDefault "response" (Json.Decoder.option SourceType.decoder)
      fun response draft => { draft with response },
    withDefault "docKey" (Json.Decoder.option Json.Decoder.string)
      fun docKey draft => { draft with docKey }]

def decoder : Decoder Operation :=
  Json.Decoder.record schema

end Operation

namespace Metadata

def schema : Schema Metadata where
  title := "struct ApiMetadata"
  blank := {}
  parts := [
    withDefault "types" (Json.Decoder.list SourceType.decoder)
      fun types draft => { draft with types },
    withDefault "operations" (Json.Decoder.list Operation.decoder)
      fun operations draft => { draft with operations }]

def decoder : Decoder Metadata :=
  Json.Decoder.record schema

/-- Reads a metadata document. -/
def ofText (text : String) : Except LoadError Metadata :=
  (Json.Decoder.decodeText decoder text).mapError fun problem => ⟨.metadata, .ofProblem problem⟩

/-- Reads metadata from a value that is already there. -/
def ofJson (value : Json) : Except LoadError Metadata :=
  (Json.Decoder.decodeJson decoder value).mapError fun problem => ⟨.metadata, .ofProblem problem⟩

end Metadata

end TypedClient
