/-!
# Types of the source system

A source type is described by its qualified name, the namespace it was declared
in, its kind, and the parts that only some kinds have: data members and a base
type for records, named constants for enumerations, open type parameters for
generic definitions. Descriptors nest: members, bases, array elements and
generic arguments carry full descriptors of their own.
-/

namespace TypedClient

/-- Scalar types of the source system. -/
inductive Primitive where
  | boolean | char | byte | sbyte | int16 | uint16 | int32 | uint32 | int64 | uint64
  | single | double | decimal | guid | dateTime | dateTimeOffset | timeSpan | uri
  deriving DecidableEq, Repr

/-- Families of closed generic types. A deferred value arrives later, like the result of a
running task. -/
inductive GenericFamily where
  | nullable | tuple | dictionary | deferred | sequence | custom
  deriving DecidableEq, Repr

inductive Visibility where
  | shown | internal | hidden
  deriving DecidableEq, Repr

/-- A named constant of an enumeration. -/
structure Constant where
  name : String
  value : Int64
  docKey : Option String := none
  deriving DecidableEq

mutual

structure SourceType where
  /-- Qualified name, such as `Shop.Models.Order`. -/
  name : String
  /-- Namespace of the declaration; empty if the descriptor does not say. -/
  space : String := ""
  kind : TypeKind
  members : List Member := []
  base : Option SourceType := none
  constants : List Constant := []
  typeParams : List String := []
  /-- Documentation key that replaces the one made from the name. -/
  docKey : Option String := none

inductive TypeKind where
  | primitive (scalar : Primitive)
  | string
  | enumeration
  | array (rank : UInt32) (element : SourceType)
  | generic (family : GenericFamily) (args : List SourceType)
  /-- An open type parameter inside a generic definition. -/
  | parameter
  | custom

/-- A data member of a record. -/
structure Member where
  name : String
  type : SourceType
  required : Bool := false
  visibility : Visibility := .shown
  ignored : Bool := false
  docKey : Option String := none

end

namespace Primitive

def all : List Primitive :=
  [boolean, char, byte, sbyte, int16, uint16, int32, uint32, int64, uint64,
    single, double, decimal, guid, dateTime, dateTimeOffset, timeSpan, uri]

/-- Name inside the namespace `System`. -/
def label : Primitive → String
  | boolean => "Boolean"
  | char => "Char"
  | byte => "Byte"
  | sbyte => "SByte"
  | int16 => "Int16"
  | uint16 => "UInt16"
  | int32 => "Int32"
  | uint32 => "UInt32"
  | int64 => "Int64"
  | uint64 => "UInt64"
  | single => "Single"
  | double => "Double"
  | decimal => "Decimal"
  | guid => "Guid"
  | dateTime => "DateTime"
  | dateTimeOffset => "DateTimeOffset"
  | timeSpan => "TimeSpan"
  | uri => "Uri"

/-- Name in a metadata document. -/
def tag : Primitive → String
  | boolean => "boolean"
  | char => "char"
  | byte => "byte"
  | sbyte => "s-byte"
  | int16 => "int16"
  | uint16 => "u-int16"
  | int32 => "int32"
  | uint32 => "u-int32"
  | int64 => "int64"
  | uint64 => "u-int64"
  | single => "single"
  | double => "double"
  | decimal => "decimal"
  | guid => "guid"
  | dateTime => "date-time"
  | dateTimeOffset => "date-time-offset"
  | timeSpan => "time-span"
  | uri => "uri"

theorem mem_all (scalar : Primitive) : scalar ∈ all := by
  cases scalar <;> decide

end Primitive

namespace GenericFamily

def all : List GenericFamily :=
  [nullable, tuple, dictionary, deferred, sequence, custom]

def tag : GenericFamily → String
  | nullable => "nullable"
  | tuple => "tuple"
  | dictionary => "dictionary"
  | deferred => "deferred"
  | sequence => "sequence"
  | custom => "custom"

theorem mem_all (family : GenericFamily) : family ∈ all := by
  cases family <;> decide

end GenericFamily

namespace Visibility

def all : List Visibility :=
  [shown, internal, hidden]

def tag : Visibility → String
  | shown => "public"
  | internal => "internal"
  | hidden => "private"

theorem mem_all (visibility : Visibility) : visibility ∈ all := by
  cases visibility <;> decide

end Visibility

namespace SourceType

def ofPrimitive (scalar : Primitive) : SourceType :=
  { name := "System." ++ scalar.label, space := "System", kind := .primitive scalar }

def string : SourceType :=
  { name := "System.String", space := "System", kind := .string }

/-- A closed generic type, named after its definition. -/
def closed (name space : String) (family : GenericFamily) (args : List SourceType) : SourceType :=
  { name, space, kind := .generic family args }

def brackets (rank : Nat) : String :=
  "[" ++ String.ofList (List.replicate (rank - 1) ',') ++ "]"

/-- An array takes its name and its namespace from the element type. -/
def array (element : SourceType) (rank : UInt32) : SourceType :=
  { name := element.name ++ brackets rank.toNat, space := element.space, kind := .array rank element }

def args (type : SourceType) : List SourceType :=
  match type.kind with
  | .generic _ args => args
  | _ => []

end SourceType

end TypedClient
