import TypedClient.Operation
import TypedClient.Proofs.Json.Form

/-!
# Written metadata

The forms of metadata in a JSON document. Names of fields are in camel case, kinds are
words with hyphens between them, and every default is the one of an absent field.
Known verbs and binding sources may be spelled in small and in capital letters, and some
sources have several spellings.
-/

namespace TypedClient

open Json (Form Slot)

/-! ## Spellings -/

/-- A name made of capitalised words, in small letters and with hyphens between the words. -/
def hyphenated (name : String) : String :=
  match name.toList with
  | [] => ""
  | first :: rest =>
    String.ofList (first.toLower :: rest.flatMap fun c ↦
      if c.isUpper then ['-', c.toLower] else [c])

def GenericFamily.word : GenericFamily → String
  | nullable => "nullable"
  | tuple => "tuple"
  | dictionary => "dictionary"
  | deferred => "deferred"
  | sequence => "sequence"
  | custom => "custom"

def Visibility.word : Visibility → String
  | shown => "public"
  | internal => "internal"
  | hidden => "private"

namespace Verb

/-- The texts that a verb may be written as. -/
def SpelledAs (verb : Verb) (text : String) : Prop :=
  (verb.isSupported = true ∧ Text.uppercaseAscii text = verb.name) ∨ verb = .other text

/-- A verb that is none of the known ones is not spelled like one of them. -/
def Proper (verb : Verb) : Prop :=
  ∀ text, verb = .other text → ∀ known : Verb, known.isSupported = true →
    Text.uppercaseAscii text ≠ known.name

def form (verb : Verb) : Form :=
  fun json ↦ ∃ text, json = .string text ∧ verb.SpelledAs text

end Verb

namespace BindingSource

/-- The spellings of a known source in small letters. -/
def spellings : BindingSource → List String
  | path => ["path", "route"]
  | query => ["query"]
  | body => ["body"]
  | header => ["header"]
  | unbound => ["", "unbound", "none"]
  | unknown _ => []

def SpelledAs (source : BindingSource) (text : String) : Prop :=
  Text.lowercaseAscii text ∈ source.spellings ∨ source = .unknown text

/-- An unknown source is not spelled like a known one. -/
def Proper (source : BindingSource) : Prop :=
  ∀ text, source = .unknown text → ∀ known : BindingSource,
    Text.lowercaseAscii text ∉ known.spellings

def form (source : BindingSource) : Form :=
  fun json ↦ ∃ text, json = .string text ∧ source.SpelledAs text

end BindingSource

/-! ## Types -/

namespace SourceType

def docKeySlot (docKey : Option String) : Slot :=
  .withDefault "docKey" (.option (docKey.map .text)) docKey none

def tagSlot (tag : String) : Slot :=
  .required "type" (.text tag)

end SourceType

open SourceType (docKeySlot tagSlot)

def Constant.form (constant : Constant) : Form :=
  .record [
    .required "name" (.text constant.name),
    .required "value" (.exactly (.integer constant.value.toInt)),
    docKeySlot constant.docKey]

mutual

def SourceType.form : SourceType → Form
  | { name, space, kind, members, base, constants, typeParams, docKey } => .record [
      .required "name" (.text name),
      .withDefault "namespace" (.text space) space "",
      .required "kind" (TypeKind.form kind),
      .withDefault "members" (.list (Member.forms members)) members [],
      .withDefault "base" (.option (SourceType.form? base)) base none,
      .withDefault "enumMembers" (.list (constants.map Constant.form)) constants [],
      .withDefault "typeParams" (.list (typeParams.map .text)) typeParams [],
      docKeySlot docKey]

def TypeKind.form : TypeKind → Form
  | .primitive scalar => .record [
      tagSlot "primitive",
      .required "primitive" (.text (hyphenated scalar.label))]
  | .string => .record [tagSlot "string"]
  | .enumeration => .record [tagSlot "enum"]
  | .array rank element => .record [
      tagSlot "array",
      .withDefault "rank" (.exactly (.natural rank.toNat)) rank 1,
      .required "element" (SourceType.form element)]
  | .generic family args => .record [
      tagSlot "generic",
      .required "generic" (.text family.word),
      .withDefault "args" (.list (SourceType.forms args)) args []]
  | .parameter => .record [tagSlot "generic-parameter"]
  | .custom => .record [tagSlot "custom"]

def Member.form : Member → Form
  | { name, type, required, visibility, ignored, docKey } => .record [
      .required "name" (.text name),
      .required "type" (SourceType.form type),
      .withDefault "required" (.exactly (.bool required)) required false,
      .withDefault "visibility" (.text visibility.word) visibility .shown,
      .withDefault "ignored" (.exactly (.bool ignored)) ignored false,
      docKeySlot docKey]

def SourceType.forms : List SourceType → List Form
  | [] => []
  | type :: types => SourceType.form type :: SourceType.forms types

def SourceType.form? : Option SourceType → Option Form
  | none => none
  | some type => some (SourceType.form type)

def Member.forms : List Member → List Form
  | [] => []
  | member :: members => Member.form member :: Member.forms members

end

namespace SourceType

theorem forms_eq_map (types : List SourceType) : forms types = types.map form := by
  induction types with
  | nil => rfl
  | cons type types ih => rw [forms, ih, List.map_cons]

theorem form?_eq_map (type : Option SourceType) : form? type = type.map form := by
  cases type <;> rfl

end SourceType

theorem Member.forms_eq_map (members : List Member) : forms members = members.map form := by
  induction members with
  | nil => rfl
  | cons member members ih => rw [forms, ih, List.map_cons]

/-! ## Operations -/

def Parameter.form (parameter : Parameter) : Form :=
  .record [
    .required "name" (.text parameter.name),
    .required "type" parameter.type.form,
    .withDefault "source" parameter.source.form parameter.source .unbound,
    .withDefault "optional" (.exactly (.bool parameter.optional)) parameter.optional false]

def Operation.form (operation : Operation) : Form :=
  .record [
    .required "name" (.text operation.name),
    .required "container" (.text operation.container),
    .required "verb" operation.verb.form,
    .required "route" (.text operation.route),
    .withDefault "parameters" (.list (operation.parameters.map Parameter.form))
      operation.parameters [],
    .withDefault "response" (.option (operation.response.map SourceType.form))
      operation.response none,
    docKeySlot operation.docKey]

namespace Metadata

def form (metadata : Metadata) : Form :=
  .record [
    .withDefault "types" (.list (metadata.types.map SourceType.form)) metadata.types [],
    .withDefault "operations" (.list (metadata.operations.map Operation.form))
      metadata.operations []]

/-- Verbs and sources that are not known are not spelled like known ones. -/
def Proper (metadata : Metadata) : Prop :=
  ∀ operation ∈ metadata.operations, operation.verb.Proper ∧
    ∀ parameter ∈ operation.parameters, parameter.source.Proper

end Metadata

/-! ## The document with all fields -/

namespace Constant

def toJson (constant : Constant) : Json :=
  .object [
    ("name", .string constant.name),
    ("value", .integer constant.value.toInt),
    ("docKey", .ofOption .string constant.docKey)]

end Constant

mutual

def SourceType.toJson : SourceType → Json
  | { name, space, kind, members, base, constants, typeParams, docKey } => .object [
      ("name", .string name),
      ("namespace", .string space),
      ("kind", TypeKind.toJson kind),
      ("members", .array (Member.listToJson members)),
      ("base", SourceType.optionToJson base),
      ("enumMembers", .array (constants.map Constant.toJson)),
      ("typeParams", .strings typeParams),
      ("docKey", .ofOption .string docKey)]

def TypeKind.toJson : TypeKind → Json
  | .primitive scalar => .object [
      ("type", .string "primitive"), ("primitive", .string (hyphenated scalar.label))]
  | .string => .object [("type", .string "string")]
  | .enumeration => .object [("type", .string "enum")]
  | .array rank element => .object [
      ("type", .string "array"), ("rank", .natural rank.toNat),
      ("element", SourceType.toJson element)]
  | .generic family args => .object [
      ("type", .string "generic"), ("generic", .string family.word),
      ("args", .array (SourceType.listToJson args))]
  | .parameter => .object [("type", .string "generic-parameter")]
  | .custom => .object [("type", .string "custom")]

def Member.toJson : Member → Json
  | { name, type, required, visibility, ignored, docKey } => .object [
      ("name", .string name),
      ("type", SourceType.toJson type),
      ("required", .bool required),
      ("visibility", .string visibility.word),
      ("ignored", .bool ignored),
      ("docKey", .ofOption .string docKey)]

def SourceType.listToJson : List SourceType → List Json
  | [] => []
  | type :: types => SourceType.toJson type :: SourceType.listToJson types

def SourceType.optionToJson : Option SourceType → Json
  | none => .null
  | some type => SourceType.toJson type

def Member.listToJson : List Member → List Json
  | [] => []
  | member :: members => Member.toJson member :: Member.listToJson members

end

def Parameter.toJson (parameter : Parameter) : Json :=
  .object [
    ("name", .string parameter.name),
    ("type", parameter.type.toJson),
    ("source", .string parameter.source.name),
    ("optional", .bool parameter.optional)]

def Operation.toJson (operation : Operation) : Json :=
  .object [
    ("name", .string operation.name),
    ("container", .string operation.container),
    ("verb", .string operation.verb.name),
    ("route", .string operation.route),
    ("parameters", .array (operation.parameters.map Parameter.toJson)),
    ("response", .ofOption SourceType.toJson operation.response),
    ("docKey", .ofOption .string operation.docKey)]

def Metadata.toJson (metadata : Metadata) : Json :=
  .object [
    ("types", .array (metadata.types.map SourceType.toJson)),
    ("operations", .array (metadata.operations.map Operation.toJson))]

/-! ## The document is one of the forms -/

theorem Verb.form_name (verb : Verb) : verb.form (.string verb.name) := by
  refine ⟨_, rfl, ?_⟩
  cases verb with
  | other => exact .inr rfl
  | _ => exact .inl ⟨rfl, by decide⟩

theorem BindingSource.form_name (source : BindingSource) : source.form (.string source.name) := by
  refine ⟨_, rfl, ?_⟩
  cases source with
  | unknown => exact .inr rfl
  | _ => exact .inl (by decide)

section

open Json.Form (list_map option_map record_of_forall₂)

theorem SourceType.writes_docKeySlot (docKey : Option String) :
    (docKeySlot docKey).Writes ("docKey", .ofOption .string docKey) :=
  ⟨rfl, option_map fun _ _ ↦ rfl⟩

open SourceType (writes_docKeySlot)

theorem Constant.form_toJson (constant : Constant) : constant.form constant.toJson :=
  record_of_forall₂ (by simp [docKeySlot])
    (.cons ⟨rfl, rfl⟩ (.cons ⟨rfl, rfl⟩ (.cons (writes_docKeySlot _) .nil)))

mutual

theorem SourceType.form_toJson (type : SourceType) : type.form type.toJson := by
  obtain ⟨name, space, kind, members, base, constants, typeParams, docKey⟩ := type
  rw [SourceType.form, SourceType.toJson]
  refine record_of_forall₂ (by simp [docKeySlot])
    (.cons ⟨rfl, rfl⟩ (.cons ⟨rfl, rfl⟩ (.cons ⟨rfl, TypeKind.form_toJson kind⟩ (.cons ⟨rfl, ?_⟩
      (.cons ⟨rfl, ?_⟩ (.cons ⟨rfl, ?_⟩ (.cons ⟨rfl, ?_⟩ (.cons (writes_docKeySlot _) .nil))))))))
  · exact ⟨_, rfl, Member.forms_listToJson members⟩
  · exact SourceType.form?_optionToJson base
  · exact list_map fun constant _ ↦ constant.form_toJson
  · exact list_map fun _ _ ↦ rfl

theorem TypeKind.form_toJson (kind : TypeKind) : kind.form kind.toJson := by
  cases kind with
  | primitive scalar =>
    rw [TypeKind.form, TypeKind.toJson]
    exact record_of_forall₂ (by simp [tagSlot]) (.cons ⟨rfl, rfl⟩ (.cons ⟨rfl, rfl⟩ .nil))
  | array rank element =>
    rw [TypeKind.form, TypeKind.toJson]
    exact record_of_forall₂ (by simp [tagSlot]) (.cons ⟨rfl, rfl⟩ (.cons ⟨rfl, rfl⟩
      (.cons ⟨rfl, SourceType.form_toJson element⟩ .nil)))
  | generic family args =>
    rw [TypeKind.form, TypeKind.toJson]
    exact record_of_forall₂ (by simp [tagSlot]) (.cons ⟨rfl, rfl⟩ (.cons ⟨rfl, rfl⟩
      (.cons ⟨rfl, _, rfl, SourceType.forms_listToJson args⟩ .nil)))
  | string | enumeration | parameter | custom =>
    rw [TypeKind.form, TypeKind.toJson]
    exact record_of_forall₂ (by simp) (.cons ⟨rfl, rfl⟩ .nil)

theorem Member.form_toJson (member : Member) : member.form member.toJson := by
  obtain ⟨name, type, required, visibility, ignored, docKey⟩ := member
  rw [Member.form, Member.toJson]
  exact record_of_forall₂ (by simp [docKeySlot]) (.cons ⟨rfl, rfl⟩
    (.cons ⟨rfl, SourceType.form_toJson type⟩ (.cons ⟨rfl, rfl⟩ (.cons ⟨rfl, rfl⟩
      (.cons ⟨rfl, rfl⟩ (.cons (writes_docKeySlot _) .nil))))))

theorem SourceType.forms_listToJson (types : List SourceType) :
    Form.Match (SourceType.forms types) (SourceType.listToJson types) := by
  cases types with
  | nil => exact .nil
  | cons type types =>
    exact .cons (SourceType.form_toJson type) (SourceType.forms_listToJson types)

theorem SourceType.form?_optionToJson (type : Option SourceType) :
    Form.option (SourceType.form? type) (SourceType.optionToJson type) := by
  cases type with
  | none => rfl
  | some type => exact SourceType.form_toJson type

theorem Member.forms_listToJson (members : List Member) :
    Form.Match (Member.forms members) (Member.listToJson members) := by
  cases members with
  | nil => exact .nil
  | cons member members =>
    exact .cons (Member.form_toJson member) (Member.forms_listToJson members)

end

theorem Parameter.form_toJson (parameter : Parameter) : parameter.form parameter.toJson :=
  record_of_forall₂ (by simp) (.cons ⟨rfl, rfl⟩ (.cons ⟨rfl, parameter.type.form_toJson⟩
    (.cons ⟨rfl, parameter.source.form_name⟩ (.cons ⟨rfl, rfl⟩ .nil))))

theorem Operation.form_toJson (operation : Operation) : operation.form operation.toJson :=
  record_of_forall₂ (by simp [docKeySlot]) (.cons ⟨rfl, rfl⟩ (.cons ⟨rfl, rfl⟩
    (.cons ⟨rfl, operation.verb.form_name⟩ (.cons ⟨rfl, rfl⟩
      (.cons ⟨rfl, list_map fun parameter _ ↦ parameter.form_toJson⟩
        (.cons ⟨rfl, option_map fun type _ ↦ type.form_toJson⟩
          (.cons (writes_docKeySlot _) .nil)))))))

theorem Metadata.form_toJson (metadata : Metadata) : metadata.form metadata.toJson :=
  record_of_forall₂ (by simp) (.cons ⟨rfl, list_map fun type _ ↦ type.form_toJson⟩
    (.cons ⟨rfl, list_map fun operation _ ↦ operation.form_toJson⟩ .nil))

end

end TypedClient
