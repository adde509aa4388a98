import TypedClient.Metadata.Decoder
import TypedClient.Proofs.Json.Decodes
import TypedClient.Proofs.Metadata.Writing

/-!
# Loading written metadata

Every form of metadata is loaded as this metadata. Scalars come first, then kinds, whose
tag may stand anywhere, then the descriptors that contain each other, level by level,
and last operations and the document as a whole.
-/

namespace TypedClient

open Json (Decodes Decoder Fields Fitting Form Place Slot Tree)
open SourceType (docKeySlot tagSlot)

/-! ## Scalars -/

namespace Verb

theorem name_of_mem_known :
    ∀ entry ∈ known, entry.2.isSupported = true ∧ entry.1 = entry.2.name := by
  decide

theorem lookup_known {verb : Verb} (h : verb.isSupported = true) :
    known.lookup verb.name = some verb := by
  cases verb with
  | other => contradiction
  | _ => decide

/-- A verb is recognised by its spellings. -/
theorem ofName_eq {verb : Verb} (hproper : verb.Proper) {text : String}
    (h : verb.SpelledAs text) : ofName text = verb := by
  rcases h with ⟨hsupported, hspelled⟩ | rfl
  · rw [ofName, hspelled, lookup_known hsupported, Option.getD_some]
  · have hnone : known.lookup (Text.uppercaseAscii text) = none := by
      refine List.lookup_eq_none_iff.2 fun entry hentry ↦ ?_
      obtain ⟨hsupported, hname⟩ := name_of_mem_known entry hentry
      simpa [hname] using hproper text rfl entry.2 hsupported
    rw [ofName, hnone, Option.getD_none]

theorem decodes {limit : Nat} {verb : Verb} (hproper : verb.Proper) :
    Decodes limit (Json.Decoder.map ofName Json.Decoder.string) verb.form verb := by
  rintro place doc ⟨text, rfl, hspelled⟩ - -
  exact congrArg _ (ofName_eq hproper hspelled)

end Verb

namespace BindingSource

theorem mem_spellings_of_mem_known : ∀ entry ∈ known, entry.1 ∈ entry.2.spellings := by
  decide

theorem lookup_known {source : BindingSource} : ∀ word ∈ source.spellings,
    known.lookup word = some source := by
  cases source with
  | unknown => exact fun _ hmem ↦ nomatch hmem
  | _ => decide

/-- A source is recognised by its spellings. -/
theorem ofName_eq {source : BindingSource} (hproper : source.Proper) {text : String}
    (h : source.SpelledAs text) : ofName text = source := by
  rcases h with hspelled | rfl
  · rw [ofName, lookup_known _ hspelled, Option.getD_some]
  · have hnone : known.lookup (Text.lowercaseAscii text) = none := by
      refine List.lookup_eq_none_iff.2 fun entry hentry ↦ ?_
      have hne : Text.lowercaseAscii text ≠ entry.1 := fun heq ↦
        hproper text rfl entry.2 (heq ▸ mem_spellings_of_mem_known entry hentry)
      simpa using hne
    rw [ofName, hnone, Option.getD_none]

theorem decodes {limit : Nat} {source : BindingSource} (hproper : source.Proper) :
    Decodes limit (Json.Decoder.map ofName Json.Decoder.string) source.form source := by
  rintro place doc ⟨text, rfl, hspelled⟩ - -
  exact congrArg _ (ofName_eq hproper hspelled)

end BindingSource

/-- Scalars are found under the hyphenated names that they have in the source system. -/
theorem Primitive.variant_hyphenated (scalar : Primitive) :
    Json.Decoder.variant all tag (hyphenated scalar.label) = .ok scalar := by
  have htag : hyphenated scalar.label = scalar.tag := by cases scalar <;> decide
  rw [htag]
  cases scalar <;> rfl

theorem GenericFamily.variant_word (family : GenericFamily) :
    Json.Decoder.variant all tag family.word = .ok family := by
  cases family <;> rfl

theorem Visibility.variant_word (visibility : Visibility) :
    Json.Decoder.variant all tag visibility.word = .ok visibility := by
  cases visibility <;> rfl

theorem decodes_docKey {limit : Nat} (docKey : Option String) :
    Decodes limit (Json.Decoder.option Json.Decoder.string) (.option (docKey.map .text)) docKey :=
  .option (fun text _ ↦ .string text) fun _ h ↦ nomatch h

/-! ## Kinds -/

namespace SourceType

/-- The fields of a kind without its tag. -/
def untagged (fields : List (String × Json)) : List (String × Json) :=
  fields.filter fun field ↦ field.1 ≠ "type"

def toTrees (fields : List (String × Json)) : List (String × Tree) :=
  fields.map fun (name, value) ↦ (name, Tree.ofJson value)

section

variable {place : Place} {name : String} {value : Json} {fields : List (String × Json)}

theorem untagged_cons_of_ne (h : name ≠ "type") :
    untagged ((name, value) :: fields) = (name, value) :: untagged fields :=
  List.filter_cons_of_pos (by simpa using h)

theorem untagged_cons_tag : untagged (("type", value) :: fields) = untagged fields :=
  List.filter_cons_of_neg (by simp)

theorem splitTag_cons_of_ne {found tag : Option KindTag} {others : List (String × Tree)}
    (hname : name ≠ "type") (hdepth : value.depth ≤ place.depth)
    (h : splitTag place found (Fields.ofPairs fields) = .ok (tag, others)) :
    splitTag place found (Fields.ofPairs ((name, value) :: fields)) =
      .ok (tag, (name, Tree.ofJson value) :: others) := by
  have hcollect : collect place (Tree.ofJson value) = .ok () := by
    rw [collect, Json.value_ofJson value hdepth]
  simp only [Fields.ofPairs, splitTag, Json.Decoder.take, bind, Except.bind, tagName,
    if_neg hname, hcollect, h]
  rfl

/-- Behind the tag, or without one, all fields are collected. -/
theorem splitTag_of_ne (found : Option KindTag)
    (hdepth : ∀ field ∈ fields, field.2.depth ≤ place.depth)
    (h : ∀ field ∈ fields, field.1 ≠ "type") :
    splitTag place found (Fields.ofPairs fields) = .ok (found, toTrees (untagged fields)) := by
  induction fields with
  | nil => rfl
  | cons field fields ih =>
    obtain ⟨name, value⟩ := field
    obtain ⟨hvalue, hvalues⟩ := List.forall_mem_cons.1 hdepth
    obtain ⟨hname, hnames⟩ := List.forall_mem_cons.1 h
    rw [splitTag_cons_of_ne hname hvalue (ih hvalues hnames), untagged_cons_of_ne hname]
    rfl

/-- The tag is found wherever it stands. -/
theorem splitTag_eq {tag : KindTag} (hdepth : ∀ field ∈ fields, field.2.depth ≤ place.depth)
    (h : (tagSlot tag.tag).HeldBy fields) :
    splitTag place none (Fields.ofPairs fields) = .ok (some tag, toTrees (untagged fields)) := by
  induction fields with
  | nil => rcases h with ⟨_, habsurd, -⟩ | ⟨hfalse, -⟩ <;> contradiction
  | cons field fields ih =>
    obtain ⟨name, value⟩ := field
    obtain ⟨hvalue, hvalues⟩ := List.forall_mem_cons.1 hdepth
    by_cases hname : name = "type"
    · subst hname
      obtain ⟨hform, hlast⟩ := (Slot.heldBy_cons_of_eq rfl).1 h
      obtain rfl : value = .string tag.tag := hform
      have hread : readTag place (Tree.ofJson (.string tag.tag)) = .ok tag := by
        cases tag <;> rfl
      have hnames : ∀ field ∈ fields, field.1 ≠ "type" := Slot.among_eq_nil_iff.1 hlast
      rw [untagged_cons_tag, ← splitTag_of_ne (some tag) hvalues hnames]
      simp only [Fields.ofPairs, splitTag, Json.Decoder.take, bind, Except.bind, tagName, if_pos,
        hread]
      rfl
    · have hne : (name, value).1 ≠ (tagSlot tag.tag).name := hname
      have hrest := (Slot.heldBy_cons_of_ne hne).1 h
      rw [splitTag_cons_of_ne hname hvalue (ih hvalues hrest), untagged_cons_of_ne hname]
      rfl

end

variable {limit : Nat} {type : Decoder SourceType}

/-- A kind is read from its tag and from what the tag asks for. -/
theorem decodes_kind (tag : KindTag) {slots : List Slot} {kind : TypeKind}
    (hslots : ∀ slot ∈ slots, slot.name ≠ "type")
    (h : Decodes limit (kindOf type tag) (.record slots) kind) :
    Decodes limit (kindDecoder type) (.record (tagSlot tag.tag :: slots)) kind := by
  rintro place doc ⟨fields, rfl, hheld⟩ hdepth hlimit
  obtain ⟨htag, hrest⟩ := List.forall_mem_cons.1 hheld
  obtain ⟨inner, henter, hinner⟩ := Decodes.enter_of_le hdepth
  have hsplit := splitTag_eq (Json.depthOfFields_le_iff.1 hinner) htag
  have hform : Form.record slots (.object (untagged fields)) := by
    refine ⟨_, rfl, fun slot hslot ↦ (Slot.heldBy_filter fun field _ heq ↦ ?_).2 (hrest slot hslot)⟩
    simpa [heq] using hslots slot hslot
  have hsmaller : (Json.object (untagged fields)).depth ≤ (Json.object fields).depth := by
    refine Nat.succ_le_succ (Json.depthOfFields_le_iff.2 fun field hfield ↦ ?_)
    exact Json.depthOfFields_le_iff.1 (Nat.le_refl _) field (List.mem_of_mem_filter hfield)
  have hread := h { place with collected := true } _ hform (Nat.le_trans hsmaller hdepth)
    (Nat.lt_of_le_of_lt hsmaller hlimit)
  rw [← hread, Tree.ofJson, kindDecoder, henter]
  simp only [bind, Except.bind, hsplit, toTrees, Json.ofTrees_map_ofJson, Tree.ofJson]

theorem decodes_plainKind (tag : KindTag) {kind : TypeKind} (h : kindOf type tag = plainKind kind) :
    Decodes limit (kindDecoder type) (.record [tagSlot tag.tag]) kind := by
  refine decodes_kind tag (fun _ hmem ↦ nomatch hmem) ?_
  rintro place doc ⟨fields, rfl, -⟩ - -
  rw [h]
  rfl

/-- Every kind is read if the descriptors in it are. -/
theorem decodes_typeKind (h : ∀ inner : SourceType, Decodes limit type inner.form inner)
    (kind : TypeKind) : Decodes limit (kindDecoder type) kind.form kind := by
  cases kind with
  | string => exact decodes_plainKind .string rfl
  | enumeration => exact decodes_plainKind .enumeration rfl
  | parameter => exact decodes_plainKind .parameter rfl
  | custom => exact decodes_plainKind .custom rfl
  | primitive scalar =>
    refine decodes_kind .primitive (by simp) ?_
    have hrecord : Decodes limit (Json.Decoder.record primitiveSchema)
        (.record [.required "primitive" (.text (hyphenated scalar.label))]) scalar :=
      .of_succ (.record (.required (.oneOf scalar.variant_hyphenated) .nil) (by simp)
        (List.pairwise_singleton _ _) rfl)
    exact hrecord.map _
  | array rank element =>
    refine decodes_kind .array (by simp) ?_
    have hrecord : Decodes limit (Json.Decoder.record (arraySchema type)) (.record [
        .withDefault "rank" (.exactly (.natural rank.toNat)) rank 1,
        .required "element" element.form]) (rank, element) :=
      .of_succ (.record (.withDefault (.uint32 rank) rfl <|
        .required (h element) .nil) (by simp)
        (by simp [Json.Fill.Commute]) rfl)
    exact hrecord.map _
  | generic family args =>
    rw [TypeKind.form, forms_eq_map]
    refine decodes_kind .generic (by simp) ?_
    have hrecord : Decodes limit (Json.Decoder.record (genericSchema type)) (.record [
        .required "generic" (.text family.word),
        .withDefault "args" (.list (args.map form)) args []]) (family, args) :=
      .of_succ (.record (.required (.oneOf family.variant_word) <|
        .withDefault (.list fun arg _ ↦ h arg) rfl .nil) (by simp)
        (by simp [Json.Fill.Commute]) rfl)
    exact hrecord.map _

/-! ## Descriptors -/

theorem decodes_constant (constant : Constant) :
    Decodes limit (Json.Decoder.record constantSchema) constant.form constant := by
  refine .of_succ (.record (.required (.string _) <|
    .required (.int64 _) <|
    .withDefault (decodes_docKey _) rfl .nil) ?_ ?_ rfl)
  · simp [docKeySlot]
  · simp [Json.Fill.Commute]

theorem decodes_member (h : ∀ inner : SourceType, Decodes limit type inner.form inner)
    (member : Member) :
    Decodes limit (Json.Decoder.record (memberSchema type)) member.form member := by
  obtain ⟨name, member, required, visibility, ignored, docKey⟩ := member
  rw [Member.form]
  refine .of_succ (.record (.required (.string _) <|
    .required (h _) <|
    .withDefault (.bool _) rfl <|
    .withDefault (.oneOf visibility.variant_word) rfl <|
    .withDefault (.bool _) rfl <|
    .withDefault (decodes_docKey _) rfl .nil) ?_ ?_ rfl)
  · simp [docKeySlot]
  · simp [Json.Fill.Commute]

theorem not_form_null (type : SourceType) : ¬ type.form .null := by
  obtain ⟨name, space, kind, members, base, constants, typeParams, docKey⟩ := type
  rw [form]
  rintro ⟨_, habsurd, -⟩
  contradiction

/-- One more level of descriptors is read if the levels inside it are. -/
theorem decodes_typeSchema (h : ∀ inner : SourceType, Decodes limit type inner.form inner)
    (outer : SourceType) :
    Decodes (limit + 1) (Json.Decoder.record (typeSchema type)) outer.form outer := by
  obtain ⟨name, space, kind, members, base, constants, typeParams, docKey⟩ := outer
  rw [form, Member.forms_eq_map, form?_eq_map]
  refine .record (.required (.string _) <|
    .withDefault (.string _) rfl <|
    .required (decodes_typeKind h _) <|
    .withDefault (.list fun member _ ↦ decodes_member h member) rfl <|
    .withDefault (.option (fun base _ ↦ h base) not_form_null) rfl <|
    .withDefault (.list fun constant _ ↦ decodes_constant constant) rfl <|
    .withDefault (.list fun param _ ↦ .string param) rfl <|
    .withDefault (decodes_docKey _) rfl .nil) ?_ ?_ rfl
  · simp [docKeySlot]
  · simp [Json.Fill.Commute]

theorem decodes (limit : Nat) (type : SourceType) : Decodes limit decoder type.form type :=
  .fixed (fun _ _ h outer ↦ decodes_typeSchema h outer) limit type

end SourceType

/-! ## Operations -/

theorem Parameter.decodes {parameter : Parameter} (h : parameter.source.Proper) (limit : Nat) :
    Decodes limit (Json.Decoder.record schema) parameter.form parameter := by
  refine .of_succ (.record (.required (.string _) <|
    .required (parameter.type.decodes _) <|
    .withDefault (BindingSource.decodes h) rfl <|
    .withDefault (.bool _) rfl .nil) ?_ ?_ rfl)
  · simp
  · simp [Json.Fill.Commute]

theorem Operation.decodes {operation : Operation} (hverb : operation.verb.Proper)
    (hsources : ∀ parameter ∈ operation.parameters, parameter.source.Proper) (limit : Nat) :
    Decodes limit decoder operation.form operation := by
  refine .of_succ (.record (.required (.string _) <|
    .required (.string _) <|
    .required (Verb.decodes hverb) <|
    .required (.string _) <|
    .withDefault (.list fun parameter hmem ↦ Parameter.decodes (hsources parameter hmem) _) rfl <|
    .withDefault (.option (fun type _ ↦ type.decodes _) SourceType.not_form_null) rfl <|
    .withDefault (decodes_docKey _) rfl .nil) ?_ ?_ rfl)
  · simp [docKeySlot]
  · simp [Json.Fill.Commute]

namespace Metadata

variable {metadata : Metadata}

theorem decodes (h : metadata.Proper) (limit : Nat) :
    Decodes limit decoder metadata.form metadata := by
  refine .of_succ (.record (.withDefault (.list fun type _ ↦ type.decodes _) rfl <|
    .withDefault (.list fun operation hmem ↦
      Operation.decodes (h operation hmem).1 (h operation hmem).2 _) rfl .nil) ?_ ?_ rfl)
  · simp
  · simp [Json.Fill.Commute]

/-- Every document that metadata may be written as is loaded as this metadata, be it from its
value or from a text that says it. The document with all fields is one of them. -/
theorem loads_written (h : metadata.Proper) :
    metadata.form metadata.toJson ∧ ∀ doc, metadata.form doc →
      ofJson doc = .ok metadata ∧
        ∀ text, Json.parse text = .ok doc → ofText text = .ok metadata := by
  refine ⟨metadata.form_toJson, fun doc hform ↦ ⟨?_, fun text hparse ↦ ?_⟩⟩
  · have hread := decodes h (doc.depth + 1) { depth := doc.depth } doc hform (Nat.le_refl _)
      (Nat.lt_succ_self _)
    rw [ofJson, Json.Decoder.decodeJson, hread]
    rfl
  · obtain ⟨htext, hdepth⟩ := Json.decodeText_of_parse decoder hparse
    have hread := decodes h (doc.depth + 1) { depth := Json.depthLimit } doc hform hdepth
      (Nat.lt_succ_self _)
    rw [ofText, htext, hread]
    rfl

/-! ## A shortened document -/

def cookieParameter : Parameter where
  name := "tenant"
  type := .string
  source := .unknown "Cookie"

def cookieOperation : Operation where
  name := "Find"
  container := "Shop.ItemsController"
  verb := .get
  route := "items"
  parameters := [cookieParameter]

def cookieMetadata : Metadata where
  operations := [cookieOperation]

def parameterDocument : Json :=
  .object [("source", .string "Cookie"), ("type", SourceType.string.toJson),
    ("name", .string "tenant")]

def operationDocument : Json :=
  .object [("parameters", .array [parameterDocument]), ("route", .string "items"),
    ("verb", .string "gEt"), ("container", .string "Shop.ItemsController"),
    ("name", .string "Find")]

def cookieDocument : Json :=
  .object [("version", .string "1.0"), ("operations", .array [operationDocument])]

theorem proper_cookieMetadata : cookieMetadata.Proper := by
  refine List.forall_mem_singleton.2 ⟨fun _ h ↦ (nomatch h), List.forall_mem_singleton.2 ?_⟩
  intro text htext known
  obtain rfl := BindingSource.unknown.inj htext
  have hlower : Text.lowercaseAscii "Cookie" = "cookie" := by decide
  rw [hlower]
  cases known <;> simp [BindingSource.spellings]

section

open Json.Form (record_of_forall₂ record_perm record_cons_of_unknown record_filter)

/-- Without its default, and backwards. -/
theorem form_parameterDocument : cookieParameter.form parameterDocument := by
  have hshort := record_filter (fun name ↦ name ≠ "optional") (by simp; rfl)
    cookieParameter.form_toJson
  exact record_perm (List.reverse_perm _).symm hshort

theorem form_operationDocument : cookieOperation.form operationDocument := by
  have hverb : cookieOperation.verb.form (.string "gEt") := ⟨_, rfl, .inl ⟨rfl, by decide⟩⟩
  have hfull : cookieOperation.form (.object [
      ("name", .string "Find"), ("container", .string "Shop.ItemsController"),
      ("verb", .string "gEt"), ("route", .string "items"),
      ("parameters", .array [parameterDocument]), ("response", .null), ("docKey", .null)]) :=
    record_of_forall₂ (by simp [docKeySlot]) (.cons ⟨rfl, rfl⟩ (.cons ⟨rfl, rfl⟩
      (.cons ⟨rfl, hverb⟩ (.cons ⟨rfl, rfl⟩
        (.cons ⟨rfl, _, rfl, .cons form_parameterDocument .nil⟩ (.cons ⟨rfl, rfl⟩
          (.cons ⟨rfl, rfl⟩ .nil)))))))
  have hshort := record_filter (fun name ↦ name ∉ ["response", "docKey"])
    (by simp [docKeySlot]; exact ⟨rfl, rfl⟩) hfull
  exact record_perm (List.reverse_perm _).symm hshort

/-- With a field that means nothing. -/
theorem form_cookieDocument : cookieMetadata.form cookieDocument := by
  have hfull : cookieMetadata.form (.object [
      ("types", .array []), ("operations", .array [operationDocument])]) :=
    record_of_forall₂ (by simp) (.cons ⟨rfl, _, rfl, .nil⟩
      (.cons ⟨rfl, _, rfl, .cons form_operationDocument .nil⟩ .nil))
  have hshort := record_filter (fun name ↦ name ≠ "types") (by simp; rfl) hfull
  exact record_cons_of_unknown (by simp) hshort

end

theorem loads_written_cookieDocument : cookieMetadata.Proper ∧ cookieMetadata.form cookieDocument ∧
    ofJson cookieDocument = .ok cookieMetadata :=
  ⟨proper_cookieMetadata, form_cookieDocument,
    ((loads_written proper_cookieMetadata).2 cookieDocument form_cookieDocument).1⟩

end Metadata

end TypedClient
