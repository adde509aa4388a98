import Mathlib.Data.List.Infix
import Mathlib.Data.List.TakeWhile
import TypedClient.Proofs.TypeScript.StringLiteral

/-!
# Reading types

The text of a type is read by descent. A name, an object or a type in parentheses may be
followed by the brackets of arrays, and such operands are joined to unions. How far each
of them reaches is seen from the next character. What is printed is read back, so two
types have the same text only if they are the same type. The documentation of properties
is not part of the text.
-/

namespace TypedClient.TypeScript

/-! ## Types without documentation -/

mutual

def Ty.undocumented : Ty → Ty
  | .keyword keyword => .keyword keyword
  | .array element => .array (Ty.undocumented element)
  | .union members => .union (Ty.undocumentedList members)
  | .object properties => .object (Property.undocumentedList properties)
  | .record key value => .record (Ty.undocumented key) (Ty.undocumented value)
  | .reference name args => .reference name (Ty.undocumentedList args)

def Ty.undocumentedList : List Ty → List Ty
  | [] => []
  | type :: types => Ty.undocumented type :: Ty.undocumentedList types

def Property.undocumented : Property → Property
  | { name, type, optional, .. } => { name, type := Ty.undocumented type, optional }

def Property.undocumentedList : List Property → List Property
  | [] => []
  | property :: properties =>
    Property.undocumented property :: Property.undocumentedList properties

end

@[simp]
theorem Ty.undocumentedList_eq_map (types : List Ty) :
    Ty.undocumentedList types = types.map Ty.undocumented := by
  induction types with
  | nil => rfl
  | cons type types ih => simp [Ty.undocumentedList, ih]

@[simp]
theorem Property.undocumentedList_eq_map (properties : List Property) :
    Property.undocumentedList properties = properties.map Property.undocumented := by
  induction properties with
  | nil => rfl
  | cons property properties ih => simp [Property.undocumentedList, ih]

theorem Ty.print_array (element : Ty) : (Ty.array element).print =
    if element.isUnion then "(" ++ element.print ++ ")[]" else element.print ++ "[]" := by
  cases element <;> simp [Ty.print, Ty.isUnion]

theorem Ty.isUnion_undocumented (type : Ty) : type.undocumented.isUnion = type.isUnion := by
  cases type <;> rfl

mutual

theorem Ty.print_undocumented : ∀ type : Ty, type.undocumented.print = type.print
  | .keyword keyword => rfl
  | .array element => by
    rw [Ty.undocumented, Ty.print_array, Ty.print_array, Ty.isUnion_undocumented,
      Ty.print_undocumented element]
  | .union members => by
    rw [Ty.undocumented, Ty.print, Ty.print, Ty.printList_undocumented]
  | .object properties => by
    rw [Ty.undocumented, Ty.print, Ty.print, Property.printList_undocumented]
  | .record key value => by
    rw [Ty.undocumented, Ty.print, Ty.print, Ty.print_undocumented, Ty.print_undocumented]
  | .reference name args => by
    rw [Ty.undocumented, Ty.print, Ty.print, Ty.printList_undocumented]

theorem Ty.printList_undocumented :
    ∀ types : List Ty, Ty.printList (Ty.undocumentedList types) = Ty.printList types
  | [] => rfl
  | type :: types => by
    rw [Ty.undocumentedList, Ty.printList, Ty.printList, Ty.print_undocumented,
      Ty.printList_undocumented]

theorem Property.print_undocumented :
    ∀ property : Property, property.undocumented.print = property.print
  | { name, type, optional, .. } => by
    rw [Property.undocumented, Property.print, Property.print, Ty.print_undocumented]

theorem Property.printList_undocumented : ∀ properties : List Property,
    Property.printList (Property.undocumentedList properties) = Property.printList properties
  | [] => rfl
  | property :: properties => by
    rw [Property.undocumentedList, Property.printList, Property.printList,
      Property.print_undocumented, Property.printList_undocumented]

end

/-! ## Types whose structure can be seen in their text -/

/-- The characters that end a name. -/
def delimiters : List Char :=
  ['(', ')', '[', ']', '{', '}', '<', '>', ',', ';', ' ']

def isNameChar (c : Char) : Bool :=
  c ∉ delimiters

/-- The name of a declared type: a dotted identifier of any script, for one, unless it is a
keyword or the name of records. -/
structure IsTypeName (name : String) : Prop where
  nonempty : name ≠ ""
  chars : ∀ c ∈ name.toList, isNameChar c = true
  keyword : ∀ keyword : Keyword, name ≠ keyword.print
  record : name ≠ "Record"

/-- Every union has several members, none of them a union, and every reference has a name of its
own. -/
inductive Ty.Regular : Ty → Prop
  | keyword (keyword : Keyword) : Regular (.keyword keyword)
  | array {element : Ty} (helement : Regular element) : Regular (.array element)
  | union {members : List Ty} (hseveral : 2 ≤ members.length)
      (hflat : ∀ member ∈ members, member.isUnion = false)
      (hmembers : ∀ member ∈ members, Regular member) : Regular (.union members)
  | object {properties : List Property}
      (hproperties : ∀ property ∈ properties, Regular property.type) : Regular (.object properties)
  | record {key value : Ty} (hkey : Regular key) (hvalue : Regular value) :
      Regular (.record key value)
  | reference {name : String} {args : List Ty} (hname : IsTypeName name)
      (hargs : ∀ arg ∈ args, Regular arg) : Regular (.reference name args)

/-! ## Reading -/

/-- Keywords by their text. -/
def Keyword.ofText? (text : String) : Option Keyword :=
  [string, number, boolean, null, undefined, void, unknown].find? (·.print = text)

namespace TypeText

/-- At most `limit` items with a separator between them. -/
def readSeparated {α : Type} (item : List Char → Option (α × List Char)) (separator : List Char) :
    Nat → List Char → Option (List α × List Char)
  | 0, _ => none
  | limit + 1, text => do
    let (first, rest) ← item text
    match Text.dropLead? separator rest with
    | none => return ([first], rest)
    | some others =>
      let (items, after) ← readSeparated item separator limit others
      return (first :: items, after)

section

variable (inner : List Char → Option (Ty × List Char)) (limit : Nat)

def generic (name : String) : List Ty → Ty
  | [key, value] => if name = "Record" then .record key value else .reference name [key, value]
  | args => .reference name args

/-- What is written with a name, and with arguments if a bracket follows it. -/
def readNamed (name : String) (rest : List Char) : Option (Ty × List Char) :=
  match Keyword.ofText? name with
  | some keyword => some (.keyword keyword, rest)
  | none =>
    match rest with
    | '<' :: inside => do
      let (args, rest) ← readSeparated inner [',', ' '] limit inside
      let after ← Text.dropLead? ['>'] rest
      return (generic name args, after)
    | rest => some (.reference name [], rest)

def readKey : List Char → Option (String × List Char)
  | '"' :: inside => StringLiteral.readLines ('"' :: inside)
  | text => some (String.ofList (text.takeWhile isIdentChar), text.dropWhile isIdentChar)

def readOptionalMark : List Char → Bool × List Char
  | '?' :: rest => (true, rest)
  | text => (false, text)

def readProperty (text : List Char) : Option (Property × List Char) := do
  let (name, rest) ← readKey text
  let (optional, rest) := readOptionalMark rest
  let rest ← Text.dropLead? [':', ' '] rest
  let (type, after) ← inner rest
  return ({ name, type, optional }, after)

def readPrimary : List Char → Option (Ty × List Char)
  | '(' :: inside => do
    let (type, rest) ← inner inside
    let after ← Text.dropLead? [')'] rest
    return (type, after)
  | '{' :: '}' :: after => some (.object [], after)
  | '{' :: ' ' :: inside => do
    let (properties, rest) ← readSeparated (readProperty inner) [';', ' '] limit inside
    let after ← Text.dropLead? [' ', '}'] rest
    return (.object properties, after)
  | text =>
    readNamed inner limit (String.ofList (text.takeWhile isNameChar)) (text.dropWhile isNameChar)

/-- The array that the brackets behind an element make of it. -/
def arrays : Ty → List Char → Ty × List Char
  | element, '[' :: ']' :: rest => arrays (.array element) rest
  | element, rest => (element, rest)

def readOperand (text : List Char) : Option (Ty × List Char) :=
  (readPrimary inner limit text).map fun (type, rest) ↦ arrays type rest

end

def ofMembers : List Ty → Ty
  | [type] => type
  | members => .union members

/-- Reads a type that nests at most so deep and nowhere has more parts. -/
def read : Nat → List Char → Option (Ty × List Char)
  | 0, _ => none
  | limit + 1, text =>
    (readSeparated (readOperand (read limit) limit) [' ', '|', ' '] limit text).map
      fun (members, after) ↦ (ofMembers members, after)

/-! ## Lists -/

/-- Items are read to their end if each of them stops where the separator or the end begins. -/
theorem readSeparated_intercalate {α β : Type} {item : List Char → Option (α × List Char)}
    {separator rest : List Char} {text : β → List Char} {value : β → α} {stops : List Char → Prop}
    {xs : List β} {limit : Nat}
    (hitem : ∀ x ∈ xs, ∀ after, stops after → item (text x ++ after) = some (value x, after))
    (hseparator : ∀ after, stops (separator ++ after)) (hrest : stops rest)
    (hend : Text.dropLead? separator rest = none) (hlimit : xs.length ≤ limit) (hne : xs ≠ []) :
    readSeparated item separator limit (separator.intercalate (xs.map text) ++ rest) =
      some (xs.map value, rest) := by
  induction xs generalizing limit with
  | nil => contradiction
  | cons x xs ih =>
    obtain ⟨hx, hxs⟩ := List.forall_mem_cons.1 hitem
    cases limit with
    | zero => simp at hlimit
    | succ limit =>
      cases xs with
      | nil => simp [readSeparated, hx rest hrest, hend]
      | cons y ys =>
        have hothers := ih hxs (Nat.le_of_succ_le_succ hlimit) (List.cons_ne_nil y ys)
        have htext : separator.intercalate ((x :: y :: ys).map text) ++ rest =
            text x ++ (separator ++ (separator.intercalate ((y :: ys).map text) ++ rest)) := by
          simp [List.intercalate_cons_cons]
        rw [htext, readSeparated, hx _ (hseparator _)]
        simp only [Option.bind_eq_bind, Option.bind_some, Text.dropLead?_append, hothers]
        rfl

theorem length_le_sizeOf {α : Type} [SizeOf α] (xs : List α) : xs.length ≤ sizeOf xs := by
  induction xs with
  | nil => simp
  | cons x xs ih =>
    simp only [List.length_cons, List.cons.sizeOf_spec]
    omega

/-! ## What may follow -/

/-- What may follow a name without belonging to it. -/
def NameEnd (after : List Char) : Prop :=
  ∀ c ∈ after.head?, isNameChar c = false ∧ c ≠ '<'

/-- What may follow an operand of a union. -/
def OperandEnd (after : List Char) : Prop :=
  ∀ c ∈ after.head?, c ∈ [' ', ')', '>', ',', ';']

structure TypeEnd (after : List Char) : Prop where
  operand : OperandEnd after
  complete : Text.dropLead? [' ', '|', ' '] after = none

theorem OperandEnd.nameEnd {after : List Char} (h : OperandEnd after) : NameEnd after := by
  intro c hc
  have hmarks : ∀ c ∈ [' ', ')', '>', ',', ';'], isNameChar c = false ∧ c ≠ '<' := by
    simp [isNameChar, delimiters]
  exact hmarks c (h c hc)

theorem nameEnd_brackets (after : List Char) : NameEnd ('[' :: after) := by
  intro c hc
  obtain rfl := Option.some.inj hc
  decide

theorem typeEnd_nil : TypeEnd [] :=
  ⟨by simp [OperandEnd], rfl⟩

theorem typeEnd_cons {c : Char} (h : c ∈ [')', '>', ',', ';']) (after : List Char) :
    TypeEnd (c :: after) := by
  constructor
  · intro d hd
    obtain rfl := Option.some.inj hd
    exact .tail _ h
  · have hspace : ' ' ≠ c := by
      rintro rfl
      simp at h
    simp [Text.dropLead?, hspace]

theorem typeEnd_brace (after : List Char) : TypeEnd (' ' :: '}' :: after) := by
  constructor
  · intro c hc
    obtain rfl := Option.some.inj hc
    decide
  · simp [Text.dropLead?]

/-- Wherever the text of the type ends, the reader finds the type and that place. -/
def Reads (inner : List Char → Option (Ty × List Char)) (type : Ty) : Prop :=
  ∀ after, TypeEnd after → inner (type.print.toList ++ after) = some (type.undocumented, after)

theorem span_append {p : Char → Bool} {text after : List Char} (htext : ∀ c ∈ text, p c = true)
    (hafter : ∀ c ∈ after.head?, p c = false) :
    (text ++ after).takeWhile p = text ∧ (text ++ after).dropWhile p = after := by
  rw [List.takeWhile_append_of_pos htext, List.dropWhile_append_of_pos htext]
  cases after with
  | nil => simp
  | cons c after => simp [hafter c rfl]

section

variable {inner : List Char → Option (Ty × List Char)} {limit : Nat} {after : List Char}

/-! ## Names -/

theorem ofText?_print (keyword : Keyword) : Keyword.ofText? keyword.print = some keyword := by
  cases keyword <;> decide

theorem ofText?_eq_none {name : String} (h : ∀ keyword : Keyword, name ≠ keyword.print) :
    Keyword.ofText? name = none := by
  rw [Keyword.ofText?, List.find?_eq_none]
  intro keyword _
  simpa using (h keyword).symm

theorem readPrimary_name {name : String} (hne : name ≠ "")
    (hchars : ∀ c ∈ name.toList, isNameChar c = true)
    (hafter : ∀ c ∈ after.head?, isNameChar c = false) :
    readPrimary inner limit (name.toList ++ after) = readNamed inner limit name after := by
  obtain ⟨c, chars, hname⟩ := List.exists_cons_of_ne_nil (show name.toList ≠ [] by simpa using hne)
  have hc : isNameChar c = true := hchars c (by rw [hname]; exact .head _)
  have hdelimiters : isNameChar '(' = false ∧ isNameChar '{' = false := by decide
  have hparen : c ≠ '(' := by
    rintro rfl
    simp [hdelimiters] at hc
  have hbrace : c ≠ '{' := by
    rintro rfl
    simp [hdelimiters] at hc
  obtain ⟨htake, hdrop⟩ := span_append hchars hafter
  rw [hname, List.cons_append, readPrimary, ← List.cons_append, ← hname, htake, hdrop,
    String.ofList_toList]
  · exact fun _ heq ↦ hparen (List.cons.inj heq).1
  · exact fun _ heq ↦ hbrace (List.cons.inj heq).1
  · exact fun _ heq ↦ hbrace (List.cons.inj heq).1

theorem isNameChar_print (keyword : Keyword) :
    keyword.print ≠ "" ∧ ∀ c ∈ keyword.print.toList, isNameChar c = true := by
  cases keyword <;> exact ⟨by decide, List.all_eq_true.1 (by decide)⟩

theorem readPrimary_keyword (keyword : Keyword) (hafter : NameEnd after) :
    readPrimary inner limit (keyword.print.toList ++ after) = some (.keyword keyword, after) := by
  obtain ⟨hne, hchars⟩ := isNameChar_print keyword
  rw [readPrimary_name hne hchars fun c hc ↦ (hafter c hc).1]
  simp only [readNamed, ofText?_print]

theorem readNamed_plain {name : String} (hname : Keyword.ofText? name = none)
    (hafter : NameEnd after) :
    readNamed inner limit name after = some (.reference name [], after) := by
  simp only [readNamed, hname]
  split
  · exact absurd rfl (hafter '<' rfl).2
  · rfl

/-- Arguments are read up to the bracket that closes them. -/
theorem readNamed_args {name : String} {args : List Ty} (hname : Keyword.ofText? name = none)
    (hargs : ∀ arg ∈ args, Reads inner arg) (hlimit : args.length ≤ limit) (hne : args ≠ []) :
    readNamed inner limit name ('<' ::
        ([',', ' '].intercalate (args.map fun arg ↦ arg.print.toList) ++ '>' :: after)) =
      some (generic name (args.map Ty.undocumented), after) := by
  have hseparator (more : List Char) : TypeEnd ([',', ' '] ++ more) := typeEnd_cons (by decide) _
  have hclose : TypeEnd ('>' :: after) := typeEnd_cons (by decide) after
  have hread := readSeparated_intercalate hargs hseparator hclose (by simp [Text.dropLead?])
    hlimit hne
  simp [readNamed, hname, hread, Text.dropLead?]

/-! ## Properties -/

theorem isIdentChar_of_isIdentStart {c : Char} (h : isIdentStart c = true) :
    isIdentChar c = true := by
  simp only [isIdentStart, Text.isAsciiLetter, Bool.or_eq_true] at h
  simp only [isIdentChar, Text.isAsciiAlphanumeric, Char.isAlphanum, Bool.or_eq_true]
  rcases h with (hletter | hmark) | hdollar
  · exact .inl (.inl (.inl hletter))
  · exact .inl (.inr hmark)
  · exact .inr hdollar

/-- A key is read back, in quotes or not, if what follows cannot belong to it. -/
theorem readKey_propertyKey (name : String) (hafter : ∀ c ∈ after.head?, isIdentChar c = false) :
    readKey ((propertyKey name).toList ++ after) = some (name, after) := by
  rw [propertyKey]
  split
  · have hquoted : (stringLiteral name).toList ++ after =
        '"' :: (escapeStringChars name.toList ++ '"' :: after) := by
      simp [toList_stringLiteral]
    have hread := StringLiteral.readLines_stringLiteral name after
    rw [hquoted] at hread ⊢
    rw [readKey, hread]
  · rename_i hplain
    rw [needsQuoting] at hplain
    split at hplain
    · simp at hplain
    · rename_i first chars hname
      obtain ⟨hfirst, hchars⟩ :
          isIdentStart first = true ∧ ∀ c ∈ chars, isIdentChar c = true := by
        simpa using hplain
      have hall : ∀ c ∈ name.toList, isIdentChar c = true := by
        rw [hname, List.forall_mem_cons]
        exact ⟨isIdentChar_of_isIdentStart hfirst, hchars⟩
      have hquote : first ≠ '"' := by
        rintro rfl
        contradiction
      obtain ⟨htake, hdrop⟩ := span_append hall hafter
      rw [hname, List.cons_append, readKey, ← List.cons_append, ← hname, htake, hdrop,
        String.ofList_toList]
      exact fun _ heq ↦ hquote (List.cons.inj heq).1

theorem readOptionalMark_optionalMark (optional : Bool) (rest : List Char) :
    readOptionalMark ((optionalMark optional).toList ++ ':' :: rest) = (optional, ':' :: rest) := by
  cases optional <;> rfl

theorem readProperty_print {property : Property} (hinner : Reads inner property.type)
    (hafter : TypeEnd after) : readProperty inner (property.print.toList ++ after) =
      some (property.undocumented, after) := by
  obtain ⟨name, type, optional, doc⟩ := property
  have htext : (Property.print { name, type, optional, doc }).toList ++ after =
      (propertyKey name).toList ++
        ((optionalMark optional).toList ++ ':' :: ' ' :: (type.print.toList ++ after)) := by
    simp [Property.print]
  have hkey : ∀ c ∈ ((optionalMark optional).toList ++
      ':' :: ' ' :: (type.print.toList ++ after)).head?, isIdentChar c = false := by
    cases optional <;> simp [optionalMark, isIdentChar, Text.isAsciiAlphanumeric]
  have htype := hinner after hafter
  rw [htext, readProperty, readKey_propertyKey name hkey]
  simp [readOptionalMark_optionalMark, Text.dropLead?, htype, Property.undocumented]

/-! ## Operands -/

theorem arrays_brackets (element : Ty) (rest : List Char) :
    arrays element ('[' :: ']' :: rest) = arrays (.array element) rest := by
  rw [arrays]

theorem arrays_of_operandEnd (element : Ty) (hafter : OperandEnd after) :
    arrays element after = (element, after) := by
  rw [arrays]
  rintro rest rfl
  have hmark := hafter '[' rfl
  simp at hmark

theorem toList_print_object {properties : List Property} (hne : properties ≠ []) :
    (Ty.object properties).print.toList = '{' :: ' ' ::
      ([';', ' '].intercalate (properties.map fun property ↦ property.print.toList) ++
        [' ', '}']) := by
  cases properties with
  | nil => contradiction
  | cons property properties => simp [Ty.print, inBraces, Function.comp_def]

theorem toList_print_record (key value : Ty) :
    (Ty.record key value).print.toList = "Record".toList ++ '<' ::
      ([',', ' '].intercalate ([key, value].map fun arg ↦ arg.print.toList) ++ ['>']) := by
  simp [Ty.print, List.intercalate_cons_cons]

theorem toList_print_reference {args : List Ty} (name : String) (hne : args ≠ []) :
    (Ty.reference name args).print.toList = name.toList ++ '<' ::
      ([',', ' '].intercalate (args.map fun arg ↦ arg.print.toList) ++ ['>']) := by
  cases args with
  | nil => contradiction
  | cons arg args => simp [Ty.print, Function.comp_def]

theorem toList_print_union (members : List Ty) : (Ty.union members).print.toList =
    [' ', '|', ' '].intercalate (members.map fun member ↦ member.print.toList) := by
  simp [Ty.print, Function.comp_def]

theorem readPrimary_parens {type : Ty} (hinner : Reads inner type) :
    readPrimary inner limit ('(' :: (type.print.toList ++ ')' :: after)) =
      some (type.undocumented, after) := by
  have hread := hinner (')' :: after) (typeEnd_cons (by decide) after)
  simp [readPrimary, hread, Text.dropLead?]

theorem readPrimary_object {properties : List Property}
    (hinner : ∀ property ∈ properties, Reads inner property.type)
    (hlimit : properties.length ≤ limit) :
    readPrimary inner limit ((Ty.object properties).print.toList ++ after) =
      some ((Ty.object properties).undocumented, after) := by
  by_cases hne : properties = []
  · subst hne
    rfl
  · have hreads : ∀ property ∈ properties, ∀ rest, TypeEnd rest →
        readProperty inner (property.print.toList ++ rest) = some (property.undocumented, rest) :=
      fun property hmem rest hrest ↦ readProperty_print (hinner property hmem) hrest
    have hseparator (more : List Char) : TypeEnd ([';', ' '] ++ more) :=
      typeEnd_cons (by decide) _
    have hread := readSeparated_intercalate hreads hseparator (typeEnd_brace after)
      (by simp [Text.dropLead?]) hlimit hne
    rw [toList_print_object hne]
    simp [readPrimary, hread, Text.dropLead?, Ty.undocumented]

theorem readPrimary_record {key value : Ty} (hkey : Reads inner key) (hvalue : Reads inner value)
    (hlimit : 2 ≤ limit) :
    readPrimary inner limit ((Ty.record key value).print.toList ++ after) =
      some ((Ty.record key value).undocumented, after) := by
  have hargs : ∀ arg ∈ [key, value], Reads inner arg := by
    simpa using ⟨hkey, hvalue⟩
  have hkeyword : Keyword.ofText? "Record" = none := by decide
  rw [toList_print_record, List.append_assoc, List.cons_append, List.append_assoc,
    List.singleton_append,
    readPrimary_name (by decide) (List.all_eq_true.1 (by decide))
      (by simp [isNameChar, delimiters]),
    readNamed_args hkeyword hargs hlimit (List.cons_ne_nil _ _)]
  rfl

theorem generic_of_ne {name : String} (h : name ≠ "Record") (args : List Ty) :
    generic name args = .reference name args := by
  unfold generic
  split
  · exact if_neg h
  · rfl

theorem readPrimary_reference {name : String} {args : List Ty} (hname : IsTypeName name)
    (hinner : ∀ arg ∈ args, Reads inner arg) (hlimit : args.length ≤ limit)
    (hafter : NameEnd after) :
    readPrimary inner limit ((Ty.reference name args).print.toList ++ after) =
      some ((Ty.reference name args).undocumented, after) := by
  have hkeyword := ofText?_eq_none hname.keyword
  by_cases hne : args = []
  · subst hne
    rw [show (Ty.reference name []).print = name from rfl,
      readPrimary_name hname.nonempty hname.chars fun c hc ↦ (hafter c hc).1,
      readNamed_plain hkeyword hafter]
    rfl
  · rw [toList_print_reference name hne, List.append_assoc, List.cons_append, List.append_assoc,
      List.singleton_append,
      readPrimary_name hname.nonempty hname.chars (by simp [isNameChar, delimiters]),
      readNamed_args hkeyword hinner hlimit hne, generic_of_ne hname.record, Ty.undocumented,
      Ty.undocumentedList_eq_map]

theorem one_le_sizeOf (type : Ty) : 1 ≤ sizeOf type := by
  cases type <;> simp only [Ty.keyword.sizeOf_spec, Ty.array.sizeOf_spec, Ty.union.sizeOf_spec,
    Ty.object.sizeOf_spec, Ty.record.sizeOf_spec, Ty.reference.sizeOf_spec] <;> omega

/-- An operand is read together with the brackets of all arrays behind it. -/
theorem readOperand_print {type : Ty} (hregular : type.Regular) (hflat : type.isUnion = false)
    (hinner : ∀ part, sizeOf part < sizeOf type → part.Regular → Reads inner part)
    (hlimit : sizeOf type ≤ limit) (hafter : NameEnd after) :
    readOperand inner limit (type.print.toList ++ after) =
      some (arrays type.undocumented after) := by
  induction hregular generalizing after with
  | keyword keyword =>
    rw [readOperand, Ty.print, readPrimary_keyword keyword hafter]
    rfl
  | @array element helement ih =>
    have hsize : sizeOf element < sizeOf (Ty.array element) := by simp
    have hparens := hinner element hsize helement
    rw [Ty.print_array, Ty.undocumented, ← arrays_brackets]
    cases hunion : element.isUnion with
    | true => simp [readOperand, readPrimary_parens hparens]
    | false =>
      have hread := ih hunion (fun part hpart ↦ hinner part (hpart.trans hsize))
        (Nat.le_of_lt (hsize.trans_le hlimit)) (nameEnd_brackets (']' :: after))
      simpa using hread
  | union => contradiction
  | @object properties hproperties =>
    have hreads : ∀ property ∈ properties, Reads inner property.type := by
      intro property hmem
      refine hinner _ ?_ (hproperties property hmem)
      have hlist := List.sizeOf_lt_of_mem hmem
      obtain ⟨name, type, optional, doc⟩ := property
      simp only [Property.mk.sizeOf_spec, Ty.object.sizeOf_spec] at hlist ⊢
      omega
    have hlength := length_le_sizeOf properties
    rw [Ty.object.sizeOf_spec] at hlimit
    rw [readOperand, readPrimary_object hreads (by omega)]
    rfl
  | @record key value hkey hvalue =>
    have hsizes := Ty.record.sizeOf_spec key value
    have hone := one_le_sizeOf key
    rw [readOperand, readPrimary_record (hinner key (by omega) hkey)
      (hinner value (by omega) hvalue) (by omega)]
    rfl
  | @reference name args hname hargs =>
    have hreads : ∀ arg ∈ args, Reads inner arg := by
      intro arg hmem
      refine hinner arg ?_ (hargs arg hmem)
      have hlist := List.sizeOf_lt_of_mem hmem
      rw [Ty.reference.sizeOf_spec]
      omega
    have hlength := length_le_sizeOf args
    rw [Ty.reference.sizeOf_spec] at hlimit
    rw [readOperand, readPrimary_reference hname hreads (by omega) hafter]
    rfl

end

/-! ## Types -/

theorem ofMembers_of_two_le {members : List Ty} (h : 2 ≤ members.length) :
    ofMembers members = .union members := by
  unfold ofMembers
  split
  · simp at h
  · rfl

/-- Members are read up to the end of their union. -/
theorem read_members {limit : Nat} {members : List Ty} {after : List Char}
    (hoperand : ∀ member ∈ members, ∀ rest, OperandEnd rest →
      readOperand (read limit) limit (member.print.toList ++ rest) =
        some (member.undocumented, rest))
    (hlimit : members.length ≤ limit) (hne : members ≠ []) (hafter : TypeEnd after) :
    read (limit + 1)
        ([' ', '|', ' '].intercalate (members.map fun member ↦ member.print.toList) ++ after) =
      some (ofMembers (members.map Ty.undocumented), after) := by
  have hseparator (more : List Char) : OperandEnd ([' ', '|', ' '] ++ more) := by
    simp [OperandEnd]
  rw [read, readSeparated_intercalate hoperand hseparator hafter.operand hafter.complete hlimit hne]
  rfl

/-- What is printed of a type is read back, wherever the type ends. -/
theorem reads_read {limit : Nat} {type : Ty} (hregular : type.Regular)
    (hlimit : sizeOf type < limit) : Reads (read limit) type := by
  induction limit generalizing type with
  | zero => omega
  | succ limit ih =>
    intro after hafter
    have hoperand {member : Ty} (hmember : member.Regular) (hflat : member.isUnion = false)
        (hsize : sizeOf member ≤ limit) (rest : List Char) (hrest : OperandEnd rest) :
        readOperand (read limit) limit (member.print.toList ++ rest) =
          some (member.undocumented, rest) := by
      rw [readOperand_print hmember hflat (fun part hpart hregular ↦ ih hregular (by omega)) hsize
        hrest.nameEnd, arrays_of_operandEnd _ hrest]
    cases hunion : type.isUnion with
    | true =>
      cases hregular with
      | @union members hseveral hflat hmembers =>
        have hlength := length_le_sizeOf members
        rw [Ty.union.sizeOf_spec] at hlimit
        have hoperands : ∀ member ∈ members, ∀ rest, OperandEnd rest →
            readOperand (read limit) limit (member.print.toList ++ rest) =
              some (member.undocumented, rest) := by
          intro member hmem
          have hsize := List.sizeOf_lt_of_mem hmem
          exact hoperand (hmembers member hmem) (hflat member hmem) (by omega)
        have hne : members ≠ [] := List.ne_nil_of_length_pos (by omega)
        rw [toList_print_union, read_members hoperands (by omega) hne hafter,
          ofMembers_of_two_le (by simpa using hseveral), Ty.undocumented,
          Ty.undocumentedList_eq_map]
      | _ => contradiction
    | false =>
      have hone := one_le_sizeOf type
      have hoperands : ∀ member ∈ [type], ∀ rest, OperandEnd rest →
          readOperand (read limit) limit (member.print.toList ++ rest) =
            some (member.undocumented, rest) := by
        simpa using hoperand hregular hunion (by omega)
      have hlength : [type].length ≤ limit := by
        rw [List.length_singleton]
        omega
      have hread := read_members hoperands hlength (List.cons_ne_nil _ _) hafter
      simpa [ofMembers] using hread

end TypeText

namespace Ty

/-- Types have the same text exactly if they differ at most in the documentation of properties. -/
theorem print_eq_print_iff {left right : Ty} (hleft : left.Regular) (hright : right.Regular) :
    left.print = right.print ↔ left.undocumented = right.undocumented := by
  constructor
  · intro hprint
    let limit := sizeOf left + sizeOf right + 1
    have hleft : TypeText.Reads (TypeText.read limit) left := TypeText.reads_read hleft (by omega)
    have hright : TypeText.Reads (TypeText.read limit) right :=
      TypeText.reads_read hright (by omega)
    have hread := hleft [] TypeText.typeEnd_nil
    rw [hprint, hright [] TypeText.typeEnd_nil] at hread
    exact (congrArg Prod.fst (Option.some.inj hread)).symm
  · intro hsame
    rw [← print_undocumented left, hsame, print_undocumented]

/-- A page of objects with one property, whose name reads like the text of two properties. -/
def pageOfQuoted : Ty :=
  .reference "Shop.Page"
    [.object
      [{ name := "first: string; second", type := .union [.keyword .number, .keyword .null] }]]

/-- A page of objects with two properties. -/
def pageOfPlain : Ty :=
  .reference "Shop.Page"
    [.object [{ name := "first", type := .keyword .string },
      { name := "second", type := .union [.keyword .number, .keyword .null] }]]

theorem print_pageOfQuoted_ne :
    pageOfQuoted.Regular ∧ pageOfPlain.Regular ∧ pageOfQuoted.print ≠ pageOfPlain.print := by
  have hname : IsTypeName "Shop.Page" := by
    refine ⟨by decide, List.all_eq_true.1 (by decide), ?_, by decide⟩
    intro keyword
    cases keyword <;> decide
  have hunion : (Ty.union [.keyword .number, .keyword .null]).Regular := by
    refine .union (by decide) (by simp [isUnion]) ?_
    simpa using ⟨Regular.keyword .number, Regular.keyword .null⟩
  have hquoted : pageOfQuoted.Regular := by
    refine .reference hname (List.forall_mem_singleton.2 (.object ?_))
    simpa using hunion
  have hplain : pageOfPlain.Regular := by
    refine .reference hname (List.forall_mem_singleton.2 (.object ?_))
    simpa using ⟨Regular.keyword .string, hunion⟩
  refine ⟨hquoted, hplain, fun hprint ↦ ?_⟩
  have hsame := (print_eq_print_iff hquoted hplain).1 hprint
  simp [pageOfQuoted, pageOfPlain, undocumented, Property.undocumented] at hsame

end Ty

end TypedClient.TypeScript
