import Mathlib.Data.List.Nodup
import Mathlib.Data.List.Perm.Basic
import TypedClient.Proofs.TupleShape.Folding
import TypedClient.TupleShape.Encoding

/-!
# Tuples written as objects and read again

Reading asks an object for its slots by name, one position after the other, and
for what stands under `rest`. A shape with at most seven slots on each level is
read back as it was written, whatever its slots hold. An object that has the
names of such levels, and no others, is written again as it was; if its fields
stand in another order, no look-up tells the two apart.
-/

namespace TypedClient

namespace Json

/-- Two values that no look-up tells apart: the order of the fields in an object does not count. -/
inductive Same : Json → Json → Prop
  | refl (value : Json) : Same value value
  | object {fields fields' : List (String × Json)}
      (h : ∀ name, Option.Rel Same (fields.lookup name) (fields'.lookup name)) :
      Same (.object fields) (.object fields')

theorem rel_same_refl (found : Option Json) : Option.Rel Same found found := by
  cases found with
  | none => exact .none
  | some value => exact .some (.refl value)

end Json

namespace TupleShape

variable {α : Type} {fields : List (String × Json)}

/-- The slots of each level, from the outside in. -/
def levels : TupleShape α → List (List α)
  | last items => [items]
  | more items rest => items :: levels rest

/-- The names of the slots on a level. -/
def slotNames (count : Nat) : List String :=
  (List.range' 1 count).map fieldName

/-- The object holds slots under the first names and, at most under one more name, an object of the
same kind. How the names may stand in the object is left open. -/
inductive IsTuple (arranged : List String → List String → Prop) : Json → Prop
  | last {fields : List (String × Json)} {count : Nat} (hcount : count ≤ positionalLimit)
      (hnames : arranged (fields.map Prod.fst) (slotNames count)) :
      IsTuple arranged (.object fields)
  | more {fields : List (String × Json)} {count : Nat} {rest : Json}
      (hcount : count ≤ positionalLimit)
      (hnames : arranged (fields.map Prod.fst) (slotNames count ++ [restName]))
      (hfield : (restName, rest) ∈ fields) (hrest : IsTuple arranged rest) :
      IsTuple arranged (.object fields)

/-! ## Names -/

theorem fieldName_injective : Function.Injective fieldName := by
  intro left right h
  rw [fieldName, fieldName, String.append_right_inj, Nat.toString_eq_repr, Nat.toString_eq_repr,
    Nat.repr_eq_ofList_toDigits, Nat.repr_eq_ofList_toDigits, String.ofList_inj] at h
  have hdigits (position : Nat) : Nat.ofDigitChars 10 (Nat.toDigits 10 position) 0 = position :=
    Nat.ofDigitChars_toDigits (by decide) (by decide)
  rw [← hdigits left, h, hdigits]

theorem fieldName_ne_restName (position : Nat) : fieldName position ≠ restName := by
  intro h
  have hhead := congrArg (fun name ↦ name.toList.head?) h
  simp [fieldName, restName] at hhead

theorem restName_not_mem_slotNames (count : Nat) : restName ∉ slotNames count := by
  intro h
  obtain ⟨position, -, hname⟩ := List.mem_map.1 h
  exact fieldName_ne_restName position hname

theorem nodup_slotNames (count : Nat) : (slotNames count).Nodup :=
  List.Nodup.map fieldName_injective List.nodup_range'

theorem nodup_slotNames_append (count : Nat) : (slotNames count ++ [restName]).Nodup :=
  (nodup_slotNames count).append (List.nodup_singleton _)
    (List.disjoint_singleton.2 (restName_not_mem_slotNames count))

@[simp]
theorem map_fst_slotFields (start : Nat) (items : List Json) :
    (slotFields start items).map Prod.fst = (List.range' start items.length).map fieldName := by
  induction items generalizing start with
  | nil => rfl
  | cons item items ih =>
    rw [slotFields, List.map_cons, ih, List.length_cons, List.range'_succ, List.map_cons]

/-- Fields under the names of consecutive slots are those of the slots. -/
theorem eq_slotFields {start count : Nat} {fields : List (String × Json)}
    (h : fields.map Prod.fst = (List.range' start count).map fieldName) :
    fields = slotFields start (fields.map Prod.snd) := by
  induction fields generalizing start count with
  | nil => rfl
  | cons field fields ih =>
    cases count with
    | zero => contradiction
    | succ count =>
      rw [List.range'_succ, List.map_cons, List.map_cons, List.cons.injEq] at h
      rw [List.map_cons, slotFields, ← ih h.2, ← h.1]

/-! ## Look-ups -/

theorem lookup_slotFields (start : Nat) (items : List Json) (offset : Nat) :
    (slotFields start items).lookup (fieldName (start + offset)) = items[offset]? := by
  induction items generalizing start offset with
  | nil => rfl
  | cons item items ih =>
    cases offset with
    | zero => simp [slotFields]
    | succ offset =>
      have hposition : start + (offset + 1) = start + 1 + offset := by omega
      have hne : (fieldName (start + 1 + offset) == fieldName start) = false := by
        rw [beq_eq_false_iff_ne, fieldName_injective.ne_iff]
        omega
      rw [slotFields, hposition, List.lookup_cons, hne, List.getElem?_cons_succ]
      exact ih (start + 1) offset

theorem lookup_restName_slotFields (items : List Json) :
    (slotFields 1 items).lookup restName = none := by
  rw [List.lookup_eq_none_iff]
  intro field hfield
  have hname : field.1 ∈ slotNames items.length := by
    rw [slotNames, ← map_fst_slotFields]
    exact List.mem_map_of_mem hfield
  exact bne_iff_ne.2 fun heq ↦ restName_not_mem_slotNames _ (heq ▸ hname)

/-- Where every position is looked up alike, the first slots of the list are read. -/
theorem readSlots_eq_take {items : List Json} {count position : Nat}
    (h : ∀ offset, fields.lookup (fieldName (position + offset)) = items[offset]?) :
    readSlots fields count position = items.take count := by
  induction count generalizing items position with
  | zero => simp [readSlots]
  | succ count ih =>
    have hfirst := h 0
    rw [Nat.add_zero] at hfirst
    rw [readSlots, hfirst]
    cases items with
    | nil => rfl
    | cons item items =>
      have hrest (offset : Nat) :
          fields.lookup (fieldName (position + 1 + offset)) = items[offset]? := by
        rw [Nat.add_right_comm]
        exact h (offset + 1)
      simp only [List.getElem?_cons_zero, List.take_succ_cons, ih hrest]

theorem levelOf?_eq (items : List Json) (fields : List (String × Json)) :
    levelOf? items fields = match fields.lookup restName with
      | none => some (last items)
      | some value => (ofJson? value).map (more items) := by
  induction fields with
  | nil => rw [levelOf?]; rfl
  | cons field fields ih =>
    obtain ⟨name, value⟩ := field
    rw [levelOf?, List.lookup_cons]
    by_cases hname : name = restName
    · rw [if_pos hname, hname, beq_self_eq_true]
    · rw [if_neg hname, beq_eq_false_iff_ne.2 (Ne.symm hname), ih]

/-- Of an object, reading sees what stands under the names of slots and under `rest`. -/
theorem ofJson?_object {items : List Json}
    (h : ∀ offset, fields.lookup (fieldName (1 + offset)) = items[offset]?) :
    ofJson? (.object fields) = match fields.lookup restName with
      | none => some (last (items.take positionalLimit))
      | some value => (ofJson? value).map (more (items.take positionalLimit)) := by
  rw [ofJson?, levelOf?_eq, readSlots_eq_take h]

theorem lookup_fieldName_append (items : List Json) (rest : Json) (offset : Nat) :
    (slotFields 1 items ++ [(restName, rest)]).lookup (fieldName (1 + offset)) =
      items[offset]? := by
  rw [List.lookup_append, lookup_slotFields, List.lookup_cons,
    beq_eq_false_iff_ne.2 (fieldName_ne_restName _), List.lookup_nil, Option.or_none]

theorem lookup_restName_append (items : List Json) (rest : Json) :
    (slotFields 1 items ++ [(restName, rest)]).lookup restName = some rest := by
  rw [List.lookup_append, lookup_restName_slotFields, Option.none_or, List.lookup_cons_self]

/-! ## Reading what was written -/

theorem ofJson?_toJson {shape : TupleShape Json}
    (h : ∀ items ∈ shape.levels, items.length ≤ positionalLimit) :
    ofJson? shape.toJson = some shape := by
  induction shape with
  | last items =>
    have hitems : items.length ≤ positionalLimit := h items List.mem_cons_self
    rw [toJson, ofJson?_object (lookup_slotFields 1 items), lookup_restName_slotFields,
      List.take_of_length_le hitems]
  | more items rest ih =>
    have hitems : items.length ≤ positionalLimit := h items List.mem_cons_self
    have hrest := ih fun level hlevel ↦ h level (List.mem_cons_of_mem _ hlevel)
    rw [toJson, ofJson?_object (lookup_fieldName_append items rest.toJson),
      lookup_restName_append]
    simp only [hrest, List.take_of_length_le hitems, Option.map_some]

theorem length_readSlots_le (fields : List (String × Json)) (count position : Nat) :
    (readSlots fields count position).length ≤ count := by
  induction count generalizing position with
  | zero => simp [readSlots]
  | succ count ih =>
    rw [readSlots]
    split
    · exact Nat.succ_le_succ (ih _)
    · exact Nat.zero_le _

/-- Reading gives the slots of the outer level and, if there is a field `rest`, what is read from
that one. -/
theorem exists_fields_of_ofJson? {json : Json} {shape : TupleShape Json}
    (h : ofJson? json = some shape) :
    ∃ fields, json = .object fields ∧
      (shape = last (readSlots fields positionalLimit 1) ∨
        ∃ value rest, ofJson? value = some rest ∧
          shape = more (readSlots fields positionalLimit 1) rest) := by
  cases json with
  | object fields =>
    refine ⟨fields, rfl, ?_⟩
    rw [ofJson?, levelOf?_eq] at h
    split at h
    · exact .inl (Option.some.inj h).symm
    · rename_i value hvalue
      obtain ⟨rest, hrest, hmore⟩ := Option.map_eq_some_iff.1 h
      exact .inr ⟨value, rest, hrest, hmore.symm⟩
  | _ => simp [ofJson?] at h

/-- A level that is read has no more slots than there are positions. -/
theorem length_le_of_ofJson? {json : Json} {shape : TupleShape Json}
    (h : ofJson? json = some shape) : ∀ items ∈ shape.levels, items.length ≤ positionalLimit := by
  induction shape generalizing json with
  | last items =>
    obtain ⟨fields, -, hlast | ⟨value, rest, -, hmore⟩⟩ := exists_fields_of_ofJson? h
    · obtain rfl := last.inj hlast
      exact List.forall_mem_singleton.2 (length_readSlots_le _ _ _)
    · contradiction
  | more items rest ih =>
    obtain ⟨fields, -, hlast | ⟨value, inner, hinner, hmore⟩⟩ := exists_fields_of_ofJson? h
    · contradiction
    · obtain ⟨rfl, rfl⟩ := more.inj hmore
      exact List.forall_mem_cons.2 ⟨length_readSlots_le _ _ _, ih hinner⟩

theorem IsFolded.length_le {shape : TupleShape α} (h : shape.IsFolded) :
    ∀ items ∈ shape.levels, items.length ≤ positionalLimit := by
  induction h with
  | last hfits => exact List.forall_mem_singleton.2 hfits
  | more hfull _ _ ih => exact List.forall_mem_cons.2 ⟨hfull.le, ih⟩

/-! ## Writing what was read -/

theorem isTuple_toJson {shape : TupleShape Json}
    (h : ∀ items ∈ shape.levels, items.length ≤ positionalLimit) :
    IsTuple (· = ·) shape.toJson := by
  induction shape with
  | last items =>
    exact .last (h items List.mem_cons_self) (map_fst_slotFields 1 items)
  | more items rest ih =>
    have hrest := ih fun level hlevel ↦ h level (List.mem_cons_of_mem _ hlevel)
    refine .more (h items List.mem_cons_self) ?_ (List.mem_append_right _ List.mem_cons_self) hrest
    rw [List.map_append, map_fst_slotFields]
    rfl

/-- The fields of a last level are those of its slots. -/
theorem exists_slots {count : Nat} (h : fields.map Prod.fst = slotNames count) :
    ∃ items, items.length = count ∧ fields = slotFields 1 items := by
  refine ⟨fields.map Prod.snd, ?_, eq_slotFields h⟩
  have hlength := congrArg List.length h
  simpa [slotNames] using hlength

/-- The fields of a level with further slots are those of its slots and the one for the rest. -/
theorem exists_slots_append {count : Nat} {rest : Json}
    (h : fields.map Prod.fst = slotNames count ++ [restName])
    (hfield : (restName, rest) ∈ fields) :
    ∃ items, items.length = count ∧ fields = slotFields 1 items ++ [(restName, rest)] := by
  obtain ⟨front, back, rfl, hfront, hback⟩ := List.map_eq_append_iff.1 h
  obtain ⟨⟨name, value⟩, rfl, rfl⟩ := List.map_eq_singleton_iff.1 hback
  obtain ⟨items, hlength, rfl⟩ := exists_slots hfront
  refine ⟨items, hlength, ?_⟩
  rcases List.mem_append.1 hfield with hmem | hmem
  · have hname : restName ∈ slotNames count := hfront ▸ List.mem_map_of_mem hmem
    exact absurd hname (restName_not_mem_slotNames count)
  · rw [List.mem_singleton.1 hmem]

theorem exists_toJson_eq {json : Json} (h : IsTuple (· = ·) json) :
    ∃ shape : TupleShape Json,
      (∀ items ∈ shape.levels, items.length ≤ positionalLimit) ∧ shape.toJson = json := by
  induction h with
  | last hcount hnames =>
    obtain ⟨items, rfl, rfl⟩ := exists_slots hnames
    exact ⟨last items, List.forall_mem_singleton.2 hcount, rfl⟩
  | more hcount hnames hfield _ ih =>
    obtain ⟨items, rfl, rfl⟩ := exists_slots_append hnames hfield
    obtain ⟨shape, hlevels, rfl⟩ := ih
    exact ⟨more items shape, List.forall_mem_cons.2 ⟨hcount, hlevels⟩, rfl⟩

/-! ## Fields in another order -/

theorem lookup_eq_some_iff_mem (hnames : (fields.map Prod.fst).Nodup) {name : String}
    {value : Json} : fields.lookup name = some value ↔ (name, value) ∈ fields := by
  constructor
  · intro h
    obtain ⟨before, after, rfl, -⟩ := List.lookup_eq_some_iff.1 h
    exact List.mem_append_right _ List.mem_cons_self
  · intro hmem
    obtain ⟨before, after, rfl⟩ := List.append_of_mem hmem
    refine List.lookup_eq_some_iff.2 ⟨before, after, rfl, ?_⟩
    intro field hfield
    rw [List.map_append, List.nodup_append] at hnames
    exact bne_iff_ne.2
      (hnames.2.2 field.1 (List.mem_map_of_mem hfield) name List.mem_cons_self).symm

/-- Under names that differ, the order of the fields does not matter to look-ups. -/
theorem lookup_eq_of_perm {fields' : List (String × Json)} (h : fields.Perm fields')
    (hnames : (fields.map Prod.fst).Nodup) (name : String) :
    fields.lookup name = fields'.lookup name := by
  have hnames' : (fields'.map Prod.fst).Nodup := (h.map Prod.fst).nodup_iff.1 hnames
  ext value
  rw [lookup_eq_some_iff_mem hnames, lookup_eq_some_iff_mem hnames', h.mem_iff]

/-- Fields whose names are a rearrangement can be put in the order of the names. -/
theorem exists_perm_of_names {names : List String} (h : (fields.map Prod.fst).Perm names) :
    ∃ ordered : List (String × Json), ordered.map Prod.fst = names ∧ ordered.Perm fields := by
  have hcomp := congrFun₂ (List.eq_map_comp_perm (Prod.fst (α := String) (β := Json))) names fields
  obtain ⟨ordered, hnames, hperm⟩ := hcomp.mpr h.symm
  exact ⟨ordered, hnames.symm, hperm⟩

/-- Levels with the same slots differ at most in what stands under `rest`. -/
theorem rel_lookup_append (items : List Json) {rest rest' : Json} (h : rest.Same rest')
    (name : String) :
    Option.Rel Json.Same ((slotFields 1 items ++ [(restName, rest)]).lookup name)
      ((slotFields 1 items ++ [(restName, rest')]).lookup name) := by
  rw [List.lookup_append, List.lookup_append]
  by_cases hname : name = restName
  · rw [hname, lookup_restName_slotFields, List.lookup_cons_self, List.lookup_cons_self]
    exact .some h
  · rw [List.lookup_cons, List.lookup_cons, beq_eq_false_iff_ne.2 hname]
    exact Json.rel_same_refl _

theorem exists_same_toJson {json : Json} (h : IsTuple List.Perm json) :
    ∃ shape, ofJson? json = some shape ∧ shape.toJson.Same json := by
  induction h with
  | @last fields count hcount hnames =>
    obtain ⟨ordered, hordered, hperm⟩ := exists_perm_of_names hnames
    have hlookup := lookup_eq_of_perm hperm (hordered ▸ nodup_slotNames count)
    obtain ⟨items, rfl, rfl⟩ := exists_slots hordered
    refine ⟨last items, ?_, .object fun name ↦ ?_⟩
    · have hslots (offset : Nat) : fields.lookup (fieldName (1 + offset)) = items[offset]? := by
        rw [← hlookup, lookup_slotFields]
      rw [ofJson?_object hslots, ← hlookup, lookup_restName_slotFields,
        List.take_of_length_le hcount]
    · rw [hlookup]
      exact Json.rel_same_refl _
  | @more fields count rest hcount hnames hfield _ ih =>
    obtain ⟨shape, hread, hsame⟩ := ih
    obtain ⟨ordered, hordered, hperm⟩ := exists_perm_of_names hnames
    have hlookup := lookup_eq_of_perm hperm (hordered ▸ nodup_slotNames_append count)
    obtain ⟨items, rfl, rfl⟩ := exists_slots_append hordered (hperm.mem_iff.2 hfield)
    refine ⟨more items shape, ?_, .object fun name ↦ ?_⟩
    · have hslots (offset : Nat) : fields.lookup (fieldName (1 + offset)) = items[offset]? := by
        rw [← hlookup, lookup_fieldName_append]
      rw [ofJson?_object hslots, ← hlookup, lookup_restName_append]
      simp only [hread, List.take_of_length_le hcount, Option.map_some]
    · rw [← hlookup]
      exact rel_lookup_append items hsame name

/-! ## Both directions -/

/-- Just the shapes with at most seven slots on each level are read back as they were written, and
just the objects with the names of such levels, in their order, are written as they were read. In
another order, the object is written as one that no look-up tells from it. -/
theorem toJson_ofJson?_inverse :
    (∀ shape : TupleShape Json, ofJson? shape.toJson = some shape ↔
      ∀ items ∈ shape.levels, items.length ≤ positionalLimit) ∧
    (∀ slots : List Json, ofJson? (fold slots).toJson = some (fold slots)) ∧
    (∀ json : Json, IsTuple (· = ·) json ↔
      ∃ shape, ofJson? json = some shape ∧ shape.toJson = json) ∧
    ∀ json : Json, IsTuple List.Perm json →
      ∃ shape, ofJson? json = some shape ∧ shape.toJson.Same json := by
  refine ⟨fun shape ↦ ⟨length_le_of_ofJson?, ofJson?_toJson⟩, ?_, ?_, fun json ↦ exists_same_toJson⟩
  · exact fun slots ↦ ofJson?_toJson (isFolded_fold slots).length_le
  · intro json
    constructor
    · intro htuple
      obtain ⟨shape, hlevels, rfl⟩ := exists_toJson_eq htuple
      exact ⟨shape, ofJson?_toJson hlevels, rfl⟩
    · intro hexists
      obtain ⟨shape, hread, hwritten⟩ := hexists
      rw [← hwritten]
      exact isTuple_toJson (length_le_of_ofJson? hread)

/-- A partly filled level whose rest comes first; its slots are null and an object with names of
slots of its own. -/
def mixedTuple : Json :=
  .object [("rest", .object [("item1", .natural 3)]),
    ("item2", .object [("item1", .null), ("rest", .array [])]), ("item1", .null)]

theorem isTuple_mixedTuple : IsTuple List.Perm mixedTuple := by
  have htwo : 2 ≤ positionalLimit := by decide
  have hone : 1 ≤ positionalLimit := by decide
  refine .more htwo ?_ List.mem_cons_self (.last hone ?_)
  · decide
  · decide

theorem same_mixedTuple : IsTuple List.Perm mixedTuple ∧
    ∃ shape, ofJson? mixedTuple = some shape ∧ shape.toJson.Same mixedTuple :=
  ⟨isTuple_mixedTuple, toJson_ofJson?_inverse.2.2.2 mixedTuple isTuple_mixedTuple⟩

-- the order of the slots is the ascending order of their names
example : (slotNames positionalLimit ++ [restName]).Pairwise (· < ·) := by decide

end TupleShape

end TypedClient
