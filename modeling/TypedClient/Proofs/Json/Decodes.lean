import Mathlib.Data.List.Nodup
import Mathlib.Data.List.Pairwise
import TypedClient.Json.Decoder
import TypedClient.Proofs.Json.Form
import TypedClient.Proofs.Json.Tree

/-!
# Decoding what was written

A decoder undoes the writing of a value if it reads the value from each of its forms,
wherever there is enough room for the containers of the form. This passes from parts to
wholes: from items to lists, from fields to records, and from one level of descriptors
to all of them.
-/

namespace TypedClient.Json

/-- The decoder reads a value from each of its forms that is nested less deep than the limit. -/
def Decodes {α : Type} (limit : Nat) (decode : Decoder α) (form : Form) (value : α) : Prop :=
  ∀ place doc, form doc → doc.depth ≤ place.depth → doc.depth < limit →
    decode place (Tree.ofJson doc) = .ok value

namespace Decodes

variable {α β : Type} {limit : Nat} {decode : Decoder α} {form : Form} {value : α}

theorem of_succ (h : Decodes (limit + 1) decode form value) : Decodes limit decode form value :=
  fun place doc hform hdepth hlimit ↦ h place doc hform hdepth (Nat.lt_succ_of_lt hlimit)

theorem string (text : String) : Decodes limit Decoder.string (.text text) text := by
  rintro place doc rfl - -
  rfl

theorem bool (value : Bool) : Decodes limit Decoder.bool (.exactly (.bool value)) value := by
  rintro place doc rfl - -
  rfl

theorem integer (limit : Nat) (expected : String) {low high value : Int}
    (h : low ≤ value ∧ value ≤ high) :
    Decodes limit (Decoder.integer expected low high) (.exactly (.integer value)) value := by
  rintro place doc rfl - -
  exact if_pos h

theorem map (f : α → β) (h : Decodes limit decode form value) :
    Decodes limit (Decoder.map f decode) form (f value) := by
  intro place doc hform hdepth hlimit
  rw [Decoder.map, h place doc hform hdepth hlimit]
  rfl

theorem int64 (value : Int64) :
    Decodes limit Decoder.int64 (.exactly (.integer value.toInt)) value := by
  have hrange : -0x8000000000000000 ≤ value.toInt ∧ value.toInt ≤ 0x7fffffffffffffff :=
    ⟨value.le_toInt, Int.le_of_lt_add_one value.toInt_lt⟩
  have hread := (integer limit "i64" hrange).map Int64.ofInt
  rwa [Int64.ofInt_toInt] at hread

theorem uint32 (value : UInt32) :
    Decodes limit Decoder.uint32 (.exactly (.natural value.toNat)) value := by
  have hrange : (0 : Int) ≤ value.toNat ∧ (value.toNat : Int) ≤ 0xffffffff :=
    ⟨Int.natCast_nonneg _, by have := value.toNat_lt; omega⟩
  have hread := (integer limit "u32" hrange).map
    fun value ↦ UInt32.ofNat value.toNat
  rwa [Int.toNat_natCast, UInt32.ofNat_toNat] at hread

theorem oneOf {all : List α} {tag : α → String} {word : String}
    (h : Decoder.variant all tag word = .ok value) :
    Decodes limit (Decoder.oneOf all tag) (.text word) value := by
  rintro place doc rfl - -
  exact h

theorem option {value : Option α} {form : α → Form}
    (h : ∀ some ∈ value, Decodes limit decode (form some) some)
    (hnull : ∀ some, ¬ form some .null) :
    Decodes limit (Decoder.option decode) (.option (value.map form)) value := by
  intro place doc hform hdepth hlimit
  cases value with
  | none =>
    obtain rfl : doc = .null := hform
    rfl
  | some found =>
    have hread := h found rfl place doc hform hdepth hlimit
    have htree : Tree.ofJson doc ≠ .null := by
      cases doc with
      | null => exact absurd hform (hnull found)
      | _ => simp [Tree.ofJson]
    rw [Decoder.option, hread]
    · rfl
    · exact htree

theorem enter_of_le {place : Place} {depth : Nat} (h : depth + 1 ≤ place.depth) :
    ∃ inner, Decoder.enter place = .ok inner ∧ depth ≤ inner.depth := by
  obtain ⟨_ | outer, collected⟩ := place
  · exact absurd h (Nat.not_succ_le_zero _)
  · exact ⟨_, rfl, Nat.le_of_succ_le_succ h⟩

theorem items {values : List α} {forms : List Form} {found : List Json} {place : Place}
    (h : List.Forall₂ (fun value form ↦ Decodes limit decode form value) values forms)
    (hforms : Form.Match forms found)
    (hdepth : ∀ item ∈ found, item.depth ≤ place.depth ∧ item.depth < limit) :
    Decoder.items decode place (Items.ofList found) = .ok values := by
  induction h generalizing found with
  | nil =>
    cases hforms
    rfl
  | cons hvalue hvalues ih =>
    cases hforms with
    | cons hform hforms =>
      obtain ⟨hitem, hitems⟩ := List.forall_mem_cons.1 hdepth
      rw [Items.ofList, Decoder.items, hvalue place _ hform hitem.1 hitem.2, ih hforms hitems]
      rfl

theorem list {values : List α} {form : α → Form}
    (h : ∀ value ∈ values, Decodes limit decode (form value) value) :
    Decodes limit (Decoder.list decode) (.list (values.map form)) values := by
  rintro place doc ⟨found, rfl, hforms⟩ hdepth hlimit
  obtain ⟨inner, henter, hinner⟩ := enter_of_le hdepth
  have hvalues : List.Forall₂ (fun value form ↦ Decodes limit decode form value) values
      (values.map form) := by
    rw [List.forall₂_map_right_iff]
    exact List.forall₂_same.2 h
  have hroom : ∀ item ∈ found, item.depth ≤ inner.depth ∧ item.depth < limit := by
    intro item hitem
    have hle := depthOfItems_le_iff.1 (Nat.le_refl _) item hitem
    exact ⟨Nat.le_trans hle hinner, Nat.lt_of_le_of_lt hle (Nat.lt_of_succ_lt hlimit)⟩
  rw [Tree.ofJson, Decoder.list, henter]
  exact items hvalues hforms hroom

/-- A decoder that is defined through itself decodes every value if one level does. -/
theorem fixed {step : Decoder α → Decoder α} {form : α → Form}
    (h : ∀ limit decode, (∀ value, Decodes limit decode (form value) value) →
      ∀ value, Decodes (limit + 1) (step decode) (form value) value) (limit : Nat) (value : α) :
    Decodes limit (Decoder.fixed step) (form value) value := by
  have hnested (levels : Nat) :
      ∀ value, Decodes levels (Decoder.nested step levels) (form value) value := by
    induction levels with
    | zero => exact fun _ _ doc _ _ hlimit ↦ absurd hlimit (Nat.not_lt_zero _)
    | succ levels ih => exact h levels _ ih
  intro place doc hform hdepth hlimit
  exact hnested (place.depth + 1) value place doc hform hdepth (Nat.lt_succ_of_le hdepth)

end Decodes

/-! ## Records -/

/-- A part of a record with the slot it is written to, and what reading the slot stores. -/
structure Fill (σ : Type) where
  part : Decoder.Part σ
  slot : Slot
  store : σ → σ

namespace Fill

variable {σ : Type}

/-- The part and the slot agree, and a default stores what a blank record has. -/
structure Fits (limit : Nat) (blank : σ) (fill : Fill σ) : Prop where
  name_eq : fill.part.name = fill.slot.name
  required : fill.part.required = true → ¬ fill.slot.holdsDefault
  decodes : Decodes limit fill.part.decode fill.slot.form fill.store
  store_default : fill.slot.holdsDefault → fill.store blank = blank

def storeAll (fills : List (Fill σ)) (draft : σ) : σ :=
  fills.foldr Fill.store draft

/-- The order of two stores does not matter. -/
def Commute (left right : Fill σ) : Prop :=
  ∀ draft, left.store (right.store draft) = right.store (left.store draft)

theorem storeAll_blank {blank : σ} {fills : List (Fill σ)}
    (h : ∀ fill ∈ fills, fill.store blank = blank) : storeAll fills blank = blank := by
  induction fills with
  | nil => rfl
  | cons fill fills ih =>
    obtain ⟨hfill, hfills⟩ := List.forall_mem_cons.1 h
    rw [storeAll, List.foldr_cons, ← storeAll, ih hfills, hfill]

/-- Storing some of the fills is storing all of them, if the others store what is there. -/
theorem storeAll_eq {blank : σ} {fills done : List (Fill σ)} (hcommute : fills.Pairwise Commute)
    (hnodup : fills.Nodup) (hdone : done.Nodup) (hsubset : done ⊆ fills)
    (hrest : ∀ fill ∈ fills, fill ∉ done → fill.store blank = blank) :
    storeAll fills blank = storeAll done blank := by
  classical
  have hperm : fills.Perm (done ++ fills.filter (· ∉ done)) := by
    have hsplit := List.filter_append_perm (· ∈ done) fills
    have hfilter : (fills.filter (· ∈ done)).Perm done := by
      refine (List.perm_ext_iff_of_nodup (hnodup.filter _) hdone).2 fun fill ↦ ?_
      simpa using fun h ↦ hsubset h
    simpa using hsplit.symm.trans (hfilter.append_right _)
  have hall : ∀ left ∈ fills, ∀ right ∈ fills, Commute right left := by
    have : Std.Symm (@Commute σ) := ⟨fun _ _ h draft ↦ (h draft).symm⟩
    intro left hleft right hright
    exact hcommute.forall_of_forall (fun _ _ _ ↦ rfl) hright hleft
  have hblank : storeAll (fills.filter (· ∉ done)) blank = blank := by
    refine storeAll_blank fun fill hfill ↦ ?_
    obtain ⟨hmem, hnot⟩ := List.mem_filter.1 hfill
    exact hrest fill hmem (by simpa using hnot)
  calc storeAll fills blank
      = storeAll (done ++ fills.filter (· ∉ done)) blank := hperm.foldr_eq' hall blank
    _ = storeAll done (storeAll (fills.filter (· ∉ done)) blank) := List.foldr_append
    _ = storeAll done blank := by rw [hblank]

end Fill

/-- The parts of a record one by one with the slots they are written to. -/
inductive Fitting {σ : Type} (limit : Nat) (blank : σ) :
    List (Decoder.Part σ) → List Slot → List (Fill σ) → Prop
  | nil : Fitting limit blank [] [] []
  | required {α : Type} {decode : Decoder α} {form : Form} {value : α} {name : String}
      {store : α → σ → σ} {parts : List (Decoder.Part σ)} {slots : List Slot}
      {fills : List (Fill σ)} (hvalue : Decodes limit decode form value)
      (rest : Fitting limit blank parts slots fills) :
      Fitting limit blank (Decoder.required name decode store :: parts)
        (.required name form :: slots)
        (⟨Decoder.required name decode store, .required name form, store value⟩ :: fills)
  | withDefault {α : Type} {decode : Decoder α} {form : Form} {value default : α} {name : String}
      {store : α → σ → σ} {parts : List (Decoder.Part σ)} {slots : List Slot}
      {fills : List (Fill σ)} (hvalue : Decodes limit decode form value)
      (hdefault : store default blank = blank) (rest : Fitting limit blank parts slots fills) :
      Fitting limit blank (Decoder.withDefault name decode store :: parts)
        (.withDefault name form value default :: slots)
        (⟨Decoder.withDefault name decode store, .withDefault name form value default,
          store value⟩ :: fills)

theorem Fitting.spec {σ : Type} {limit : Nat} {blank : σ} {parts : List (Decoder.Part σ)}
    {slots : List Slot} {fills : List (Fill σ)} (h : Fitting limit blank parts slots fills) :
    parts = fills.map Fill.part ∧ slots = fills.map Fill.slot ∧
      ∀ fill ∈ fills, fill.Fits limit blank := by
  induction h with
  | nil => exact ⟨rfl, rfl, fun _ hmem ↦ nomatch hmem⟩
  | required hvalue rest ih =>
    obtain ⟨hparts, hslots, hfits⟩ := ih
    refine ⟨congrArg _ hparts, congrArg _ hslots, List.forall_mem_cons.2 ⟨?_, hfits⟩⟩
    exact ⟨rfl, fun _ ↦ id, hvalue.map _, False.elim⟩
  | withDefault hvalue hdefault rest ih =>
    obtain ⟨hparts, hslots, hfits⟩ := ih
    refine ⟨congrArg _ hparts, congrArg _ hslots, List.forall_mem_cons.2 ⟨?_, hfits⟩⟩
    exact ⟨rfl, nofun, hvalue.map _, fun heq ↦ heq ▸ hdefault⟩

/-- How far the fields of an object have been read: what is done does not come again, and what
is not done is still to come or holds its default. -/
structure Progress {σ : Type} (fills done : List (Fill σ)) (found : List (String × Json)) :
    Prop where
  nodup : done.Nodup
  subset : done ⊆ fills
  past : ∀ fill ∈ done, fill.slot.among found = []
  next : ∀ fill ∈ fills, fill ∉ done → fill.slot.HeldBy found

namespace Progress

variable {σ : Type} {fills done : List (Fill σ)} {fill : Fill σ} {field : String × Json}
  {found : List (String × Json)}

/-- At the end only defaults are not done. -/
theorem holdsDefault (h : Progress fills done []) (hfill : fill ∈ fills) (hnot : fill ∉ done) :
    fill.slot.holdsDefault := by
  rcases h.next fill hfill hnot with ⟨_, habsurd, -⟩ | ⟨hdefault, -⟩
  · contradiction
  · exact hdefault

/-- A field with an unknown name changes nothing. -/
theorem skip (h : Progress fills done (field :: found))
    (hne : ∀ fill ∈ fills, field.1 ≠ fill.slot.name) : Progress fills done found where
  nodup := h.nodup
  subset := h.subset
  past fill hfill := by
    rw [← Slot.among_cons_of_ne (hne fill (h.subset hfill))]
    exact h.past fill hfill
  next fill hfill hnot := (Slot.heldBy_cons_of_ne (hne fill hfill)).1 (h.next fill hfill hnot)

theorem ne_of_mem_done (h : Progress fills done (field :: found)) (hfill : fill ∈ done) :
    field.1 ≠ fill.slot.name := by
  intro heq
  have hnone := h.past fill hfill
  rw [Slot.among_cons_of_eq heq] at hnone
  contradiction

/-- A field with the name of a slot is in one of its forms, and then the slot is done. -/
theorem take (hnames : (fills.map fun fill ↦ fill.slot.name).Nodup)
    (h : Progress fills done (field :: found)) (hfill : fill ∈ fills)
    (hname : field.1 = fill.slot.name) :
    fill.slot.form field.2 ∧ Progress fills (fill :: done) found := by
  have hnot : fill ∉ done := fun hdone ↦ h.ne_of_mem_done hdone hname
  obtain ⟨hform, hlast⟩ := (Slot.heldBy_cons_of_eq hname).1 (h.next fill hfill hnot)
  refine ⟨hform, List.nodup_cons.2 ⟨hnot, h.nodup⟩, List.cons_subset.2 ⟨hfill, h.subset⟩, ?_,
    fun other hother hrest ↦ ?_⟩
  · refine List.forall_mem_cons.2 ⟨hlast, fun other hother ↦ ?_⟩
    rw [← Slot.among_cons_of_ne (h.ne_of_mem_done hother)]
    exact h.past other hother
  · have hne : field.1 ≠ other.slot.name := by
      intro heq
      obtain rfl := List.inj_on_of_nodup_map hnames hother hfill (heq.symm.trans hname)
      exact hrest List.mem_cons_self
    exact (Slot.heldBy_cons_of_ne hne).1
      (h.next other hother fun hmem ↦ hrest (List.mem_cons_of_mem _ hmem))

end Progress

namespace Decodes

section

variable {σ : Type} {schema : Decoder.Schema σ} {place : Place} {seen : List String} {draft : σ}
  {name : String} {value : Json} {found : List (String × Json)}

/-- A field with an unknown name is passed over. -/
theorem fields_cons_unknown (h : schema.parts.find? (·.name = name) = none) :
    Decoder.fields schema place seen draft (Fields.ofPairs ((name, value) :: found)) =
      Decoder.fields schema place seen draft (Fields.ofPairs found) := by
  simp only [Fields.ofPairs, Decoder.fields, Decoder.take, bind, Except.bind, h, break?_ofJson]

/-- A field of a part is stored, unless there was one before. -/
theorem fields_cons_part {part : Decoder.Part σ} {store : σ → σ}
    (h : schema.parts.find? (·.name = name) = some part) (hseen : name ∉ seen)
    (hdecode : part.decode place (Tree.ofJson value) = .ok store) :
    Decoder.fields schema place seen draft (Fields.ofPairs ((name, value) :: found)) =
      Decoder.fields schema place (name :: seen) (store draft) (Fields.ofPairs found) := by
  simp only [Fields.ofPairs, Decoder.fields, Decoder.take, bind, Except.bind, h, if_neg hseen,
    hdecode]

end

variable {σ : Type} {limit : Nat} {schema : Decoder.Schema σ} {fills : List (Fill σ)}

/-- At the end no part is missing. -/
theorem fields_nil {place : Place} {done : List (Fill σ)} {draft : σ}
    (hparts : schema.parts = fills.map Fill.part)
    (hfits : ∀ fill ∈ fills, fill.Fits limit schema.blank) (h : Progress fills done []) :
    Decoder.fields schema place (done.map fun fill ↦ fill.slot.name) draft (Fields.ofPairs []) =
      .ok draft := by
  have hmissing : (schema.parts.find? fun part ↦
      part.required && part.name ∉ done.map fun fill ↦ fill.slot.name) = none := by
    rw [hparts, List.find?_eq_none]
    intro part hpart
    obtain ⟨fill, hfill, rfl⟩ := List.mem_map.1 hpart
    have hfit := hfits fill hfill
    by_cases hmem : fill ∈ done
    · have hname : fill.part.name ∈ done.map fun fill ↦ fill.slot.name :=
        List.mem_map.2 ⟨fill, hmem, hfit.name_eq.symm⟩
      simp [hname]
    · have hrequired := mt hfit.required (not_not.2 (h.holdsDefault hfill hmem))
      simp [hrequired]
  rw [Fields.ofPairs, Decoder.fields, hmissing]

/-- Reading the fields of an object stores every slot, whatever has been read before. -/
theorem fields {place : Place} (hparts : schema.parts = fills.map Fill.part)
    (hfits : ∀ fill ∈ fills, fill.Fits limit schema.blank)
    (hnames : (fills.map fun fill ↦ fill.slot.name).Nodup)
    (hcommute : fills.Pairwise Fill.Commute) {found : List (String × Json)}
    (hroom : ∀ field ∈ found, field.2.depth ≤ place.depth ∧ field.2.depth < limit)
    (done : List (Fill σ)) (h : Progress fills done found) :
    Decoder.fields schema place (done.map fun fill ↦ fill.slot.name)
        (Fill.storeAll done schema.blank) (Fields.ofPairs found) =
      .ok (Fill.storeAll fills schema.blank) := by
  induction found generalizing done with
  | nil =>
    have hall := Fill.storeAll_eq hcommute (List.Nodup.of_map _ hnames) h.nodup h.subset
      fun fill hfill hnot ↦ (hfits fill hfill).store_default (h.holdsDefault hfill hnot)
    rw [fields_nil hparts hfits h, hall]
  | cons field found ih =>
    obtain ⟨name, value⟩ := field
    obtain ⟨hvalue, hfound⟩ := List.forall_mem_cons.1 hroom
    cases hfind : schema.parts.find? (·.name = name) with
    | none =>
      have hne : ∀ fill ∈ fills, (name, value).1 ≠ fill.slot.name := by
        intro fill hfill heq
        rw [hparts, List.find?_eq_none] at hfind
        have hnot := hfind fill.part (List.mem_map_of_mem hfill)
        exact hnot (by simpa [(hfits fill hfill).name_eq] using heq.symm)
      rw [fields_cons_unknown hfind]
      exact ih hfound done (h.skip hne)
    | some part =>
      have hmem := List.mem_of_find?_eq_some hfind
      rw [hparts] at hmem
      obtain ⟨fill, hfill, rfl⟩ := List.mem_map.1 hmem
      have hfit := hfits fill hfill
      obtain rfl : fill.slot.name = name :=
        hfit.name_eq.symm.trans (by simpa using List.find?_some hfind)
      obtain ⟨hform, hprogress⟩ := h.take hnames hfill rfl
      have hseen : fill.slot.name ∉ done.map fun fill ↦ fill.slot.name := by
        intro hname
        obtain ⟨other, hother, heq⟩ := List.mem_map.1 hname
        exact h.ne_of_mem_done hother heq.symm
      have hdecode := hfit.decodes place value hform hvalue.1 hvalue.2
      rw [fields_cons_part hfind hseen hdecode]
      exact ih hfound (fill :: done) hprogress

/-- A record is read from every object that holds its slots. -/
theorem record {slots : List Slot} {value : σ}
    (hfit : Fitting limit schema.blank schema.parts slots fills)
    (hnames : (slots.map Slot.name).Nodup) (hcommute : fills.Pairwise Fill.Commute)
    (hvalue : Fill.storeAll fills schema.blank = value) :
    Decodes (limit + 1) (Decoder.record schema) (.record slots) value := by
  rintro place doc ⟨found, rfl, hheld⟩ hdepth hlimit
  obtain ⟨hparts, rfl, hfits⟩ := hfit.spec
  obtain ⟨inner, henter, hinner⟩ := enter_of_le hdepth
  have hroom : ∀ field ∈ found, field.2.depth ≤ inner.depth ∧ field.2.depth < limit := by
    intro field hfield
    have hle := depthOfFields_le_iff.1 (Nat.le_refl _) field hfield
    exact ⟨Nat.le_trans hle hinner, Nat.lt_of_le_of_lt hle (Nat.lt_of_succ_lt_succ hlimit)⟩
  have hstart : Progress fills [] found :=
    { nodup := .nil
      subset := List.nil_subset _
      past := fun _ hmem ↦ nomatch hmem
      next := fun fill hfill _ ↦ hheld _ (List.mem_map_of_mem hfill) }
  rw [List.map_map] at hnames
  rw [Tree.ofJson, Decoder.record, henter, ← hvalue]
  exact fields hparts hfits hnames hcommute hroom [] hstart

end Decodes

/-! ## Texts -/

/-- A text that says a value is decoded like this value, at the limit of texts. -/
theorem decodeText_of_parse {α : Type} (decode : Decoder α) {text : String} {doc : Json}
    (h : parse text = .ok doc) :
    Decoder.decodeText decode text = decode { depth := depthLimit } (Tree.ofJson doc) ∧
      doc.depth ≤ depthLimit := by
  unfold parse at h
  obtain ⟨value, hvalue, htail⟩ := Except.bind_eq_ok_iff.1 h
  cases hfault : (readDocument text).tail with
  | some fault => simp [hfault] at htail
  | none =>
    obtain rfl : value = doc := by simpa [hfault] using htail
    obtain ⟨hroot, hdepth⟩ := ofJson_of_value hvalue
    refine ⟨?_, hdepth⟩
    rw [Decoder.decodeText, Decoder.decodeDocument, hroot, hfault]
    cases decode { depth := depthLimit } (Tree.ofJson value) <;> rfl

end TypedClient.Json
