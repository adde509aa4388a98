import Mathlib.Data.List.Forall2
import TypedClient.Json.Basic

/-!
# Written forms

A value may be written in several ways. The fields of a record may come in any order
and may have others between them, and a field that holds its default may be left out.
-/

namespace TypedClient.Json

/-- The JSON values that a value may be written as. -/
def Form : Type :=
  Json → Prop

/-- One field of a record: its name, the forms of its value, and whether this is its default. -/
structure Slot where
  name : String
  form : Form
  holdsDefault : Prop

namespace Slot

def required (name : String) (form : Form) : Slot :=
  { name, form, holdsDefault := False }

def withDefault {α : Type} (name : String) (form : Form) (value default : α) : Slot :=
  { name, form, holdsDefault := value = default }

@[simp]
theorem name_required (name : String) (form : Form) : (required name form).name = name := rfl

@[simp]
theorem name_withDefault {α : Type} (name : String) (form : Form) (value default : α) :
    (withDefault name form value default).name = name := rfl

def among (slot : Slot) (fields : List (String × Json)) : List (String × Json) :=
  fields.filter fun field ↦ field.1 = slot.name

/-- The field is there once, or it is left out because it holds its default. -/
def HeldBy (slot : Slot) (fields : List (String × Json)) : Prop :=
  (∃ value, slot.among fields = [(slot.name, value)] ∧ slot.form value) ∨
    (slot.holdsDefault ∧ slot.among fields = [])

/-- The field of a slot, written in one of its forms. -/
def Writes (slot : Slot) (field : String × Json) : Prop :=
  field.1 = slot.name ∧ slot.form field.2

end Slot

namespace Form

def exactly (value : Json) : Form :=
  fun json ↦ json = value

def text (text : String) : Form :=
  exactly (.string text)

/-- Every item is in the form of its place. -/
def Match (forms : List Form) (items : List Json) : Prop :=
  List.Forall₂ (fun form item ↦ form item) forms items

def list (forms : List Form) : Form :=
  fun json ↦ ∃ items, json = .array items ∧ Match forms items

def option : Option Form → Form
  | none => exactly .null
  | some form => form

/-- An object that holds every slot; its other fields do not matter. -/
def record (slots : List Slot) : Form :=
  fun json ↦ ∃ fields, json = .object fields ∧ ∀ slot ∈ slots, slot.HeldBy fields

end Form

namespace Slot

variable {slot : Slot} {field : String × Json} {fields : List (String × Json)}

theorem among_cons_of_ne (h : field.1 ≠ slot.name) :
    slot.among (field :: fields) = slot.among fields :=
  List.filter_cons_of_neg (by simpa using h)

theorem among_cons_of_eq (h : field.1 = slot.name) :
    slot.among (field :: fields) = field :: slot.among fields :=
  List.filter_cons_of_pos (by simpa using h)

theorem heldBy_cons_of_ne (h : field.1 ≠ slot.name) :
    slot.HeldBy (field :: fields) ↔ slot.HeldBy fields := by
  rw [HeldBy, among_cons_of_ne h, HeldBy]

/-- A slot takes the first field with its name, and then there is no other one. -/
theorem heldBy_cons_of_eq (h : field.1 = slot.name) :
    slot.HeldBy (field :: fields) ↔ slot.form field.2 ∧ slot.among fields = [] := by
  obtain ⟨name, value⟩ := field
  obtain rfl : name = slot.name := h
  simp [HeldBy, among_cons_of_eq, and_comm]

theorem among_eq_nil_iff : slot.among fields = [] ↔ ∀ field ∈ fields, field.1 ≠ slot.name := by
  simp [among, List.filter_eq_nil_iff]

/-- A slot does not see fields with other names. -/
theorem heldBy_filter {keep : String × Json → Bool}
    (h : ∀ field ∈ fields, field.1 = slot.name → keep field = true) :
    slot.HeldBy (fields.filter keep) ↔ slot.HeldBy fields := by
  have hamong : slot.among (fields.filter keep) = slot.among fields := by
    rw [among, List.filter_filter]
    refine List.filter_congr fun field hfield ↦ ?_
    by_cases hname : field.1 = slot.name
    · simp [hname, h field hfield hname]
    · simp [hname]
  rw [HeldBy, hamong, HeldBy]

end Slot

namespace Form

theorem list_map {α : Type} {form : α → Form} {encode : α → Json} {values : List α}
    (h : ∀ value ∈ values, form value (encode value)) :
    list (values.map form) (.array (values.map encode)) := by
  refine ⟨_, rfl, ?_⟩
  rw [Match, List.forall₂_map_left_iff, List.forall₂_map_right_iff]
  exact List.forall₂_same.2 h

theorem option_map {α : Type} {form : α → Form} {encode : α → Json} {value : Option α}
    (h : ∀ some ∈ value, form some (encode some)) :
    option (value.map form) (ofOption encode value) := by
  cases value with
  | none => rfl
  | some found => exact h found rfl

/-! ## Objects of a record -/

variable {slots : List Slot} {fields others : List (String × Json)}

theorem names_eq (h : List.Forall₂ Slot.Writes slots fields) :
    fields.map Prod.fst = slots.map Slot.name := by
  induction h with
  | nil => rfl
  | cons hslot _ ih => rw [List.map_cons, List.map_cons, hslot.1, ih]

/-- The object with exactly the fields of a record, in its order. -/
theorem record_of_forall₂ (hnames : (slots.map Slot.name).Nodup)
    (h : List.Forall₂ Slot.Writes slots fields) : record slots (.object fields) := by
  refine ⟨fields, rfl, ?_⟩
  induction h with
  | nil => exact fun _ hmem ↦ nomatch hmem
  | @cons slot field slots fields hslot hslots ih =>
    rw [List.map_cons, List.nodup_cons] at hnames
    have hlater : ∀ other ∈ slots, field.1 ≠ other.name := fun other hother heq ↦
      hnames.1 (List.mem_map.2 ⟨other, hother, heq.symm.trans hslot.1⟩)
    have hlast : slot.among fields = [] := by
      refine Slot.among_eq_nil_iff.2 fun other hother heq ↦ hnames.1 ?_
      rw [← names_eq hslots, ← heq]
      exact List.mem_map_of_mem hother
    refine List.forall_mem_cons.2 ⟨(Slot.heldBy_cons_of_eq hslot.1).2 ⟨hslot.2, hlast⟩, ?_⟩
    exact fun other hother ↦ (Slot.heldBy_cons_of_ne (hlater other hother)).2
      (ih hnames.2 other hother)

/-- Fields may come in any order. -/
theorem record_perm (hperm : fields.Perm others) (h : record slots (.object fields)) :
    record slots (.object others) := by
  obtain ⟨found, heq, hheld⟩ := h
  obtain rfl : fields = found := Json.object.inj heq
  refine ⟨others, rfl, fun slot hslot ↦ ?_⟩
  have hamong : (slot.among fields).Perm (slot.among others) := hperm.filter _
  rcases hheld slot hslot with ⟨value, honly, hform⟩ | ⟨hdefault, hnone⟩
  · exact .inl ⟨value, List.perm_singleton.1 (honly ▸ hamong).symm, hform⟩
  · exact .inr ⟨hdefault, List.nil_perm.1 (hnone ▸ hamong)⟩

/-- A field that belongs to no slot may be added. -/
theorem record_cons_of_unknown {field : String × Json}
    (hfield : ∀ slot ∈ slots, field.1 ≠ slot.name) (h : record slots (.object fields)) :
    record slots (.object (field :: fields)) := by
  obtain ⟨found, heq, hheld⟩ := h
  obtain rfl : fields = found := Json.object.inj heq
  exact ⟨_, rfl, fun slot hslot ↦
    (Slot.heldBy_cons_of_ne (hfield slot hslot)).2 (hheld slot hslot)⟩

/-- Fields that hold their default may be left out. -/
theorem record_filter (keep : String → Bool)
    (hdefault : ∀ slot ∈ slots, keep slot.name = false → slot.holdsDefault)
    (h : record slots (.object fields)) :
    record slots (.object (fields.filter fun field ↦ keep field.1)) := by
  obtain ⟨found, heq, hheld⟩ := h
  obtain rfl : fields = found := Json.object.inj heq
  refine ⟨_, rfl, fun slot hslot ↦ ?_⟩
  cases hkeep : keep slot.name with
  | true => exact (Slot.heldBy_filter fun field _ heq ↦ heq ▸ hkeep).2 (hheld slot hslot)
  | false =>
    refine .inr ⟨hdefault slot hslot hkeep, Slot.among_eq_nil_iff.2 fun field hfield heq ↦ ?_⟩
    rw [← heq, (List.mem_filter.1 hfield).2] at hkeep
    contradiction

end Form

end TypedClient.Json
