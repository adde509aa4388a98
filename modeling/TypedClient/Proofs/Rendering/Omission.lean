import Mathlib.Data.List.Forall2
import TypedClient.Proofs.Rendering.TypeForm
import TypedClient.Rendering.Methods

/-!
# Parameters that may be left out

A method has one parameter for each formal parameter, in their order. Where only
optional ones follow, an optional parameter has a question mark; elsewhere its
type admits undefined instead, and a parameter that is not optional has neither.
A question mark is never in front of a parameter without one, and a call may end
before a parameter exactly if all formal parameters from there on are optional.
-/

namespace TypedClient

open TypeScript (Ty Param localName)

namespace TypeScript

/-! ## Undefined among the members of a type -/

/-- The members of a union; another type is its own only member. -/
def Ty.members : Ty → List Ty
  | union members => members
  | type => [type]

theorem Ty.orUndefined_eq_union (type : Ty) :
    type.orUndefined = union (type.members ++ [keyword .undefined]) := by
  cases type <;> rfl

theorem Ty.Tidy.ne_undefined {type : Ty} (h : type.Tidy) : type ≠ Ty.keyword .undefined := by
  rintro rfl
  cases h with
  | keyword hvalue => exact hvalue (List.mem_cons_of_mem _ List.mem_cons_self)

theorem Ty.Tidy.undefined_not_mem_members {type : Ty} (h : type.Tidy) :
    Ty.keyword .undefined ∉ type.members := by
  have hne := h.ne_undefined
  cases h with
  | orNull _ htype => simp [members, htype.ne_undefined.symm]
  | _ => exact fun hmem ↦ hne (List.mem_singleton.1 hmem).symm

namespace Param

/-- The parameter is that of the formal one: it has its name and its type, and nothing or undefined
may be passed for it exactly if the formal parameter is optional. -/
structure StandsFor (formal : FormalParameter) (param : Param) : Prop where
  name_eq : param.name = localName formal.name
  type_cases : param.type = .ofRef formal.type ∨
    param.optional = false ∧
      param.type = .union ((Ty.ofRef formal.type).members ++ [.keyword .undefined])
  omissible_iff : param.optional = true ∨ .keyword .undefined ∈ param.type.members ↔
    formal.optional = true

theorem standsFor_ofFormal (trailing : Bool) (formal : FormalParameter) :
    StandsFor formal (ofFormal trailing formal) := by
  have hundefined := (Ty.tidy_ofRef formal.type).undefined_not_mem_members
  cases hoptional : formal.optional with
  | false =>
    have hparam : ofFormal trailing formal =
        { name := localName formal.name, type := .ofRef formal.type } := by
      simp [ofFormal, hoptional]
    rw [hparam]
    exact ⟨rfl, .inl rfl, by simp [hundefined, hoptional]⟩
  | true =>
    cases trailing with
    | true =>
      have hparam : ofFormal true formal =
          { name := localName formal.name, type := .ofRef formal.type, optional := true } := by
        simp [ofFormal, hoptional]
      rw [hparam]
      exact ⟨rfl, .inl rfl, by simp [hoptional]⟩
    | false =>
      have hparam : ofFormal false formal =
          { name := localName formal.name
            type := .union ((Ty.ofRef formal.type).members ++ [.keyword .undefined]) } := by
        simp [ofFormal, hoptional, Ty.orUndefined_eq_union]
      rw [hparam]
      exact ⟨rfl, .inr ⟨rfl, rfl⟩, by simp [Ty.members, hoptional]⟩

/-! ## All parameters of a method -/

theorem forall₂_standsFor_ofFormals (formals : List FormalParameter) :
    List.Forall₂ StandsFor formals (ofFormals formals) := by
  induction formals with
  | nil => exact .nil
  | cons formal formals ih => exact .cons (standsFor_ofFormal _ formal) ih

/-- What has been passed already does not count for the parameters that follow. -/
theorem drop_ofFormals (formals : List FormalParameter) (index : Nat) :
    (ofFormals formals).drop index = ofFormals (formals.drop index) := by
  induction formals generalizing index with
  | nil => simp [ofFormals]
  | cons formal formals ih =>
    cases index with
    | zero => rfl
    | succ index => exact ih index

theorem all_optional_ofFormals (formals : List FormalParameter) :
    (ofFormals formals).all optional = formals.all FormalParameter.optional := by
  induction formals with
  | nil => rfl
  | cons formal formals ih =>
    rw [ofFormals, List.all_cons, List.all_cons, ih, ofFormal]
    cases formal.optional <;> simp

theorem pairwise_optional_ofFormals (formals : List FormalParameter) :
    (ofFormals formals).Pairwise fun earlier later ↦
      earlier.optional = true → later.optional = true := by
  induction formals with
  | nil => exact .nil
  | cons formal formals ih =>
    refine .cons ?_ ih
    intro later hlater hmarked
    simp only [ofFormal, Bool.and_eq_true] at hmarked
    have hall : (ofFormals formals).all optional = true :=
      (all_optional_ofFormals formals).trans hmarked.2.2
    exact List.all_eq_true.1 hall later hlater

end Param

end TypeScript

namespace Callable

/-- The parameters of a method stand for the formal ones of its function, one by one and in their
order. Those with a question mark come last, and a call may end where only optional formal
parameters are left, and nowhere else. -/
theorem params_admit_omission (config : Config) (flavor : Flavor) (function : Callable) :
    List.Forall₂ Param.StandsFor function.params (function.method config flavor).params ∧
      ((function.method config flavor).params.Pairwise fun earlier later ↦
        earlier.optional = true → later.optional = true) ∧
      ∀ index, ((function.method config flavor).params.drop index).all Param.optional =
        (function.params.drop index).all FormalParameter.optional := by
  have hparams : (function.method config flavor).params = Param.ofFormals function.params := rfl
  rw [hparams]
  refine ⟨Param.forall₂_standsFor_ofFormals _, Param.pairwise_optional_ofFormals _, ?_⟩
  intro index
  rw [Param.drop_ofFormals, Param.all_optional_ofFormals]

end Callable

end TypedClient
