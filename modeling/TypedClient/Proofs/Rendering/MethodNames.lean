import TypedClient.Proofs.Client.Overload
import TypedClient.Proofs.TypeScript.Casing
import TypedClient.Rendering.Files

/-!
# Names of methods

A method has the name of its function in camel case. Overloads are told apart
before, by the names of the functions themselves. So a class has two methods of
one name, although no overload is left, exactly if two of its functions have
names that differ in the case of leading capitals. Names that start with a
single capital do not.
-/

namespace TypedClient

open TypeScript (Recased camelCase camelChars_eq_camelChars_iff)

theorem TypeScript.camelCase_eq_camelCase_iff {left right : String} :
    camelCase left = camelCase right ↔ left = right ∨ Recased left.toList right.toList ∨
      Recased right.toList left.toList := by
  rw [camelCase, camelCase, String.ofList_inj, camelChars_eq_camelChars_iff, String.toList_inj]

namespace Container

theorem methodNames_classOf (config : Config) (flavor : Flavor) (container : Container) :
    (Client.classOf config flavor container).methods.map TypeScript.Method.name =
      (container.functions.map Callable.name).map camelCase := by
  rw [Client.classOf, List.map_map, List.map_map]
  rfl

/-- Where no name is shared, methods share one exactly if camel case merges two names. -/
theorem nodup_methodNames_iff {container : Container}
    (h : (container.functions.map Callable.name).Nodup) (config : Config) (flavor : Flavor) :
    ((Client.classOf config flavor container).methods.map TypeScript.Method.name).Nodup ↔
      ∀ left ∈ container.functions, ∀ right ∈ container.functions,
        ¬ Recased left.name.toList right.name.toList := by
  rw [methodNames_classOf, List.nodup_map_iff_inj_on h]
  simp only [List.forall_mem_map]
  constructor
  · intro hinj left hleft right hright hrecased
    have hmerged := TypeScript.camelCase_eq_camelCase_iff.2 (.inr (.inl hrecased))
    exact hrecased.ne (congrArg String.toList (hinj left hleft right hright hmerged))
  · intro hnone left hleft right hright hmerged
    rcases TypeScript.camelCase_eq_camelCase_iff.1 hmerged with heq | hrecased | hrecased
    · exact heq
    · exact absurd hrecased (hnone left hleft right hright)
    · exact absurd hrecased (hnone right hright left hleft)

theorem nodup_methodNames_of_capitalized {container : Container}
    (h : (container.functions.map Callable.name).Nodup)
    (hcapitalized : ∀ function ∈ container.functions,
      TypeScript.Capitalized function.name.toList) (config : Config) (flavor : Flavor) :
    ((Client.classOf config flavor container).methods.map TypeScript.Method.name).Nodup := by
  refine (nodup_methodNames_iff h config flavor).2 ?_
  intro left hleft right hright
  exact TypeScript.not_recased_of_capitalized (hcapitalized left hleft) (hcapitalized right hright)

end Container

namespace Client

/-- The classes of a module are those of the containers, in their order. -/
theorem classes_toModule (config : Config) (flavor : Flavor) (client : Client) :
    (client.toModule config flavor).namespaces.flatMap TypeScript.Namespace.classes =
      (client.flatMap Namespace.containers).map (classOf config flavor) := by
  rw [toModule, List.flatMap_map, List.map_flatMap]
  rfl

/-- When no overload is left to tell apart, the methods of a class have different names, unless
two functions of its container differ in the case of leading capitals. -/
theorem methods_distinct_iff (byType : Bool) (client : Client)
    (hnone : (client.disambiguate byType).2 = []) (config : Config) (flavor : Flavor) :
    List.Forall₂ (fun container cls ↦
        (cls.methods.map TypeScript.Method.name).Nodup ↔
          ∀ left ∈ container.functions, ∀ right ∈ container.functions,
            ¬ Recased left.name.toList right.name.toList)
      ((client.disambiguate byType).1.flatMap Namespace.containers)
      (((client.disambiguate byType).1.toModule config flavor).namespaces.flatMap
        TypeScript.Namespace.classes) := by
  rw [classes_toModule, List.forall₂_map_right_iff]
  apply List.forall₂_same.2
  intro container hcontainer
  obtain ⟨group, hgroup, hmem⟩ := List.mem_flatMap.1 hcontainer
  have hnodup := overloads_eq_nil_iff.1 hnone group hgroup container hmem
  exact Container.nodup_methodNames_iff hnodup config flavor

/-! ## Names that differ in a capital -/

def lookup (name parameter : String) : Callable :=
  { name
    sourceName := name
    verb := .get
    params :=
      [{ name := parameter, type := .scalar .string, token := "String", optional := false,
         role := .query }]
    returns := .void
    strategy := .nothing
    uri :=
      { segments := [.literal "/items"]
        query := [{ key := parameter, parameter, optional := false, repeated := false }] }
    body := none
    headers := []
    doc := none }

def itemsClient : Client :=
  [{ name := "Shop.Client"
     sourceName := "Shop"
     containers :=
      [{ name := "ItemsClient"
         sourceName := "Shop.ItemsController"
         functions := [lookup "Get" "id", lookup "get" "code"] }] }]

theorem recased_get : Recased "Get".toList "get".toList :=
  ⟨[], ['G'], ['e', 't'], ⟨rfl, by simp, .initial 'G' 'e' ['t'] rfl⟩, rfl, by simp, by simp⟩

/-- Both functions keep their names, and both methods are called `get`. -/
theorem not_nodup_methods_itemsClient :
    (itemsClient.disambiguate false).2 = [] ∧
      ∃ cls, ((itemsClient.disambiguate false).1.toModule {} .fetch).namespaces.flatMap
          TypeScript.Namespace.classes = [cls] ∧
        ¬ (cls.methods.map TypeScript.Method.name).Nodup := by
  refine ⟨rfl, _, rfl, ?_⟩
  have hclass := (List.forall₂_cons.1 (methods_distinct_iff false itemsClient rfl {} .fetch)).1
  intro hnodup
  exact hclass.1 hnodup (lookup "Get" "id") List.mem_cons_self (lookup "get" "code")
    (List.mem_cons_of_mem _ List.mem_cons_self) recased_get

/-- Methods of one class may share their name, though no overload is reported. -/
theorem not_forall_methods_distinct :
    ¬ ∀ (byType : Bool) (client : Client), (client.disambiguate byType).2 = [] →
      ∀ (config : Config) (flavor : Flavor),
        ∀ cls ∈ ((client.disambiguate byType).1.toModule config flavor).namespaces.flatMap
          TypeScript.Namespace.classes, (cls.methods.map TypeScript.Method.name).Nodup := by
  intro hall
  have hclass := hall false itemsClient rfl {} .fetch _ List.mem_cons_self
  revert hclass
  decide

end Client

end TypedClient
