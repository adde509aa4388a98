import TypedClient.CommandLine.Arguments

/-!
# Asking for a check

Every command line that generates files can be asked to check them instead. The
switch goes right behind the command, where nothing can be in its way: at the end
of the line it could stand behind two dashes, as an argument that is no option.
-/

namespace TypedClient.CommandLine

/-- The same command line with the switch for a check. -/
def withCheck : List String → List String
  | "generate" :: rest => "generate" :: "--check" :: rest
  | arguments => arguments

def Options.checking (options : Options) : Options :=
  { options with check := true }

namespace Draft

def checking (draft : Draft) : Draft :=
  { draft with check := true }

variable {draft next : Draft} {options : Options}

theorem set_checking {setting : Setting} {value : String}
    (h : draft.set setting value = some next) :
    next.check = draft.check ∧ draft.checking.set setting value = some next.checking := by
  cases setting with
  | flavor =>
    obtain ⟨flavor, hflavor, hnext⟩ := Option.bind_eq_some_iff.1 h
    obtain rfl := Option.some.inj hnext
    exact ⟨rfl, Option.bind_eq_some_iff.2 ⟨flavor, hflavor, rfl⟩⟩
  | metadata | config | docs | outDir =>
    obtain ⟨path, hpath, hnext⟩ := Option.bind_eq_some_iff.1 h
    obtain rfl := Option.some.inj hnext
    exact ⟨rfl, Option.bind_eq_some_iff.2 ⟨path, hpath, rfl⟩⟩

theorem finish_checking (h : draft.finish = .generate options) :
    options.check = draft.check ∧ draft.checking.finish = .generate options.checking := by
  unfold finish at h
  split at h
  · rename_i metadata hmetadata
    obtain rfl := Invocation.generate.inj h
    refine ⟨rfl, ?_⟩
    simp [finish, checking, Options.checking, hmetadata]
  · contradiction

/-- Options are read in the same way if a check has been asked for before. -/
theorem read_checking {texts : List String} (h : draft.read texts = .generate options)
    (hcheck : options.check = false) :
    draft.check = false ∧ draft.checking.read texts = .generate options.checking := by
  fun_induction Draft.read draft texts with
  | case1 draft =>
    obtain ⟨heq, hfinish⟩ := finish_checking h
    exact ⟨heq ▸ hcheck, hfinish⟩
  | case4 draft text rest hargument hnot ih =>
    exact absurd (ih h).1 (by simp)
  | case6 draft text rest hargument hjson ih =>
    obtain ⟨hdraft, hread⟩ := ih h
    refine ⟨hdraft, ?_⟩
    rw [read, hargument]
    simpa [checking, hjson] using hread
  | case7 draft text rest setting value hargument next hset ih =>
    obtain ⟨heq, hchecking⟩ := set_checking hset
    obtain ⟨hnext, hread⟩ := ih h
    refine ⟨heq ▸ hnext, ?_⟩
    rw [read, hargument]
    simpa [hchecking] using hread
  | case10 draft text setting hargument value rest next hset hvalue ih =>
    obtain ⟨heq, hchecking⟩ := set_checking hset
    obtain ⟨hnext, hread⟩ := ih h
    refine ⟨heq ▸ hnext, ?_⟩
    rw [read, hargument]
    simpa [hvalue, hchecking] using hread
  | case12 draft text hargument =>
    obtain ⟨heq, hfinish⟩ := finish_checking h
    refine ⟨heq ▸ hcheck, ?_⟩
    rw [read, hargument]
    simpa using hfinish
  | _ => contradiction

end Draft

namespace Invocation

variable {arguments : List String} {options : Options}

theorem eq_generate_cons (h : ofArguments arguments = .generate options) :
    ∃ rest, arguments = "generate" :: rest ∧ Draft.read {} rest = .generate options := by
  unfold ofArguments at h
  split at h
  case h_3 rest => exact ⟨rest, rfl, h⟩
  all_goals (repeat' split at h) <;> contradiction

/-- Every command line that generates files has one that checks them, with the same options. -/
theorem ofArguments_withCheck (h : ofArguments arguments = .generate options)
    (hcheck : options.check = false) :
    ofArguments (withCheck arguments) = .generate options.checking := by
  obtain ⟨rest, rfl, hread⟩ := eq_generate_cons h
  exact (Draft.read_checking hread hcheck).2

end Invocation

end TypedClient.CommandLine
