import TypedClient.CommandLine.Command
import TypedClient.Proofs.CommandLine.Arguments
import TypedClient.Proofs.CommandLine.Files
import TypedClient.Proofs.Except

/-!
# Runs of the generating command

A run that cannot load or compile its inputs changes nothing. A check finds the
rendered files that are missing or different, and changes nothing either. A run
without a check makes a following check succeed, and touches no other file.
-/

namespace TypedClient

/-! ## Rendered files -/

namespace Client

theorem contents_render_ne_empty (config : Config) (flavor : Flavor) (client : Client) :
    (client.render config flavor).contents ≠ "" := by
  intro h
  have htext := congrArg String.toList h
  simp [render, TypeScript.Module.print] at htext

theorem nodup_paths_renderAll (config : Config) (client : Client) :
    ((client.renderAll config).map RenderedFile.path).Nodup := by
  have hpaths : (client.renderAll config).map RenderedFile.path =
      (Flavor.selected config.flavors).map Flavor.fileName := by
    simp [renderAll, render, Function.comp_def]
  have hall : (Flavor.all.map Flavor.fileName).Nodup := by decide
  rw [hpaths]
  exact hall.sublist (List.filter_sublist.map _)

end Client

namespace CommandLine

namespace Product

variable {inputs : Inputs} {product : Product}

theorem files_of_compile (h : inputs.compile = .ok product) :
    product.files = product.generation.client.renderAll inputs.config := by
  obtain ⟨generation, -, hproduct⟩ := Except.bind_eq_ok_iff.1 h
  obtain rfl := Except.ok.inj hproduct
  rfl

end Product

/-! ## Drifts -/

namespace Drift

variable (files : Files) (directory : String)

theorem in?_eq_none {file : RenderedFile} (hcontents : file.contents ≠ "")
    (h : files.Holds directory file) : Drift.in? files directory file = none :=
  if_pos ((files.text_eq_contents_iff directory hcontents).2 h)

theorem exists_in?_eq_some {file : RenderedFile} (hcontents : file.contents ≠ "")
    (h : ¬ files.Holds directory file) :
    ∃ drift, Drift.in? files directory file = some drift ∧ drift.file = file :=
  ⟨_, if_neg (mt (files.text_eq_contents_iff directory hcontents).1 h), rfl⟩

/-- The drifts of files that are not empty are those of the files that are not there as they
should be. -/
theorem map_file_filterMap_in? {rendered : List RenderedFile}
    (hcontents : ∀ file ∈ rendered, file.contents ≠ "") :
    (rendered.filterMap (Drift.in? files directory)).map Drift.file =
      rendered.filter fun file ↦ ¬ files.Holds directory file := by
  induction rendered with
  | nil => rfl
  | cons file rendered ih =>
    obtain ⟨hfile, hrendered⟩ := List.forall_mem_cons.1 hcontents
    by_cases h : files.Holds directory file
    · rw [List.filterMap_cons_none (in?_eq_none files directory hfile h), ih hrendered,
        List.filter_cons_of_neg (by simpa using h)]
    · obtain ⟨drift, hdrift, heq⟩ := exists_in?_eq_some files directory hfile h
      rw [List.filterMap_cons_some hdrift, List.map_cons, heq, ih hrendered,
        List.filter_cons_of_pos (by simpa using h)]

end Drift

/-! ## Outcome of a run -/

namespace Options

variable (options : Options) (files : Files)

def outputPath (file : RenderedFile) : String :=
  Path.join options.outDir file.path

/-- The output files are readable or missing, and none of them is an input. -/
def OutputsApart : Prop :=
  ∀ product, options.productIn files = .ok product → ∀ file ∈ product.files,
    files.Readable (options.outputPath file) ∧ options.outputPath file ∉ options.inputPaths

variable {options files} {product : Product}

theorem files_of_productIn (h : options.productIn files = .ok product) :
    ∃ config, options.configIn files = .ok config ∧
      product.files = product.generation.client.renderAll (options.configure config) := by
  unfold productIn at h
  obtain ⟨inputs, hinputs, hcompile⟩ := Except.bind_eq_ok_iff.1 h
  unfold inputsIn at hinputs
  obtain ⟨config, hconfig, hrest⟩ := Except.bind_eq_ok_iff.1 hinputs
  obtain ⟨metadata, -, hdocs⟩ := Except.bind_eq_ok_iff.1 hrest
  obtain ⟨docs, -, hload⟩ := Except.bind_eq_ok_iff.1 hdocs
  have hconfigure : inputs.config = options.configure config := by
    rw [← Except.ok.inj hload]
  have hfiles := Product.files_of_compile hcompile
  exact ⟨config, hconfig, hconfigure ▸ hfiles⟩

theorem contents_ne_empty (h : options.productIn files = .ok product) :
    ∀ file ∈ product.files, file.contents ≠ "" := by
  obtain ⟨config, -, hfiles⟩ := files_of_productIn h
  rw [hfiles]
  intro file hfile
  obtain ⟨flavor, -, rfl⟩ := List.mem_map.1 hfile
  exact Client.contents_render_ne_empty _ flavor _

theorem nodup_paths (h : options.productIn files = .ok product) :
    (product.files.map RenderedFile.path).Nodup := by
  obtain ⟨config, -, hfiles⟩ := files_of_productIn h
  rw [hfiles]
  exact Client.nodup_paths_renderAll _ _

/-- A run makes the same of its inputs as long as they are the same. -/
theorem productIn_congr {after : Files} (h : ∀ path ∈ options.inputPaths, after path = files path) :
    options.productIn after = options.productIn files := by
  have hmetadata := h options.metadata List.mem_cons_self
  have hconfig : ∀ path ∈ options.config, after path = files path := fun path hpath ↦
    h path (.tail _ (List.mem_append_left _ (Option.mem_toList.2 hpath)))
  have hdocs : ∀ path ∈ options.docs, after path = files path := fun path hpath ↦
    h path (.tail _ (List.mem_append_right _ (Option.mem_toList.2 hpath)))
  simp only [productIn, inputsIn, configIn, understoodOr_congr hconfig,
    understood_congr hmetadata, understoodOr_congr hdocs]

theorem run_finish_check_snd (h : options.check = true) :
    ((options.finish product : StateM Files _).run files).2 = files := by
  have hcompare := run_compareAll_snd options.outDir product.files files
  rw [finish, if_pos h, StateT.run_bind]
  generalize (compareAll options.outDir product.files : StateM Files _).run files = compared
    at hcompare ⊢
  obtain ⟨⟨drifts, _ | failure⟩, after⟩ := compared <;> exact hcompare

theorem run_finish_check (h : options.check = true)
    (hreadable : ∀ file ∈ product.files, files.Readable (options.outputPath file)) :
    (options.finish product : StateM Files _).run files =
      (product.ending options.json (product.files.filterMap (Drift.in? files options.outDir)),
        files) := by
  rw [finish, if_pos h, StateT.run_bind, run_compareAll hreadable]
  rfl

theorem run_finish_write (h : options.check = false) :
    (options.finish product : StateM Files _).run files =
      (product.ending options.json [], files.putAll options.outDir product.files) := by
  rw [finish, if_neg (by simp [h]), StateT.run_bind, run_deliver]
  rfl

end Options

/-- How a generating command ends, and what it does to the files. -/
structure Generates (arguments : List String) (options : Options) (files : Files) : Prop where
  /-- Without inputs or without a client nothing happens. -/
  failed : ∀ failure, options.productIn files = .error failure →
    (run arguments : StateM Files _).run files = (failure.ending "", files) ∧
      (failure.ending "").code = 1
  /-- The rendered files are those of the selected flavors. -/
  selected : ∀ config product, options.configIn files = .ok config →
    options.productIn files = .ok product →
      product.files.map RenderedFile.path =
        (Flavor.selected (if options.flavors = [] then config.flavors else options.flavors)).map
          Flavor.fileName
  /-- A check changes no file. -/
  untouched : options.check = true → ((run arguments : StateM Files _).run files).2 = files
  /-- A check reports the files that are missing or different, in the order of the files. -/
  checked : options.check = true → ∀ product, options.productIn files = .ok product →
    ∃ drifts, (run arguments : StateM Files _).run files =
        (product.ending options.json drifts, files) ∧
      drifts.map Drift.file = product.files.filter (fun file ↦ ¬ files.Holds options.outDir file) ∧
      (product.ending options.json drifts).code =
        if ∀ file ∈ product.files, files.Holds options.outDir file then 0 else 1
  /-- A run without a check writes the rendered files and nothing else. -/
  written : options.check = false → ∀ product, options.productIn files = .ok product →
    ∃ after, (run arguments : StateM Files _).run files =
        (product.ending options.json [], after) ∧
      (∀ file ∈ product.files, after.Holds options.outDir file) ∧
      ∀ path, (∀ file ∈ product.files, path ≠ options.outputPath file) → after path = files path
  /-- What a run has written passes a check, which every command line can ask for. -/
  rechecked : options.check = false → ∀ ending after,
    (run arguments : StateM Files _).run files = (ending, after) → ending.code = 0 →
      Invocation.ofArguments (withCheck arguments) = .generate options.checking ∧
        ∀ again, Invocation.ofArguments again = .generate options.checking →
          ∃ ending, (run again : StateM Files _).run after = (ending, after) ∧ ending.code = 0

section

variable {arguments : List String} {options : Options} {files : Files}

theorem run_failed (h : Invocation.ofArguments arguments = .generate options) {failure : Failure}
    (hfailure : options.productIn files = .error failure) :
    (run arguments : StateM Files _).run files = (failure.ending "", files) := by
  have hrun : (run arguments : StateM Files _) = options.run := by
    unfold run
    rw [h]
  rw [hrun, Options.run, StateT.run_bind, options.run_product, hfailure]
  rfl

theorem run_product (h : Invocation.ofArguments arguments = .generate options) {product : Product}
    (hproduct : options.productIn files = .ok product) :
    (run arguments : StateM Files _).run files =
      (options.finish product : StateM Files _).run files := by
  have hrun : (run arguments : StateM Files _) = options.run := by
    unfold run
    rw [h]
  rw [hrun, Options.run, StateT.run_bind, options.run_product, hproduct]
  rfl

/-- Without a drift a check ends well. -/
theorem code_ending_eq (product : Product) (json : Bool) (files : Files) (directory : String)
    (hcontents : ∀ file ∈ product.files, file.contents ≠ "") :
    (product.ending json (product.files.filterMap (Drift.in? files directory))).code =
      if ∀ file ∈ product.files, files.Holds directory file then 0 else 1 := by
  have hdrifts : product.files.filterMap (Drift.in? files directory) = [] ↔
      ∀ file ∈ product.files, files.Holds directory file := by
    rw [← List.map_eq_nil_iff, Drift.map_file_filterMap_in? files directory hcontents]
    simp [List.filter_eq_nil_iff]
  have hcode (drifts : List Drift) :
      (product.ending json drifts).code = if drifts = [] then 0 else 1 := by
    unfold Product.ending
    cases json <;> rfl
  simp only [hcode, hdrifts]

/-- Every generating command does what it should, on all files it could find. -/
theorem run_generates (h : Invocation.ofArguments arguments = .generate options)
    (hapart : options.OutputsApart files) : Generates arguments options files where
  failed failure hfailure := ⟨run_failed h hfailure, rfl⟩
  selected config product hconfig hproduct := by
    obtain ⟨found, hfound, hfiles⟩ := Options.files_of_productIn hproduct
    obtain rfl : config = found := Except.ok.inj (hconfig.symm.trans hfound)
    rw [hfiles, Options.configure]
    split <;> simp [Client.renderAll, Client.render, Function.comp_def]
  untouched hcheck := by
    cases hproduct : options.productIn files with
    | error failure => rw [run_failed h hproduct]
    | ok product =>
      rw [run_product h hproduct]
      exact Options.run_finish_check_snd hcheck
  checked hcheck product hproduct := by
    have hcontents := Options.contents_ne_empty hproduct
    refine ⟨_, (run_product h hproduct).trans (Options.run_finish_check hcheck fun file hfile ↦
      (hapart product hproduct file hfile).1), ?_, ?_⟩
    · exact Drift.map_file_filterMap_in? files options.outDir hcontents
    · exact code_ending_eq product options.json files options.outDir hcontents
  written hcheck product hproduct :=
    ⟨_, (run_product h hproduct).trans (Options.run_finish_write hcheck),
      files.holds_putAll options.outDir (Options.nodup_paths hproduct),
      fun _ hpath ↦ files.putAll_of_ne hpath⟩
  rechecked hcheck ending after hrun hcode := by
    refine ⟨Invocation.ofArguments_withCheck h hcheck, fun again hagain ↦ ?_⟩
    cases hproduct : options.productIn files with
    | error failure =>
      obtain rfl : failure.ending "" = ending :=
        congrArg Prod.fst ((run_failed h hproduct).symm.trans hrun)
      contradiction
    | ok product =>
      have hafter : files.putAll options.outDir product.files = after :=
        congrArg Prod.snd (((run_product h hproduct).trans
          (Options.run_finish_write hcheck)).symm.trans hrun)
      have hholds : ∀ file ∈ product.files, after.Holds options.outDir file :=
        hafter ▸ files.holds_putAll options.outDir (Options.nodup_paths hproduct)
      have hinputs : ∀ path ∈ options.inputPaths, after path = files path := by
        intro path hpath
        rw [← hafter]
        refine files.putAll_of_ne fun file hfile heq ↦ ?_
        exact (hapart product hproduct file hfile).2 (show Path.join _ _ ∈ _ from heq ▸ hpath)
      have hsame : options.checking.productIn after = .ok product :=
        (Options.productIn_congr hinputs).trans hproduct
      have hreadable : ∀ file ∈ product.files, after.Readable (options.outputPath file) := by
        intro file hfile error herror
        exact nomatch (hholds file hfile).symm.trans herror
      refine ⟨_, (run_product hagain hsame).trans (Options.run_finish_check rfl hreadable), ?_⟩
      exact (code_ending_eq product _ after _ (Options.contents_ne_empty hproduct)).trans
        (if_pos hholds)

end

/-! ## A stale file -/

def staleFiles : Files
  | "shop.json" => .ok "\x7b\x7d"
  | "./axios-client.ts" => .ok "// stale\n"
  | _ => .error .missing

def axiosArguments : List String :=
  ["generate", "--metadata", "shop.json", "--flavor", "axios"]

def axiosOptions : Options :=
  { metadata := "shop.json"
    config := none
    docs := none
    outDir := "."
    flavors := [.axios]
    check := false
    json := false }

theorem ofArguments_axiosArguments :
    Invocation.ofArguments axiosArguments = .generate axiosOptions := by
  decide

def emptyProduct : Product :=
  { generation := { client := [], diagnostics := [] }
    files := Client.renderAll { flavors := [.axios] } [] }

theorem productIn_staleFiles : axiosOptions.productIn staleFiles = .ok emptyProduct :=
  rfl

theorem outputPath_emptyProduct :
    ∀ file ∈ emptyProduct.files, axiosOptions.outputPath file = "./axios-client.ts" := by
  have hfiles : emptyProduct.files.map axiosOptions.outputPath = ["./axios-client.ts"] := by decide
  intro file hfile
  exact List.mem_singleton.1 (hfiles ▸ List.mem_map_of_mem hfile)

theorem outputsApart_staleFiles : axiosOptions.OutputsApart staleFiles := by
  intro product hproduct file hfile
  obtain rfl : emptyProduct = product := Except.ok.inj (productIn_staleFiles.symm.trans hproduct)
  rw [outputPath_emptyProduct file hfile]
  exact ⟨fun _ h ↦ (nomatch h), by decide⟩

/-- The stale file is written anew, and the file of the other flavor is still missing. -/
theorem run_generates_staleFiles :
    ∃ after, (run axiosArguments : StateM Files _).run staleFiles =
        (emptyProduct.ending false [], after) ∧
      after "./fetch-client.ts" = .error .missing ∧
      ∃ ending, (run (withCheck axiosArguments) : StateM Files _).run after = (ending, after) ∧
        ending.code = 0 := by
  have hgenerates := run_generates ofArguments_axiosArguments outputsApart_staleFiles
  obtain ⟨after, hrun, -, hother⟩ := hgenerates.written rfl _ productIn_staleFiles
  obtain ⟨hcheck, hagain⟩ := hgenerates.rechecked rfl _ after hrun rfl
  have hfetch : ∀ file ∈ emptyProduct.files,
      "./fetch-client.ts" ≠ axiosOptions.outputPath file := by
    intro file hfile
    rw [outputPath_emptyProduct file hfile]
    decide
  exact ⟨after, hrun, hother _ hfetch, hagain _ hcheck⟩

end CommandLine

end TypedClient
