import Mathlib.Logic.Function.Basic
import TypedClient.CommandLine.Generate

/-!
# Files as a map

The files may be a map from paths to what is read there: a text, or the reason why
there is none. Writing puts a text at its path and never fails, and every
directory counts as made. On such files every step of a run has a closed form.
-/

namespace TypedClient

def Files : Type :=
  String → Except FileError String

namespace Files

def put (files : Files) (path contents : String) : Files :=
  Function.update files path (.ok contents)

instance : FileSystem (StateM Files) where
  read path := fun files ↦ (files path, files)
  write path contents := fun files ↦ (.ok (), files.put path contents)
  makeDirectory _ := fun files ↦ (.ok (), files)

/-- There is a text, or there is no file. -/
def Readable (files : Files) (path : String) : Prop :=
  ∀ error, files path = .error error → error = .missing

/-- The text of a file, or none at all if there is none. -/
def text (files : Files) (path : String) : String :=
  match files path with
  | .ok text => text
  | .error _ => ""

/-- A directory holds a file exactly as it was rendered. -/
def Holds (files : Files) (directory : String) (file : RenderedFile) : Prop :=
  files (Path.join directory file.path) = .ok file.contents

instance (files : Files) (directory : String) (file : RenderedFile) :
    Decidable (files.Holds directory file) :=
  match h : files (Path.join directory file.path) with
  | .ok text => decidable_of_iff (text = file.contents) (by simp [Holds, h])
  | .error _ => .isFalse (by simp [Holds, h])

def putAll (files : Files) (directory : String) (rendered : List RenderedFile) : Files :=
  rendered.foldl (fun files file ↦ files.put (Path.join directory file.path) file.contents) files

theorem put_of_ne (files : Files) {path other : String} (h : other ≠ path) (contents : String) :
    files.put path contents other = files other :=
  Function.update_of_ne h _ _

theorem put_self (files : Files) (path contents : String) :
    files.put path contents path = .ok contents :=
  Function.update_self path _ files

/-- Other paths are as before. -/
theorem putAll_of_ne (files : Files) {directory path : String} {rendered : List RenderedFile}
    (h : ∀ file ∈ rendered, path ≠ Path.join directory file.path) :
    files.putAll directory rendered path = files path := by
  induction rendered generalizing files with
  | nil => rfl
  | cons file rendered ih =>
    obtain ⟨hfile, hrendered⟩ := List.forall_mem_cons.1 h
    exact (ih _ hrendered).trans (files.put_of_ne hfile _)

theorem join_injective (directory : String) : Function.Injective (Path.join directory) := by
  intro left right h
  have htext := congrArg String.toList h
  unfold Path.join at htext
  split at htext <;> exact String.toList_inj.1 (by simpa using htext)

/-- Files with different names do not overwrite each other. -/
theorem holds_putAll (files : Files) (directory : String) {rendered : List RenderedFile}
    (h : (rendered.map RenderedFile.path).Nodup) :
    ∀ file ∈ rendered, (files.putAll directory rendered).Holds directory file := by
  induction rendered generalizing files with
  | nil => exact fun _ hmem ↦ nomatch hmem
  | cons file rendered ih =>
    rw [List.map_cons, List.nodup_cons] at h
    refine List.forall_mem_cons.2 ⟨?_, ih _ h.2⟩
    have hne : ∀ other ∈ rendered,
        Path.join directory file.path ≠ Path.join directory other.path := by
      intro other hother heq
      exact h.1 (join_injective directory heq ▸ List.mem_map_of_mem hother)
    exact (putAll_of_ne _ hne).trans (files.put_self _ _)

/-- For a file that is not empty, having its text is being there with it. -/
theorem text_eq_contents_iff (files : Files) (directory : String) {file : RenderedFile}
    (hcontents : file.contents ≠ "") :
    files.text (Path.join directory file.path) = file.contents ↔ files.Holds directory file := by
  unfold text Holds
  cases files (Path.join directory file.path) with
  | ok text => simp
  | error error => simpa using hcontents.symm

variable (files : Files)

theorem run_read (path : String) :
    (FileSystem.read path : StateM Files _).run files = (files path, files) := rfl

theorem run_write (path contents : String) :
    (FileSystem.write path contents : StateM Files _).run files =
      (.ok (), files.put path contents) := rfl

theorem run_makeDirectories (path : String) :
    (FileSystem.makeDirectories path : StateM Files _).run files = (.ok (), files) := by
  unfold FileSystem.makeDirectories
  cases Path.parents path <;> rfl

end Files

namespace CommandLine

/-! ## Loading -/

section

variable {α : Type} (files : Files)

/-- What a file says, if it can be read and understood. -/
def understood (path : String) (understand : String → Except LoadError α) : Except Failure α :=
  match files path with
  | .ok text => (understand text).mapError .load
  | .error error => .error (.unreadable path error)

def understoodOr (default : α) (path : Option String) (understand : String → Except LoadError α) :
    Except Failure α :=
  match path with
  | some path => understood files path understand
  | none => .ok default

theorem understood_congr {files after : Files} {path : String} (h : after path = files path)
    (understand : String → Except LoadError α) :
    understood after path understand = understood files path understand := by
  rw [understood, h, understood]

theorem understoodOr_congr {files after : Files} {path : Option String}
    (h : ∀ p ∈ path, after p = files p) (default : α)
    (understand : String → Except LoadError α) :
    understoodOr after default path understand = understoodOr files default path understand := by
  cases path with
  | none => rfl
  | some path => exact understood_congr (h path rfl) understand

theorem run_loadFile (path : String) (understand : String → Except LoadError α) :
    (loadFile path understand : StateM Files _).run files =
      (understood files path understand, files) := by
  unfold understood
  cases hpath : files path <;>
    · simp only [loadFile, StateT.run_bind, Files.run_read, hpath]
      rfl

theorem run_loadOptional (path : Option String) (default : α)
    (understand : String → Except LoadError α) :
    (loadOptional path default understand : StateM Files _).run files =
      (understoodOr files default path understand, files) := by
  cases path with
  | none => rfl
  | some path => exact run_loadFile files path understand

end

/-- A chain of computations that leave the files alone leaves them alone. -/
theorem run_bind {α β : Type} {files : Files} {first : ExceptT Failure (StateM Files) α}
    {next : α → ExceptT Failure (StateM Files) β} {value : Except Failure α}
    {following : α → Except Failure β} (hfirst : first.run.run files = (value, files))
    (hnext : ∀ x, (next x).run.run files = (following x, files)) :
    (first >>= next).run.run files = (value >>= following, files) := by
  rw [ExceptT.run_bind, StateT.run_bind, hfirst]
  cases value with
  | ok x => exact hnext x
  | error failure => rfl

namespace Options

variable (options : Options) (files : Files)

/-- The paths of the files that a run loads. -/
def inputPaths : List String :=
  options.metadata :: (options.config.toList ++ options.docs.toList)

/-- The configuration as the files have it. -/
def configIn : Except Failure Config :=
  understoodOr files {} options.config Config.ofText

/-- The inputs in the order in which they are loaded. -/
def inputsIn : Except Failure Inputs := do
  let config ← options.configIn files
  let metadata ← understood files options.metadata Metadata.ofText
  let docs ← understoodOr files {} options.docs Docs.ofText
  return { config := options.configure config, metadata, docs }

def productIn : Except Failure Product := do
  (← options.inputsIn files).compile

theorem run_load : (options.load : ExceptT Failure (StateM Files) _).run.run files =
    (options.inputsIn files, files) :=
  run_bind (run_loadOptional files _ _ _) fun _ ↦
    run_bind (run_loadFile files _ _) fun _ ↦
      run_bind (run_loadOptional files _ _ _) fun _ ↦ rfl

/-- Loading and compiling touches no file. -/
theorem run_product : (options.product : ExceptT Failure (StateM Files) _).run.run files =
    (options.productIn files, files) :=
  run_bind (options.run_load files) fun _ ↦ rfl

end Options

/-! ## Writing -/

theorem run_writeAll (directory : String) (rendered : List RenderedFile) (files : Files) :
    (writeAll directory rendered : StateM Files _).run files =
      (.ok (), files.putAll directory rendered) := by
  induction rendered generalizing files with
  | nil => rfl
  | cons file rendered ih =>
    rw [writeAll, StateT.run_bind, Files.run_write]
    exact ih _

theorem run_deliver (directory : String) (rendered : List RenderedFile) (files : Files) :
    (deliver directory rendered : StateM Files _).run files =
      (.ok (), files.putAll directory rendered) := by
  rw [deliver, StateT.run_bind, Files.run_makeDirectories]
  exact run_writeAll directory rendered files

/-! ## Comparing -/

theorem run_existingText_snd (path : String) (files : Files) :
    ((existingText path : StateM Files _).run files).2 = files := by
  rw [existingText, StateT.run_bind, Files.run_read]
  rcases files path with (_ | _) | _ <;> rfl

/-- Comparing touches no file, even if it ends early. -/
theorem run_compareAll_snd (directory : String) (rendered : List RenderedFile) (files : Files) :
    ((compareAll directory rendered : StateM Files _).run files).2 = files := by
  induction rendered with
  | nil => rfl
  | cons file rendered ih =>
    have hexisting := run_existingText_snd (Path.join directory file.path) files
    rw [compareAll, StateT.run_bind]
    generalize (existingText (Path.join directory file.path) : StateM Files _).run files = read
      at hexisting ⊢
    obtain ⟨(error | existing), after⟩ := read
    · exact hexisting
    · obtain rfl : after = files := hexisting
      exact ih

theorem run_existingText {path : String} {files : Files} (h : files.Readable path) :
    (existingText path : StateM Files _).run files = (.ok (files.text path), files) := by
  rw [existingText, StateT.run_bind, Files.run_read, Files.text]
  cases hpath : files path with
  | ok text => rfl
  | error error =>
    obtain rfl : error = .missing := h error hpath
    rfl

/-- How a directory differs from a rendered file. -/
def Drift.in? (files : Files) (directory : String) (file : RenderedFile) : Option Drift :=
  Drift.of? file (files.text (Path.join directory file.path))

/-- A comparison that can read everything finds all drifts. -/
theorem run_compareAll {directory : String} {rendered : List RenderedFile} {files : Files}
    (h : ∀ file ∈ rendered, files.Readable (Path.join directory file.path)) :
    (compareAll directory rendered : StateM Files _).run files =
      ((rendered.filterMap (Drift.in? files directory), none), files) := by
  induction rendered with
  | nil => rfl
  | cons file rendered ih =>
    obtain ⟨hfile, hrendered⟩ := List.forall_mem_cons.1 h
    let rest := (compareAll directory rendered : StateM Files _).run files
    have hstep : (compareAll directory (file :: rendered) : StateM Files _).run files =
        (((Drift.in? files directory file).toList ++ rest.1.1, rest.1.2), rest.2) := by
      rw [compareAll, StateT.run_bind, run_existingText hfile]
      rfl
    have hrest : rest = _ := ih hrendered
    rw [hstep, hrest, List.filterMap_cons]
    cases Drift.in? files directory file <;> rfl

end CommandLine

end TypedClient
