/-
**What a run does to a volume.**

* `isPlain_of_bindingFilesOf` — the paths of binding files are made of names;
* `IsOutcome` — what a volume holds when binding files were written below a directory;
* `execute_effect` — **a run changes nothing unless all binding files could be made; then it writes
  them in order, all of them or a first part, and makes nothing else but directories around them.**
-/

import ExternBindings.Proofs.Output.SafePaths
import ExternBindings.Proofs.Program.Writing

namespace ExternBindings

open Files Files.Volume

/-! ### The paths of binding files -/

/-- **The paths of binding files are made of names.** -/
theorem isPlain_of_bindingFilesOf {assemblies : List Assembly} {rules : PackageRules}
    {bindings : List BindingFile} (read : ∀ assembly ∈ assemblies, assembly.IsRead)
    (answered : bindingFilesOf assemblies rules = .ok bindings) :
    ∀ file ∈ bindings.map BindingFile.toFileText, file.IsPlain := by
  rw [List.forall_mem_map]
  intro file member
  have names := hasPathNames_of_bindingFilesOf read answered file member
  exact isPlainName_of_mem_segments (by simp) names.isPathName

/-! ### Outcomes -/

/-- What a volume holds when the files `written` were written below a directory, out of those that
were `planned`: at each path the contents of the file that was written there last. Everything else is
as it was, except for new directories where the directory leads, or one around it or around a planned
file. -/
structure IsOutcome (directory : String) (written planned : List BindingFile)
    (volume later : Volume) : Prop where
  start : later.workingDirectory = volume.workingDirectory
  texts : ∀ before file behind, written = before ++ file :: behind →
    (∀ other ∈ behind, other.path ≠ file.path) →
    later.readText (joinPath directory file.path) = .ok file.contents
  others : ∀ location,
    (∀ file ∈ written, later.locate (joinPath directory file.path) ≠ .ok location) →
    later.item? location = volume.item? location ∨
      volume.item? location = none ∧ later.item? location = some .directory ∧
        ∃ outer, (IsWithin directory outer ∨
          ∃ file ∈ planned, Relation.TransGen LiesIn (joinPath directory file.path) outer) ∧
            later.locate outer = .ok location

variable {directory : String} {base : Location} {volume later : Volume}

/-- The last file of a path is the one that counts. -/
theorem lookup_textsBelow {written before behind : List FileText} {file : FileText}
    (whole : written = before ++ file :: behind) (last : ∀ other ∈ behind, other.path ≠ file.path) :
    (textsBelow base written).reverse.lookup (file.placeBelow base) = some file.contents := by
  have none : (textsBelow base behind).reverse.lookup (file.placeBelow base) = none := by
    refine lookup_textsBelow_eq_none.mpr fun other member same => ?_
    exact last other member (FileText.placeBelow_eq_iff.mp same)
  unfold textsBelow at none ⊢
  rw [whole, List.map_append, List.map_cons, List.reverse_append, List.reverse_cons,
    List.append_assoc, List.lookup_append, none, Option.none_or, List.singleton_append,
    List.lookup_cons_self]

/-- What was written and placed is an outcome. -/
theorem isOutcome_of_differs {written planned : List BindingFile}
    (differs : Differs (textsBelow base (written.map BindingFile.toFileText))
      (fun outer => IsWithin directory outer ∨
        ∃ file ∈ planned.map BindingFile.toFileText, file.LiesWithin directory outer) volume later)
    (placed : ∀ file ∈ written.map BindingFile.toFileText, file.IsPlaced directory base later) :
    IsOutcome directory written planned volume later where
  start := differs.keeps.start
  texts before file behind whole last := by
    have split : written.map BindingFile.toFileText = before.map BindingFile.toFileText ++
        file.toFileText :: behind.map BindingFile.toFileText := by
      rw [whole, List.map_append, List.map_cons]
    have member : file.toFileText ∈ written.map BindingFile.toFileText := by
      rw [split]
      exact List.mem_append_right _ List.mem_cons_self
    have held := differs.texts _ _ (lookup_textsBelow split (List.forall_mem_map.mpr last))
    exact readText_eq_ok.mpr ⟨_, (placed _ member).located, (placed _ member).nameable, held⟩
  others location unwritten := by
    have apart : ∀ file ∈ written.map BindingFile.toFileText, file.placeBelow base ≠ location := by
      refine List.forall_mem_map.mpr fun file member same => ?_
      subst same
      exact unwritten file member (placed _ (List.mem_map_of_mem member)).located
    rcases differs.others location (lookup_textsBelow_eq_none.mpr apart) with kept | new
    · exact Or.inl kept
    · obtain ⟨absent, isDirectory, outer, around, leads⟩ := new
      refine Or.inr ⟨absent, isDirectory, outer, around.imp_right ?_, leads⟩
      rintro ⟨_, planned, within⟩
      obtain ⟨file, member, rfl⟩ := List.mem_map.mp planned
      exact ⟨file, member, within⟩

/-! ### Runs -/

theorem outputDirectory_ne_empty {options : RunOptions} {directory : String}
    (asked : options.outputDirectory = .ok directory) : directory ≠ "" := by
  unfold RunOptions.outputDirectory at asked
  split at asked
  · cases asked
  · next given chosen =>
    split at asked
    · cases asked
    · cases asked
      have present := (Option.filter_eq_some_iff.mp chosen).2
      rintro rfl
      cases present

/-- The loader of a run. -/
def RunOptions.loader (options : RunOptions) : Loader :=
  { directories := options.searchDirectories }

/-- The options ask for binding files below the directory, and these are made from the assemblies
that the names resolve to, in order. -/
structure RunOptions.Makes (options : RunOptions) (volume : Volume) (directory : String)
    (assemblies : List Assembly) (bindings : List BindingFile) : Prop where
  asked : options.outputDirectory = .ok directory
  loaded : List.Forall₂ (options.loader.Loads volume) options.assemblies assemblies
  made : bindingFilesOf assemblies options.packages = .ok bindings

namespace RunOptions

variable {options : RunOptions} {assemblies : List Assembly} {bindings : List BindingFile}

theorem Makes.isPlain (makes : options.Makes volume directory assemblies bindings) :
    ∀ file ∈ bindings.map BindingFile.toFileText, file.IsPlain := by
  refine isPlain_of_bindingFilesOf (fun assembly member => ?_) makes.made
  obtain ⟨position, inRange, rfl⟩ := List.getElem_of_mem member
  have inRangeToo := makes.loaded.length_eq ▸ inRange
  exact (makes.loaded.get inRangeToo inRange).isRead

theorem onVolume_answer {α : Type} (answer : Except RunFailure α) (volume : Volume) :
    onVolume (ExceptT.mk (return answer) : ExceptT RunFailure (StateM Volume) α) volume =
      (answer, volume) :=
  rfl

/-- Where binding files can be made, a run writes them. -/
theorem Makes.onVolume_execute (makes : options.Makes volume directory assemblies bindings) :
    onVolume options.execute volume =
      match onVolume (writeFiles directory (bindings.map BindingFile.toFileText)) volume with
      | (.ok files, later) =>
        (.ok { assemblies := assemblies.length, companions := totalCompanions bindings, files },
          later)
      | (.error failure, later) => (.error failure, later) := by
  obtain ⟨same, loaded⟩ := @Loader.onVolume_loadEach options.loader volume options.assemblies
  have load : onVolume (options.loader.loadEach options.assemblies) volume =
      (.ok assemblies, volume) :=
    Prod.ext ((loaded assemblies).mpr makes.loaded) same
  unfold execute
  rw [onVolume_bind, onVolume_answer, makes.asked]
  dsimp only [Except.mapError]
  unfold loader at load
  rw [onVolume_bind, onVolume_adapt, load]
  dsimp only [Except.mapError]
  rw [onVolume_bind, onVolume_answer, makes.made]
  dsimp only [Except.mapError]
  rw [onVolume_bind]
  rcases onVolume (writeFiles directory (bindings.map BindingFile.toFileText)) volume with
    ⟨failure | files, later⟩ <;> rfl

/-- Where they cannot be made, a run fails and has changed nothing. -/
theorem exists_makes_or_fails (options : RunOptions) (volume : Volume) :
    (∃ directory assemblies bindings, options.Makes volume directory assemblies bindings) ∨
      ∃ failure, (∀ path fault, failure ≠ .unwritable path fault) ∧
        onVolume options.execute volume = (.error failure, volume) := by
  unfold execute
  rw [onVolume_bind, onVolume_answer]
  cases asked : options.outputDirectory with
  | error missing => exact Or.inr ⟨.missingOption missing, fun _ _ same => (by cases same), rfl⟩
  | ok directory =>
    dsimp only [Except.mapError]
    rw [onVolume_bind, onVolume_adapt]
    obtain ⟨same, loaded⟩ := @Loader.onVolume_loadEach options.loader volume options.assemblies
    unfold loader at same loaded
    generalize onVolume (Loader.loadEach _ options.assemblies) volume = load at same loaded ⊢
    obtain ⟨failure | assemblies, unchanged⟩ := load
    · obtain rfl : unchanged = volume := same
      refine Or.inr ⟨.ofLoadFailure failure, fun path fault same => ?_, rfl⟩
      cases failure <;> cases same
    · obtain rfl : unchanged = volume := same
      dsimp only [Except.mapError]
      rw [onVolume_bind, onVolume_answer]
      cases made : bindingFilesOf assemblies options.packages with
      | error malformed =>
        exact Or.inr ⟨.undeclarable malformed, fun _ _ same => (by cases same), rfl⟩
      | ok bindings =>
        exact Or.inl ⟨directory, assemblies, bindings, asked, (loaded assemblies).mp rfl, made⟩

end RunOptions

/-- **What a run does.** A run that fails before it writes leaves the volume as it was. A run without
failure has loaded what the names resolve to, in order, has made the binding files of these
assemblies, and has written them in order. A run that fails when it writes has written a first part
of them. -/
theorem execute_effect {options : RunOptions} {volume later : Volume}
    {result : Except RunFailure Summary} (ran : onVolume options.execute volume = (result, later)) :
    (∀ failure, result = .error failure → (∀ path fault, failure ≠ .unwritable path fault) →
      later = volume) ∧
    (∀ summary, result = .ok summary → ∃ directory assemblies bindings,
      options.Makes volume directory assemblies bindings ∧
      summary.assemblies = assemblies.length ∧
      summary.companions = totalCompanions bindings ∧
      summary.files = (bindings.map fun file => joinPath directory file.path) ∧
      IsOutcome directory bindings bindings volume later) ∧
    ∀ path fault, result = .error (.unwritable path fault) → ∃ directory assemblies bindings,
      options.Makes volume directory assemblies bindings ∧
      ∃ written rest, bindings = written ++ rest ∧
        IsOutcome directory written bindings volume later := by
  rcases options.exists_makes_or_fails volume with
    ⟨directory, assemblies, bindings, makes⟩ | ⟨failure, readable, failed⟩
  · rw [makes.onVolume_execute] at ran
    rcases wrote : onVolume (writeFiles directory (bindings.map BindingFile.toFileText)) volume with
      ⟨answer, after⟩
    rw [wrote] at ran
    obtain ⟨base, written, rest, whole, differs, placed, ends⟩ :=
      onVolume_writeFiles (outputDirectory_ne_empty makes.asked) makes.isPlain wrote
    rcases ends with ⟨rfl, rfl, -⟩ | ⟨path, fault, rfl⟩
    · cases ran
      rw [List.append_nil] at whole
      subst whole
      refine ⟨fun _ failed => (by cases failed), fun summary answered => ?_,
        fun _ _ failed => (by cases failed)⟩
      cases answered
      refine ⟨directory, assemblies, bindings, makes, rfl, rfl, ?_,
        isOutcome_of_differs differs placed⟩
      rw [List.map_map]
      rfl
    · cases ran
      obtain ⟨front, back, rfl, rfl, -⟩ := List.map_eq_append_iff.mp whole
      refine ⟨fun failure same readable => ?_, fun _ answered => (by cases answered),
        fun _ _ _ => ⟨directory, assemblies, _, makes, front, back, rfl,
          isOutcome_of_differs differs placed⟩⟩
      cases same
      exact absurd rfl (readable path fault)
  · rw [failed] at ran
    cases ran
    refine ⟨fun _ _ _ => rfl, fun _ answered => (by cases answered), fun path fault same => ?_⟩
    exact absurd (Except.error.inj same) (readable path fault)

/-- A directory with one listing, of a type and a namesake of it with a parameter. -/
def listVolume : Volume :=
  { items := [(["in"], .directory), (["in", "n.txt"], .text
      "assembly n namespace N \x7b public class List \x7b \x7d public class List`1<T> \x7b \x7d \x7d")] }

/-- The binding files of the listing are asked for below a directory that is not there. -/
def listOptions : RunOptions :=
  { output? := some "out/hx", searchDirectories := ["in"], assemblies := ["n.txt"] }

theorem listOptions_facts :
    (onVolume listOptions.execute listVolume).1.toOption.map Summary.files =
      some ["out/hx/n/List.hx", "out/hx/n/List1.hx"] := by
  decide +kernel

theorem execute_effect_list :
    ∃ summary later, onVolume listOptions.execute listVolume = (.ok summary, later) ∧
      summary.files = ["out/hx/n/List.hx", "out/hx/n/List1.hx"] ∧
      ∃ directory assemblies bindings, listOptions.Makes listVolume directory assemblies bindings ∧
        IsOutcome directory bindings bindings listVolume later := by
  have facts := listOptions_facts
  rcases ran : onVolume listOptions.execute listVolume with ⟨failure | summary, later⟩
  · rw [ran] at facts
    cases facts
  · rw [ran] at facts
    obtain ⟨directory, assemblies, bindings, makes, -, -, -, outcome⟩ :=
      (execute_effect ran).2.1 summary rfl
    exact ⟨summary, later, rfl, Option.some.inj facts, directory, assemblies, bindings, makes,
      outcome⟩

end ExternBindings
