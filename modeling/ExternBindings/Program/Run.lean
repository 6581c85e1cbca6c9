/-
**A whole run**: assemblies are loaded, and binding files for their types are made and written.

* `RunOptions.outputDirectory` finds options that are missing before anything is read;
* `RunOptions.execute` writes nothing unless all binding files could be made;
* `writeFiles` writes files one after the other and stops at the first fault.
-/

import ExternBindings.Output.BindingFile
import ExternBindings.Program.Loading

namespace ExternBindings

open Files

/-- Which option is missing. -/
inductive MissingOption where
  | directory
  | assemblies

/-- The report of an error. -/
def MissingOption.report : MissingOption → Report
  | directory =>
    { message := "You must specify an output folder"
      code? := some "clrstub::config::missing_output"
      help? := some "Pass the directory the bindings are written to with `-o <dir>`" }
  | assemblies =>
    { message := "You must specify at least one assembly to output"
      code? := some "clrstub::config::no_assemblies"
      help? := some "List one or more assembly listings after the options" }

/-- Why a run ends without success. -/
inductive RunFailure where
  | missingOption (error : MissingOption)
  | assemblyNotFound (name : String) (searched : List String)
  | unloadable (error : LoadFailure)
  | undeclarable (malformed : MalformedType)
  | unwritable (path : String) (fault : FileFault)

/-- The report of an error. -/
def RunFailure.report : RunFailure → Report
  | missingOption error =>
    { message := "Invalid configuration"
      code? := some "clrstub::generate::configuration"
      causes := error.report.asCauses }
  | assemblyNotFound name searched =>
    { message := notFoundMessage name
      code? := some "clrstub::generate::input_resolution"
      help? := some ("Searched: " ++ searchedText searched) }
  | unloadable error =>
    { message := "Failed to load assembly metadata"
      code? := some "clrstub::generate::metadata_load"
      causes := error.report.asCauses }
  | undeclarable malformed =>
    { message := "Malformed metadata for `" ++ malformed.subject ++ "`: " ++
        malformed.flaw.reason
      code? := some "clrstub::generate::malformed_metadata"
      help? := some
        "The metadata provider produced a type that violates a runtime invariant" }
  | unwritable path fault =>
    { message := "Failed to write " ++ path
      code? := some "clrstub::generate::output"
      causes := [.file fault] }

/-- A failure to load as a failure of the run. -/
def RunFailure.ofLoadFailure : LoadFailure → RunFailure
  | .notFound name searched => .assemblyNotFound name searched
  | error => .unloadable error

/-- All that a run depends on. -/
structure RunOptions where
  output? : Option String := none
  searchDirectories : List String := []
  assemblies : List String := []
  packages : PackageRules := {}

/-- The output directory, if nothing that a run needs is missing. -/
def RunOptions.outputDirectory (options : RunOptions) : Except MissingOption String :=
  match options.output?.filter fun directory => !directory.isEmpty with
  | none => .error .directory
  | some directory =>
    if options.assemblies.isEmpty then .error .assemblies else .ok directory

/-- A file to be written below the output directory. -/
structure FileText where
  path : String
  contents : String

/-- The binding file as text. -/
def BindingFile.toFileText (file : BindingFile) : FileText :=
  { path := file.path, contents := file.contents }

/-- The number of companions in several binding files. -/
def totalCompanions : List BindingFile → Nat
  | [] => 0
  | file :: rest => file.companions + totalCompanions rest

/-- What a run has done. -/
structure Summary where
  assemblies : Nat
  companions : Nat
  /-- the path of every written file, in order -/
  files : List String

section Run

variable {m : Type → Type} [Monad m] [FileAccess m]

/-- The answer of a file operation, whose failure ends the run; `path` is what could not be
written. -/
def orFail (path : String) (operation : m (Except FileFault Unit)) :
    ExceptT RunFailure m Unit := do
  match ← (operation : m (Except FileFault Unit)) with
  | .ok () => return ()
  | .error fault => throw (.unwritable path fault)

/-- Writes one file below the directory, and answers with its path. -/
def writeFile (directory : String) (file : FileText) : ExceptT RunFailure m String := do
  let path := joinPath directory file.path
  match parentPath? path with
  | none => pure ()
  | some parent => orFail parent (FileAccess.createDirectories parent : m (Except FileFault Unit))
  orFail path (FileAccess.writeText path file.contents : m (Except FileFault Unit))
  return path

/-- Writes files below a directory that is there, and answers with their paths. -/
def writeEach (directory : String) : List FileText → ExceptT RunFailure m (List String)
  | [] => return []
  | file :: rest => do
    let head ← writeFile directory file
    let tail ← writeEach directory rest
    return head :: tail

/-- Writes files below a directory, which is made first, and answers with their paths. -/
def writeFiles (directory : String) (files : List FileText) :
    ExceptT RunFailure m (List String) := do
  orFail directory (FileAccess.createDirectories directory : m (Except FileFault Unit))
  writeEach directory files

/-- Makes the binding files that the options ask for. -/
def RunOptions.execute (options : RunOptions) : ExceptT RunFailure m Summary := do
  let directory ← ExceptT.mk (return options.outputDirectory.mapError .missingOption)
  let loader : Loader := { directories := options.searchDirectories }
  let assemblies ← (loader.loadEach options.assemblies).adapt RunFailure.ofLoadFailure
  let bindings ← ExceptT.mk
    (return (bindingFilesOf assemblies options.packages).mapError .undeclarable)
  let files ← writeFiles directory (bindings.map BindingFile.toFileText)
  return { assemblies := assemblies.length, companions := totalCompanions bindings, files }

end Run

end ExternBindings
