/-
**Finding and reading assemblies.**

An assembly is asked for by an absolute path, or by a name that is looked for in each search
directory; of several directories that hold it, the last one wins.

* `Loader.find` is the path of an assembly, and `Loader.load` the assembly itself;
* `LoadFailure.report` is the text shown when that fails.
-/

import ExternBindings.Files.Access
import ExternBindings.Files.Path
import ExternBindings.Listing.Meaning

namespace ExternBindings

open Files

/-- Why an assembly cannot be loaded. -/
inductive LoadFailure where
  | notFound (name : String) (searched : List String)
  | unreadable (path : String) (fault : FileFault)
  | malformed (path : String) (error : Listing.ListingError)

/-- Where an assembly was looked for, in words. -/
def searchedText (directories : List String) : String :=
  if directories.isEmpty then "no search directories" else Text.join ", " directories

/-- The message for an assembly that is not there. -/
def notFoundMessage (name : String) : String :=
  "Unable to find assembly `" ++ name ++ "`"

/-- The report of an error. -/
def LoadFailure.report : LoadFailure → Report
  | notFound name searched =>
    { message := notFoundMessage name
      code? := some "clrstub::load::not_found"
      help? := some ("Searched: " ++ searchedText searched ++
        ". Add the directory containing it with `-i`") }
  | unreadable path fault =>
    { message := "Error loading assembly " ++ path
      code? := some "clrstub::load::unreadable"
      causes := [.file fault] }
  | malformed path error =>
    { message := "Malformed assembly listing " ++ path
      code? := some "clrstub::load::malformed"
      causes := error.report.asCauses }

/-- The directories that assemblies are looked for in. -/
structure Loader where
  directories : List String := []

namespace Loader

variable {m : Type → Type} [Monad m] [FileAccess m]

/-- The paths that lead to a file, in order. -/
def filesAmong : List String → m (List String)
  | [] => return []
  | path :: rest => do
    let here ← FileAccess.isFile path
    let others ← filesAmong rest
    return if here then path :: others else others

/-- The path of an assembly. -/
def find (loader : Loader) (name : String) : ExceptT LoadFailure m String := do
  if isAbsolute name then
    if ← (FileAccess.pathExists name : m Bool) then return name
    else throw (.notFound name loader.directories)
  else
    let found ← (filesAmong (loader.directories.map fun directory => joinPath directory name) :
      m (List String))
    match found.getLast? with
    | some path => return path
    | none => throw (.notFound name loader.directories)

/-- The assembly of this name. -/
def load (loader : Loader) (name : String) : ExceptT LoadFailure m Assembly := do
  let path ← loader.find name
  match ← (FileAccess.readText path : m (Except FileFault String)) with
  | .error fault => throw (.unreadable path fault)
  | .ok text =>
    match Listing.readAssembly text (some path) with
    | .error error => throw (.malformed path error)
    | .ok assembly => return assembly

/-- The assemblies of these names, up to the first one that cannot be loaded. -/
def loadEach (loader : Loader) : List String → ExceptT LoadFailure m (List Assembly)
  | [] => return []
  | name :: rest => do
    let head ← loader.load name
    let tail ← loadEach loader rest
    return head :: tail

end Loader

end ExternBindings
