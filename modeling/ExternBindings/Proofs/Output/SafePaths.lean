/-
**Paths of files are safe.**

* `BindingFile.HasSafePath` — the path of a file is relative and steps neither up nor in place; its
  directories are those of the namespace, and its own name is a word with an ending
  (`Catalog.IsFileOf.hasSafePath`);
* `BindingFile.HasPathNames.path_eq_of_isPrefix` — **no file has the path of a directory that another
  file is in**: only the name of a file holds a dot.
-/

import ExternBindings.Proofs.Files.NamePaths
import ExternBindings.Proofs.Output.Paths

namespace ExternBindings

open Files

/-- The path of the file of a type in the namespace is safe. -/
structure BindingFile.HasSafePath (file : BindingFile) (space : String) : Prop where
  relative : isAbsolute file.path = false
  cut : Text.segments '/' file.path = file.directories ++ [file.stem ++ ".hx"]
  /-- no segment is empty, and none is made of one dot or two -/
  plain : ∀ segment ∈ Text.segments '/' file.path, IsPlainName segment
  directories : file.directories =
    if space = "" then [] else (Text.segments '.' space).map Text.lowercase
  undotted : ∀ directory ∈ file.directories, '.' ∉ directory.toList
  present : file.stem ≠ ""
  /-- the stem is made of letters, digits and underscores -/
  word : ∀ char ∈ file.stem.toList, Listing.isWordChar char = true

/-- The path of the file is made of names of directories and the name of a file. -/
structure BindingFile.HasPathNames (file : BindingFile) : Prop where
  inner : ∀ directory ∈ file.directories, IsDirectoryName directory
  own : IsFileName (file.stem ++ ".hx")

/-! ### Names -/

theorem isPlainName_hx (stem : String) : IsPlainName (stem ++ ".hx") := by
  have long (other : String) (short : other.toList.length < 3) : stem ++ ".hx" ≠ other := by
    rintro rfl
    rw [String.toList_append, List.length_append] at short
    have three : ".hx".toList.length = 3 := rfl
    omega
  exact ⟨long "" (by decide), long "." (by decide), long ".." (by decide)⟩

theorem isFileName_hx {stem : String}
    (word : ∀ char ∈ stem.toList, Listing.isWordChar char = true) : IsFileName (stem ++ ".hx") := by
  have other {char : Char} (noWord : Listing.isWordChar char = false)
      (absent : char ∉ ".hx".toList) : char ∉ (stem ++ ".hx").toList := by
    rw [String.toList_append, List.mem_append, not_or]
    refine ⟨fun inside => ?_, absent⟩
    rw [word char inside] at noWord
    cases noWord
  refine ⟨⟨isPlainName_hx stem, other (by decide) (by decide), other (by decide) (by decide)⟩, ?_⟩
  rw [String.toList_append]
  exact List.mem_append_right _ (by decide)

theorem isDirectoryName_of_isNameChar {name : String} (present : name ≠ "")
    (chars : ∀ char ∈ name.toList, isNameChar char = true) : IsDirectoryName name := by
  have other {char : Char} (noName : isNameChar char = false) : char ∉ name.toList := by
    intro inside
    rw [chars char inside] at noName
    cases noName
  have undotted : '.' ∉ name.toList := other (by decide)
  have plain : IsPlainName name := by
    refine ⟨present, ?_, ?_⟩
    · rintro rfl
      exact undotted (by decide)
    · rintro rfl
      exact undotted (by decide)
  exact ⟨⟨plain, other (by decide), other (by decide)⟩, undotted⟩

/-! ### Files -/

section Files

variable {catalog : Catalog} {index : TypeIndex} {entry : Entry} {file other : BindingFile}

namespace BindingFile.HasPathNames

theorem isPathName (named : file.HasPathNames) :
    ∀ name ∈ file.directories ++ [file.stem ++ ".hx"], IsPathName name :=
  forall_isPathName named.inner named.own.toIsPathName

theorem segments_path (named : file.HasPathNames) :
    Text.segments '/' file.path = file.directories ++ [file.stem ++ ".hx"] :=
  segments_join_names (by simp) named.isPathName

/-- **No file has the path of a directory that another file is in.** -/
theorem path_eq_of_isPrefix (named : file.HasPathNames) (namedToo : other.HasPathNames)
    (front : Text.segments '/' file.path <+: Text.segments '/' other.path) :
    file.path = other.path := by
  rw [named.segments_path, namedToo.segments_path, List.prefix_concat_iff] at front
  rcases front with same | front
  · exact congrArg (Text.join "/") same
  · have member : file.stem ++ ".hx" ∈ other.directories :=
      front.subset (List.mem_append_right _ (List.mem_singleton_self _))
    exact absurd named.own.dotted (namedToo.inner _ member).undotted

end BindingFile.HasPathNames

namespace Catalog.IsFileOf

variable (isFile : catalog.IsFileOf index file) (found : catalog.world.entry? index = some entry)
  (named : entry.decl.name.IsWellNamed)

include isFile found named

theorem isWordChar_of_mem_stem : ∀ char ∈ file.stem.toList, Listing.isWordChar char = true := by
  rw [(isFile.path_parts found).2]
  exact World.forall_mem_flatName named none

theorem hasPathNames : file.HasPathNames where
  inner directory member := by
    rw [(isFile.path_parts found).1] at member
    obtain ⟨present, chars⟩ := forall_mem_directoriesOf named.space directory member
    exact isDirectoryName_of_isNameChar present chars
  own := isFileName_hx (isFile.isWordChar_of_mem_stem found named)

/-- **The path of the file of a type is safe.** -/
theorem hasSafePath : file.HasSafePath entry.decl.name.space := by
  have names := isFile.hasPathNames found named
  obtain ⟨directories, stem⟩ := isFile.path_parts found
  refine ⟨isAbsolute_join_names (by simp) names.isPathName, names.segments_path,
    isPlainName_of_mem_segments (by simp) names.isPathName, ?_,
    fun directory member => (names.inner directory member).undotted, ?_,
    isFile.isWordChar_of_mem_stem found named⟩
  · rw [directories]
    split
    · next empty => rw [empty, directoriesOf_empty]
    · next given =>
      have dotted := named.space.resolve_left given
      rw [directoriesOf_dotted dotted, Text.segments_lowercase dotted]
  · rw [stem]
    exact World.flatName_ne_empty named none

end Catalog.IsFileOf

end Files

/-! ### The files of a run -/

theorem hasPathNames_of_bindingFilesOf {assemblies : List Assembly} {rules : PackageRules}
    {files : List BindingFile} (read : ∀ assembly ∈ assemblies, assembly.IsRead)
    (answered : bindingFilesOf assemblies rules = .ok files) :
    ∀ file ∈ files, file.HasPathNames := by
  intro file member
  obtain ⟨index, indexMember, isFile⟩ := exists_isFileOf answered member
  obtain ⟨entry, found, -⟩ := World.mem_typesWithFile.mp indexMember
  exact isFile.hasPathNames found ((World.isNested_ofAssemblies read).isWellNamed found)

end ExternBindings
