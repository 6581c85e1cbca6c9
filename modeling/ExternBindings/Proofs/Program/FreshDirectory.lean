/-
**Writing into a fresh directory.**

* `Volume.OpensEmpty` — a directory can be made, or is there already, and nothing is in it;
* `HasGrown.onVolume_writeFile` — one binding file is written below the directory, unless a name or
  a path is too long, and `HasGrown.onVolume_writeEach` — by induction so are several;
* `binding_paths_are_safe` — **the paths of binding files are safe, so that nothing is in the way when
  they are written into a fresh directory, and everything that is written is below it.**
-/

import ExternBindings.Proofs.Files.Growing
import ExternBindings.Proofs.Program.Effect

namespace ExternBindings

open Files Files.Volume

namespace Files.Volume

/-- The directory is there once it has been made, and nothing is in it. -/
structure OpensEmpty (volume : Volume) (directory : String) (opened : Volume)
    (base : Location) : Prop where
  made : volume.createDirectories directory = (.ok (), opened)
  located : opened.locate directory = .ok base
  empty : ∀ names, names ≠ [] → opened.item? (base ++ names) = none

variable {volume opened current later : Volume} {directory : String} {base : Location}

theorem OpensEmpty.leadsTo (opens : volume.OpensEmpty directory opened base) :
    opened.LeadsTo directory base := by
  obtain ⟨-, there⟩ := createDirectories_differs opens.made
  have isDirectory := (there rfl).resolve_left (ne_empty_of_locate opens.located)
  obtain ⟨location, leads⟩ := isDirectory_iff_leadsTo.mp isDirectory
  obtain rfl : base = location := Except.ok.inj (opens.located.symm.trans leads.located)
  exact leads

/-- **Writing one binding file**: only a name or a path that is too long can prevent it. -/
theorem HasGrown.onVolume_writeFile (grown : HasGrown base opened current)
    (leads : opened.LeadsTo directory base) {file : BindingFile} (named : file.HasPathNames) :
    ∃ result later, onVolume (writeFile directory file.toFileText) current = (result, later) ∧
      HasGrown base opened later ∧ (result = .ok (joinPath directory file.path) ∨
        ∃ path, result = .error (.unwritable path .nameTooLong)) := by
  obtain ⟨parent, made, outer, found, ran, grownOuter, outcome⟩ :=
    grown.createDirectories_cases leads named.inner named.own.toIsPathName
  have path : joinPath directory file.toFileText.path =
      pathTo directory (file.directories ++ [file.stem ++ ".hx"]) := rfl
  rw [onVolume_writeFile_eq, path, found, Option.elim_some, ran]
  rcases outcome with ⟨rfl, leadsOn⟩ | rfl
  · dsimp only [Except.mapError]
    rcases grownOuter.write_cases leads named.inner leadsOn named.own file.toFileText.contents with
      ⟨later, written, grownLater⟩ | long
    · rw [written]
      exact ⟨_, later, rfl, grownLater, Or.inl rfl⟩
    · rw [long]
      exact ⟨_, outer, rfl, grownOuter, Or.inr ⟨_, rfl⟩⟩
  · exact ⟨_, outer, rfl, grownOuter, Or.inr ⟨_, rfl⟩⟩

/-- **Writing several binding files.** -/
theorem HasGrown.onVolume_writeEach (leads : opened.LeadsTo directory base)
    {files : List BindingFile} (named : ∀ file ∈ files, file.HasPathNames) :
    ∀ {current : Volume}, HasGrown base opened current →
      ∃ result later,
        onVolume (writeEach directory (files.map BindingFile.toFileText)) current =
          (result, later) ∧
        HasGrown base opened later ∧
        (result = .ok (files.map fun file => joinPath directory file.path) ∨
          ∃ path, result = .error (.unwritable path .nameTooLong)) := by
  induction files with
  | nil => exact fun grown => ⟨_, _, rfl, grown, Or.inl rfl⟩
  | cons file files hypothesis =>
    intro current grown
    rw [List.forall_mem_cons] at named
    obtain ⟨answer, changed, ran, grownChanged, outcome⟩ :=
      grown.onVolume_writeFile leads named.1
    rw [List.map_cons, writeEach, onVolume_bind, ran]
    rcases outcome with rfl | ⟨path, rfl⟩
    · dsimp only
      obtain ⟨answers, later, ranOn, grownLater, outcomes⟩ := hypothesis named.2 grownChanged
      rw [onVolume_bind, ranOn]
      rcases outcomes with rfl | ⟨path, rfl⟩
      · exact ⟨_, later, rfl, grownLater, Or.inl rfl⟩
      · exact ⟨_, later, rfl, grownLater, Or.inr ⟨path, rfl⟩⟩
    · exact ⟨_, changed, rfl, grownChanged, Or.inr ⟨path, rfl⟩⟩

end Files.Volume

/-- **The paths of binding files are safe**: each is relative, its directories are those of the
namespace, and its name is a word with an ending; and none is that of a directory that another file
is in. So where the directory is fresh, nothing but a name or a path that is too long can prevent
the files from being written, and everything that is written is below the directory. -/
theorem binding_paths_are_safe {assemblies : List Assembly} {rules : PackageRules}
    {files : List BindingFile} (read : ∀ assembly ∈ assemblies, assembly.IsRead)
    (answered : bindingFilesOf assemblies rules = .ok files) :
    List.Forall₂ (fun index file => ∃ entry,
        World.entry? (World.ofAssemblies assemblies) index = some entry ∧
        file.subject = entry.text ∧ file.HasSafePath entry.decl.name.space)
      (World.ofAssemblies assemblies).typesWithFile files ∧
    (∀ file ∈ files, ∀ other ∈ files,
      Text.segments '/' file.path <+: Text.segments '/' other.path → file.path = other.path) ∧
    ∀ {volume opened later : Volume} {directory : String} {base : Location}
      {result : Except RunFailure (List String)},
      volume.OpensEmpty directory opened base →
      onVolume (writeFiles directory (files.map BindingFile.toFileText)) volume =
        (result, later) →
      (result = .ok (files.map fun file => joinPath directory file.path) ∧
          (∀ file ∈ files, later.locate (joinPath directory file.path) =
            .ok (base ++ Text.segments '/' file.path)) ∨
        ∃ path, result = .error (.unwritable path .nameTooLong)) ∧
      ∀ location, later.item? location ≠ opened.item? location →
        ∃ names, names ≠ [] ∧ location = base ++ names := by
  have named := hasPathNames_of_bindingFilesOf read answered
  refine ⟨?_, ?_, ?_⟩
  · refine (forall₂_isFileOf_bindingFilesOf answered).imp fun index file isFile => ?_
    have ⟨decl, declFound, _⟩ := isFile
    obtain ⟨entry, found, -⟩ := World.decl?_eq_some declFound
    exact ⟨entry, found, isFile.subject_eq found,
      isFile.hasSafePath found ((World.isNested_ofAssemblies read).isWellNamed found)⟩
  · exact fun file member other memberToo =>
      (named file member).path_eq_of_isPrefix (named other memberToo)
  · intro volume opened later directory base result opens ran
    unfold writeFiles at ran
    rw [onVolume_bind, onVolume_createDirectories, opens.made] at ran
    obtain ⟨answer, final, ranEach, grown, outcome⟩ :=
      HasGrown.onVolume_writeEach opens.leadsTo named (hasGrown_self opens.empty)
    obtain ⟨rfl, rfl⟩ := Prod.mk.inj (ranEach.symm.trans ran)
    refine ⟨outcome.imp_left fun written => ⟨written, fun file member => ?_⟩, grown.others⟩
    obtain ⟨front, rest, whole, -, placed, ends⟩ := onVolume_writeEach
      (ne_empty_of_locate opens.located) (isPlain_of_bindingFilesOf read answered) opens.located
      ranEach
    rcases ends with ⟨-, rfl⟩ | ⟨path, fault, failed⟩
    · rw [List.append_nil] at whole
      have held : file.toFileText ∈ front := whole ▸ List.mem_map_of_mem member
      exact (placed _ held).located
    · rw [written] at failed
      cases failed

/-! ### A run -/

/-- Types of several namespaces, one of which is a part of another one. -/
def spacesText : String :=
  "assembly n namespace N.M \x7b public class List \x7b \x7d public class List\x601<T> \x7b \x7d \x7d " ++
    "namespace N \x7b public class M \x7b \x7d \x7d namespace \x7b public class N \x7b \x7d \x7d"

/-- The paths that the files of assemblies are written at below a directory, if all types can be
declared and all files written. -/
def writtenBelow? (directory : String) (volume : Volume) (assemblies : List Assembly) :
    Option (Option (List String)) :=
  (bindingFilesOf assemblies {}).toOption.map fun files =>
    (onVolume (writeFiles directory (files.map BindingFile.toFileText)) volume).1.toOption

theorem spacesText_facts :
    (Listing.readAssembly spacesText).isOk = true ∧
    writtenBelow? "out" {} [Listing.assemblyOf spacesText] =
      some (some ["out/n/m/List.hx", "out/n/m/List1.hx", "out/n/M.hx", "out/N.hx"]) := by
  rw [Listing.readAssembly_eq, Listing.assemblyOf_eq]
  unfold spacesText
  rw [String.toList_append]
  repeat rw [String.toList_ofList]
  decide +kernel

/-- A volume with nothing but one directory. -/
def outVolume : Volume :=
  { items := [(["out"], .directory)] }

theorem opensEmpty_out : Volume.OpensEmpty {} "out" outVolume ["out"] where
  made := rfl
  located := rfl
  empty names present := by
    obtain ⟨name, rest, rfl⟩ := List.exists_cons_of_ne_nil present
    rfl

/-- The directories of one namespace are among those of another one, next to a file of that name. -/
theorem binding_paths_are_safe_spaces :
    ∃ files later, bindingFilesOf [Listing.assemblyOf spacesText] {} = .ok files ∧
      onVolume (writeFiles "out" (files.map BindingFile.toFileText)) {} =
        (.ok ["out/n/m/List.hx", "out/n/m/List1.hx", "out/n/M.hx", "out/N.hx"], later) ∧
      ∀ location, later.item? location ≠ outVolume.item? location →
        ∃ names, names ≠ [] ∧ location = ["out"] ++ names := by
  obtain ⟨answered, facts⟩ := spacesText_facts
  obtain ⟨files, made, written⟩ := exists_ok_of_map_toOption facts
  have read : ∀ assembly ∈ [Listing.assemblyOf spacesText], assembly.IsRead :=
    List.forall_mem_singleton.mpr (Listing.isRead_assemblyOf answered)
  rcases ran : onVolume (writeFiles "out" (files.map BindingFile.toFileText)) {} with
    ⟨failure | paths, later⟩
  · rw [ran] at written
    cases written
  · rw [ran] at written
    obtain rfl := Option.some.inj written
    obtain ⟨-, -, safe⟩ := binding_paths_are_safe read made
    exact ⟨files, later, made, ran, (safe opensEmpty_out ran).2⟩

end ExternBindings
