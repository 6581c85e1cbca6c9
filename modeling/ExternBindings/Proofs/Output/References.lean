/-
**References meet their declarations.**

A declaration takes its name from one place, a reference to it from another. From every site the
reference names the declaration that the file holds:

* by the name of its file, when it is the type that the file is for;
* by the identifier that the declaration introduces, when the site belongs to the same file;
* by both, the file first, from everywhere else;

and outside of the namespace the package of the file goes in front (`nameAt_declares`). The parts
are read off the text and the path of the file, not off the catalog
(`references_meet_declarations`).
-/

import ExternBindings.Proofs.Listing.Characters
import ExternBindings.Proofs.Output.Identifiers
import ExternBindings.Proofs.Output.Paths

namespace ExternBindings

/-! ### What a site calls a type -/

section Naming

variable {catalog : Catalog} {top index home : TypeIndex} {topEntry entry homeEntry : Entry}

/-- **From every site a type of the file of `top` is called by the flat names of both.** -/
theorem nameAt_declares (nested : catalog.world.IsNested)
    (unambiguous : catalog.world.IsUnambiguous)
    (topFound : catalog.world.entry? top = some topEntry)
    (alone : topEntry.decl.name.enclosing = [])
    (declares : catalog.world.Declares top index)
    (found : catalog.world.entry? index = some entry)
    (homeFound : catalog.world.entry? home = some homeEntry) (erased : List String)
    {arguments? : Option Nat}
    (arguments : arguments? = none ∨ arguments? = some entry.decl.genericCount) :
    catalog.nameAt ((Site.ofFile homeEntry.decl.name).insideMethod erased) entry.decl.name
        arguments? =
      if index = top then
        (if homeEntry.decl.name.space = topEntry.decl.name.space then ""
          else catalog.layout.qualification topEntry.decl.name.space) ++
          catalog.world.flatName topEntry.decl.name
      else if home = top then catalog.world.flatName entry.decl.name
      else
        (if homeEntry.decl.name.space = topEntry.decl.name.space then ""
          else catalog.layout.qualification topEntry.decl.name.space) ++
          catalog.world.flatName topEntry.decl.name ++ "." ++
          catalog.world.flatName entry.decl.name := by
  have own : catalog.world.flatName entry.decl.name arguments? =
      catalog.world.flatName entry.decl.name := by
    rcases arguments with rfl | rfl
    · rfl
    · exact World.flatName_genericCount unambiguous (World.decl?_eq_some_decl found)
  obtain ⟨place, space, outermost⟩ := declares.name nested topFound alone found
  unfold Catalog.nameAt Site.ofFile Site.insideMethod
  dsimp only
  rw [own, space, outermost]
  by_cases itself : index = top
  · subst itself
    rw [topFound, Option.some.injEq] at found
    subst found
    have plain := QualifiedName.isInner_eq_false_iff.mpr alone
    rw [plain, if_pos rfl, if_neg Bool.false_ne_true]
    simp only [eq_comm]
  · have sameFile : topEntry.decl.name.text = homeEntry.decl.name.text ↔ home = top := by
      rw [← topEntry.text_eq, ← homeEntry.text_eq]
      constructor
      · exact fun same => (unambiguous.index_eq topFound homeFound same).symm
      · rintro rfl
        rw [topFound, Option.some.injEq] at homeFound
        rw [homeFound]
    rw [if_neg itself, if_pos (place.resolve_left itself)]
    simp only [sameFile, eq_comm]

end Naming

/-! ### What stands in the file -/

theorem exists_contents {file : BindingFile} {declaration : Declaration}
    (member : declaration ∈ file.declarations) :
    ∃ front back, file.contents = front ++ declaration.text ++ back := by
  obtain ⟨before, after, split⟩ := List.append_of_mem member
  refine ⟨file.header ++ Text.join "" (before.map Declaration.text),
    Text.join "" (after.map Declaration.text), String.toList_injective ?_⟩
  unfold BindingFile.contents
  simp only [split, String.toList_append, Text.toList_join_empty, List.map_append, List.map_cons,
    List.flatMap_append, List.flatMap_cons, List.append_assoc]

/-- What goes in front of a name from the package of the namespace `other`, at a site in the
namespace `space`. -/
def qualifierFrom (space package other : String) : String :=
  if space = other ∨ package = "" then "" else package ++ "."

theorem qualifierFrom_packageFor (layout : PackageLayout) (space other : String) :
    qualifierFrom space (layout.packageFor other) other =
      if space = other then "" else layout.qualification other := by
  unfold qualifierFrom PackageLayout.qualification
  by_cases same : space = other
  · simp [same]
  · by_cases empty : layout.packageFor other = ""
    · simp [empty]
    · simp [same, empty]

/-- **References meet their declarations.** In the files of assemblies in which no name is declared
twice, each type of a file has one declaration there, which introduces one identifier. A reference
to the type, without arguments or with as many as it has parameters, is written from the site of any
file as that identifier behind the name of the file; the file's own type needs only the latter, and
the file itself only the former. -/
theorem references_meet_declarations {assemblies : List Assembly} {rules : PackageRules}
    {files : List BindingFile} (read : ∀ assembly ∈ assemblies, assembly.IsRead)
    (unambiguous : (World.ofAssemblies assemblies).IsUnambiguous)
    (answered : bindingFilesOf assemblies rules = .ok files) {file : BindingFile}
    (member : file ∈ files) {top index home : TypeIndex} {topDecl decl homeDecl : TypeDecl}
    (topFound : (World.ofAssemblies assemblies).decl? top = some topDecl)
    (subject : topDecl.name.text = file.subject)
    (declares : (World.ofAssemblies assemblies).Declares top index)
    (found : (World.ofAssemblies assemblies).decl? index = some decl)
    (homeFound : (World.ofAssemblies assemblies).decl? home = some homeDecl)
    (erased : List String) {arguments? : Option Nat}
    (arguments : arguments? = none ∨ arguments? = some decl.genericCount) :
    ∃ declaration ∈ file.declarations,
      (Catalog.ofAssemblies assemblies rules).declaration (.ofFile topDecl.name) index decl =
        .ok declaration ∧
      (∃ front back, file.contents = front ++ declaration.text ++ back) ∧
      ∃ identifier, declaration.Introduces identifier ∧
        (∀ other, declaration.Introduces other → other = identifier) ∧
        (Catalog.ofAssemblies assemblies rules).nameAt
            ((Site.ofFile homeDecl.name).insideMethod erased) decl.name arguments? =
          if index = top then
            qualifierFrom homeDecl.name.space file.package topDecl.name.space ++ fileStem file.path
          else if home = top then identifier
          else
            qualifierFrom homeDecl.name.space file.package topDecl.name.space ++
              fileStem file.path ++ "." ++ identifier := by
  have nested := World.isNested_ofAssemblies read
  obtain ⟨topEntry, topAt, rfl⟩ := World.decl?_eq_some topFound
  obtain ⟨entry, entryAt, rfl⟩ := World.decl?_eq_some found
  obtain ⟨homeEntry, homeAt, rfl⟩ := World.decl?_eq_some homeFound
  obtain ⟨place, placeMember, fileDecl, fileFound, written⟩ := exists_isFileOf answered member
  obtain ⟨fileEntry, fileAt, rfl⟩ := World.decl?_eq_some fileFound
  obtain ⟨declarations, declared, whole⟩ := Catalog.bindingFile_eq_ok.mp written
  -- the file with this subject is the one of the type at `top`
  obtain rfl : place = top := by
    refine unambiguous.index_eq fileAt topAt ?_
    rw [fileEntry.text_eq, topEntry.text_eq, subject, whole]
  obtain rfl : fileEntry = topEntry := Option.some.inj (fileAt.symm.trans topAt)
  obtain ⟨other, otherAt, isTop, -⟩ := World.mem_typesWithFile.mp placeMember
  obtain rfl : other = fileEntry := Option.some.inj (otherAt.symm.trans fileAt)
  have named := nested.isTopLevel topAt isTop
  have stem : file.stem = (World.ofAssemblies assemblies).flatName other.decl.name := by
    rw [whole]
    rfl
  have plain : '/' ∉ file.stem.toList := by
    rw [stem]
    intro slash
    exact absurd (World.forall_mem_flatName named.wellNamed none '/' slash) (by decide)
  have package : file.package =
      (Catalog.ofAssemblies assemblies rules).layout.packageFor other.decl.name.space := by
    rw [whole]
  obtain ⟨declaration, declarationMember, own⟩ :=
    Catalog.exists_declaration found declared (declares.mem_declarationOrder nested entryAt)
  have held : declaration ∈ file.declarations := by
    rw [whole]
    exact declarationMember
  have introduces := Catalog.introduces_flatName (nested.isWellNamed entryAt) own
  refine ⟨declaration, held, own, exists_contents held, _, introduces,
    fun other introducesToo => Declaration.introduces_unique introducesToo introduces, ?_⟩
  rw [fileStem_path plain, stem, package, qualifierFrom_packageFor]
  exact nameAt_declares nested unambiguous topAt named.alone declares entryAt homeAt erased
    arguments

/-- A type with another one inside of it, and a type of another namespace. -/
def mapText : String :=
  "assembly g namespace G.C \x7b public class Map \x7b public class Cell \x7b \x7d \x7d \x7d " ++
    "namespace T \x7b public class Tool \x7b \x7d \x7d"

/-- The assembly of the listing. -/
def mapAssembly : Assembly :=
  Listing.assemblyOf mapText

/-- The types of the listing. -/
def mapWorld : World :=
  World.ofAssemblies [mapAssembly]

/-- What the first file of the listing says of itself. -/
def firstMapFile? : Option (String × String × String) :=
  match bindingFilesOf [mapAssembly] {} with
  | .ok (file :: _) => some (file.subject, file.path, file.package)
  | _ => none

/-- What decides where a type is declared. -/
def Entry.place (entry : Entry) : String × String × Option TypeIndex × Bool × Bool :=
  (entry.text, entry.decl.name.space, entry.owner?, entry.isPublic, entry.decl.isEnum)

theorem mapAssembly_facts :
    (Listing.readAssembly mapText).isOk = true ∧
    (mapWorld.entries.map Entry.text).Nodup ∧
    mapWorld.entries.map Entry.place =
      [("G.C.Map", "G.C", none, true, false), ("G.C.Map/Cell", "G.C", some 0, true, false),
        ("T.Tool", "T", none, true, false)] ∧
    firstMapFile? = some ("G.C.Map", "g/c/Map.hx", "dotnet.g.c") := by
  unfold firstMapFile? mapWorld mapAssembly
  rw [Listing.readAssembly_eq, Listing.assemblyOf_eq]
  unfold mapText
  simp only [String.toList_append]
  repeat rw [String.toList_ofList]
  decide +kernel

theorem references_meet_declarations_map :
    ∃ files file topDecl decl homeDecl,
      bindingFilesOf [mapAssembly] {} = .ok files ∧ file ∈ files ∧
      mapWorld.decl? 0 = some topDecl ∧
      topDecl.name.text = file.subject ∧ mapWorld.Declares 0 1 ∧
      mapWorld.decl? 1 = some decl ∧
      mapWorld.decl? 2 = some homeDecl ∧
      ∃ declaration ∈ file.declarations, ∃ identifier, declaration.Introduces identifier ∧
        (Catalog.ofAssemblies [mapAssembly] {}).nameAt
            ((Site.ofFile homeDecl.name).insideMethod []) decl.name none =
          "dotnet.g.c.Map." ++ identifier := by
  obtain ⟨answered, unambiguous, places, first⟩ := mapAssembly_facts
  have read : ∀ assembly ∈ [mapAssembly], assembly.IsRead :=
    List.forall_mem_singleton.mpr (Listing.isRead_assemblyOf answered)
  have at_index (index : Nat) : (mapWorld.entry? index).map Entry.place =
      _ := (List.getElem?_map).symm.trans (congrArg (·[index]?) places)
  obtain ⟨top, topAt, topPlace⟩ := Option.map_eq_some_iff.mp (at_index 0)
  obtain ⟨cell, cellAt, cellPlace⟩ := Option.map_eq_some_iff.mp (at_index 1)
  obtain ⟨tool, toolAt, toolPlace⟩ := Option.map_eq_some_iff.mp (at_index 2)
  simp only [Entry.place, Prod.mk.injEq] at topPlace cellPlace toolPlace
  unfold firstMapFile? at first
  split at first
  · next file rest written =>
    simp only [Option.some.injEq, Prod.mk.injEq] at first
    obtain ⟨subject, path, package⟩ := first
    have topText : top.decl.name.text = file.subject := by
      rw [← top.text_eq, topPlace.1, subject]
    have topDecl := World.decl?_eq_some_decl topAt
    have noEnum : (mapWorld.decl? 0).any TypeDecl.isEnum = false := by
      rw [topDecl, Option.any_some, topPlace.2.2.2.2]
    have declares : mapWorld.Declares 0 1 :=
      .inner .self noEnum cellAt cellPlace.2.2.1 cellPlace.2.2.2.1
    obtain ⟨declaration, member, -, -, identifier, introduces, -, called⟩ :=
      references_meet_declarations read unambiguous written List.mem_cons_self topDecl topText
        declares (World.decl?_eq_some_decl cellAt) (World.decl?_eq_some_decl toolAt) []
        (Or.inl rfl)
    refine ⟨_, file, _, _, _, written, List.mem_cons_self, topDecl, topText, declares,
      World.decl?_eq_some_decl cellAt, World.decl?_eq_some_decl toolAt, declaration, member,
      identifier, introduces, called.trans ?_⟩
    have qualifier : qualifierFrom tool.decl.name.space file.package top.decl.name.space =
        "dotnet.g.c." := by
      rw [package, toolPlace.2.1, topPlace.2.1]
      decide
    have stem : fileStem "g/c/Map.hx" = "Map" := by decide
    rw [if_neg (by decide), if_neg (by decide), qualifier, path, stem]
    rfl
  · cases first

end ExternBindings
