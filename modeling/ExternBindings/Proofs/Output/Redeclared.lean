/-
**Types that are declared again.**

A reference means the last declaration of its name. The files of a run do not look at that: every
public top-level declaration gets one.

* `World.IsRedeclared` — another declaration of the same name stands behind this one. A name is
  looked up as the declaration of it that is not declared again (`World.lookupText?_eq_last_iff`);
* `Catalog.ShadowsLikeReferences` — the files keep to that as well: a name has at most one file, and
  it has that of the declaration that the name is looked up as, if this one gets a file;
* `shadowsLikeReferences_iff` — **which is so exactly if no type with a file is declared again**, be
  the later declaration public or not (`exists_not_shadowsLikeReferences`).
-/

import ExternBindings.Proofs.Listing.Characters
import ExternBindings.Proofs.Output.Files

namespace ExternBindings

namespace World

variable {world : World} {index : TypeIndex} {entry : Entry}

theorem lookupText?_eq_self_iff (found : world.entry? index = some entry) :
    world.lookupText? entry.text = some index ↔ ¬ world.IsRedeclared index := by
  rw [lookupText?_eq_last_iff]
  constructor
  · rintro ⟨-, -, -, last⟩
    exact last
  · exact fun last => ⟨entry, found, rfl, last⟩

theorem hasFile_iff (found : world.entry? index = some entry) :
    world.hasFile index = true ↔ index ∈ world.typesWithFile := by
  unfold hasFile
  rw [mem_typesWithFile, found, Option.any_some]
  simp only [Bool.and_eq_true, Bool.not_eq_true', Option.some.injEq, exists_eq_left', and_assoc]

end World

namespace Catalog

variable {catalog : Catalog} {files : List BindingFile} {index : TypeIndex} {file : BindingFile}

/-- Files shadow one another as declarations do for references. -/
structure ShadowsLikeReferences (catalog : Catalog) (files : List BindingFile) : Prop where
  /-- each file is that of the declaration that its name is looked up as -/
  last : List.Forall₂ (fun index file => catalog.IsFileOf index file ∧
    catalog.world.lookupText? file.subject = some index) catalog.world.typesWithFile files
  /-- no name has two files -/
  once : (files.map BindingFile.subject).Nodup
  /-- a name has a file exactly if the declaration gets one that the name is looked up as -/
  replaced : ∀ name, (∃ file ∈ files, file.subject = name) ↔
    ∃ index, catalog.world.lookupText? name = some index ∧ catalog.world.hasFile index = true

/-- The name of a file is looked up as the type of the file unless that is declared again. -/
theorem IsFileOf.lookupText?_iff (isFile : catalog.IsFileOf index file)
    (member : index ∈ catalog.world.typesWithFile) :
    catalog.world.lookupText? file.subject = some index ↔ ¬ catalog.world.IsRedeclared index := by
  obtain ⟨entry, found, -⟩ := World.mem_typesWithFile.mp member
  rw [isFile.subject_eq found]
  exact World.lookupText?_eq_self_iff found

/-- Files of different declarations have different names if each name is looked up as its own. -/
theorem nodup_subjects {order : List TypeIndex} (distinct : order.Nodup)
    (last : List.Forall₂ (fun index file =>
      catalog.world.lookupText? file.subject = some index) order files) :
    (files.map BindingFile.subject).Nodup := by
  have origins : files.map (fun file => catalog.world.lookupText? file.subject) =
      order.map some := by
    induction last with
    | nil => rfl
    | cons own _ hypothesis =>
      rw [List.map_cons, List.map_cons, own, hypothesis (List.nodup_cons.mp distinct).2]
  refine List.Nodup.of_map catalog.world.lookupText? ?_
  rw [List.map_map]
  exact origins ▸ distinct.map fun _ _ => Option.some.inj

end Catalog

/-! ### The files of a run -/

section Run

variable {assemblies : List Assembly} {rules : PackageRules} {files : List BindingFile}
  (answered : bindingFilesOf assemblies rules = .ok files)

include answered

/-- A name has a file wherever a declaration with a file has the name. -/
theorem exists_subject_eq {index : TypeIndex} {entry : Entry}
    (member : index ∈ (World.ofAssemblies assemblies).typesWithFile)
    (found : World.entry? (World.ofAssemblies assemblies) index = some entry) :
    ∃ file ∈ files, file.subject = entry.text := by
  obtain ⟨file, held, isFile⟩ := exists_file answered member
  exact ⟨file, held, isFile.subject_eq found⟩

/-- **Files shadow one another like declarations exactly if no type with a file is declared again.**
Whether the later declaration is public makes no difference for that. -/
theorem shadowsLikeReferences_iff :
    (Catalog.ofAssemblies assemblies rules).ShadowsLikeReferences files ↔
      ∀ index ∈ (World.ofAssemblies assemblies).typesWithFile,
        ¬ (World.ofAssemblies assemblies).IsRedeclared index := by
  have aligned := forall₂_isFileOf_bindingFilesOf answered
  constructor
  · intro shadows index member
    obtain ⟨position, inRange, rfl⟩ := List.getElem_of_mem member
    have inRangeToo := aligned.length_eq ▸ inRange
    obtain ⟨isFile, last⟩ := shadows.last.get inRange inRangeToo
    exact (isFile.lookupText?_iff member).mp last
  · intro last
    have own : List.Forall₂ (fun index file =>
        (Catalog.ofAssemblies assemblies rules).IsFileOf index file ∧
          (Catalog.ofAssemblies assemblies rules).world.lookupText? file.subject = some index)
        (World.ofAssemblies assemblies).typesWithFile files := by
      refine List.forall₂_iff_get.mpr ⟨aligned.length_eq, fun position inRange inRangeToo => ?_⟩
      have isFile := aligned.get inRange inRangeToo
      have member := List.getElem_mem inRange
      exact ⟨isFile, (isFile.lookupText?_iff member).mpr (last _ member)⟩
    have once := Catalog.nodup_subjects World.nodup_typesWithFile (own.imp fun _ _ both => both.2)
    refine ⟨own, once, fun name => ⟨?_, ?_⟩⟩
    · rintro ⟨file, member, rfl⟩
      obtain ⟨index, indexMember, isFile⟩ := exists_isFileOf answered member
      obtain ⟨entry, found, -⟩ := World.mem_typesWithFile.mp indexMember
      exact ⟨index, (isFile.lookupText?_iff indexMember).mpr (last index indexMember),
        (World.hasFile_iff found).mpr indexMember⟩
    · rintro ⟨index, named, hasFile⟩
      obtain ⟨entry, found, rfl, -⟩ := World.lookupText?_eq_last_iff.mp named
      exact exists_subject_eq answered ((World.hasFile_iff found).mp hasFile) found

end Run

/-! ### Two runs -/

/-- A type that is declared twice: first for its own assembly, then for everyone. -/
def openedTexts : List String :=
  ["assembly a namespace \x7b class A \x7b \x7d \x7d",
    "assembly b namespace \x7b public class A \x7b public field x: X \x7d \x7d"]

theorem openedTexts_facts :
    (bindingFilesOf (openedTexts.map Listing.assemblyOf) {}).isOk = true ∧
    (World.ofAssemblies (openedTexts.map Listing.assemblyOf)).typesWithFile = [1] ∧
    (World.ofAssemblies (openedTexts.map Listing.assemblyOf)).entries.map Entry.text = ["A", "A"] := by
  rw [Listing.map_assemblyOf_eq]
  unfold openedTexts
  simp only [List.map_cons, List.map_nil]
  repeat rw [String.toList_ofList]
  decide +kernel

/-- A public declaration takes the place of an earlier one that is not public. -/
theorem shadowsLikeReferences_iff_opened :
    ∃ files, bindingFilesOf (openedTexts.map Listing.assemblyOf) {} = .ok files ∧
      (Catalog.ofAssemblies (openedTexts.map Listing.assemblyOf) {}).ShadowsLikeReferences files := by
  obtain ⟨answered, withFile, texts⟩ := openedTexts_facts
  obtain ⟨files, run⟩ := exists_ok_of_isOk answered
  refine ⟨files, run, (shadowsLikeReferences_iff run).mpr ?_⟩
  rw [withFile, List.forall_mem_singleton]
  rintro ⟨later, entry, other, behind, -, found, -⟩
  -- the second of two declarations is the last one
  have inRange := (List.getElem?_eq_some_iff.mp found).1
  have two := congrArg List.length texts
  rw [List.length_map] at two
  rw [two] at inRange
  exact Nat.not_lt.mpr (Nat.le_of_lt_succ inRange) behind

/-- A type that is declared for everyone, and then again for everyone or for its own assembly. -/
def againTexts : List (List String) :=
  [["assembly a namespace \x7b public class A \x7b \x7d \x7d",
      "assembly b namespace \x7b public class A \x7b public field x: X \x7d \x7d"],
    ["assembly a namespace \x7b public class A \x7b \x7d \x7d",
      "assembly b namespace \x7b class A \x7b public field x: X \x7d \x7d"]]

/-- The names of the files of a run, if all types can be declared. -/
def subjectsOf? (assemblies : List Assembly) : Option (List String) :=
  (bindingFilesOf assemblies {}).toOption.map fun files => files.map BindingFile.subject

theorem againTexts_facts :
    (∀ texts ∈ againTexts, ∀ text ∈ texts, (Listing.readAssembly text).isOk = true) ∧
    againTexts.map (fun texts => subjectsOf? (texts.map Listing.assemblyOf)) =
      [some ["A", "A"], some ["A"]] ∧
    ∀ texts ∈ againTexts,
      (subjectsOf? (texts.map Listing.assemblyOf)).isSome = true ∧
      (World.ofAssemblies (texts.map Listing.assemblyOf)).lookupText? "A" = some 1 ∧
      (World.ofAssemblies (texts.map Listing.assemblyOf)).typesWithFile.head? = some 0 ∧
      (World.entry? (World.ofAssemblies (texts.map Listing.assemblyOf)) 0).any (·.text = "A") = true := by
  simp only [Listing.forall_isOk_iff, Listing.map_assemblyOf_eq]
  unfold againTexts
  simp only [List.forall_mem_cons, List.map_cons, List.map_nil]
  repeat rw [String.toList_ofList]
  decide +kernel

/-- **Files do not always shadow one another**: a name that is declared again has two files, or one
that is not for the declaration that references mean. -/
theorem exists_not_shadowsLikeReferences :
    (∀ texts ∈ againTexts, ∀ text ∈ texts, (Listing.readAssembly text).isOk = true) ∧
    againTexts.map (fun texts => subjectsOf? (texts.map Listing.assemblyOf)) =
      [some ["A", "A"], some ["A"]] ∧
    ∀ texts ∈ againTexts,
      (World.ofAssemblies (texts.map Listing.assemblyOf)).lookupText? "A" = some 1 ∧
      ∃ files, bindingFilesOf (texts.map Listing.assemblyOf) {} = .ok files ∧
        ¬ (Catalog.ofAssemblies (texts.map Listing.assemblyOf) {}).ShadowsLikeReferences files := by
  obtain ⟨answered, subjects, facts⟩ := againTexts_facts
  refine ⟨answered, subjects, fun texts member => ?_⟩
  obtain ⟨known, named, first, text⟩ := facts texts member
  obtain ⟨listed, known⟩ := Option.isSome_iff_exists.mp known
  obtain ⟨files, run, -⟩ := exists_ok_of_map_toOption known
  refine ⟨named, files, run, fun shadows => ?_⟩
  obtain ⟨entry, found, text⟩ := Option.any_eq_true _ _ |>.mp text
  obtain ⟨rest, order⟩ := List.head?_eq_some_iff.mp first
  -- the first file is that of the first declaration, but its name means the second one
  have last := shadows.last
  rw [show (Catalog.ofAssemblies (texts.map Listing.assemblyOf) {}).world.typesWithFile = 0 :: rest
    from order, List.forall₂_cons_left_iff] at last
  obtain ⟨file, others, ⟨isFile, means⟩, -, -⟩ := last
  rw [isFile.subject_eq found, of_decide_eq_true text] at means
  exact absurd (named.symm.trans means) (by decide)

end ExternBindings
