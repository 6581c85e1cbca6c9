/-
**The identifiers in one file.**

The declarations of a file and their companions share one scope.

* `BindingFile.identifiers` — the identifiers that they introduce, one for each part of the text
  (`BindingFile.contents_eq_parts`);
* `Catalog.Names` — which identifiers a type of the file needs, told from the declarations alone: its
  flat name, and that name with `_Static` behind it for a companion;
* `nodup_identifiers_iff` — **exactly if no identifier is needed for two types, those of the file are
  different.** Nothing in the rules for names demands it (`identifiers_overlap`);
* `Catalog.namesOnce_of_isPlain` — it holds where no name has an underscore, types in the same place
  have different emitted names, and none called `Static` stands in a type with a companion.
-/

import ExternBindings.Proofs.Listing.Characters
import ExternBindings.Proofs.Output.FlattenedNames
import ExternBindings.Proofs.Output.Identifiers
import Mathlib.Data.List.Pairwise

namespace ExternBindings

/-! ### The parts of a file -/

namespace BindingFile

variable (file : BindingFile)

/-- The declarations and companions of the file, each by itself. -/
def parts : List Declaration :=
  file.declarations.flatMap Declaration.parts

/-- The identifiers that the file introduces. -/
def identifiers : List String :=
  file.declarations.flatMap Declaration.identifiers

/-- Behind its header a file is made of its parts. -/
theorem contents_eq_parts :
    file.contents = file.header ++ Text.join "" (file.parts.map Declaration.text) := by
  apply String.toList_injective
  unfold contents parts
  rw [String.toList_append, String.toList_append, Text.toList_join_empty, Text.toList_join_empty]
  congr 1
  induction file.declarations with
  | nil => rfl
  | cons head tail hypothesis =>
    rw [List.map_cons, List.flatMap_cons, hypothesis, List.flatMap_cons, List.map_append,
      List.flatMap_append, head.text_eq_join_parts, Text.toList_join_empty]

end BindingFile

/-! ### What the types of a file need -/

namespace Catalog

variable {catalog : Catalog} {site : Site} {top index : TypeIndex} {topEntry entry : Entry}
  {decl : TypeDecl} {identifier : String}

/-- Whether the declaration of a type has a companion. -/
def hasCompanion (catalog : Catalog) (site : Site) (index : TypeIndex) : Bool :=
  (catalog.world.decl? index).any fun decl =>
    !decl.isEnum && (catalog.functionsOf site index).companion?.isSome

/-- A type of the file of `top` needs the identifier: for its declaration, or for its companion. -/
structure Names (catalog : Catalog) (site : Site) (top index : TypeIndex) (identifier : String) :
    Prop where
  declares : catalog.world.Declares top index
  needs : catalog.world.FlattensTo index identifier ∨
    catalog.hasCompanion site index = true ∧
      ∃ name, catalog.world.FlattensTo index name ∧ identifier = name ++ "_Static"

/-- No two types of the file of `top` need the same identifier. -/
def NamesOnce (catalog : Catalog) (site : Site) (top : TypeIndex) : Prop :=
  ∀ ⦃first second identifier⦄, catalog.Names site top first identifier →
    catalog.Names site top second identifier → first = second

/-! ### What the declarations introduce -/

/-- The identifiers that the declaration of a type introduces. -/
def identifiersAt (catalog : Catalog) (site : Site) (index : TypeIndex) : List String :=
  (catalog.world.decl? index).elim [] fun decl =>
    catalog.world.flatName decl.name ::
      if catalog.hasCompanion site index = true then
        [catalog.world.flatName decl.name ++ "_Static"]
      else []

theorem identifiersAt_eq (found : catalog.world.decl? index = some decl) :
    catalog.identifiersAt site index =
      catalog.world.flatName decl.name ::
        if catalog.hasCompanion site index = true then
          [catalog.world.flatName decl.name ++ "_Static"]
        else [] := by
  unfold identifiersAt
  rw [found, Option.elim_some]

theorem identifiers_of_declaration {declaration : Declaration}
    (found : catalog.world.decl? index = some decl)
    (declared : catalog.declaration site index decl = .ok declaration) :
    declaration.identifiers = catalog.identifiersAt site index := by
  rw [identifiersAt_eq found]
  unfold hasCompanion
  rw [found, Option.any_some]
  unfold Catalog.declaration at declared
  split at declared
  · next isEnum =>
    obtain ⟨enumeration, answered, rfl⟩ := map_eq_ok.mp declared
    rw [isEnum]
    unfold enumDeclaration at answered
    split at answered
    · cases answered
    · cases answered
      rfl
  · next noEnum =>
    obtain ⟨classLike, answered, rfl⟩ := map_eq_ok.mp declared
    rw [Bool.eq_false_iff.mpr noEnum]
    obtain ⟨events, -, whole⟩ := bind_eq_ok.mp answered
    cases whole
    rfl

/-- Declarations introduce the identifiers of their types, in order. -/
theorem identifiers_of_declarations :
    ∀ {order : List TypeIndex} {answers : List Declaration},
      catalog.declarations site order = .ok answers →
      answers.flatMap Declaration.identifiers = order.flatMap (catalog.identifiersAt site)
  | [], _, answered => by
    cases answered
    rfl
  | head :: rest, answers, answered => by
    rw [List.flatMap_cons]
    cases found : catalog.world.decl? head with
    | none =>
      rw [declarations_cons_none found] at answered
      have nothing : catalog.identifiersAt site head = [] := by
        unfold identifiersAt
        rw [found, Option.elim_none]
      rw [nothing, List.nil_append, identifiers_of_declarations answered]
    | some decl =>
      obtain ⟨own, others, declared, othersDeclared, rfl⟩ := (declarations_cons found).mp answered
      rw [List.flatMap_cons, identifiers_of_declaration found declared,
        identifiers_of_declarations othersDeclared]

theorem ne_append_static (name : String) : name ≠ name ++ "_Static" := by
  intro same
  have lengths := congrArg String.length same
  rw [String.length_append] at lengths
  have longer : "_Static".length = 7 := rfl
  omega

theorem nodup_identifiersAt (catalog : Catalog) (site : Site) (index : TypeIndex) :
    (catalog.identifiersAt site index).Nodup := by
  unfold identifiersAt
  cases catalog.world.decl? index with
  | none => exact List.nodup_nil
  | some decl =>
    rw [Option.elim_some]
    split
    · refine List.nodup_cons.mpr ⟨?_, List.nodup_singleton _⟩
      rw [List.mem_singleton]
      exact ne_append_static _
    · exact List.nodup_singleton _

section Scope

variable (nested : catalog.world.IsNested) (unambiguous : catalog.world.IsUnambiguous)
  (isTop : catalog.world.IsPublicTop top topEntry)

include nested unambiguous isTop

theorem mem_identifiersAt_iff (declares : catalog.world.Declares top index)
    (found : catalog.world.entry? index = some entry) :
    identifier ∈ catalog.identifiersAt site index ↔ catalog.Names site top index identifier := by
  have flattens (name : String) : catalog.world.FlattensTo index name ↔
      name = catalog.world.flatName entry.decl.name :=
    declares.flattensTo_iff nested unambiguous isTop found
  rw [identifiersAt_eq (World.decl?_eq_some_decl found), List.mem_cons]
  constructor
  · rintro (own | beside)
    · exact ⟨declares, Or.inl ((flattens identifier).mpr own)⟩
    · split at beside
      · next has =>
        exact ⟨declares, Or.inr ⟨has, _, (flattens _).mpr rfl, List.mem_singleton.mp beside⟩⟩
      · cases beside
  · rintro ⟨-, own | ⟨has, name, own, rfl⟩⟩
    · exact Or.inl ((flattens identifier).mp own)
    · rw [if_pos has, (flattens name).mp own]
      exact Or.inr (List.mem_singleton_self _)

/-- **The identifiers of a file are different exactly if no two types need the same one.** -/
theorem nodup_identifiersAt_iff :
    ((catalog.world.declarationOrder top).flatMap (catalog.identifiersAt site)).Nodup ↔
      catalog.NamesOnce site top := by
  have ordered := nested.isOrdered
  have inRange : top < catalog.world.entries.length := (List.getElem?_eq_some_iff.mp isTop.found).1
  have listed {index : TypeIndex} : index ∈ catalog.world.declarationOrder top ↔
      catalog.world.Declares top index := ordered.mem_declarationOrder_iff inRange
  have needed {index : TypeIndex} (declares : catalog.world.Declares top index)
      (identifier : String) : identifier ∈ catalog.identifiersAt site index ↔
        catalog.Names site top index identifier := by
    obtain ⟨entry, found⟩ := declares.exists_entry isTop.found
    exact mem_identifiersAt_iff nested unambiguous isTop declares found
  have symmetric : Std.Symm (Function.onFun List.Disjoint (catalog.identifiersAt site)) :=
    ⟨fun _ _ disjoint => List.disjoint_symm disjoint⟩
  rw [List.nodup_flatMap]
  constructor
  · rintro ⟨-, disjoint⟩ first second identifier names namesToo
    by_contra different
    have apart := disjoint.forall (listed.mpr names.declares) (listed.mpr namesToo.declares) different
    exact apart ((needed names.declares identifier).mpr names)
      ((needed namesToo.declares identifier).mpr namesToo)
  · intro once
    refine ⟨fun index _ => nodup_identifiersAt catalog site index,
      (ordered.nodup_declarationOrder inRange).pairwise_of_forall_ne ?_⟩
    intro first member second memberToo different identifier held heldToo
    exact different (once ((needed (listed.mp member) identifier).mp held)
      ((needed (listed.mp memberToo) identifier).mp heldToo))

end Scope

theorem spelled_identifiersAt (nested : catalog.world.IsNested) :
    ∀ identifier ∈ catalog.identifiersAt site index,
      identifier ≠ "" ∧ ∀ char ∈ identifier.toList, Listing.isWordChar char = true := by
  intro identifier member
  unfold identifiersAt at member
  cases found : catalog.world.decl? index with
  | none =>
    rw [found, Option.elim_none] at member
    cases member
  | some decl =>
    obtain ⟨entry, entryFound, rfl⟩ := World.decl?_eq_some found
    have named := nested.isWellNamed entryFound
    have present : catalog.world.flatName entry.decl.name ≠ "" :=
      World.flatName_ne_empty named none
    have chars : ∀ char ∈ (catalog.world.flatName entry.decl.name).toList,
        Listing.isWordChar char = true := World.forall_mem_flatName named none
    rw [found, Option.elim_some, List.mem_cons] at member
    rcases member with rfl | beside
    · exact ⟨present, chars⟩
    · split at beside
      · rw [List.mem_singleton.mp beside]
        refine ⟨fun empty => present (String.append_eq_empty_iff.mp empty).1, fun char held => ?_⟩
        rw [String.toList_append, List.mem_append] at held
        rcases held with inName | inSuffix
        · exact chars char inName
        · exact List.all_eq_true.mp (by decide : ("_Static".toList.all _) = true) char inSuffix
      · cases beside

/-! ### Plain files -/

/-- In a plain file no flat name is that of a companion, unless a type is called so. -/
theorem flat_ne_static {owner : TypeIndex} {name : String} (plain : catalog.world.IsPlain top)
    (isTop : catalog.world.IsPublicTop top topEntry)
    (noStatic : ∀ {index entry}, catalog.world.Declares top index →
      catalog.world.entry? index = some entry → entry.owner? = some owner →
      catalog.world.emittedName index entry ≠ "Static")
    (declares : catalog.world.Declares top owner) (flattens : catalog.world.FlattensTo owner name)
    (declaresToo : catalog.world.Declares top index) :
    ¬ catalog.world.FlattensTo index (name ++ "_Static") := by
  have cut : name ++ "_Static" = name ++ "_" ++ "Static" := by
    rw [String.append_assoc]
    rfl
  -- the suffix would be the own part of an inner type of `owner`
  intro flattensToo
  generalize same : name ++ "_Static" = written at flattensToo
  rw [cut] at same
  cases flattensToo with
  | top found alone =>
    refine absurd ?_ (plain.not_mem declaresToo found)
    rw [← same]
    exact World.underscore_mem_glued _ _
  | inner found belongs around =>
    obtain ⟨outers, owns⟩ :=
      Text.glued_injective rfl (by decide) (plain.not_mem declaresToo found) same
    subst outers
    have sameOwner := flattens.index_eq plain isTop around declares
      (declaresToo.of_inner isTop found belongs)
    rw [← sameOwner] at belongs
    exact noStatic declaresToo found belongs owns.symm

/-- **In a plain file no two types need the same identifier**, unless a type inside of one with a
companion is called `Static`. -/
theorem namesOnce_of_isPlain (plain : catalog.world.IsPlain top)
    (isTop : catalog.world.IsPublicTop top topEntry)
    (noStatic : ∀ {owner index entry}, catalog.world.Declares top index →
      catalog.world.entry? index = some entry → entry.owner? = some owner →
      catalog.hasCompanion site owner = true →
      catalog.world.emittedName index entry ≠ "Static") :
    catalog.NamesOnce site top := by
  rintro first second identifier ⟨declares, flattens | ⟨has, name, flattens, rfl⟩⟩
    ⟨declaresToo, flattensToo | ⟨hasToo, nameToo, flattensToo, same⟩⟩
  · exact flattens.index_eq plain isTop flattensToo declares declaresToo
  · subst same
    exact absurd flattens (flat_ne_static plain isTop
      (fun inside found belongs => noStatic inside found belongs hasToo) declaresToo flattensToo
      declares)
  · exact absurd flattensToo (flat_ne_static plain isTop
      (fun inside found belongs => noStatic inside found belongs has) declares flattens declaresToo)
  · obtain rfl := String.append_left_inj _ |>.mp same
    exact flattens.index_eq plain isTop flattensToo declares declaresToo

end Catalog

/-! ### The files of a run -/

/-- Each part of a file introduces one of its identifiers. -/
theorem BindingFile.forall₂_introduces {file : BindingFile}
    (spelled : ∀ identifier ∈ file.identifiers,
      identifier ≠ "" ∧ ∀ char ∈ identifier.toList, Listing.isWordChar char = true) :
    List.Forall₂ Declaration.Introduces file.parts file.identifiers := by
  unfold identifiers at spelled
  unfold parts identifiers
  generalize file.declarations = declarations at spelled ⊢
  induction declarations with
  | nil => exact .nil
  | cons head tail hypothesis =>
    rw [List.flatMap_cons, List.forall_mem_append] at spelled
    rw [List.flatMap_cons, List.flatMap_cons]
    exact List.rel_append (Declaration.forall₂_introduces_parts spelled.1) (hypothesis spelled.2)

/-- **The identifiers in a file are different exactly if no two of its types need the same one.** The
file is a header and a list of parts, and each part introduces one of these identifiers. -/
theorem nodup_identifiers_iff {assemblies : List Assembly} {rules : PackageRules}
    {files : List BindingFile} (read : ∀ assembly ∈ assemblies, assembly.IsRead)
    (unambiguous : (World.ofAssemblies assemblies).IsUnambiguous)
    (answered : bindingFilesOf assemblies rules = .ok files) {file : BindingFile}
    (member : file ∈ files) :
    file.contents = file.header ++ Text.join "" (file.parts.map Declaration.text) ∧
    List.Forall₂ Declaration.Introduces file.parts file.identifiers ∧
    ∃ top topDecl, (World.ofAssemblies assemblies).decl? top = some topDecl ∧
      topDecl.name.text = file.subject ∧
      (file.identifiers.Nodup ↔
        (Catalog.ofAssemblies assemblies rules).NamesOnce (.ofFile topDecl.name) top) := by
  have nested := World.isNested_ofAssemblies read
  obtain ⟨top, topMember, topDecl, topFound, written⟩ := exists_isFileOf answered member
  obtain ⟨topEntry, topAt, isTopLevel, isPublic, -⟩ := World.mem_typesWithFile.mp topMember
  obtain ⟨declarations, declared, whole⟩ := Catalog.bindingFile_eq_ok.mp written
  have isTop : (World.ofAssemblies assemblies).IsPublicTop top topEntry :=
    ⟨topAt, Option.isNone_iff_eq_none.mp isTopLevel, isPublic⟩
  have listed : file.identifiers =
      ((World.ofAssemblies assemblies).declarationOrder top).flatMap
        ((Catalog.ofAssemblies assemblies rules).identifiersAt (.ofFile topDecl.name)) := by
    rw [whole]
    exact Catalog.identifiers_of_declarations declared
  have spelled : ∀ identifier ∈ file.identifiers,
      identifier ≠ "" ∧ ∀ char ∈ identifier.toList, Listing.isWordChar char = true := by
    rw [listed]
    intro identifier held
    obtain ⟨index, -, held⟩ := List.mem_flatMap.mp held
    exact Catalog.spelled_identifiersAt nested identifier held
  refine ⟨file.contents_eq_parts, BindingFile.forall₂_introduces spelled, top, topDecl, topFound,
    by rw [whole], ?_⟩
  rw [listed]
  exact Catalog.nodup_identifiersAt_iff nested unambiguous isTop

/-! ### Two runs -/

/-- The identifiers of each file of a run, if all types can be declared. -/
def identifiersOf? (assemblies : List Assembly) (rules : PackageRules) :
    Option (List (List String)) :=
  (bindingFilesOf assemblies rules).toOption.map fun files => files.map BindingFile.identifiers

/-- A type with a companion, and a type inside of it. -/
def nestedText : String :=
  "assembly n namespace \x7b public class A \x7b public static method M(): X " ++
    "public method M(): X public class B \x7b \x7d \x7d \x7d"

/-- A type with a companion, and inside of it a type that is called like the companion, and two that
are told apart only by their nesting. -/
def overlapText : String :=
  "assembly n namespace \x7b public class A \x7b public static method M(): X " ++
    "public method M(): X public class Static \x7b \x7d public class B_C \x7b \x7d " ++
    "public class B \x7b public class C \x7b \x7d \x7d \x7d \x7d"

theorem nestedText_facts :
    (Listing.readAssembly nestedText).isOk = true ∧
    ((World.ofAssemblies [Listing.assemblyOf nestedText]).entries.map Entry.text).Nodup ∧
    identifiersOf? [Listing.assemblyOf nestedText] {} = some [["A_B", "A", "A_Static"]] := by
  rw [Listing.readAssembly_eq, Listing.assemblyOf_eq]
  unfold nestedText
  simp only [String.toList_append]
  repeat rw [String.toList_ofList]
  decide +kernel

/-- Where the identifiers are different, no two types need the same one. -/
theorem nodup_identifiers_iff_nested :
    ∃ top topDecl, (World.ofAssemblies [Listing.assemblyOf nestedText]).decl? top = some topDecl ∧
      (Catalog.ofAssemblies [Listing.assemblyOf nestedText] {}).NamesOnce
        (.ofFile topDecl.name) top := by
  obtain ⟨answered, unambiguous, written⟩ := nestedText_facts
  obtain ⟨files, run, identifiers⟩ := exists_ok_of_map_toOption written
  have read : ∀ assembly ∈ [Listing.assemblyOf nestedText], assembly.IsRead :=
    List.forall_mem_singleton.mpr (Listing.isRead_assemblyOf answered)
  obtain ⟨file, rfl, introduced⟩ := List.map_eq_singleton_iff.mp identifiers
  obtain ⟨-, -, top, topDecl, found, -, different⟩ :=
    nodup_identifiers_iff read unambiguous run (List.mem_singleton_self file)
  refine ⟨top, topDecl, found, different.mp ?_⟩
  rw [introduced]
  decide

theorem overlapText_facts :
    (Listing.readAssembly overlapText).isOk = true ∧
    ((World.ofAssemblies [Listing.assemblyOf overlapText]).entries.map Entry.text).Nodup ∧
    identifiersOf? [Listing.assemblyOf overlapText] {} =
      some [["A_Static", "A_B_C", "A_B_C", "A_B", "A", "A_Static"]] := by
  rw [Listing.readAssembly_eq, Listing.assemblyOf_eq]
  unfold overlapText
  simp only [String.toList_append]
  repeat rw [String.toList_ofList]
  decide +kernel

/-- **A file may introduce an identifier twice.** -/
theorem identifiers_overlap :
    (∀ assembly ∈ [Listing.assemblyOf overlapText], assembly.IsRead) ∧
    (World.ofAssemblies [Listing.assemblyOf overlapText]).IsUnambiguous ∧
    ∃ file, bindingFilesOf [Listing.assemblyOf overlapText] {} = .ok [file] ∧
      file.identifiers = ["A_Static", "A_B_C", "A_B_C", "A_B", "A", "A_Static"] ∧
      ¬ file.identifiers.Nodup := by
  obtain ⟨answered, unambiguous, written⟩ := overlapText_facts
  obtain ⟨files, run, identifiers⟩ := exists_ok_of_map_toOption written
  obtain ⟨file, rfl, introduced⟩ := List.map_eq_singleton_iff.mp identifiers
  refine ⟨?_, unambiguous, file, run, introduced, ?_⟩
  · exact List.forall_mem_singleton.mpr (Listing.isRead_assemblyOf answered)
  · rw [introduced]
    decide

end ExternBindings
