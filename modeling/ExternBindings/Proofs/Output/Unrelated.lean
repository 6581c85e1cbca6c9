/-
**Files and unrelated assemblies.**

An assembly whose namespaces start with words that the other assemblies never use adds files for
its own types, and does not change any other one, even when its types extend and use those of the
others.

* `Assembly.IsUnrelatedTo` — none of the other assemblies uses the words;
* `IsWidened.forall₂_declarationOrder` — the types of a file are the same ones with and without it;
* `Catalog.resembles_of_isUnrelatedTo` — so the catalogs resemble each other in all other types;
* `bindingFilesOf_unrelated` — **without the assembly there are the same files, apart from its
  own**.
-/

import ExternBindings.Proofs.Listing.Characters
import ExternBindings.Proofs.Output.Rearranged
import ExternBindings.Proofs.World.Widened

namespace ExternBindings

/-! ### The order of a file -/

namespace World.IsWidened

variable {large small : World} {place : TypeIndex → TypeIndex} {roots : List String}

section Clear

variable (widened : large.IsWidened small place (QualifiedName.IsRootedIn roots))
  (clear : ∀ {origin entry}, small.entry? origin = some entry →
    entry.decl.name.IsClearOf roots)

include widened clear

/-- No further type is declared inside of one of the others. -/
theorem owner?_ne (nested : large.IsNested) {origin index : TypeIndex} {entry further : Entry}
    (found : small.entry? origin = some entry) (furtherFound : large.entry? index = some further)
    (rooted : further.decl.name.IsRootedIn roots) : further.owner? ≠ some (place origin) := by
  intro belongs
  obtain ⟨-, owner, ownerFound, own, -, named⟩ := nested.owner_lt furtherFound belongs
  obtain ⟨moved, movedFound, decl, -⟩ := widened.moved found
  rw [ownerFound, Option.some.injEq] at movedFound
  subst movedFound
  refine (clear found).space_ne rooted ?_
  rw [named, decl]
  rfl

theorem publicInner_eq_map (nested : large.IsNested) {origin : TypeIndex} {entry : Entry}
    (found : small.entry? origin = some entry) :
    large.publicInner (place origin) = (small.publicInner origin).map place := by
  refine widened.indicesWhere_eq_map (fun _ entry moved _ decl owner => ?_)
    fun index further furtherFound rooted => ?_
  · have belongs : moved.owner? = some (place origin) ↔ entry.owner? = some origin := by
      rw [owner, ← Option.map_some, (Option.map_injective widened.strictMono.injective).eq_iff]
    rw [Entry.isPublic, Entry.isPublic, decl, decide_eq_decide.mpr belongs]
  · rw [Bool.and_eq_false_iff, decide_eq_false_iff_not]
    exact Or.inl (widened.owner?_ne clear nested found furtherFound rooted)

/-- A type stands in front of those inside of it, so that behind them `limit` decreases. -/
theorem forall₂_declarationOrder_of_le (nested : large.IsNested) (ordered : small.IsOrdered)
    (limit : Nat) : ∀ origin : Nat, small.entries.length ≤ limit + origin →
      ∀ entry, small.entry? origin = some entry → List.Forall₂ (small.IsPlaced place)
        (large.declarationOrder (place origin)) (small.declarationOrder origin) := by
  induction limit with
  | zero =>
    intro origin short entry found
    have inRange : origin < small.entries.length := (List.getElem?_eq_some_iff.mp found).1
    omega
  | succ limit hypothesis =>
    intro origin room entry found
    obtain ⟨moved, movedFound, decl, -⟩ := widened.moved found
    have isEnum : (large.decl? (place origin)).any TypeDecl.isEnum =
        (small.decl? origin).any TypeDecl.isEnum := by
      rw [decl?_eq_some_decl movedFound, decl?_eq_some_decl found, decl]
    rw [nested.isOrdered.declarationOrder_eq (List.getElem?_eq_some_iff.mp movedFound).1,
      ordered.declarationOrder_eq (List.getElem?_eq_some_iff.mp found).1, isEnum]
    refine List.rel_append ?_ (.cons ⟨rfl, entry, found⟩ .nil)
    split
    · exact .nil
    · rw [widened.publicInner_eq_map clear nested found, List.flatMap_map]
      refine List.rel_flatMap (List.forall₂_same.mpr fun inner member => ?_) fun _ _ same => same
      obtain ⟨innerEntry, innerFound, belongs, -⟩ := mem_publicInner.mp member
      have behind : origin < inner := ordered inner innerEntry origin innerFound belongs
      exact hypothesis inner (by omega) innerEntry innerFound

/-- **The types of a file are the same ones**, each at its place. -/
theorem forall₂_declarationOrder (nested : large.IsNested) (ordered : small.IsOrdered)
    {index origin : TypeIndex} (placed : small.IsPlaced place index origin) :
    List.Forall₂ (small.IsPlaced place) (large.declarationOrder index)
      (small.declarationOrder origin) := by
  obtain ⟨rfl, entry, found⟩ := placed
  exact widened.forall₂_declarationOrder_of_le clear nested ordered small.entries.length origin
    (Nat.le_add_right _ _) entry found

end Clear

end World.IsWidened

/-! ### Unrelated assemblies -/

namespace Assembly

/-- The words that the namespaces of an assembly start with. -/
def roots (assembly : Assembly) : List String :=
  assembly.namespaces.map (Text.beforeFirst '.')

/-- All types of the assembly are in namespaces, outside of `System`, and the words that these start
with are in no name that the other assemblies mention. -/
structure IsUnrelatedTo (extra : Assembly) (others : List Assembly) : Prop where
  spaced : ∀ space ∈ extra.namespaces, space ≠ ""
  outside : ∀ space ∈ extra.namespaces, Text.beforeFirst '.' space ≠ "System"
  unused : ∀ space ∈ extra.namespaces, ∀ other ∈ others, ∀ name ∈ other.names,
    Text.beforeFirst '.' space ∉ name.words

namespace IsUnrelatedTo

variable {extra : Assembly} {others : List Assembly} (unrelated : extra.IsUnrelatedTo others)

include unrelated

theorem not_mem_roots : "System" ∉ extra.roots := by
  intro member
  obtain ⟨space, spaceMember, same⟩ := List.mem_map.mp member
  exact unrelated.outside space spaceMember same

theorem isRootedIn (read : extra.IsRead) {name : QualifiedName} (member : name ∈ extra.declared) :
    name.IsRootedIn extra.roots := by
  have inside := unrelated.spaced _ (space_mem_namespaces read member)
  refine ⟨?_, inside, ?_⟩
  · obtain ⟨tree, treeMember, rfl⟩ := List.mem_map.mp member
    exact (isMadeOf_of_isRead read treeMember).name
  · rw [QualifiedName.root_eq_of_space inside]
    exact List.mem_map_of_mem (space_mem_namespaces read member)

theorem isClearOf {other : Assembly} (isOther : other ∈ others) {name : QualifiedName}
    (named : name.IsWellNamed) (mentioned : name ∈ other.names) : name.IsClearOf extra.roots := by
  refine ⟨named, fun member => ?_⟩
  obtain ⟨space, spaceMember, same⟩ := List.mem_map.mp member
  refine unrelated.unused space spaceMember other isOther name mentioned ?_
  rw [same]
  exact name.root_mem_words

/-- The other assemblies mention clear names only. -/
theorem isMadeOf (read : ∀ other ∈ others, other.IsRead) {origin : TypeIndex} {decl : TypeDecl}
    (found : (World.ofAssemblies others).decl? origin = some decl) :
    decl.IsMadeOf (QualifiedName.IsClearOf extra.roots) := by
  obtain ⟨entry, entryFound, rfl⟩ := World.decl?_eq_some found
  obtain ⟨tree, treeFound, same⟩ := World.exists_tree entryFound
  have member := List.mem_of_getElem? treeFound
  rw [subtreesIn_eq_flatMap, List.flatMap_assoc, List.mem_flatMap] at member
  obtain ⟨other, isOther, held⟩ := member
  rw [← subtreesIn_eq_flatMap] at held
  rw [← same]
  intro name mentioned
  exact unrelated.isClearOf isOther (isMadeOf_of_isRead (read other isOther) held name mentioned)
    (List.mem_flatMap.mpr ⟨tree, held, mentioned⟩)

end IsUnrelatedTo

end Assembly

section IsRead

variable {first second : List Assembly} {extra : Assembly}
  (read : ∀ assembly ∈ first ++ extra :: second, assembly.IsRead)

include read

theorem isRead_of_extra : extra.IsRead :=
  read extra (List.mem_append_right _ List.mem_cons_self)

theorem isRead_of_mem_others : ∀ other ∈ first ++ second, other.IsRead := by
  intro other member
  refine read other ?_
  rw [List.mem_append, List.mem_cons]
  exact (List.mem_append.mp member).imp_right Or.inr

end IsRead

section Unrelated

variable {first second : List Assembly} {extra : Assembly} {place : TypeIndex → TypeIndex}

/-- The files that are kept by their subjects are those of the types that are kept so. -/
theorem forall₂_isFileOf_filter {assemblies : List Assembly} {rules : PackageRules}
    {files : List BindingFile} (answered : bindingFilesOf assemblies rules = .ok files)
    (dropped : List String) :
    List.Forall₂ (Catalog.ofAssemblies assemblies rules).IsFileOf
      ((World.ofAssemblies assemblies).typesWithFile.filter fun index =>
        (World.entry? (World.ofAssemblies assemblies) index).any fun entry => entry.text ∉ dropped)
      (files.filter fun file => file.subject ∉ dropped) := by
  refine List.rel_filter (fun index file isFile => ?_) (forall₂_isFileOf_bindingFilesOf answered)
  have ⟨decl, declFound, _⟩ := isFile
  obtain ⟨entry, found, -⟩ := World.decl?_eq_some declFound
  show ((Catalog.ofAssemblies assemblies rules).world.entry? index).any
      (fun entry => entry.text ∉ dropped) = true ↔ decide (file.subject ∉ dropped) = true
  rw [isFile.subject_eq found, found]
  rfl

/-- **With and without an unrelated assembly, the catalogs resemble each other** in all types of the
other ones. -/
theorem Catalog.resembles_of_isUnrelatedTo
    (read : ∀ assembly ∈ first ++ extra :: second, assembly.IsRead)
    (unrelated : extra.IsUnrelatedTo (first ++ second)) (rules : PackageRules)
    (widened : (World.ofAssemblies (first ++ extra :: second)).IsWidened
      (World.ofAssemblies (first ++ second)) place (· ∈ extra.declared)) :
    (ofAssemblies (first ++ extra :: second) rules).Resembles (ofAssemblies (first ++ second) rules)
      ((World.ofAssemblies (first ++ second)).IsPlaced place)
      (QualifiedName.IsClearOf extra.roots) := by
  have readOthers := isRead_of_mem_others read
  have rooted := widened.imp fun name => unrelated.isRootedIn (isRead_of_extra read)
  refine ⟨rooted.resembles unrelated.not_mem_roots (unrelated.isMadeOf readOthers),
    fun {name} clear => ?_, fun {index origin} placed => ?_⟩
  · refine packageFor_congr ?_ (rooted.mem_namespaces fun _ => clear.space_ne)
    rfl
  · exact rooted.forall₂_declarationOrder
      (fun found => (unrelated.isMadeOf readOthers (World.decl?_eq_some_decl found)).name)
      (World.isNested_ofAssemblies read) (World.isOrdered_ofAssemblies _) placed

/-- The types with a file are the same ones, apart from those of the unrelated assembly. -/
theorem typesWithFile_filter (read : ∀ assembly ∈ first ++ extra :: second, assembly.IsRead)
    (unrelated : extra.IsUnrelatedTo (first ++ second))
    (widened : (World.ofAssemblies (first ++ extra :: second)).IsWidened
      (World.ofAssemblies (first ++ second)) place (· ∈ extra.declared)) :
    ((World.ofAssemblies (first ++ extra :: second)).typesWithFile.filter fun index =>
      (World.entry? (World.ofAssemblies (first ++ extra :: second)) index).any fun entry =>
        entry.text ∉ extra.declared.map QualifiedName.text) =
      (World.ofAssemblies (first ++ second)).typesWithFile.map place := by
  rw [World.typesWithFile_eq, World.typesWithFile_eq, World.indicesWhere_filter]
  refine widened.indicesWhere_eq_map (fun origin entry moved found decl owner => ?_)
    fun index entry found own => ?_
  · have clear := (unrelated.isMadeOf (isRead_of_mem_others read)
      (World.decl?_eq_some_decl found)).name
    have foreign : moved.text ∉ extra.declared.map QualifiedName.text := by
      intro member
      obtain ⟨own, ownMember, written⟩ := List.mem_map.mp member
      rw [moved.text_eq, decl] at written
      exact clear.text_ne (unrelated.isRootedIn (isRead_of_extra read) ownMember) written.symm
    rw [decide_eq_true foreign, Bool.and_true]
    unfold Entry.getsFile Entry.isPublic
    rw [World.IsWidened.isTopLevel_eq owner, moved.text_eq, entry.text_eq, decl]
  · have member : entry.text ∈ extra.declared.map QualifiedName.text := by
      rw [entry.text_eq]
      exact List.mem_map_of_mem own
    rw [decide_eq_false (not_not_intro member), Bool.and_false]

/-- **An unrelated assembly changes no file of the others.** If files can be made of assemblies that
were read, they can be made without one that is unrelated to the others, and these are the same ones
in the same order, apart from the files of the types of that assembly. -/
theorem bindingFilesOf_unrelated (read : ∀ assembly ∈ first ++ extra :: second, assembly.IsRead)
    (unrelated : extra.IsUnrelatedTo (first ++ second)) {rules : PackageRules}
    {files : List BindingFile}
    (answered : bindingFilesOf (first ++ extra :: second) rules = .ok files) :
    ∃ others, bindingFilesOf (first ++ second) rules = .ok others ∧
      others.map BindingFile.unit = (files.map BindingFile.unit).filter fun unit =>
        unit.subject ∉ extra.declared.map QualifiedName.text := by
  obtain ⟨place, widened⟩ := World.isWidened_ofAssemblies first second extra
  have resembles := Catalog.resembles_of_isUnrelatedTo read unrelated rules widened
  -- the files that are not for a type of the assembly, with the types that they are for
  have kept := forall₂_isFileOf_filter answered (extra.declared.map QualifiedName.text)
  rw [typesWithFile_filter read unrelated widened] at kept
  have pairs : List.Forall₂ ((World.ofAssemblies (first ++ second)).IsPlaced place)
      ((World.ofAssemblies (first ++ second)).typesWithFile.map place)
      (World.ofAssemblies (first ++ second)).typesWithFile := by
    refine List.forall₂_map_left_iff.mpr (List.forall₂_same.mpr fun origin member => ⟨rfl, ?_⟩)
    obtain ⟨entry, found, -⟩ := World.mem_typesWithFile.mp member
    exact ⟨entry, found⟩
  have same := resembles.bindingFilesFor pairs
  rw [Catalog.bindingFilesFor_eq_ok kept] at same
  obtain ⟨others, answeredToo, units⟩ := same.exists_ok
  refine ⟨others, answeredToo, ?_⟩
  rw [List.filter_map]
  exact units.symm

end Unrelated

/-- A class with a method. -/
def listText : String :=
  "assembly list namespace N \x7b public class List \x7b public method Next(): N.List \x7d \x7d"

/-- A class that extends that one. -/
def queueText : String :=
  "assembly queue namespace N \x7b public class Queue extends N.List \x7b \x7d \x7d"

/-- A class of another namespace that extends the first one, has its simple name, and uses the
second one. -/
def heirText : String :=
  "assembly heir namespace Z.N \x7b " ++
    "public class List extends N.List \x7b public method All(): N.Queue \x7d \x7d"

/-- The assembly of the first class. -/
def listAssembly : Assembly :=
  Listing.assemblyOf listText

/-- The assembly of the second class. -/
def queueAssembly : Assembly :=
  Listing.assemblyOf queueText

/-- The assembly of the class in the other namespace. -/
def heirAssembly : Assembly :=
  Listing.assemblyOf heirText

theorem heirAssembly_facts :
    (∀ text ∈ [listText, heirText, queueText], (Listing.readAssembly text).isOk = true) ∧
    heirAssembly.namespaces = ["Z.N"] ∧
    heirAssembly.declared.map QualifiedName.text = ["Z.N.List"] ∧
    (∀ other ∈ [listAssembly, queueAssembly], ∀ name ∈ other.names, "Z" ∉ name.words) ∧
    (bindingFilesOf [listAssembly, heirAssembly, queueAssembly] {}).isOk = true ∧
    subjectsOf [listAssembly, heirAssembly, queueAssembly] = ["N.List", "Z.N.List", "N.Queue"] := by
  unfold listAssembly queueAssembly heirAssembly
  rw [Listing.forall_isOk_iff]
  simp only [Listing.assemblyOf_eq, List.map_cons, List.map_nil]
  unfold listText heirText queueText
  repeat rw [String.toList_ofList]
  decide +kernel

theorem bindingFilesOf_unrelated_heir :
    (∀ assembly ∈ [listAssembly, heirAssembly, queueAssembly], assembly.IsRead) ∧
    heirAssembly.IsUnrelatedTo [listAssembly, queueAssembly] ∧
    ∃ files others,
      bindingFilesOf [listAssembly, heirAssembly, queueAssembly] {} = .ok files ∧
      bindingFilesOf [listAssembly, queueAssembly] {} = .ok others ∧
      files.map BindingFile.subject = ["N.List", "Z.N.List", "N.Queue"] ∧
      others.map BindingFile.unit =
        (files.map BindingFile.unit).filter fun unit => unit.subject ∉ ["Z.N.List"] := by
  obtain ⟨answered, spaces, declared, apart, isOk, subjects⟩ := heirAssembly_facts
  rw [List.forall_mem_cons, List.forall_mem_cons, List.forall_mem_singleton] at answered
  have read : ∀ assembly ∈ [listAssembly] ++ heirAssembly :: [queueAssembly],
      assembly.IsRead := by
    rw [List.singleton_append, List.forall_mem_cons, List.forall_mem_cons,
      List.forall_mem_singleton]
    exact answered.imp Listing.isRead_assemblyOf
      (And.imp Listing.isRead_assemblyOf Listing.isRead_assemblyOf)
  have root : Text.beforeFirst '.' "Z.N" = "Z" := by decide +kernel
  have unrelated : heirAssembly.IsUnrelatedTo ([listAssembly] ++ [queueAssembly]) := by
    constructor <;> rw [spaces, List.forall_mem_singleton]
    case spaced => decide
    case outside =>
      rw [root]
      decide
    case unused =>
      rw [root]
      exact apart
  cases written : bindingFilesOf [listAssembly, heirAssembly, queueAssembly] {} with
  | error flaw =>
    rw [written] at isOk
    cases isOk
  | ok files =>
    obtain ⟨others, writtenToo, units⟩ := bindingFilesOf_unrelated read unrelated written
    rw [declared] at units
    refine ⟨read, unrelated, files, others, rfl, writtenToo, ?_, units⟩
    rw [map_subject_eq written, subjects]

end ExternBindings
