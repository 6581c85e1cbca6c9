/-
**The names in an assembly that was read.**

* `Assembly.declared` — the names of all types of an assembly, at any depth; `Assembly.names` — all
  names that their declarations mention;
* `isMadeOf_of_isRead` — the names that an assembly mentions are well-formed;
* `space_mem_namespaces` — a type is in the namespace of the top-level type around it.
-/

import ExternBindings.Proofs.Listing.ReadAssembly
import ExternBindings.Proofs.Metadata.Mentions
import ExternBindings.Proofs.World.LaidOut

namespace ExternBindings

/-! ### References -/

namespace TypeReference

mutual

/-- The names in a well-formed reference are well-formed. -/
theorem isMadeOf_of_isWellNamed : ∀ reference : TypeReference, reference.IsWellNamed →
    reference.IsMadeOf QualifiedName.IsWellNamed
  | primitive _, _ => fun name mentioned => by
    rw [names] at mentioned
    cases mentioned
  | parameter _ _, _ => fun name mentioned => by
    rw [names] at mentioned
    cases mentioned
  | array element _, wellNamed => fun name mentioned => by
    rw [names] at mentioned
    exact isMadeOf_of_isWellNamed element wellNamed name mentioned
  | indirect _ element, wellNamed => fun name mentioned => by
    rw [names] at mentioned
    exact isMadeOf_of_isWellNamed element wellNamed name mentioned
  | instantiation definition arguments, wellNamed => fun name mentioned => by
    rw [names] at mentioned
    rcases List.mem_cons.mp mentioned with rfl | mentioned
    · exact wellNamed.1
    · exact isWellNamed_of_mem_namesOfAll arguments wellNamed.2.2 name mentioned
  | named own, wellNamed => fun name mentioned => by
    rw [names] at mentioned
    rw [List.mem_singleton.mp mentioned]
    exact wellNamed

theorem isWellNamed_of_mem_namesOfAll : ∀ references : List TypeReference,
    AreWellNamed references → ∀ name ∈ namesOfAll references, name.IsWellNamed
  | [], _ => fun name mentioned => by
    rw [namesOfAll] at mentioned
    cases mentioned
  | head :: tail, wellNamed => fun name mentioned => by
    rw [namesOfAll] at mentioned
    rcases List.mem_append.mp mentioned with mentioned | mentioned
    · exact isMadeOf_of_isWellNamed head wellNamed.1 name mentioned
    · exact isWellNamed_of_mem_namesOfAll tail wellNamed.2 name mentioned

end

theorem IsReadable.isMadeOf {reference : TypeReference} (readable : reference.IsReadable) :
    reference.IsMadeOf QualifiedName.IsWellNamed :=
  isMadeOf_of_isWellNamed reference readable.wellNamed

end TypeReference

/-! ### Declarations -/

/-- The names in a sound declaration are well-formed, if its own name is. -/
theorem TypeDecl.IsSound.isMadeOf {decl : TypeDecl} (sound : decl.IsSound)
    (named : decl.name.IsWellNamed) : decl.IsMadeOf QualifiedName.IsWellNamed := by
  intro name mentioned
  rcases List.mem_cons.mp mentioned with rfl | mentioned
  · exact named
  · obtain ⟨reference, member, held⟩ := List.mem_flatMap.mp mentioned
    exact (sound.isReadable reference member).isMadeOf name held

/-! ### Assemblies -/

namespace Assembly

/-- The names of all types of an assembly, at any depth. -/
def declared (assembly : Assembly) : List QualifiedName :=
  (subtreesIn assembly.types).map fun tree => tree.decl.name

/-- The names that an assembly mentions: those of its types, and those in their references. -/
def names (assembly : Assembly) : List QualifiedName :=
  (subtreesIn assembly.types).flatMap fun tree => tree.decl.names

variable {assembly : Assembly}

mutual

theorem exists_holds_of_mem_subtrees {owner? : Option TypeDecl} :
    ∀ tree : TypeTree, assembly.Holds owner? tree → ∀ other ∈ tree.subtrees,
      ∃ around?, assembly.Holds around? other
  | .node decl inner, holds => by
    rw [TypeTree.subtrees, List.forall_mem_cons]
    exact ⟨⟨owner?, holds⟩,
      exists_holds_of_mem_subtreesIn inner fun child member => .inner holds member⟩

theorem exists_holds_of_mem_subtreesIn {owner? : Option TypeDecl} :
    ∀ trees : List TypeTree, (∀ tree ∈ trees, assembly.Holds owner? tree) →
      ∀ other ∈ subtreesIn trees, ∃ around?, assembly.Holds around? other
  | [], _ => fun _ member => absurd member List.not_mem_nil
  | tree :: rest, holds => by
    rw [List.forall_mem_cons] at holds
    rw [subtreesIn, List.forall_mem_append]
    exact ⟨exists_holds_of_mem_subtrees tree holds.1, exists_holds_of_mem_subtreesIn rest holds.2⟩

end

/-- The trees at any depth are the ones that an assembly holds. -/
theorem exists_holds {tree : TypeTree} (member : tree ∈ subtreesIn assembly.types) :
    ∃ owner?, assembly.Holds owner? tree :=
  exists_holds_of_mem_subtreesIn assembly.types (fun _ member => .top member) tree member

end Assembly

section IsRead

open Listing

variable {assembly : Assembly} {tree : TypeTree}

/-- **The names that an assembly mentions are well-formed.** -/
theorem isMadeOf_of_isRead (read : assembly.IsRead) (member : tree ∈ subtreesIn assembly.types) :
    tree.decl.IsMadeOf QualifiedName.IsWellNamed := by
  obtain ⟨owner?, holds⟩ := Assembly.exists_holds member
  obtain ⟨sound, named, -⟩ := isSound_of_holds read holds
  exact sound.isMadeOf named

/-- **A type is in the namespace of the top-level type around it.** -/
theorem space_mem_namespaces (read : assembly.IsRead) {name : QualifiedName}
    (member : name ∈ assembly.declared) : name.space ∈ assembly.namespaces := by
  obtain ⟨tree, treeMember, rfl⟩ := List.mem_map.mp member
  obtain ⟨owner?, holds⟩ := Assembly.exists_holds treeMember
  clear treeMember member
  induction holds with
  | top member => exact List.mem_map_of_mem member
  | inner holds member hypothesis =>
    obtain ⟨-, -, placed⟩ := isSound_of_holds read (.inner holds member)
    rw [placed.1]
    exact hypothesis

end IsRead

end ExternBindings
