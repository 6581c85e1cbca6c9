/-
**How declared types are nested.**

In a world of assemblies that were read, every type stands behind the one that it is declared in and
has a name inside of that one's name.

* `TypeTree.IsNamed` — a tree whose names hang together; `isNamed_of_isRead` finds that of
  every assembly that was read;
* `Linked` — the same of a list of entries, by their positions; it is kept when trees are laid out
  one behind the other (`linked_entries`);
* `World.IsNested` — a world that is laid out in this way, and `isNested_ofAssemblies`.
-/

import ExternBindings.Proofs.Listing.Accessors
import ExternBindings.Proofs.Listing.WellFormed
import ExternBindings.World.Basic

namespace ExternBindings

/-! ### Names inside of each other -/

/-- The well-formed name of a type that is declared directly inside of `outer`. -/
def QualifiedName.Holds (outer name : QualifiedName) : Prop :=
  ∃ own, isIdentifier own = true ∧ name = outer.inside own

/-- The well-formed name of a type that is not declared in another one. -/
structure QualifiedName.IsTopLevel (name : QualifiedName) : Prop where
  wellNamed : name.IsWellNamed
  alone : name.enclosing = []

mutual

/-- The outermost name is as `fits` demands, and every other one is inside of the one around it. -/
def TypeTree.IsNamed (fits : QualifiedName → Prop) : TypeTree → Prop
  | .node decl inner => fits decl.name ∧ AreNamed decl.name.Holds inner

/-- The same of several trees. -/
def AreNamed (fits : QualifiedName → Prop) : List TypeTree → Prop
  | [] => True
  | tree :: rest => tree.IsNamed fits ∧ AreNamed fits rest

end

theorem areNamed_iff {fits : QualifiedName → Prop} {trees : List TypeTree} :
    AreNamed fits trees ↔ ∀ tree ∈ trees, tree.IsNamed fits := by
  induction trees with
  | nil => simp [AreNamed]
  | cons tree rest hypothesis => simp [AreNamed, hypothesis]

/-! ### Assemblies that were read -/

namespace Listing

mutual

theorem isNamed_tree {fits : QualifiedName → Prop} {place : String → QualifiedName}
    (placed : ∀ own, isIdentifier own = true → fits (place own)) :
    ∀ node : TypeNode, node.IsWellFormed → (node.tree place).IsNamed fits
  | .node header content, wellFormed => by
    refine ⟨placed header.name wellFormed.1.name, ?_⟩
    exact areNamed_treesIn (fun own identifier => ⟨own, identifier, rfl⟩) content wellFormed.2

theorem areNamed_treesIn {fits : QualifiedName → Prop} {place : String → QualifiedName}
    (placed : ∀ own, isIdentifier own = true → fits (place own)) :
    ∀ content : List (TypeNode ⊕ MemberNode), IsWellFormedContent content →
      AreNamed fits (treesIn place content)
  | [], _ => trivial
  | .inl type :: rest, wellFormed =>
    ⟨isNamed_tree placed type wellFormed.1, areNamed_treesIn placed rest wellFormed.2⟩
  | .inr _ :: rest, wellFormed => areNamed_treesIn placed rest wellFormed.2

end

theorem isTopLevel_of_space {space own : String} (spelled : space = "" ∨ isDottedName space = true)
    (identifier : isIdentifier own = true) :
    QualifiedName.IsTopLevel { space, name := own } :=
  ⟨⟨spelled, fun _ member => absurd member List.not_mem_nil, identifier⟩, rfl⟩

end Listing

/-- The assembly was read from a text. -/
def Assembly.IsRead (assembly : Assembly) : Prop :=
  ∃ text file?, Listing.readAssembly text file? = .ok assembly

/-- The assembly that a text declares; empty for a text that is no listing. -/
def Listing.assemblyOf (text : String) : Assembly :=
  (readAssembly text).toOption.getD { name := "", types := [] }

theorem Listing.readAssembly_assemblyOf {text : String}
    (answered : (readAssembly text).isOk = true) : readAssembly text = .ok (assemblyOf text) := by
  unfold assemblyOf
  cases read : readAssembly text with
  | error error =>
    rw [read] at answered
    cases answered
  | ok assembly => rfl

theorem Listing.isRead_assemblyOf {text : String} (answered : (readAssembly text).isOk = true) :
    (assemblyOf text).IsRead :=
  ⟨text, none, readAssembly_assemblyOf answered⟩

/-- Every top-level type of an assembly that was read comes from a declaration in the text. -/
theorem exists_node_of_readAssembly {text : String} {file? : Option String} {assembly : Assembly}
    (read : Listing.readAssembly text file? = .ok assembly) {tree : TypeTree}
    (member : tree ∈ assembly.types) :
    ∃ listing, Listing.readListing text = .ok listing ∧ listing.fault? = none ∧
      ∃ block ∈ listing.namespaces, ∃ node ∈ block.types,
        tree = node.tree fun name => { space := block.space, name } := by
  obtain ⟨listing, listed, proper, rfl⟩ := Listing.readAssembly_eq_ok_iff.mp read
  obtain ⟨block, blockMember, treeMember⟩ := List.mem_flatMap.mp member
  obtain ⟨node, nodeMember, rfl⟩ := List.mem_map.mp treeMember
  exact ⟨listing, listed, proper, block, blockMember, node, nodeMember, rfl⟩

/-- This declaration is well-formed and stands in a namespace. -/
theorem exists_node_of_isRead {assembly : Assembly} (read : assembly.IsRead) {tree : TypeTree}
    (member : tree ∈ assembly.types) :
    ∃ (node : Listing.TypeNode) (space : String), node.IsWellFormed ∧
      (space = "" ∨ isDottedName space = true) ∧ tree = node.tree fun name => { space, name } := by
  obtain ⟨text, file?, answered⟩ := read
  obtain ⟨listing, listed, -, block, blockMember, node, nodeMember, rfl⟩ :=
    exists_node_of_readAssembly answered member
  have wellFormed := Listing.isWellFormed_of_readListing listed block blockMember
  exact ⟨node, block.space, wellFormed.types node nodeMember, wellFormed.space, rfl⟩

/-- **The names in an assembly that was read hang together.** -/
theorem isNamed_of_isRead {assembly : Assembly} (read : assembly.IsRead) :
    AreNamed QualifiedName.IsTopLevel assembly.types := by
  refine areNamed_iff.mpr fun tree member => ?_
  obtain ⟨node, space, wellFormed, spelled, rfl⟩ := exists_node_of_isRead read member
  exact Listing.isNamed_tree (fun own => Listing.isTopLevel_of_space spelled) node wellFormed

/-! ### Entries that are laid out -/

/-- Each entry either belongs to `owner?` and has a name as `fits` demands, or it belongs to an
entry in front of it and has a name inside of that one's; the first entry has the index `first`. -/
def Linked (owner? : Option TypeIndex) (first : TypeIndex) (fits : QualifiedName → Prop)
    (entries : List Entry) : Prop :=
  ∀ position entry, entries[position]? = some entry →
    (entry.owner? = owner? ∧ fits entry.decl.name) ∨
      ∃ before owner, before < position ∧ entries[before]? = some owner ∧
        entry.owner? = some (first + before) ∧ owner.decl.name.Holds entry.decl.name

section Linked

variable {owner? : Option TypeIndex} {first : TypeIndex} {fits : QualifiedName → Prop}

theorem linked_nil : Linked owner? first fits [] := by
  intro position entry found
  simp at found

theorem Linked.append {own rest : List Entry} (linked : Linked owner? first fits own)
    (linkedRest : Linked owner? (first + own.length) fits rest) :
    Linked owner? first fits (own ++ rest) := by
  intro position entry found
  by_cases inside : position < own.length
  · rw [List.getElem?_append_left inside] at found
    rcases linked position entry found with top | ⟨before, owner, earlier, at_before, links⟩
    · exact Or.inl top
    · refine Or.inr ⟨before, owner, earlier, ?_, links⟩
      rwa [List.getElem?_append_left (Nat.lt_trans earlier inside)]
  · rw [Nat.not_lt] at inside
    rw [List.getElem?_append_right inside] at found
    rcases linkedRest _ entry found with top | ⟨before, owner, earlier, at_before, belongs, named⟩
    · exact Or.inl top
    · refine Or.inr ⟨own.length + before, owner, Nat.add_lt_of_lt_sub' earlier, ?_, ?_, named⟩
      · rw [List.getElem?_append_right (Nat.le_add_right _ _), Nat.add_sub_cancel_left]
        exact at_before
      · rw [belongs, Nat.add_assoc]

theorem Linked.cons {head : Entry} {rest : List Entry} (belongs : head.owner? = owner?)
    (named : fits head.decl.name)
    (linked : Linked (some first) (first + 1) head.decl.name.Holds rest) :
    Linked owner? first fits (head :: rest) := by
  intro position entry found
  cases position with
  | zero =>
    rw [List.getElem?_cons_zero, Option.some.injEq] at found
    subst found
    exact Or.inl ⟨belongs, named⟩
  | succ position =>
    rw [List.getElem?_cons_succ] at found
    right
    rcases linked position entry found with
      ⟨owned, inside⟩ | ⟨before, owner, earlier, at_before, owned, inside⟩
    · exact ⟨0, head, Nat.succ_pos position, rfl, owned, inside⟩
    · refine ⟨before + 1, owner, Nat.succ_lt_succ earlier, at_before, ?_, inside⟩
      rw [owned, Nat.add_assoc, Nat.add_comm 1 before]

end Linked

mutual

theorem linked_entries (assembly : Nat) {owner? : Option TypeIndex} {fits : QualifiedName → Prop} :
    ∀ (first : TypeIndex) (tree : TypeTree), tree.IsNamed fits →
      Linked owner? first fits (tree.entries assembly owner? first)
  | first, .node decl inner, named => by
    rw [TypeTree.entries]
    exact Linked.cons rfl named.1 (linked_entriesOfTrees assembly (first + 1) inner named.2)

theorem linked_entriesOfTrees (assembly : Nat) {owner? : Option TypeIndex}
    {fits : QualifiedName → Prop} :
    ∀ (first : TypeIndex) (trees : List TypeTree), AreNamed fits trees →
      Linked owner? first fits (entriesOfTrees assembly owner? first trees)
  | _, [], _ => by
    rw [entriesOfTrees]
    exact linked_nil
  | first, tree :: rest, named => by
    rw [entriesOfTrees]
    exact (linked_entries assembly first tree named.1).append
      (linked_entriesOfTrees assembly _ rest named.2)

end

theorem linked_entriesOfAssemblies (assemblies : List Assembly) :
    (∀ assembly ∈ assemblies, assembly.IsRead) → ∀ position first,
      Linked none first QualifiedName.IsTopLevel
        (entriesOfAssemblies position first assemblies) := by
  induction assemblies with
  | nil => exact fun _ _ _ => linked_nil
  | cons head rest hypothesis =>
    intro read position first
    rw [List.forall_mem_cons] at read
    have own : Linked none first _ _ :=
      linked_entriesOfTrees position first head.types (isNamed_of_isRead read.1)
    exact own.append (hypothesis read.2 (position + 1) _)

/-! ### Nested worlds -/

namespace World

/-- Every type stands behind the one that it is declared in and has a name inside of that one's. -/
def IsNested (world : World) : Prop :=
  ∀ index entry, world.entry? index = some entry →
    (entry.owner? = none ∧ entry.decl.name.IsTopLevel) ∨
      ∃ owner ownerEntry, owner < index ∧ world.entry? owner = some ownerEntry ∧
        entry.owner? = some owner ∧ ownerEntry.decl.name.Holds entry.decl.name

/-- **A world of assemblies that were read is nested.** -/
theorem isNested_ofAssemblies {assemblies : List Assembly}
    (read : ∀ assembly ∈ assemblies, assembly.IsRead) : (ofAssemblies assemblies).IsNested := by
  intro index entry found
  rcases linked_entriesOfAssemblies assemblies read 0 0 index entry found with
    top | ⟨before, owner, earlier, at_before, belongs, inside⟩
  · exact Or.inl top
  · rw [Nat.zero_add] at belongs
    exact Or.inr ⟨before, owner, earlier, at_before, belongs, inside⟩

variable {world : World}

/-- In a nested world all names follow the rules. -/
theorem IsNested.isWellNamed (nested : world.IsNested) :
    ∀ {index entry}, world.entry? index = some entry → entry.decl.name.IsWellNamed := by
  intro index
  induction index using Nat.strong_induction_on with
  | _ index hypothesis =>
    intro entry found
    rcases nested index entry found with
      ⟨-, top⟩ | ⟨owner, ownerEntry, earlier, ownerFound, -, own, identifier, name⟩
    · exact top.wellNamed
    · rw [name]
      exact Listing.isWellNamed_inside (hypothesis owner earlier ownerFound) identifier

theorem IsNested.isTopLevel (nested : world.IsNested) {index : TypeIndex} {entry : Entry}
    (found : world.entry? index = some entry) (top : entry.isTopLevel = true) :
    entry.decl.name.IsTopLevel := by
  rw [Entry.isTopLevel, Option.isNone_iff_eq_none] at top
  rcases nested index entry found with ⟨-, named⟩ | ⟨owner, _, -, -, belongs, -⟩
  · exact named
  · rw [top] at belongs
    cases belongs

end World

end ExternBindings
