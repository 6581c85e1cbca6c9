/-
**Contracts are what can be reached.**

A type names its base and its interfaces by references, and a reference names the declaration that
it resolves to, if there is one. Nothing is known of the paths along such links: they may run in
circles, and they may pass types that nobody outside may use.

* `World.Extends`, `World.Implements` — the two kinds of links;
* `World.ListsInterfaces` — a list of the public interfaces at the end of a path of at least one
  link, without the type that the paths start from;
* `World.contracts_are_reached` — **the contracts of a type are those along interfaces alone, and all
  of its contracts those along links of both kinds**, each of them once. So a type shares all
  contracts of its base.
-/

import ExternBindings.Proofs.Listing.Characters
import ExternBindings.Proofs.World.Reachability

namespace ExternBindings.World

variable {world : World} {index other : TypeIndex}

/-! ### Links between declarations -/

/-- The reference to the base of the type resolves to the other one. -/
def Extends (world : World) (index other : TypeIndex) : Prop :=
  ∃ decl, world.decl? index = some decl ∧
    ∃ reference, decl.base? = some reference ∧ world.target? reference = some other

/-- A reference to an interface of the type resolves to the other one. -/
def Implements (world : World) (index other : TypeIndex) : Prop :=
  ∃ decl, world.decl? index = some decl ∧
    ∃ reference ∈ decl.interfaces, world.target? reference = some other

/-- The type is an interface that everyone may use. -/
def IsInterface (world : World) (index : TypeIndex) : Prop :=
  ∃ entry, world.entry? index = some entry ∧
    entry.decl.isInterface = true ∧ entry.isPublic = true

theorem base?_eq_some_iff : world.base? index = some other ↔ world.Extends index other := by
  unfold base? Extends
  simp only [Option.bind_eq_some_iff]

theorem isLinked_implemented_iff :
    IsLinked world.implemented index other ↔ world.Implements index other :=
  mem_implemented

theorem isLinked_parents_iff :
    IsLinked world.parents index other ↔
      world.Extends index other ∨ world.Implements index other := by
  rw [← base?_eq_some_iff, ← isLinked_implemented_iff]
  exact mem_parents

theorem isPublicInterface_iff : world.isPublicInterface index = true ↔ world.IsInterface index := by
  unfold isPublicInterface IsInterface
  simp only [Option.any_eq_true, Bool.and_eq_true]

/-! ### Paths of links -/

/-- The list has, each of them once, exactly the other types at the end of a path of links that are
interfaces for everyone. -/
structure ListsInterfaces (world : World) (links : TypeIndex → TypeIndex → Prop)
    (index : TypeIndex) (listed : List TypeIndex) : Prop where
  nodup : listed.Nodup
  mem_iff : ∀ contract, contract ∈ listed ↔
    Relation.TransGen links index contract ∧ contract ≠ index ∧ world.IsInterface contract

theorem nodup_interfacesReached (world : World) (links : TypeIndex → List TypeIndex)
    (index : TypeIndex) : (world.interfacesReached links index).Nodup :=
  (nodup_preorder links _ List.nodup_nil).filter _

/-- **A walk lists the interfaces that can be reached.** The type that it starts from is reached
without a link, but it is never listed. -/
theorem listsInterfaces_of_isLinked {links : TypeIndex → List TypeIndex}
    {relation : TypeIndex → TypeIndex → Prop}
    (inside : ∀ index, world.entries.length ≤ index → links index = [])
    (linked : ∀ {index other}, IsLinked links index other ↔ relation index other)
    (index : TypeIndex) :
    world.ListsInterfaces relation index (world.interfacesReached links index) := by
  refine ⟨nodup_interfacesReached world links index, fun contract => ?_⟩
  have sameLinks : IsLinked links = relation := funext₂ fun _ _ => propext linked
  rw [mem_interfacesReached_iff inside, isPublicInterface_iff, sameLinks,
    Relation.reflTransGen_iff_eq_or_transGen]
  constructor
  · rintro ⟨same | path, differs, isInterface⟩
    · exact absurd same differs
    · exact ⟨path, differs, isInterface⟩
  · rintro ⟨path, differs, isInterface⟩
    exact ⟨Or.inr path, differs, isInterface⟩

theorem mem_requiredNames_iff {name : String} :
    name ∈ world.requiredNames index ↔
      ∃ contract ∈ world.contracts index, ∃ method ∈ world.methods contract,
        method.unqualifiedName = name := by
  unfold requiredNames
  simp only [List.mem_flatMap, List.mem_map]

/-- More kinds of links lead to no fewer interfaces. -/
theorem ListsInterfaces.subset {fewer more : TypeIndex → TypeIndex → Prop}
    {listed listedToo : List TypeIndex} (lists : world.ListsInterfaces fewer index listed)
    (listsToo : world.ListsInterfaces more index listedToo)
    (among : ∀ type next, fewer type next → more type next) : listed ⊆ listedToo := by
  intro contract member
  obtain ⟨path, rest⟩ := (lists.mem_iff contract).mp member
  exact (listsToo.mem_iff contract).mpr ⟨Relation.TransGen.mono among _ _ path, rest⟩

/-- What can be reached behind a link can be reached in front of it. -/
theorem ListsInterfaces.subset_of_link {links : TypeIndex → TypeIndex → Prop}
    {listed listedBehind : List TypeIndex} (lists : world.ListsInterfaces links index listed)
    (listsBehind : world.ListsInterfaces links other listedBehind) (link : links index other) :
    listedBehind ⊆ index :: listed := by
  intro contract member
  obtain ⟨path, -, isInterface⟩ := (listsBehind.mem_iff contract).mp member
  by_cases same : contract = index
  · rw [same]
    exact List.mem_cons_self
  · exact List.mem_cons_of_mem _ ((lists.mem_iff contract).mpr ⟨path.head link, same, isInterface⟩)

/-! ### The contracts of a type -/

/-- **Contracts are what can be reached.** The contracts of a type are the public interfaces along
interfaces, and all of its contracts those along bases and interfaces; the names it is asked for are
those of the methods of its contracts. -/
theorem contracts_are_reached (world : World) (index : TypeIndex) :
    world.ListsInterfaces world.Implements index (world.contracts index) ∧
      world.ListsInterfaces
        (fun type other => world.Extends type other ∨ world.Implements type other) index
        (world.allContracts index) ∧
      (∀ name, name ∈ world.requiredNames index ↔
        ∃ contract ∈ world.contracts index, ∃ method ∈ world.methods contract,
          method.unqualifiedName = name) ∧
      world.contracts index ⊆ world.allContracts index ∧
      ∀ base, world.Extends index base →
        world.allContracts base ⊆ index :: world.allContracts index := by
  have own : world.ListsInterfaces world.Implements index (world.contracts index) :=
    listsInterfaces_of_isLinked (fun _ => implemented_eq_nil) isLinked_implemented_iff index
  have all (type : TypeIndex) : world.ListsInterfaces
      (fun type other => world.Extends type other ∨ world.Implements type other) type
      (world.allContracts type) :=
    listsInterfaces_of_isLinked (fun _ => parents_eq_nil) isLinked_parents_iff type
  refine ⟨own, all index, fun name => mem_requiredNames_iff, ?_, fun base link => ?_⟩
  · exact own.subset (all index) fun _ _ => Or.inr
  · exact (all index).subset_of_link (all base) (Or.inl link)

/-! ### Links in a circle -/

/-- Interfaces that extend each other, one of which nobody outside may use, and two classes that
extend each other. -/
def circleTexts : List String :=
  ["assembly a namespace \x7b public interface I implements J \x7b public method M(): X \x7d " ++
      "interface J implements K \x7b public method N(): X \x7d " ++
      "public interface K implements I, Q \x7b \x7d " ++
      "class A extends B implements J \x7b \x7d class B extends A implements I \x7b \x7d \x7d"]

/-- The types of the listing. -/
def circleWorld : World :=
  World.ofAssemblies (circleTexts.map Listing.assemblyOf)

theorem circleWorld_facts :
    (∀ text ∈ circleTexts, (Listing.readAssembly text).isOk = true) ∧
      circleWorld.base? 3 = some 4 ∧ circleWorld.base? 4 = some 3 ∧
      circleWorld.contracts 0 = [2] ∧ circleWorld.contracts 3 = [2, 0] ∧
      circleWorld.requiredNames 3 = ["M"] ∧ circleWorld.allContracts 3 = [0, 2] := by
  unfold circleWorld
  rw [Listing.forall_isOk_iff, Listing.map_assemblyOf_eq]
  unfold circleTexts
  simp only [List.map_cons, List.map_nil, String.toList_append]
  repeat rw [String.toList_ofList]
  decide +kernel

/-- Of two classes that extend each other, each has the contracts of the other. -/
theorem contracts_are_reached_circle :
    circleWorld.Extends 3 4 ∧ circleWorld.allContracts 4 ⊆ 3 :: circleWorld.allContracts 3 := by
  have link : circleWorld.Extends 3 4 := base?_eq_some_iff.mp circleWorld_facts.2.1
  exact ⟨link, (contracts_are_reached circleWorld 3).2.2.2.2 4 link⟩

end ExternBindings.World
