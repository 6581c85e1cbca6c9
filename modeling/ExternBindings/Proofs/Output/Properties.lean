/-
**Leaving properties to ancestors.**

A property is left out where ancestors have methods that answer to the names of its accessors, with
any number of parameters. Such a method need not belong to a property.

* `Catalog.Offers` — a type has a property without parameters that everyone may use in one
  direction at least;
* `Catalog.exists_isInherited_of_omits` — what is known of a property that is left out: an ancestor
  has a method to see in the place of each public accessor;
* `Catalog.IsKept` — what becomes of a name under which a type offers a property: the type or an
  ancestor has a line for it; or the farthest property of that name is left out, for methods that
  belong to no property that an ancestor offers under it;
* `Catalog.properties_are_kept` — the induction along the ancestors, which no cycle may interrupt.
  The second case is there: the methods may be called by their name, belong to a property with
  parameters, or implement a contract without being public (`Catalog.exists_property_not_kept`).
-/

import ExternBindings.Output.Declaring
import ExternBindings.Proofs.Listing.Characters
import ExternBindings.Proofs.World.Ancestry
import ExternBindings.Proofs.World.Nesting
import ExternBindings.Proofs.World.Treatment

namespace ExternBindings

open World (answersTo)

namespace Catalog

variable {catalog : Catalog} {site : Site} {index : TypeIndex} {name : String} {decl : TypeDecl}
  {property : Property} {accessor : Method}

/-! ### Properties and their lines -/

/-- The method is the getter or the setter of the property. -/
def IsAccessor (decl : TypeDecl) (property : Property) (accessor : Method) : Prop :=
  decl.accessor? property.getter? = some accessor ∨ decl.accessor? property.setter? = some accessor

/-- The type has this property without parameters, with this name once it is unqualified, and with
an accessor that everyone may call. -/
structure Offers (catalog : Catalog) (index : TypeIndex) (name : String) (decl : TypeDecl)
    (property : Property) : Prop where
  found : catalog.world.decl? index = some decl
  declared : property ∈ decl.properties
  plain : property.isIndexer = false
  named : unqualified property.name = name
  accessible : ∃ accessor, IsAccessor decl property accessor ∧ accessor.isPublic = true

/-- At every site the type has a line for the property, with the unqualified name of it. -/
def Writes (catalog : Catalog) (index : TypeIndex) (decl : TypeDecl) (property : Property) : Prop :=
  ∀ site, ∃ line, catalog.propertyFor? site index decl property = some line ∧
    line.name = unqualified property.name

/-- At no site the type has a line for the property. -/
def Omits (catalog : Catalog) (index : TypeIndex) (decl : TypeDecl) (property : Property) : Prop :=
  ∀ site, catalog.propertyFor? site index decl property = none

/-- The site does not decide whether a property is written. -/
theorem writes_or_omits (catalog : Catalog) (index : TypeIndex) (decl : TypeDecl)
    (property : Property) :
    catalog.Writes index decl property ∨ catalog.Omits index decl property := by
  unfold Writes Omits propertyFor?
  dsimp only
  split
  · exact Or.inr fun _ => rfl
  · split
    · exact Or.inr fun _ => rfl
    · cases (decl.accessor? property.getter?).or (decl.accessor? property.setter?) with
      | none => exact Or.inr fun _ => rfl
      | some first => exact Or.inl fun _ => ⟨_, rfl, rfl⟩

/-! ### Methods in the place of accessors -/

/-- The search with equally many parameters finds nothing that the other one would refuse. -/
theorem isInherited_any {arity : ArityRule} {inherited : InheritedMethod}
    (isInherited : catalog.world.IsInherited index accessor arity inherited) :
    catalog.world.IsInherited index accessor .any inherited := by
  obtain ⟨notConstructor, sameName, -⟩ := World.answersTo_iff.mp isInherited.answers
  exact ⟨isInherited.ancestor, isInherited.declared,
    World.answersTo_iff.mpr ⟨notConstructor, sameName, Or.inl rfl⟩, isInherited.visible⟩

theorem exists_isInherited_of_isInherited
    (left : catalog.isInherited index (some accessor) = true) :
    ∃ inherited, catalog.world.IsInherited index accessor .any inherited := by
  unfold Catalog.isInherited at left
  rw [Option.all_some, Option.isSome_iff_exists] at left
  obtain ⟨inherited, found⟩ := left
  exact ⟨inherited, World.isInherited_of_visibleInherited? found⟩

theorem exists_isInherited_of_isExposed (isPublic : accessor.isPublic = true)
    (hidden : catalog.isExposed index (some accessor) = false) :
    ∃ inherited, catalog.world.IsInherited index accessor .any inherited := by
  unfold isExposed at hidden
  rw [Option.any_some, isPublic, Bool.true_and, Bool.not_eq_false', World.isSuperfluous_iff]
    at hidden
  obtain ⟨-, inherited, found, -⟩ := hidden
  exact ⟨inherited, isInherited_any (World.isInherited_of_visibleInherited? found)⟩

/-- **Where a property is left out, an ancestor has a method in the place of each public
accessor.** -/
theorem exists_isInherited_of_omits (omits : catalog.Omits index decl property)
    (isAccessor : IsAccessor decl property accessor) (isPublic : accessor.isPublic = true) :
    ∃ inherited, catalog.world.IsInherited index accessor .any inherited := by
  have leftOut := omits (Site.ofFile decl.name)
  unfold propertyFor? at leftOut
  dsimp only at leftOut
  split at leftOut
  · next left =>
    rw [Bool.and_eq_true] at left
    rcases isAccessor with getter | setter
    · exact exists_isInherited_of_isInherited (getter ▸ left.1)
    · exact exists_isInherited_of_isInherited (setter ▸ left.2)
  · split at leftOut
    · next hidden =>
      rw [Bool.and_eq_true, Bool.not_eq_true', Bool.not_eq_true'] at hidden
      rcases isAccessor with getter | setter
      · exact exists_isInherited_of_isExposed isPublic (getter ▸ hidden.1)
      · exact exists_isInherited_of_isExposed isPublic (setter ▸ hidden.2)
    · rw [Option.map_eq_none_iff, Option.or_eq_none_iff] at leftOut
      rcases isAccessor with getter | setter
      · rw [getter] at leftOut
        cases leftOut.1
      · rw [setter] at leftOut
        cases leftOut.2

/-! ### Along the ancestors -/

/-- What becomes of a name under which a type offers a property. -/
inductive IsKept (catalog : Catalog) (index : TypeIndex) (name : String) : Prop
  /-- the type or an ancestor has a line for a property of that name -/
  | written (owner : TypeIndex) (decl : TypeDecl) (property : Property)
      (related : owner ∈ index :: catalog.world.ancestors index)
      (offers : catalog.Offers owner name decl property)
      (writes : catalog.Writes owner decl property)
  /-- the type or an ancestor leaves a property of that name out, no ancestor of it offers one, and
  ancestors of it have methods in the place of the public accessors -/
  | replaced (owner : TypeIndex) (decl : TypeDecl) (property : Property)
      (related : owner ∈ index :: catalog.world.ancestors index)
      (offers : catalog.Offers owner name decl property)
      (omits : catalog.Omits owner decl property)
      (farthest : ∀ ancestor ∈ catalog.world.ancestors owner, ∀ otherDecl other,
        ¬ catalog.Offers ancestor name otherDecl other)
      (replaces : ∀ accessor, IsAccessor decl property accessor → accessor.isPublic = true →
        ∃ inherited, catalog.world.IsInherited owner accessor .any inherited)

theorem IsKept.of_ancestor {ancestor : TypeIndex}
    (below : ∀ owner ∈ ancestor :: catalog.world.ancestors ancestor,
      owner ∈ index :: catalog.world.ancestors index)
    (kept : catalog.IsKept ancestor name) : catalog.IsKept index name := by
  cases kept with
  | written owner decl property related offers writes =>
    exact .written owner decl property (below owner related) offers writes
  | replaced owner decl property related offers omits farthest replaces =>
    exact .replaced owner decl property (below owner related) offers omits farthest replaces

/-- By induction on the number of ancestors: where one of them offers a property of that name, what
becomes of it there becomes of it here. -/
theorem Offers.isKept (acyclic : catalog.world.IsAcyclic)
    (offers : catalog.Offers index name decl property) : catalog.IsKept index name := by
  induction count : (catalog.world.ancestors index).length using Nat.strongRecOn
    generalizing index decl property with
  | ind count hypothesis =>
    by_cases further : ∃ ancestor ∈ catalog.world.ancestors index, ∃ otherDecl other,
        catalog.Offers ancestor name otherDecl other
    · obtain ⟨ancestor, related, otherDecl, other, offersToo⟩ := further
      obtain ⟨nearer, path⟩ := World.exists_ancestors_eq_append acyclic related
      refine IsKept.of_ancestor (fun owner member => ?_) (hypothesis _ ?_ offersToo rfl)
      · rw [path]
        exact List.mem_cons_of_mem _ (List.mem_append_right _ member)
      · rw [← count, path, List.length_append, List.length_cons]
        omega
    · rcases writes_or_omits catalog index decl property with writes | omits
      · exact .written index decl property List.mem_cons_self offers writes
      · refine .replaced index decl property List.mem_cons_self offers omits ?_ ?_
        · exact fun ancestor related otherDecl other offersToo =>
            further ⟨ancestor, related, otherDecl, other, offersToo⟩
        · exact fun accessor => exists_isInherited_of_omits omits

/-- **A property is left to ancestors that have a line for it**, unless the farthest one of its name
is left out for methods that belong to no such property. -/
theorem properties_are_kept (acyclic : catalog.world.IsAcyclic)
    (found : catalog.world.decl? index = some decl) (declared : property ∈ decl.properties)
    (plain : property.isIndexer = false) (isAccessor : IsAccessor decl property accessor)
    (isPublic : accessor.isPublic = true) :
    catalog.IsKept index (unqualified property.name) := by
  have offers : catalog.Offers index (unqualified property.name) decl property :=
    ⟨found, declared, plain, rfl, accessor, isAccessor, isPublic⟩
  exact offers.isKept acyclic

/-! ### Properties that are lost -/

/-- Properties that are left out for a method, for a property with parameters and for one that only
implements a contract; and one that is left to the property it overrides. -/
def propertyTexts : List String :=
  ["assembly a namespace \x7b class A \x7b public method get_P(): X \x7d " ++
      "class B extends A \x7b public property P: X \x7b get; \x7d \x7d \x7d",
    "assembly b namespace \x7b class C \x7b public property Q: X [i: X] \x7b get; \x7d \x7d " ++
      "class D extends C \x7b public property Q: X \x7b get; \x7d \x7d \x7d",
    "assembly c namespace \x7b public interface I \x7b property R: X \x7b get; \x7d \x7d " ++
      "class E implements I \x7b property I.R: X \x7b get; \x7d \x7d " ++
      "class F extends E \x7b public property R: X \x7b get; \x7d \x7d \x7d",
    "assembly d namespace \x7b class G \x7b public property S: X \x7b get; set; \x7d \x7d " ++
      "class H extends G \x7b public property S: X \x7b get; set; \x7d \x7d \x7d"]

/-- The types of the listings. -/
def propertyCatalog : Catalog :=
  Catalog.ofAssemblies (propertyTexts.map Listing.assemblyOf) {}

/-- The type has a line for a property of that name. -/
def hasLine (catalog : Catalog) (index : TypeIndex) (name : String) : Bool :=
  (catalog.world.decl? index).any fun decl =>
    (catalog.propertyLines (.ofFile decl.name) index decl).any fun line => line.name = name

/-- Among the properties without parameters of the type is one of that name with a public getter. -/
def hasReadable (catalog : Catalog) (index : TypeIndex) (name : String) : Bool :=
  (catalog.world.decl? index).any fun decl => decl.properties.any fun property =>
    !property.isIndexer && decide (unqualified property.name = name) &&
      (decl.accessor? property.getter?).any Method.isPublic

theorem propertyCatalog_facts :
    (∀ text ∈ propertyTexts, (Listing.readAssembly text).isOk = true) ∧
      (∀ index ∈ propertyCatalog.world.indices, ∀ base ∈ propertyCatalog.world.base? index,
        base < index) ∧
      (∀ lost ∈ [(1, "P"), (3, "Q"), (6, "R")],
        propertyCatalog.hasReadable lost.1 lost.2 = true ∧
          ∀ owner ∈ lost.1 :: propertyCatalog.world.ancestors lost.1,
            propertyCatalog.hasLine owner lost.2 = false) ∧
      propertyCatalog.hasReadable 8 "S" = true ∧
        propertyCatalog.hasLine 8 "S" = false := by
  unfold propertyCatalog
  rw [Listing.forall_isOk_iff, Listing.map_assemblyOf_eq]
  unfold propertyTexts
  simp only [List.map_cons, List.map_nil, String.toList_append]
  repeat rw [String.toList_ofList]
  decide +kernel

/-- A property that its type leaves out is kept in the property that it overrides. -/
theorem properties_are_kept_override :
    propertyCatalog.hasLine 8 "S" = false ∧ propertyCatalog.IsKept 8 "S" := by
  obtain ⟨-, earlier, -, readable, leftOut⟩ := propertyCatalog_facts
  refine ⟨leftOut, ?_⟩
  unfold hasReadable at readable
  simp only [Option.any_eq_true, List.any_eq_true, Bool.and_eq_true, Bool.not_eq_true',
    decide_eq_true_eq] at readable
  obtain ⟨decl, found, property, declared, ⟨plain, named⟩, getter, same, isPublic⟩ := readable
  rw [← named]
  exact properties_are_kept (World.isAcyclic_of_forall_lt earlier) found declared plain
    (Or.inl same) isPublic

/-- Not every property has a line in its type or in an ancestor. -/
theorem exists_property_not_kept :
    (∀ text ∈ propertyTexts, (Listing.readAssembly text).isOk = true) ∧
      propertyCatalog.world.IsAcyclic ∧
      ∀ lost ∈ [(1, "P"), (3, "Q"), (6, "R")],
        propertyCatalog.hasReadable lost.1 lost.2 = true ∧
          ∀ owner ∈ lost.1 :: propertyCatalog.world.ancestors lost.1,
            propertyCatalog.hasLine owner lost.2 = false := by
  obtain ⟨answered, earlier, lost, -⟩ := propertyCatalog_facts
  exact ⟨answered, World.isAcyclic_of_forall_lt earlier, lost⟩

end Catalog

end ExternBindings
