/-
**Overrides are left to their ancestors.**

A type does not write a method again that an ancestor has with as many parameters, unless a contract
of the type asks for the name.

* `Catalog.WritesFormFor` — the type or its companion has a form whose source is the method;
* `Catalog.overrides_are_suppressed` — an override has no such form, with one exception: only the
  nearest inherited method of the name and number of parameters is looked at, and where that one
  cannot be seen, a public method is written although an ancestor behind it has one to see
  (`Catalog.exists_not_suppressed`).
-/

import ExternBindings.Proofs.Listing.Characters
import ExternBindings.Proofs.Output.FunctionForms
import ExternBindings.Proofs.World.Nesting

namespace ExternBindings

open World (answersTo)

namespace Catalog

variable {catalog : Catalog} {site : Site} {index owner : TypeIndex} {method other : Method}

/-- The type or its companion has a form whose source is the method. -/
def WritesFormFor (catalog : Catalog) (site : Site) (index : TypeIndex) (method : Method) : Prop :=
  ∃ name form, HasForm (catalog.functionsOf site index).groups name form ∧ form.source = method

/-- Where no contract asks for the name of a method, a form for it is the method's own, and never one
that is kept beside another method. -/
theorem WritesFormFor.treatment (writes : catalog.WritesFormFor site index method)
    (notRequired : catalog.world.isRequired index method = false) :
    catalog.world.treatment index method ≠ .skipped ∧
      catalog.world.treatment index method ≠ .inherited := by
  obtain ⟨name, form, has, rfl⟩ := writes
  cases origin_of_hasForm has with
  | own _ _ notSkipped notInherited _ => exact ⟨notSkipped, notInherited⟩
  | beside _ redeclared _ inherited became source _ =>
    have required := World.isRequired_of_addsContract
      (World.treatment_eq_redeclared_iff.mp became).2.2.2
    obtain ⟨arity, isInherited⟩ := World.isInherited_of_treatment_eq_redeclared became
    have sameName : form.source.unqualifiedName = redeclared.unqualifiedName := by
      rw [source]
      exact World.unqualifiedName_eq_of_answersTo isInherited.answers
    unfold World.isRequired at required notRequired
    rw [sameName, required] at notRequired
    cases notRequired

/-- A method that is called on values is left to its ancestors if the nearest one of its name and
number of parameters can be seen, and no contract asks for the name. -/
theorem treatment_of_isNearest {inherited : InheritedMethod}
    (onValues : method.isInstanceMember = true)
    (notRequired : catalog.world.isRequired index method = false)
    (nearest : catalog.world.IsNearest index method .exact inherited)
    (visible : catalog.world.isVisible inherited.owner inherited.method = true) :
    catalog.world.treatment index method = .skipped ∨
      catalog.world.treatment index method = .inherited := by
  by_cases declarable : catalog.world.isDeclarable index method = true
  · right
    refine World.treatment_eq_inherited_iff.mpr ⟨declarable, onValues, inherited, ?_, ?_⟩
    · exact World.visibleInherited?_eq_some_iff.mpr ⟨nearest, visible⟩
    · rw [← Bool.not_eq_true]
      intro adds
      rw [World.isRequired_of_addsContract adds] at notRequired
      cases notRequired
  · exact Or.inl (World.treatment_eq_skipped_iff.mpr (Bool.eq_false_iff.mpr declarable))

/-- **Overrides are left to their ancestors.** Where an ancestor has a method of the same name and
number of parameters, and no contract of the type asks for the name, a method that is called on
values has no form in the functions of the type; only if it is public and called by its name, and
the nearest inherited one of its name and number of parameters cannot be seen, it may have. -/
theorem overrides_are_suppressed (onValues : method.isInstanceMember = true)
    (notRequired : catalog.world.isRequired index method = false)
    (related : owner ∈ catalog.world.ancestors index)
    (declared : other ∈ catalog.world.methods owner)
    (answers : answersTo method .exact other = true) (site : Site) :
    ¬ catalog.WritesFormFor site index method ∨
      method.isPublic = true ∧ method.isCalledByName = true ∧
        ∃ inherited, catalog.world.IsNearest index method .exact inherited ∧
          catalog.world.isVisible inherited.owner inherited.method = false := by
  by_cases writes : catalog.WritesFormFor site index method
  · right
    obtain ⟨notSkipped, notInherited⟩ := writes.treatment notRequired
    obtain ⟨inherited, nearest⟩ := World.exists_isNearest related declared answers
    have declarable : catalog.world.isDeclarable index method = true := by
      rw [← Bool.not_eq_false]
      exact fun refused => notSkipped (World.treatment_eq_skipped_iff.mpr refused)
    obtain ⟨byName, visible⟩ := Bool.and_eq_true_iff.mp declarable
    have isPublic : method.isPublic = true := by
      unfold World.isVisible at visible
      rwa [notRequired, Bool.or_false] at visible
    refine ⟨isPublic, byName, inherited, nearest, ?_⟩
    rw [← Bool.not_eq_true]
    intro inSight
    rcases treatment_of_isNearest onValues notRequired nearest inSight with skipped | left
    · exact notSkipped skipped
    · exact notInherited left
  · exact Or.inl writes

/-! ### Overrides that are written -/

/-- A method that is private in between, and one that is an override and nothing else. -/
def overrideTexts : List String :=
  ["assembly a namespace \x7b class C \x7b public method M(): X \x7d " ++
      "class B extends C \x7b method M(): X \x7d " ++
      "class A extends B \x7b public method M(): X \x7d \x7d",
    "assembly b namespace \x7b class D \x7b public method N(x: X): X \x7d " ++
      "class E extends D \x7b public method N(y: X): X \x7d \x7d"]

/-- The types of the listings. -/
def overrideCatalog : Catalog :=
  Catalog.ofAssemblies (overrideTexts.map Listing.assemblyOf) {}

/-- A method that is called on values, without a contract that asks for its name, where an ancestor
has a public method of the same kind, name and number of parameters. -/
def IsOverride (catalog : Catalog) (index : TypeIndex) (method : Method) : Prop :=
  method.isInstanceMember = true ∧ catalog.world.isRequired index method = false ∧
    ∃ owner ∈ catalog.world.ancestors index, ∃ other ∈ catalog.world.methods owner,
      other.isPublic = true ∧ other.isInstanceMember = true ∧ other.isCalledByName = true ∧
        answersTo method .exact other = true

instance (catalog : Catalog) (index : TypeIndex) (method : Method) :
    Decidable (catalog.IsOverride index method) :=
  inferInstanceAs (Decidable (_ ∧ _ ∧ ∃ owner ∈ catalog.world.ancestors index, _))

theorem overrideCatalog_facts :
    (∀ text ∈ overrideTexts, (Listing.readAssembly text).isOk = true) ∧
      (∃ group ∈ (overrideCatalog.functionsOf (.ofFile { space := "", name := "A" }) 2).groups,
        ∃ form ∈ group.forms, form.isAncestral = false ∧ overrideCatalog.IsOverride 2 form.source) ∧
      ∃ method ∈ overrideCatalog.world.methods 4,
        overrideCatalog.IsOverride 4 method ∧ method.name = "N" ∧
          (overrideCatalog.world.nearestInherited? 4 method .exact).any (fun inherited =>
            overrideCatalog.world.isVisible inherited.owner inherited.method) = true := by
  unfold overrideCatalog
  rw [Listing.forall_isOk_iff, Listing.map_assemblyOf_eq]
  unfold overrideTexts
  simp only [List.map_cons, List.map_nil, String.toList_append]
  repeat rw [String.toList_ofList]
  decide +kernel

/-- An override whose nearest inherited method can be seen is not written. -/
theorem overrides_are_suppressed_visible :
    ∃ method ∈ overrideCatalog.world.methods 4, method.name = "N" ∧
      ∀ site, ¬ overrideCatalog.WritesFormFor site 4 method := by
  obtain ⟨-, -, method, declared, ⟨onValues, notRequired, owner, related, other, otherDeclared, -, -,
    -, answers⟩, named, inSight⟩ := overrideCatalog_facts
  refine ⟨method, declared, named, fun site => ?_⟩
  rcases overrides_are_suppressed onValues notRequired related otherDeclared answers site with
    suppressed | ⟨-, -, inherited, nearest, hidden⟩
  · exact suppressed
  · rw [World.nearestInherited?_eq_some_iff.mpr nearest, Option.any_some, hidden] at inSight
    cases inSight

/-- Not every override is left to its ancestors: a method that cannot be seen may stand in
between. -/
theorem exists_not_suppressed :
    (∀ text ∈ overrideTexts, (Listing.readAssembly text).isOk = true) ∧
      ∃ method ∈ overrideCatalog.world.methods 2, overrideCatalog.IsOverride 2 method ∧
        ∃ site, overrideCatalog.WritesFormFor site 2 method := by
  obtain ⟨answered, ⟨group, groupMember, form, formMember, isOwn, isOverride⟩, -⟩ :=
    overrideCatalog_facts
  have has : HasForm _ group.name form := ⟨group, groupMember, rfl, formMember⟩
  refine ⟨answered, form.source, ?_, isOverride, _, group.name, form, has, rfl⟩
  cases origin_of_hasForm has with
  | own _ declared _ _ _ => exact declared
  | beside isAncestral _ _ _ _ _ _ =>
    rw [isOwn] at isAncestral
    cases isAncestral

end Catalog

end ExternBindings
