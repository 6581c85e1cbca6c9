/-
**Which methods are marked as overrides.**

Whether a method is left to its ancestors, and whether one that is written is marked as an override,
are told by tests of their own. They agree on the inherited method that decides.

* `Attributes.MarksOverride` — the word stands among the attributes as written;
* `Catalog.marksOverride_iff_redeclared` — the forms of a method are marked exactly if it is declared
  beside an inherited one;
* `Catalog.overrides_are_marked` — **a method that is written is marked exactly if an inherited one
  with as many parameters can be seen, or it is declared beside one with another number.** No method
  that is declared like any other has an inherited one with as many parameters to see.
-/

import ExternBindings.Proofs.Listing.Characters
import ExternBindings.Proofs.Output.FunctionForms

namespace ExternBindings

/-! ### The mark -/

/-- The word that marks an override stands among the attributes as written. -/
def Attributes.MarksOverride (attributes : Attributes) : Prop :=
  "override ".toList <:+: attributes.text.toList

instance (attributes : Attributes) : Decidable attributes.MarksOverride :=
  inferInstanceAs (Decidable (_ <:+: _))

/-- No other attribute is written with that word in it. -/
theorem Attributes.marksOverride_iff {attributes : Attributes} :
    attributes.MarksOverride ↔ attributes.isOverride = true := by
  have all : ∀ isPublic isStatic isOverride : Bool,
      Attributes.MarksOverride { isPublic, isStatic, isOverride } ↔ isOverride = true := by
    decide +kernel
  exact all attributes.isPublic attributes.isStatic attributes.isOverride

namespace Catalog

variable {catalog : Catalog} {site : Site} {index : TypeIndex}

/-- **The forms of a method are marked exactly if it is declared beside an inherited one**, its own
form as well as that of the ancestor. -/
theorem marksOverride_iff_redeclared {decl : TypeDecl} {method : Method} {draft : FormDraft}
    (drafted : catalog.draft? site index decl method = some draft) {form : FunctionForm}
    (member : form ∈ draft.forms) :
    form.attributes.MarksOverride ↔
      ∃ inherited, catalog.world.treatment index method = .redeclared inherited := by
  rw [Attributes.marksOverride_iff]
  obtain ⟨-, -, ⟨became, forms⟩ | ⟨inherited, became, forms⟩⟩ := draft?_cases drafted
  · rw [forms] at member
    obtain rfl := List.mem_singleton.mp member
    simp [became, ownForm, TypeDecl.attributes]
  · have onValues := (World.treatment_eq_redeclared_iff.mp became).2.1
    have attributes : form.attributes = decl.attributes method true := by
      rw [forms] at member
      rcases List.mem_cons.mp member with rfl | member
      · rfl
      · rw [List.mem_singleton.mp member]
        rfl
    rw [attributes, became]
    simp [TypeDecl.attributes, onValues]

/-- What a form of a type is that is no ancestor's: it belongs to a method of the type that is written,
and is marked exactly if that method is declared beside an inherited one. -/
theorem exists_isWritten_of_own {name : String} {form : FunctionForm}
    (has : HasForm (catalog.functionsOf site index).groups name form)
    (own : form.isAncestral = false) :
    catalog.world.IsWritten index form.source ∧ (form.attributes.MarksOverride ↔
      ∃ inherited, catalog.world.treatment index form.source = .redeclared inherited) := by
  obtain ⟨draft, member, -, inForms⟩ := exists_draft_of_hasForm_groups has
  obtain ⟨decl, found, method, declared, drafted⟩ := mem_drafts_iff.mp member
  obtain ⟨notSkipped, notInherited, -, -, -, forms⟩ := of_draft? drafted
  obtain ⟨-, ⟨-, rfl⟩ | ⟨ancestral, -⟩⟩ := forms form inForms
  · exact ⟨⟨World.mem_methods_iff.mpr ⟨decl, found, declared⟩, notSkipped, notInherited⟩,
      marksOverride_iff_redeclared drafted inForms⟩
  · rw [own] at ancestral
    cases ancestral

/-- A method that is called on values and written is declared beside an inherited one if there is one
with as many parameters to see. -/
theorem exists_redeclared_of_visible {method : Method} {inherited : InheritedMethod}
    (isWritten : catalog.world.IsWritten index method) (onValues : method.isInstanceMember = true)
    (found : catalog.world.visibleInherited? index method .exact = some inherited) :
    ∃ inherited, catalog.world.treatment index method = .redeclared inherited := by
  cases treated : catalog.world.treatment index method with
  | skipped => exact absurd treated isWritten.notSkipped
  | inherited => exact absurd treated isWritten.notInherited
  | declared =>
    rw [((World.treatment_eq_declared_iff.mp treated).2 onValues).1] at found
    cases found
  | redeclared inherited => exact ⟨inherited, rfl⟩

/-- **Hiding and marking agree.** A method is left to its ancestors exactly if it may be declared at
all and is superfluous. Of the methods that are written, those that are called on values are marked
exactly if an inherited one with as many parameters can be seen or they are declared beside another
one. Those that are declared like any other have no inherited one with as many parameters to see. -/
theorem overrides_are_marked (catalog : Catalog) (site : Site) (index : TypeIndex) :
    (∀ method, catalog.world.treatment index method = .inherited ↔
      catalog.world.isDeclarable index method = true ∧
        catalog.world.isSuperfluous index method = true) ∧
    (∀ name form, HasForm (catalog.functionsOf site index).groups name form →
      form.isAncestral = false →
        form.source ∈ catalog.world.methods index ∧
          (form.attributes.MarksOverride ↔ form.source.isInstanceMember = true ∧
            ((∃ inherited,
                catalog.world.visibleInherited? index form.source .exact = some inherited) ∨
              ∃ inherited,
                catalog.world.treatment index form.source = .redeclared inherited))) ∧
    ∀ method, catalog.world.treatment index method = .declared → method.isInstanceMember = true →
      catalog.world.visibleInherited? index method .exact = none := by
  refine ⟨fun method => World.treatment_eq_inherited_iff_isSuperfluous,
    fun name form has own => ?_, fun method became onValues => ?_⟩
  · obtain ⟨isWritten, marked⟩ := exists_isWritten_of_own has own
    refine ⟨isWritten.declared, marked.trans ⟨fun redeclared => ?_, ?_⟩⟩
    · obtain ⟨inherited, became⟩ := redeclared
      exact ⟨(World.treatment_eq_redeclared_iff.mp became).2.1, Or.inr ⟨inherited, became⟩⟩
    · rintro ⟨onValues, ⟨inherited, found⟩ | redeclared⟩
      · exact exists_redeclared_of_visible isWritten onValues found
      · exact redeclared
  · exact ((World.treatment_eq_declared_iff.mp became).2 onValues).1

/-! ### Methods that are marked -/

/-- A method that is written beside the one that it overrides, one that is left to its ancestor, and
one that the ancestor does not have. -/
def markedTexts : List String :=
  ["assembly a namespace \x7b public interface I \x7b public method M(): X \x7d " ++
      "class A \x7b public method M(x: X): X public method N(): X \x7d " ++
      "class B extends A implements I \x7b public method M(y: X): X public method N(): X " ++
      "public method P(): X \x7d \x7d"]

/-- The types of the listing. -/
def markedCatalog : Catalog :=
  Catalog.ofAssemblies (markedTexts.map Listing.assemblyOf) {}

theorem markedCatalog_facts :
    (∀ text ∈ markedTexts, (Listing.readAssembly text).isOk = true) ∧
      ((markedCatalog.functionsOf (.ofFile { space := "", name := "B" }) 2).groups.map
        FunctionGroup.name) = ["M", "P"] ∧
      ∃ group ∈ (markedCatalog.functionsOf (.ofFile { space := "", name := "B" }) 2).groups,
        group.name = "M" ∧ ∃ form ∈ group.forms, form.isAncestral = false ∧
          form.source.isInstanceMember = true ∧
            (markedCatalog.world.visibleInherited? 2 form.source .exact).isSome = true := by
  unfold markedCatalog
  rw [Listing.forall_isOk_iff, Listing.map_assemblyOf_eq]
  unfold markedTexts
  simp only [List.map_cons, List.map_nil, String.toList_append]
  repeat rw [String.toList_ofList]
  decide +kernel

/-- A method that is written although an inherited one has as many parameters is marked. -/
theorem overrides_are_marked_beside :
    ∃ form, HasForm (markedCatalog.functionsOf (.ofFile { space := "", name := "B" }) 2).groups "M"
      form ∧ form.isAncestral = false ∧ form.attributes.MarksOverride := by
  obtain ⟨-, -, group, member, named, form, inForms, own, onValues, visible⟩ := markedCatalog_facts
  have has : HasForm _ "M" form := ⟨group, member, named, inForms⟩
  obtain ⟨inherited, found⟩ := Option.isSome_iff_exists.mp visible
  obtain ⟨-, marked⟩ := (overrides_are_marked markedCatalog _ 2).2.1 "M" form has own
  exact ⟨form, has, own, marked.mpr ⟨onValues, Or.inl ⟨inherited, found⟩⟩⟩

end Catalog

end ExternBindings
