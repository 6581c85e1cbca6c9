/-
**Static methods and methods that are called on values.**

A generated type cannot have a static function of the same name as one that is called on its values,
be it its own or an inherited one. Where a static method has the name of such a function, all static
methods of the type go to its companion.

* `Catalog.Contributes` — what a method adds to the functions of its type; a static method adds
  itself and nothing else (`Contributes.isStaticMember`);
* `Catalog.not_mem_callableNames` — a static function in the declaration itself has a name that no
  callable method has;
* `Catalog.statics_stand_apart` — so nothing but static methods goes by that name in the type, and in
  its ancestors and interfaces nothing but static methods, constructors and those methods that only
  an interface without a public method of the name asks for (`Catalog.Shares`).

Constructors are never looked at, since heirs do not inherit them; and the form of an ancestor that a
method is declared beside may be that of a static method (`Catalog.exists_not_keepsStaticsApart`).
-/

import ExternBindings.Proofs.Listing.Characters
import ExternBindings.Proofs.Output.FunctionForms
import ExternBindings.Proofs.World.Nesting
import ExternBindings.Proofs.World.Reachability

namespace ExternBindings

namespace Catalog

variable {catalog : Catalog} {site : Site} {index owner : TypeIndex} {method : Method}
  {name : String} {form : FunctionForm}

/-! ### What a method adds to the functions of its type -/

/-- The method of the type adds the form to the function of this name. -/
structure Contributes (catalog : Catalog) (site : Site) (owner : TypeIndex) (method : Method)
    (name : String) (form : FunctionForm) : Prop where
  declared : method ∈ catalog.world.methods owner
  visible : catalog.world.isDeclarable owner method = true
  notInherited : catalog.world.treatment owner method ≠ .inherited
  named : ∃ decl, catalog.world.decl? owner = some decl ∧ decl.functionName method = name
  source : form.isAncestral = false ∧ form.source = method ∨
    form.isAncestral = true ∧ method.isInstanceMember = true

theorem contributes_of_mem_draft {decl : TypeDecl} (found : catalog.world.decl? owner = some decl)
    (declared : method ∈ decl.methods) {draft : FormDraft}
    (drafted : catalog.draft? site owner decl method = some draft) (member : form ∈ draft.forms) :
    catalog.Contributes site owner method draft.name form := by
  obtain ⟨notSkipped, notInherited, named, -, -, forms⟩ := of_draft? drafted
  refine ⟨World.mem_methods_iff.mpr ⟨decl, found, declared⟩, ?_, notInherited,
    ⟨decl, found, named.symm⟩, ?_⟩
  · rw [← Bool.not_eq_false]
    exact fun refused => notSkipped (World.treatment_eq_skipped_iff.mpr refused)
  · obtain ⟨-, own | ⟨ancestral, inherited, became, -⟩⟩ := forms form member
    · exact Or.inl own
    · exact Or.inr ⟨ancestral, (World.treatment_eq_redeclared_iff.mp became).2.1⟩

/-- A static method adds itself and nothing else. -/
theorem Contributes.isStaticMember (contributes : catalog.Contributes site owner method name form)
    (static : method.isStaticMember = true) :
    form.isAncestral = false ∧ form.source.isStaticMember = true := by
  rcases contributes.source with ⟨own, rfl⟩ | ⟨-, onValues⟩
  · exact ⟨own, static⟩
  · rw [Method.isStaticMember_eq_false_iff.mpr (Or.inl onValues)] at static
    cases static

/-- A constructor adds itself and nothing else, to the function that constructs values. -/
theorem Contributes.isConstructor (contributes : catalog.Contributes site owner method name form)
    (constructs : method.isConstructor = true) :
    form.isAncestral = false ∧ form.source.isConstructor = true ∧ name = constructorName := by
  obtain ⟨decl, -, named⟩ := contributes.named
  rcases contributes.source with ⟨own, rfl⟩ | ⟨-, onValues⟩
  · exact ⟨own, constructs, named.symm.trans (functionName_eq_constructorName decl constructs)⟩
  · rw [(Method.isInstanceMember_iff.mp onValues).2] at constructs
    cases constructs

theorem Contributes.unqualifiedName (contributes : catalog.Contributes site owner method name form)
    (onValues : method.isInstanceMember = true) : method.unqualifiedName = name := by
  obtain ⟨decl, -, named⟩ := contributes.named
  exact (functionName_eq_unqualifiedName decl onValues).symm.trans named

/-- **A public method that is called on values contributes only where its name is callable.** -/
theorem Contributes.mem_ownCallableNames
    (contributes : catalog.Contributes site owner method name form)
    (onValues : method.isInstanceMember = true) (isPublic : method.isPublic = true) :
    name ∈ catalog.world.ownCallableNames owner := by
  have needed : catalog.world.isSuperfluous owner method = false := by
    rw [← Bool.not_eq_true]
    intro superfluous
    exact contributes.notInherited (World.treatment_eq_inherited_iff_isSuperfluous.mpr
      ⟨contributes.visible, superfluous⟩)
  have byName : method.isCalledByName = true :=
    (Bool.and_eq_true_iff.mp contributes.visible).1
  refine List.mem_map.mpr ⟨method, List.mem_filter.mpr ⟨contributes.declared, ?_⟩,
    contributes.unqualifiedName onValues⟩
  rw [onValues, isPublic, byName, needed]
  rfl

/-! ### Functions of the declaration itself -/

theorem exists_contributes (has : HasForm (catalog.functionsOf site owner).primary name form) :
    ∃ draft ∈ catalog.drafts site owner, draft.name = name ∧
      ∃ method, draft.isStatic = method.isStaticMember ∧
        catalog.Contributes site owner method name form := by
  obtain ⟨draft, member, rfl, inForms⟩ :=
    exists_draft_of_hasForm_groups (has.mono (List.subset_append_left _ _))
  obtain ⟨decl, found, method, declared, drafted⟩ := mem_drafts_iff.mp member
  exact ⟨draft, member, rfl, method, (isDraftOf_of_draft? drafted).isStatic,
    contributes_of_mem_draft found declared drafted inForms⟩

/-- **A static function in the declaration itself has a name that no callable method has**, and in
the type nothing but static methods goes by it. -/
theorem not_mem_callableNames (has : HasForm (catalog.functionsOf site index).primary name form)
    (own : form.isAncestral = false) (static : form.source.isStaticMember = true) :
    name ∉ catalog.world.callableNames index ∧
      ∀ draft ∈ catalog.drafts site index, draft.name = name → draft.isStatic = true := by
  have sourceOf {draft : FormDraft} (member : draft ∈ catalog.drafts site index)
      (inForms : form ∈ draft.forms) : draft.isStatic = true := by
    obtain ⟨decl, -, method, -, drafted⟩ := mem_drafts_iff.mp member
    have isDraftOf := isDraftOf_of_draft? drafted
    rcases isDraftOf.sources form inForms with ancestral | rfl
    · rw [own] at ancestral
      cases ancestral
    · exact isDraftOf.isStatic.trans static
  rcases functionsOf_cases catalog site index with ⟨-, table⟩ | ⟨apart, table⟩
  · -- where there is a companion, the declaration itself has no static functions
    rw [table] at has
    obtain ⟨draft, member, -, inForms⟩ := exists_draft_of_hasForm has
    obtain ⟨member, notStatic⟩ := List.mem_filter.mp member
    rw [sourceOf member inForms] at notStatic
    cases notStatic
  · rw [table] at has
    obtain ⟨draft, member, rfl, inForms⟩ := exists_draft_of_hasForm has
    have isStatic := sourceOf member inForms
    refine ⟨fun taken => apart ⟨draft, member, isStatic, Or.inl taken⟩,
      fun other otherMember sameName => ?_⟩
    by_contra notStatic
    exact apart ⟨draft, member, isStatic,
      Or.inr ⟨other, otherMember, Bool.eq_false_iff.mpr notStatic, sameName⟩⟩

/-! ### Functions of ancestors and interfaces -/

/-- What may go by the name of a static function in another type of the hierarchy. -/
inductive Shares (catalog : Catalog) (site : Site) (owner : TypeIndex) (name : String)
    (form : FunctionForm) : Prop
  /-- a static method -/
  | asStatic (own : form.isAncestral = false) (static : form.source.isStaticMember = true)
  /-- a constructor -/
  | asConstructor (own : form.isAncestral = false) (constructs : form.source.isConstructor = true)
      (named : name = constructorName)
  /-- a method that is declared only since a contract asks for its name, where no contract has a
  callable method of that name -/
  | asRequired (method : Method) (contributes : catalog.Contributes site owner method name form)
      (onValues : method.isInstanceMember = true) (notPublic : method.isPublic = false)
      (required : catalog.world.isRequired owner method = true)
      (notCallable : ∀ contract ∈ catalog.world.contracts owner,
        name ∉ catalog.world.ownCallableNames contract)

/-- **Static methods stand apart from methods that are called on values.** -/
theorem statics_stand_apart (has : HasForm (catalog.functionsOf site index).primary name form)
    (own : form.isAncestral = false) (static : form.source.isStaticMember = true) :
    (∀ other, HasForm (catalog.functionsOf site index).primary name other →
      other.isAncestral = false ∧ other.source.isStaticMember = true) ∧
    ∀ otherSite, ∀ owner ∈ catalog.world.ancestors index ++ catalog.world.allContracts index,
      ∀ other, HasForm (catalog.functionsOf otherSite owner).primary name other →
        catalog.Shares otherSite owner name other := by
  obtain ⟨notCallable, onlyStatic⟩ := not_mem_callableNames has own static
  have notOwnCallable : ∀ owner ∈ index :: (catalog.world.ancestors index ++
      catalog.world.allContracts index), name ∉ catalog.world.ownCallableNames owner :=
    fun owner related callable => notCallable (List.mem_flatMap.mpr ⟨owner, related, callable⟩)
  constructor
  · intro other otherHas
    obtain ⟨draft, member, named, method, sameKind, contributes⟩ := exists_contributes otherHas
    exact contributes.isStaticMember (sameKind.symm.trans (onlyStatic draft member named))
  · intro otherSite owner related other otherHas
    obtain ⟨-, -, -, method, -, contributes⟩ := exists_contributes otherHas
    by_cases isStatic : method.isStaticMember = true
    · obtain ⟨otherOwn, otherStatic⟩ := contributes.isStaticMember isStatic
      exact .asStatic otherOwn otherStatic
    · rw [Bool.not_eq_true, Method.isStaticMember_eq_false_iff] at isStatic
      rcases isStatic with onValues | constructs
      · have notPublic : method.isPublic = false := by
          rw [← Bool.not_eq_true]
          intro isPublic
          exact notOwnCallable owner (List.mem_cons_of_mem _ related)
            (contributes.mem_ownCallableNames onValues isPublic)
        have required : catalog.world.isRequired owner method = true := by
          have visible := (Bool.and_eq_true_iff.mp contributes.visible).2
          unfold World.isVisible at visible
          rwa [notPublic, Bool.false_or] at visible
        refine .asRequired method contributes onValues notPublic required fun contract member => ?_
        refine notOwnCallable contract (List.mem_cons.mpr ?_)
        rcases List.mem_cons.mp (World.mem_of_mem_contracts related member) with same | among
        · exact Or.inl same
        · exact Or.inr (List.mem_append_right _ among)
      · obtain ⟨otherOwn, otherConstructs, named⟩ := contributes.isConstructor constructs
        exact .asConstructor otherOwn otherConstructs named

/-! ### Names that are shared -/

/-- A method that is declared beside the static method of an ancestor, a static method that is called
like a constructor, and one that is called like a method which nobody but an interface asks for. -/
def sharedTexts : List String :=
  ["assembly a namespace \x7b public interface I \x7b public method M(): X \x7d " ++
      "class A \x7b public static method M(x: X): X \x7d " ++
      "class B extends A implements I \x7b public method M(): X \x7d \x7d",
    "assembly b namespace \x7b class C \x7b public ctor() public method P(): X \x7d " ++
      "class D extends C \x7b public static method new(): X \x7d \x7d",
    "assembly c namespace \x7b public interface J \x7b method N(): X \x7d " ++
      "class E implements J \x7b method N(): X \x7d " ++
      "class F extends E \x7b public static method N(): X \x7d \x7d"]

/-- The types of the listings. -/
def sharedCatalog : Catalog :=
  Catalog.ofAssemblies (sharedTexts.map Listing.assemblyOf) {}

/-- Where a form in the functions of a type is for a static method, every form of that name in the
type, its ancestors and its interfaces is for one that is static too. -/
def KeepsStaticsApart (catalog : Catalog) (site : Site) (index : TypeIndex) : Prop :=
  ∀ group ∈ (catalog.functionsOf site index).primary, ∀ form ∈ group.forms,
    form.source.isStaticMember = true →
      ∀ owner ∈ index :: (catalog.world.ancestors index ++ catalog.world.allContracts index),
        ∀ other ∈ (catalog.functionsOf site owner).primary, other.name = group.name →
          ∀ otherForm ∈ other.forms, otherForm.source.isStatic = true

instance (catalog : Catalog) (site : Site) (index : TypeIndex) :
    Decidable (catalog.KeepsStaticsApart site index) :=
  inferInstanceAs (Decidable (∀ group ∈ (catalog.functionsOf site index).primary, _))

theorem sharedCatalog_facts :
    (∀ text ∈ sharedTexts, (Listing.readAssembly text).isOk = true) ∧
      (∀ index ∈ [2, 4, 7],
        ¬ sharedCatalog.KeepsStaticsApart (Site.ofFile { space := "", name := "A" }) index) ∧
      ∃ group ∈ (sharedCatalog.functionsOf (Site.ofFile { space := "", name := "D" }) 4).primary,
        group.name = "new" ∧ ∃ form ∈ group.forms,
          form.isAncestral = false ∧ form.source.isStaticMember = true := by
  unfold sharedCatalog
  rw [Listing.forall_isOk_iff, Listing.map_assemblyOf_eq]
  unfold sharedTexts
  simp only [List.map_cons, List.map_nil, String.toList_append]
  repeat rw [String.toList_ofList]
  decide +kernel

/-- The constructor of a type and a static method of its heir may both be called `new`. -/
theorem statics_stand_apart_constructor :
    ∃ form, HasForm (sharedCatalog.functionsOf (Site.ofFile { space := "", name := "D" }) 4).primary
        "new" form ∧ form.isAncestral = false ∧ form.source.isStaticMember = true ∧
      ∀ otherSite, ∀ owner ∈ sharedCatalog.world.ancestors 4 ++ sharedCatalog.world.allContracts 4,
        ∀ other, HasForm (sharedCatalog.functionsOf otherSite owner).primary "new" other →
          sharedCatalog.Shares otherSite owner "new" other := by
  obtain ⟨-, -, group, member, named, form, inForms, own, static⟩ := sharedCatalog_facts
  have has : HasForm _ "new" form := ⟨group, member, named, inForms⟩
  exact ⟨form, has, own, static, (statics_stand_apart has own static).2⟩

/-- Static methods do not always stand apart: a method may be declared beside the static method of an
ancestor, constructors are never looked at, and neither are methods that only an interface asks for. -/
theorem exists_not_keepsStaticsApart :
    (∀ text ∈ sharedTexts, (Listing.readAssembly text).isOk = true) ∧
      ∀ index ∈ [2, 4, 7],
        ¬ sharedCatalog.KeepsStaticsApart (Site.ofFile { space := "", name := "A" }) index :=
  ⟨sharedCatalog_facts.1, sharedCatalog_facts.2.1⟩

end Catalog

end ExternBindings
