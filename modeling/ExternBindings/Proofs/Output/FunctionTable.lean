/-
**How the methods of a type are shared out.**

Each method of a type that is written at all (`World.IsWritten`) goes to the function of its name, in
the declaration itself or in its companion.

* `areOrdered_groupsOf` — functions stand in the strict order of their names, and none is empty;
* `Catalog.SharesOut` — what the two parts of a table hold: every written method, under its name and
  in its own part, and nothing but those methods and the ones of ancestors that they are declared
  beside;
* `Catalog.sharesOut_functionsOf` — **the functions of a type are shared out so.** There is a
  companion exactly if a static method meets the name of something that is called on values, or of a
  constructor. Then no method that is static stands in the declaration itself, unless as the
  ancestor's beside an override (`Catalog.exists_static_beside_companion`).
-/

import ExternBindings.Proofs.Listing.Characters
import ExternBindings.Proofs.Output.FunctionForms
import ExternBindings.Proofs.World.Nesting

namespace ExternBindings

/-! ### Groups in order -/

/-- The names of the groups ascend strictly, and each group has a form. -/
structure AreOrdered (groups : List FunctionGroup) : Prop where
  ascending : (groups.map FunctionGroup.name).Pairwise (· < ·)
  present : ∀ group ∈ groups, group.forms ≠ []

theorem map_name_groupsOf (drafts : List FormDraft) :
    (groupsOf drafts).map FunctionGroup.name = sortedDistinct (drafts.map FormDraft.name) := by
  unfold groupsOf
  rw [List.map_map]
  exact (List.map_congr_left fun name _ => name_ofDraft name _).trans (List.map_id _)

/-- **Groups of drafts are in order** if every draft has a form. -/
theorem areOrdered_groupsOf {drafts : List FormDraft}
    (present : ∀ draft ∈ drafts, draft.forms ≠ []) : AreOrdered (groupsOf drafts) := by
  constructor
  · rw [map_name_groupsOf]
    exact sortedDistinct_pairwise _
  · intro group member
    obtain ⟨name, named, rfl⟩ := List.mem_map.mp member
    obtain ⟨draft, draftMember, rfl⟩ := List.mem_map.mp (mem_sortedDistinct.mp named)
    obtain ⟨form, formMember⟩ := List.exists_mem_of_ne_nil _ (present draft draftMember)
    have gathered : form ∈ (drafts.filter fun other => other.name = draft.name).flatMap
        FormDraft.forms :=
      List.mem_flatMap.mpr ⟨draft, List.mem_filter.mpr ⟨draftMember, by simp⟩, formMember⟩
    obtain ⟨kept, keptMember, -⟩ := exists_mem_ofDraft draft.name gathered
    exact List.ne_nil_of_mem keptMember

theorem groupsOf_ne_nil {drafts : List FormDraft} {draft : FormDraft} (member : draft ∈ drafts) :
    groupsOf drafts ≠ [] := by
  intro empty
  have named := mem_sortedDistinct.mpr (List.mem_map_of_mem (f := FormDraft.name) member)
  rw [← map_name_groupsOf, empty] at named
  cases named

/-! ### What a table holds -/

/-- The part of the table that a method goes to: static ones go to the companion if there is one. -/
def FunctionTable.partFor (table : FunctionTable) (method : Method) : List FunctionGroup :=
  if method.isStaticMember then table.companion?.getD table.primary else table.primary

namespace Catalog

variable {catalog : Catalog} {site : Site} {index : TypeIndex} {decl : TypeDecl}

/-- The functions of a type, shared out between its declaration and the companion. -/
structure SharesOut (catalog : Catalog) (site : Site) (index : TypeIndex) (decl : TypeDecl)
    (table : FunctionTable) : Prop where
  /-- every method that is written has its signature under its name, in its own part -/
  held : ∀ method, catalog.world.IsWritten index method →
    ∃ form, HasForm (table.partFor method) (decl.functionName method) form ∧
      form.text = (catalog.signature site method).text
  /-- the declaration holds nothing but written methods; beside a companion none that is static -/
  primary : ∀ name form, HasForm table.primary name form → ∃ method,
    catalog.world.IsWritten index method ∧ decl.functionName method = name ∧
      catalog.IsFormFor site index method form ∧
      (table.companion?.isSome = true → method.isStaticMember = false)
  /-- the companion holds something, and nothing but static methods that are written -/
  companion : ∀ functions, table.companion? = some functions → functions ≠ [] ∧
    ∀ name form, HasForm functions name form → catalog.world.IsWritten index form.source ∧
      decl.functionName form.source = name ∧ form.isAncestral = false ∧
      form.signature = catalog.signature site form.source ∧ form.source.isStaticMember = true
  /-- both are in order -/
  ordered : ∀ part ∈ table.primary :: table.companion?.toList, AreOrdered part
  /-- there is a companion where the name of a static method is taken -/
  split : table.companion?.isSome = true ↔ ∃ method, catalog.world.IsWritten index method ∧
    method.isStaticMember = true ∧
      (decl.functionName method ∈ catalog.world.callableNames index ∨
        ∃ other, catalog.world.IsWritten index other ∧ other.isStaticMember = false ∧
          decl.functionName other = decl.functionName method)

/-! ### Drafts -/

/-- **A draft is that of a written method**, and its forms are for that method. -/
theorem exists_isWritten (found : catalog.world.decl? index = some decl) {draft : FormDraft}
    (member : draft ∈ catalog.drafts site index) :
    ∃ method, catalog.world.IsWritten index method ∧ catalog.IsDraftOf site decl method draft ∧
      ∀ form ∈ draft.forms, catalog.IsFormFor site index method form := by
  obtain ⟨own, ownFound, method, declared, drafted⟩ := mem_drafts_iff.mp member
  obtain rfl := Option.some.inj (found.symm.trans ownFound)
  obtain ⟨notSkipped, notInherited, -, -, -, forms⟩ := of_draft? drafted
  exact ⟨method, ⟨World.mem_methods_iff.mpr ⟨decl, found, declared⟩, notSkipped, notInherited⟩,
    isDraftOf_of_draft? drafted, forms⟩

theorem exists_draft_of_isWritten (site : Site) (found : catalog.world.decl? index = some decl)
    {method : Method} (isWritten : catalog.world.IsWritten index method) :
    ∃ draft ∈ catalog.drafts site index, catalog.IsDraftOf site decl method draft := by
  obtain ⟨own, ownFound, declared⟩ := World.mem_methods_iff.mp isWritten.declared
  obtain rfl := Option.some.inj (found.symm.trans ownFound)
  exact exists_draft site found declared isWritten.notSkipped isWritten.notInherited

/-- No draft is empty. -/
theorem forms_ne_nil {draft : FormDraft} (member : draft ∈ catalog.drafts site index) :
    draft.forms ≠ [] := by
  obtain ⟨decl, -, method, -, drafted⟩ := mem_drafts_iff.mp member
  obtain ⟨form, formMember, -⟩ := (isDraftOf_of_draft? drafted).own
  exact List.ne_nil_of_mem formMember

/-! ### The functions of a type -/

/-- What is held by groups of drafts of the type. -/
theorem exists_isWritten_of_hasForm (found : catalog.world.decl? index = some decl)
    {drafts : List FormDraft} (within : drafts ⊆ catalog.drafts site index) {name : String}
    {form : FunctionForm} (has : HasForm (groupsOf drafts) name form) :
    ∃ draft ∈ drafts, ∃ method, catalog.world.IsWritten index method ∧
      decl.functionName method = name ∧ draft.isStatic = method.isStaticMember ∧
      catalog.IsFormFor site index method form := by
  obtain ⟨draft, member, rfl, inForms⟩ := exists_draft_of_hasForm has
  obtain ⟨method, isWritten, isDraftOf, forms⟩ := exists_isWritten found (within member)
  exact ⟨draft, member, method, isWritten, isDraftOf.name.symm, isDraftOf.isStatic,
    forms form inForms⟩

theorem collides_iff (found : catalog.world.decl? index = some decl) :
    catalog.Collides site index ↔ ∃ method, catalog.world.IsWritten index method ∧
      method.isStaticMember = true ∧
        (decl.functionName method ∈ catalog.world.callableNames index ∨
          ∃ other, catalog.world.IsWritten index other ∧ other.isStaticMember = false ∧
            decl.functionName other = decl.functionName method) := by
  constructor
  · rintro ⟨draft, member, static, taken⟩
    obtain ⟨method, isWritten, isDraftOf, -⟩ := exists_isWritten found member
    refine ⟨method, isWritten, isDraftOf.isStatic.symm.trans static, ?_⟩
    rw [← isDraftOf.name]
    refine taken.imp_right ?_
    rintro ⟨other, otherMember, onValues, same⟩
    obtain ⟨otherMethod, otherWritten, otherDraft, -⟩ := exists_isWritten found otherMember
    exact ⟨otherMethod, otherWritten, otherDraft.isStatic.symm.trans onValues,
      otherDraft.name.symm.trans same⟩
  · rintro ⟨method, isWritten, static, taken⟩
    obtain ⟨draft, member, isDraftOf⟩ := exists_draft_of_isWritten site found isWritten
    refine ⟨draft, member, isDraftOf.isStatic.trans static, ?_⟩
    rw [isDraftOf.name]
    refine taken.imp_right ?_
    rintro ⟨other, otherWritten, onValues, same⟩
    obtain ⟨otherDraft, otherMember, otherIsDraft⟩ :=
      exists_draft_of_isWritten site found otherWritten
    exact ⟨otherDraft, otherMember, otherIsDraft.isStatic.trans onValues,
      otherIsDraft.name.trans same⟩

/-- Every written method has its signature among the groups of the drafts that its own is one of. -/
theorem exists_hasForm_of_isWritten (found : catalog.world.decl? index = some decl)
    {drafts : List FormDraft} {method : Method} (isWritten : catalog.world.IsWritten index method)
    (holds : ∀ draft ∈ catalog.drafts site index, draft.isStatic = method.isStaticMember →
      draft ∈ drafts) :
    ∃ form, HasForm (groupsOf drafts) (decl.functionName method) form ∧
      form.text = (catalog.signature site method).text := by
  obtain ⟨draft, member, isDraftOf⟩ := exists_draft_of_isWritten site found isWritten
  obtain ⟨own, ownMember, written⟩ := isDraftOf.own
  obtain ⟨kept, has, same⟩ := exists_hasForm (holds draft member isDraftOf.isStatic) ownMember
  exact ⟨kept, isDraftOf.name ▸ has, same.trans written⟩

theorem areOrdered_of_subset {drafts : List FormDraft}
    (within : drafts ⊆ catalog.drafts site index) : AreOrdered (groupsOf drafts) :=
  areOrdered_groupsOf fun _ member => forms_ne_nil (within member)

/-- Without a collision the declaration holds all methods. -/
theorem sharesOut_together (found : catalog.world.decl? index = some decl)
    (apart : ¬ catalog.Collides site index) :
    catalog.SharesOut site index decl
      { primary := groupsOf (catalog.drafts site index), companion? := none } := by
  refine ⟨fun method isWritten => ?_, fun name form has => ?_, ?_, ?_, ?_⟩
  · unfold FunctionTable.partFor
    rw [Option.getD_none, ite_self]
    exact exists_hasForm_of_isWritten found isWritten fun draft member _ => member
  · obtain ⟨draft, member, method, isWritten, named, -, isFormFor⟩ :=
      exists_isWritten_of_hasForm found (List.Subset.refl _) has
    exact ⟨method, isWritten, named, isFormFor, fun companion => by cases companion⟩
  · rintro functions ⟨⟩
  · rw [Option.toList_none, List.forall_mem_singleton]
    exact areOrdered_of_subset (List.Subset.refl _)
  · rw [← collides_iff found]
    exact iff_of_false Bool.false_ne_true apart

/-- On a collision the companion holds the static methods, and the declaration holds the others. -/
theorem sharesOut_split (found : catalog.world.decl? index = some decl)
    (collides : catalog.Collides site index) :
    catalog.SharesOut site index decl
      { primary := groupsOf ((catalog.drafts site index).filter fun draft => !draft.isStatic)
        companion? := some (groupsOf ((catalog.drafts site index).filter FormDraft.isStatic)) } := by
  have within (chosen : FormDraft → Bool) :
      (catalog.drafts site index).filter chosen ⊆ catalog.drafts site index :=
    fun _ member => (List.mem_filter.mp member).1
  refine ⟨fun method isWritten => ?_, fun name form has => ?_, ?_, ?_, ?_⟩
  · unfold FunctionTable.partFor
    cases static : method.isStaticMember with
    | true =>
      refine exists_hasForm_of_isWritten found isWritten fun draft member same => ?_
      exact List.mem_filter.mpr ⟨member, same.trans static⟩
    | false =>
      refine exists_hasForm_of_isWritten found isWritten fun draft member same => ?_
      exact List.mem_filter.mpr ⟨member, by rw [same, static]; rfl⟩
  · obtain ⟨draft, member, method, isWritten, named, same, isFormFor⟩ :=
      exists_isWritten_of_hasForm found (within _) has
    refine ⟨method, isWritten, named, isFormFor, fun _ => ?_⟩
    rw [← same]
    simpa using (List.mem_filter.mp member).2
  · rintro functions ⟨⟩
    refine ⟨?_, fun name form has => ?_⟩
    · obtain ⟨draft, member, static, -⟩ := collides
      exact groupsOf_ne_nil (List.mem_filter.mpr ⟨member, static⟩)
    · obtain ⟨draft, member, method, isWritten, named, same, isFormFor⟩ :=
        exists_isWritten_of_hasForm found (within _) has
      have static := same.symm.trans (List.mem_filter.mp member).2
      obtain ⟨isOwn, rfl⟩ := isFormFor.own static
      exact ⟨isWritten, named, isOwn, isFormFor.written, static⟩
  · rw [Option.toList_some, List.forall_mem_cons, List.forall_mem_singleton]
    exact ⟨areOrdered_of_subset (within _), areOrdered_of_subset (within _)⟩
  · rw [← collides_iff found]
    exact iff_of_true rfl collides

/-- **The methods of a type are shared out between its declaration and the companion.** -/
theorem sharesOut_functionsOf (found : catalog.world.decl? index = some decl) :
    catalog.SharesOut site index decl (catalog.functionsOf site index) := by
  rcases functionsOf_cases catalog site index with ⟨collides, table⟩ | ⟨apart, table⟩
  · rw [table]
    exact sharesOut_split found collides
  · rw [table]
    exact sharesOut_together found apart

/-! ### A type with a companion -/

/-- An interface, a type with a static method, and one that is derived from it, which implements the
interface and has a static method of the same name besides. -/
def companionText : String :=
  "assembly a namespace \x7b public interface I \x7b public method M(): X \x7d " ++
    "class A \x7b public static method M(x: X): X \x7d " ++
    "class B extends A implements I \x7b public method M(): X " ++
    "public static method M(y: X, z: X): X \x7d \x7d"

/-- The types of the listing. -/
def companionCatalog : Catalog :=
  Catalog.ofAssemblies [Listing.assemblyOf companionText] {}

/-- The site of the file for the derived type. -/
def companionSite : Site :=
  Site.ofFile { space := "", name := "B" }

theorem companionCatalog_facts :
    (Listing.readAssembly companionText).isOk = true ∧
      (companionCatalog.world.decl? 2).isSome = true ∧
      (companionCatalog.functionsOf companionSite 2).companion?.isSome = true ∧
      ∃ group ∈ (companionCatalog.functionsOf companionSite 2).primary, group.name = "M" ∧
        ∃ form ∈ group.forms, form.source.isStaticMember = true := by
  unfold companionCatalog
  rw [Listing.readAssembly_eq, Listing.assemblyOf_eq]
  unfold companionText
  simp only [String.toList_append]
  repeat rw [String.toList_ofList]
  decide +kernel

/-- The static method is the only reason for the companion, which holds it. -/
theorem sharesOut_functionsOf_companion :
    ∃ decl functions, companionCatalog.world.decl? 2 = some decl ∧
      (companionCatalog.functionsOf companionSite 2).companion? = some functions ∧
      functions ≠ [] ∧ ∀ name form, HasForm functions name form →
        form.source.isStaticMember = true := by
  obtain ⟨-, known, has, -⟩ := companionCatalog_facts
  obtain ⟨decl, found⟩ := Option.isSome_iff_exists.mp known
  obtain ⟨functions, companion⟩ := Option.isSome_iff_exists.mp has
  obtain ⟨present, static⟩ := (sharesOut_functionsOf found).companion functions companion
  exact ⟨decl, functions, found, companion, present, fun name form has =>
    (static name form has).2.2.2.2⟩

/-- **Beside a companion the declaration may still hold a static method**: that of an ancestor. -/
theorem exists_static_beside_companion :
    (Listing.readAssembly companionText).isOk = true ∧
      (companionCatalog.functionsOf companionSite 2).companion?.isSome = true ∧
      ∃ name form, HasForm (companionCatalog.functionsOf companionSite 2).primary name form ∧
        form.source.isStaticMember = true := by
  obtain ⟨answered, -, has, group, member, -, form, formMember, static⟩ := companionCatalog_facts
  exact ⟨answered, has, group.name, form, ⟨group, member, rfl, formMember⟩, static⟩

end Catalog

end ExternBindings
