/-
**Ancestral forms are kept, and the function is declared for a method of the type.**

A group with an ancestral form gathers what the methods of its name draft in the order of their
declarations. The principal form belongs to the last of them.

* `Catalog.draftsNamed`, `Catalog.eq_ofDraft_of_isAncestral` — which drafts such a group is made of:
  those of methods that are not static;
* `World.IsLastWritten`, `Catalog.exists_last_draft` — the last draft is that of the last method of
  the name that is written;
* `Catalog.ancestral_forms_are_retained` — **the ancestral forms stand in front, there is one for
  each method that is declared beside an inherited one, and the principal form is that of the last
  method of the name** (`Catalog.Retains`). It is marked as an override exactly if that method is
  declared beside an inherited one itself. `Catalog.LacksMark` tells the two ways in which it may
  not be (`Catalog.exists_unmarked`).
-/

import ExternBindings.Proofs.Output.NormalForm
import ExternBindings.Proofs.Output.OverrideMarks
import ExternBindings.Proofs.World.Ancestry

namespace ExternBindings

open World (answersTo)

/-! ### The last form of a draft -/

/-- Behind an ancestral form, one that is not ancestral stays the last. -/
theorem inOrder_concat {front : List FunctionForm} {last : FunctionForm}
    (ancestral : ∃ form ∈ front, form.isAncestral = true) (own : last.isAncestral = false) :
    inOrder (front ++ [last]) = inOrder front ++ [last] := by
  have any : front.any FunctionForm.isAncestral = true := List.any_eq_true.mpr ancestral
  have anyToo : (front ++ [last]).any FunctionForm.isAncestral = true := by
    rw [List.any_append, any, Bool.true_or]
  unfold inOrder
  rw [if_pos any, if_pos anyToo, List.filter_append, List.filter_append]
  simp [own]

/-- The last of the methods that the type writes under the name, static ones apart. -/
structure World.IsLastWritten (world : World) (index : TypeIndex) (decl : TypeDecl) (name : String)
    (method : Method) : Prop where
  isWritten : world.IsWritten index method
  named : decl.functionName method = name
  notStatic : method.isStaticMember = false
  last : ∃ earlier later, decl.methods = earlier ++ method :: later ∧
    ∀ other ∈ later, decl.functionName other = name → other.isStaticMember = false →
      ¬ world.IsWritten index other

namespace Catalog

variable {catalog : Catalog} {site : Site} {index : TypeIndex} {decl : TypeDecl} {method : Method}
  {draft : FormDraft} {form : FunctionForm} {group : FunctionGroup} {name : String}

/-- A draft ends with the method's own form. -/
theorem exists_forms_eq_concat (drafted : catalog.draft? site index decl method = some draft) :
    ∃ ancestral isOverride,
      draft.forms = ancestral ++ [catalog.ownForm site decl method isOverride] := by
  obtain ⟨-, -, ⟨-, forms⟩ | ⟨inherited, -, forms⟩⟩ := draft?_cases drafted
  · exact ⟨[], false, forms⟩
  · exact ⟨[_], true, forms⟩

/-- A method that is declared beside an inherited one drafts that one's form too. -/
theorem ancestralForm_mem {inherited : InheritedMethod}
    (became : catalog.world.treatment index method = .redeclared inherited)
    (drafted : catalog.draft? site index decl method = some draft) :
    catalog.ancestralForm site decl method inherited ∈ draft.forms := by
  obtain ⟨-, -, ⟨declared, -⟩ | ⟨other, becameOther, forms⟩⟩ := draft?_cases drafted
  · rw [became] at declared
    cases declared
  · obtain rfl := Treatment.redeclared.inj (became.symm.trans becameOther)
    rw [forms]
    exact List.mem_cons_self

/-- Only methods that are called on values are declared beside an inherited one. -/
theorem isStatic_of_isAncestral (member : draft ∈ catalog.drafts site index)
    (inForms : form ∈ draft.forms) (isAncestral : form.isAncestral = true) :
    draft.isStatic = false := by
  obtain ⟨decl, -, method, -, drafted⟩ := mem_drafts_iff.mp member
  obtain ⟨-, -, -, isStatic, -, forms⟩ := of_draft? drafted
  rw [isStatic, ← Bool.not_eq_true]
  intro static
  rw [((forms form inForms).own static).1] at isAncestral
  cases isAncestral

/-! ### The drafts of a group -/

/-- The drafts that go under a name, those of static methods apart. -/
def draftsNamed (catalog : Catalog) (site : Site) (index : TypeIndex) (name : String) :
    List FormDraft :=
  (catalog.drafts site index).filter fun draft => !draft.isStatic && draft.name = name

theorem mem_draftsNamed_iff :
    draft ∈ catalog.draftsNamed site index name ↔
      draft ∈ catalog.drafts site index ∧ draft.isStatic = false ∧ draft.name = name := by
  unfold draftsNamed
  rw [List.mem_filter, Bool.and_eq_true, Bool.not_eq_true', decide_eq_true_eq]

/-- **A group with an ancestral form is made of methods that are not static.** Where static ones have
the same name, they are in the companion. -/
theorem eq_ofDraft_of_isAncestral (member : group ∈ (catalog.functionsOf site index).groups)
    (inGroup : form ∈ group.forms) (isAncestral : form.isAncestral = true) :
    group = FunctionGroup.ofDraft group.name
      ((catalog.draftsNamed site index group.name).flatMap FormDraft.forms) := by
  unfold FunctionTable.groups at member
  rcases functionsOf_cases catalog site index with ⟨-, table⟩ | ⟨apart, table⟩
  · rw [table] at member
    rcases List.mem_append.mp member with inPrimary | inCompanion
    · obtain ⟨name, -, rfl⟩ := List.mem_map.mp inPrimary
      rw [name_ofDraft, List.filter_filter]
      unfold draftsNamed
      simp only [Bool.and_comm]
    · obtain ⟨draft, draftMember, -, inForms⟩ :=
        exists_draft_of_hasForm ⟨group, inCompanion, rfl, inGroup⟩
      obtain ⟨draftMember, static⟩ := List.mem_filter.mp draftMember
      rw [isStatic_of_isAncestral draftMember inForms isAncestral] at static
      cases static
  · rw [table, Option.getD_none, List.append_nil] at member
    obtain ⟨draft, draftMember, named, inForms⟩ :=
      exists_draft_of_hasForm ⟨group, member, rfl, inGroup⟩
    have notStatic := isStatic_of_isAncestral draftMember inForms isAncestral
    obtain ⟨name, -, rfl⟩ := List.mem_map.mp member
    rw [name_ofDraft] at named ⊢
    unfold draftsNamed
    congr 2
    refine List.filter_congr fun other otherMember => ?_
    by_cases sameName : other.name = name
    · -- a static draft of the name would collide with the one that has the ancestral form
      have otherNotStatic : other.isStatic = false := by
        rw [← Bool.not_eq_true]
        exact fun static => apart ⟨other, otherMember, static,
          Or.inr ⟨draft, draftMember, notStatic, named.trans sameName.symm⟩⟩
      simp [sameName, otherNotStatic]
    · simp [sameName]

/-- **The last draft of a name is that of the last method of the name that is written.** -/
theorem exists_last_draft (site : Site) (found : catalog.world.decl? index = some decl)
    (present : catalog.draftsNamed site index name ≠ []) :
    ∃ front draft method, catalog.draftsNamed site index name = front ++ [draft] ∧
      catalog.draft? site index decl method = some draft ∧
      catalog.world.IsLastWritten index decl name method := by
  obtain ⟨front, draft, split⟩ := (List.eq_nil_or_concat _).resolve_left present
  rw [List.concat_eq_append] at split
  have drafts : (decl.methods.filterMap fun method =>
      (catalog.draft? site index decl method).filter fun draft =>
        !draft.isStatic && draft.name = name) = front ++ [draft] := by
    rw [← split, ← List.filter_filterMap]
    unfold draftsNamed Catalog.drafts
    rw [found]
    rfl
  -- the method that drafted the last form is cut out of the type; those behind it draft nothing
  obtain ⟨before, behind, methods, -, drafts⟩ := List.filterMap_eq_append_iff.mp drafts
  obtain ⟨between, method, later, behindEq, -, drafted, nothing⟩ :=
    List.filterMap_eq_cons_iff.mp drafts
  obtain ⟨drafted, accepted⟩ := Option.filter_eq_some_iff.mp drafted
  rw [Bool.and_eq_true, Bool.not_eq_true', decide_eq_true_eq] at accepted
  have isDraftOf := isDraftOf_of_draft? drafted
  obtain ⟨notSkipped, notInherited, -⟩ := of_draft? drafted
  have parts : decl.methods = (before ++ between) ++ method :: later := by
    rw [methods, behindEq, List.append_assoc]
  refine ⟨front, draft, method, split, drafted, ⟨⟨?_, notSkipped, notInherited⟩,
    isDraftOf.name.symm.trans accepted.2, isDraftOf.isStatic.symm.trans accepted.1,
    before ++ between, later, parts, fun other member named notStatic isWritten => ?_⟩⟩
  · exact World.mem_methods_iff.mpr ⟨decl, found, by rw [parts]; simp⟩
  · obtain ⟨otherDraft, otherDrafted⟩ :=
      exists_draft?_eq_some site decl isWritten.notSkipped isWritten.notInherited
    have otherIsDraftOf := isDraftOf_of_draft? otherDrafted
    have refused := List.filterMap_eq_nil_iff.mp nothing other member
    rw [otherDrafted, Option.filter_some] at refused
    simp [otherIsDraftOf.isStatic, notStatic, otherIsDraftOf.name, named] at refused

/-! ### Groups with an ancestral form -/

/-- Why the form that a function is declared with may lack the mark of an override although the
function has an ancestral form. -/
inductive LacksMark (catalog : Catalog) (index : TypeIndex) (name : String) (method : Method) : Prop
  /-- constructors share the function that is called like them -/
  | asConstructor (constructs : method.isConstructor = true) (named : name = constructorName)
  /-- there is no inherited method with as many parameters to see, and the nearest one of the name
  cannot be seen or its type satisfies every contract that asks for the name -/
  | apart (onValues : method.isInstanceMember = true)
      (unmatched : catalog.world.visibleInherited? index method .exact = none)
      (nearest : InheritedMethod) (isNearest : catalog.world.IsNearest index method .any nearest)
      (settled : catalog.world.isVisible nearest.owner nearest.method = true →
        catalog.world.addsContract index method nearest.owner = false)

/-- What a group with an ancestral form holds. -/
structure Retains (catalog : Catalog) (site : Site) (index : TypeIndex) (decl : TypeDecl)
    (group : FunctionGroup) : Prop where
  /-- ancestral forms stand in front -/
  ahead : group.forms = group.forms.filter FunctionForm.isAncestral ++
    group.forms.filter fun form => !form.isAncestral
  /-- beside each method that is declared beside an inherited one, an overload has the signature of
  that one -/
  kept : ∀ method ∈ decl.methods, decl.functionName method = group.name →
    ∀ inherited, catalog.world.treatment index method = .redeclared inherited →
      ∃ form ∈ group.overloads, form.isAncestral = true ∧
        form.text = (catalog.signature site inherited.method).text
  /-- the principal form is that of the last method of the name, and it is marked as an override
  exactly if that method is declared beside an inherited one -/
  principal : ∃ form, group.principal? = some form ∧ form.isAncestral = false ∧
    form.signature = catalog.signature site form.source ∧
    catalog.world.IsLastWritten index decl group.name form.source ∧
    (form.attributes.MarksOverride ↔
      ∃ inherited, catalog.world.treatment index form.source = .redeclared inherited) ∧
    (¬ form.attributes.MarksOverride → catalog.LacksMark index group.name form.source)

/-- **The principal form beside an ancestral one is that of the last method of the name.** -/
theorem exists_principal_of_isAncestral (found : catalog.world.decl? index = some decl)
    (member : group ∈ (catalog.functionsOf site index).groups) (inGroup : form ∈ group.forms)
    (isAncestral : form.isAncestral = true) :
    ∃ principal, group.principal? = some principal ∧ principal.isAncestral = false ∧
      principal.signature = catalog.signature site principal.source ∧
      catalog.world.IsLastWritten index decl group.name principal.source := by
  have drafted := eq_ofDraft_of_isAncestral member inGroup isAncestral
  have gathered : form ∈ (catalog.draftsNamed site index group.name).flatMap FormDraft.forms := by
    rw [drafted] at inGroup
    exact mem_of_mem_ofDraft inGroup
  obtain ⟨other, otherMember, -⟩ := List.mem_flatMap.mp gathered
  obtain ⟨front, draft, method, split, draftedLast, isLast⟩ :=
    exists_last_draft site found (List.ne_nil_of_mem otherMember)
  obtain ⟨ancestral, isOverride, forms⟩ := exists_forms_eq_concat draftedLast
  have written : (catalog.draftsNamed site index group.name).flatMap FormDraft.forms =
      (front.flatMap FormDraft.forms ++ ancestral) ++
        [catalog.ownForm site decl method isOverride] := by
    rw [split, List.flatMap_append, List.flatMap_singleton, forms, List.append_assoc]
  rw [written] at gathered drafted
  have inFront : form ∈ front.flatMap FormDraft.forms ++ ancestral := by
    refine (List.mem_append.mp gathered).resolve_right fun same => ?_
    rw [List.mem_singleton.mp same] at isAncestral
    cases isAncestral
  have isOwn : (catalog.ownForm site decl method isOverride).isAncestral = false := rfl
  refine ⟨catalog.ownForm site decl method isOverride, ?_, isOwn, rfl, isLast⟩
  rw [drafted]
  exact principal?_ofDraft (inOrder_concat ⟨form, inFront, isAncestral⟩ isOwn)

/-- **An ancestral signature is kept for each method that is declared beside an inherited one.** -/
theorem exists_ancestral_of_redeclared (found : catalog.world.decl? index = some decl)
    (member : group ∈ (catalog.functionsOf site index).groups) (inGroup : form ∈ group.forms)
    (isAncestral : form.isAncestral = true) (declared : method ∈ decl.methods)
    (named : decl.functionName method = group.name) {inherited : InheritedMethod}
    (became : catalog.world.treatment index method = .redeclared inherited) :
    ∃ kept ∈ group.forms, kept.isAncestral = true ∧
      kept.text = (catalog.signature site inherited.method).text := by
  have onValues := (World.treatment_eq_redeclared_iff.mp became).2.1
  have isWritten := World.isWritten_of_redeclared
    (World.mem_methods_iff.mpr ⟨decl, found, declared⟩) became
  obtain ⟨draft, drafted⟩ :=
    exists_draft?_eq_some site decl isWritten.notSkipped isWritten.notInherited
  have isDraftOf := isDraftOf_of_draft? drafted
  have amongDrafts : draft ∈ catalog.draftsNamed site index group.name :=
    mem_draftsNamed_iff.mpr ⟨mem_drafts_iff.mpr ⟨decl, found, method, declared, drafted⟩,
      isDraftOf.isStatic.trans (Method.isStaticMember_eq_false_iff.mpr (Or.inl onValues)),
      isDraftOf.name.trans named⟩
  obtain ⟨kept, keptMember, keptAncestral, same⟩ := exists_isAncestral_mem_ofDraft group.name
    (List.mem_flatMap.mpr ⟨draft, amongDrafts, ancestralForm_mem became drafted⟩) rfl
  rw [← eq_ofDraft_of_isAncestral member inGroup isAncestral] at keptMember
  exact ⟨kept, keptMember, keptAncestral, same⟩

/-- A group with an ancestral form has a method that is declared beside an inherited one. -/
theorem exists_redeclared_of_isAncestral (found : catalog.world.decl? index = some decl)
    (member : group ∈ (catalog.functionsOf site index).groups) (inGroup : form ∈ group.forms)
    (isAncestral : form.isAncestral = true) :
    ∃ method inherited, decl.functionName method = group.name ∧
      catalog.world.treatment index method = .redeclared inherited := by
  obtain ⟨draft, draftMember, named, inForms⟩ :=
    exists_draft_of_hasForm_groups ⟨group, member, rfl, inGroup⟩
  obtain ⟨own, ownFound, method, -, drafted⟩ := mem_drafts_iff.mp draftMember
  obtain rfl := Option.some.inj (found.symm.trans ownFound)
  obtain ⟨-, -, draftName, -, -, forms⟩ := of_draft? drafted
  obtain ⟨-, ⟨isOwn, -⟩ | ⟨-, inherited, became, -⟩⟩ := forms form inForms
  · rw [isOwn] at isAncestral
    cases isAncestral
  · exact ⟨method, inherited, draftName.symm.trans named, became⟩

/-- **Why the last method of the name may not be declared beside an inherited one** where another
method of the name is. -/
theorem lacksMark_of_not_redeclared {beside : Method} {inherited : InheritedMethod}
    (isLast : catalog.world.IsLastWritten index decl name method)
    (named : decl.functionName beside = name)
    (became : catalog.world.treatment index beside = .redeclared inherited)
    (notRedeclared : ¬ ∃ inherited, catalog.world.treatment index method = .redeclared inherited) :
    catalog.LacksMark index name method := by
  rcases Method.isStaticMember_eq_false_iff.mp isLast.notStatic with onValues | constructs
  · have treated : catalog.world.treatment index method = .declared := by
      cases treated : catalog.world.treatment index method with
      | skipped => exact absurd treated isLast.isWritten.notSkipped
      | inherited => exact absurd treated isLast.isWritten.notInherited
      | declared => rfl
      | redeclared inherited => exact absurd ⟨inherited, treated⟩ notRedeclared
    obtain ⟨unmatched, settled⟩ := (World.treatment_eq_declared_iff.mp treated).2 onValues
    obtain ⟨arity, isInherited⟩ := World.isInherited_of_treatment_eq_redeclared became
    obtain ⟨notConstructor, sameName, -⟩ := World.answersTo_iff.mp isInherited.answers
    have besideOnValues := (World.treatment_eq_redeclared_iff.mp became).2.1
    have namesake : beside.unqualifiedName = method.unqualifiedName := by
      rw [← functionName_eq_unqualifiedName decl besideOnValues,
        ← functionName_eq_unqualifiedName decl onValues, named, isLast.named]
    -- the inherited method of the one beside has the same name, so a nearest one is there to look at
    obtain ⟨nearest, isNearest⟩ := World.exists_isNearest isInherited.ancestor
      isInherited.declared (World.answersTo_iff.mpr
        ⟨notConstructor, sameName.trans namesake, Or.inl rfl⟩ : answersTo method .any _ = true)
    exact .apart onValues unmatched nearest isNearest fun visible =>
      settled nearest (World.visibleInherited?_eq_some_iff.mpr ⟨isNearest, visible⟩)
  · exact .asConstructor constructs
      (isLast.named.symm.trans (functionName_eq_constructorName decl constructs))

/-- **Ancestral forms are kept, and the function is declared for a method of the type.** -/
theorem ancestral_forms_are_retained (found : catalog.world.decl? index = some decl)
    (member : group ∈ (catalog.functionsOf site index).groups)
    (ancestral : ∃ form ∈ group.forms, form.isAncestral = true) :
    catalog.Retains site index decl group := by
  obtain ⟨form, inGroup, isAncestral⟩ := ancestral
  obtain ⟨principal, isPrincipal, isOwn, signature, isLast⟩ :=
    exists_principal_of_isAncestral found member inGroup isAncestral
  have split : group.forms = group.overloads ++ [principal] := by
    obtain ⟨front, forms⟩ := List.getLast?_eq_some_iff.mp isPrincipal
    unfold FunctionGroup.overloads
    rw [forms, List.dropLast_concat]
  constructor
  · have drafted := eq_ofDraft_of_isAncestral member inGroup isAncestral
    rw [drafted] at inGroup ⊢
    exact (ancestral_ahead_ofDraft group.name
      ⟨form, mem_of_mem_ofDraft inGroup, isAncestral⟩).1
  · intro method declared named inherited became
    obtain ⟨kept, keptMember, keptAncestral, same⟩ :=
      exists_ancestral_of_redeclared found member inGroup isAncestral declared named became
    refine ⟨kept, ?_, keptAncestral, same⟩
    rw [split] at keptMember
    refine (List.mem_append.mp keptMember).resolve_right fun isLastForm => ?_
    rw [List.mem_singleton.mp isLastForm, isOwn] at keptAncestral
    cases keptAncestral
  · have has : HasForm (catalog.functionsOf site index).groups group.name principal :=
      ⟨group, member, rfl, by rw [split]; simp⟩
    have marked := (exists_isWritten_of_own has isOwn).2
    obtain ⟨beside, inherited, named, became⟩ :=
      exists_redeclared_of_isAncestral found member inGroup isAncestral
    exact ⟨principal, isPrincipal, isOwn, signature, isLast, marked, fun unmarked =>
      lacksMark_of_not_redeclared isLast named became fun redeclared =>
        unmarked (marked.mpr redeclared)⟩

/-! ### Functions that are declared with and without the mark -/

/-- Types with an ancestral form. In the first, a method that is declared like any other comes after
the one beside it, in the second a constructor does, and in the third it is the other way round. -/
def retainedTexts : List String :=
  ["assembly a namespace \x7b public interface I \x7b public method M(): X \x7d " ++
      "public class A \x7b public method M(x: X): X \x7d " ++
      "public class B extends A \x7b method M(): X \x7d " ++
      "public class C extends B implements I \x7b public method M(x: X): X " ++
      "public method M(x: X, y: X): X \x7d \x7d",
    "assembly b namespace \x7b public interface J \x7b public method new(): X \x7d " ++
      "public class D \x7b public method new(): X \x7d " ++
      "public class E extends D implements J \x7b public method new(): X public ctor() \x7d \x7d",
    "assembly c namespace \x7b public interface K \x7b public method M(): X \x7d " ++
      "public class F \x7b public method M(x: X): X \x7d " ++
      "public class G extends F \x7b method M(): X \x7d " ++
      "public class H extends G implements K \x7b public method M(x: X, y: X): X " ++
      "public method M(x: X): X \x7d \x7d"]

/-- The types of the listings. -/
def retainedCatalog : Catalog :=
  Catalog.ofAssemblies (retainedTexts.map Listing.assemblyOf) {}

theorem retainedCatalog_facts :
    (∀ text ∈ retainedTexts, (Listing.readAssembly text).isOk = true) ∧
      (∀ index ∈ retainedCatalog.world.indices, ∀ base ∈ retainedCatalog.world.base? index,
        base < index) ∧
      (∀ place ∈ [(3, "C"), (6, "E")], ∃ group ∈ (retainedCatalog.functionsOf
          (.ofFile { space := "", name := place.2 }) place.1).groups,
        (∃ form ∈ group.forms, form.isAncestral = true) ∧
          ∃ form ∈ group.principal?, ¬ form.attributes.MarksOverride) ∧
      (retainedCatalog.world.decl? 10).isSome = true ∧
      ∃ group ∈ (retainedCatalog.functionsOf (.ofFile { space := "", name := "H" }) 10).groups,
        (∃ form ∈ group.forms, form.isAncestral = true) ∧
          ∃ form ∈ group.principal?, form.attributes.MarksOverride := by
  unfold retainedCatalog
  rw [Listing.forall_isOk_iff, Listing.map_assemblyOf_eq]
  unfold retainedTexts
  simp only [List.map_cons, List.map_nil, String.toList_append]
  repeat rw [String.toList_ofList]
  decide +kernel

/-- Where the method that is declared beside an inherited one comes last, the function is marked, and
that method is the one that it is declared for. -/
theorem ancestral_forms_are_retained_marked :
    ∃ decl, retainedCatalog.world.decl? 10 = some decl ∧
      ∃ group ∈ (retainedCatalog.functionsOf (.ofFile { space := "", name := "H" }) 10).groups,
        retainedCatalog.Retains (.ofFile { space := "", name := "H" }) 10 decl group ∧
          ∃ form, group.principal? = some form ∧ ∃ inherited,
            retainedCatalog.world.treatment 10 form.source = .redeclared inherited := by
  obtain ⟨-, -, -, present, group, member, ancestral, form, isPrincipal, marks⟩ :=
    retainedCatalog_facts
  obtain ⟨decl, found⟩ := Option.isSome_iff_exists.mp present
  have retains := ancestral_forms_are_retained found member ancestral
  obtain ⟨principal, same, -, -, -, marked, -⟩ := retains.principal
  obtain rfl := Option.some.inj (same.symm.trans isPrincipal)
  exact ⟨decl, found, group, member, retains, principal, same, marked.mp marks⟩

/-- A function with an ancestral form may be declared without the mark of an override. -/
theorem exists_unmarked :
    (∀ text ∈ retainedTexts, (Listing.readAssembly text).isOk = true) ∧
      retainedCatalog.world.IsAcyclic ∧
      ∀ place ∈ [(3, "C"), (6, "E")], ∃ group ∈ (retainedCatalog.functionsOf
          (.ofFile { space := "", name := place.2 }) place.1).groups,
        (∃ form ∈ group.forms, form.isAncestral = true) ∧
          ∃ form ∈ group.principal?, ¬ form.attributes.MarksOverride := by
  obtain ⟨answered, earlier, unmarked, -⟩ := retainedCatalog_facts
  exact ⟨answered, World.isAcyclic_of_forall_lt earlier, unmarked⟩

end Catalog

end ExternBindings
