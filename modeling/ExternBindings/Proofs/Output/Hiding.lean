/-
**Hiding loses no method.**

A method is left to an ancestor if the nearest inherited method of its name and number of parameters
can be seen. That one may be left to an ancestor itself, and it may be of any kind.

* `Catalog.Survives` — the three ways in which a method of a type is still met: as a method of the
  type or an ancestor that is called on values and written by its type, or an ancestor has a static
  method, an accessor or an operator in its place;
* `survives_of_isVisible` — the induction along the ancestors, which no cycle may interrupt;
* `survives_of_isPublic` — so every public method that is called on values survives. It need not
  have a namesake that is called on values (`exists_not_keepsNamesake`).
-/

import ExternBindings.Proofs.Listing.Characters
import ExternBindings.Proofs.Output.FunctionForms
import ExternBindings.Proofs.World.Ancestry
import ExternBindings.Proofs.World.Nesting

namespace ExternBindings

open World (answersTo)

namespace Catalog

/-- The type writes the method's signature in a function of the method's name that is called on
values. The form that has this text is for such a method too, or for a constructor, or it is an
ancestral one. -/
def WritesMethod (catalog : Catalog) (site : Site) (owner : TypeIndex) (method : Method) : Prop :=
  ∃ form, HasForm (catalog.functionsOf site owner).primary method.unqualifiedName form ∧
    form.text = (catalog.signature site method).text ∧
    (form.isAncestral = true ∨
      form.source.isInstanceMember = true ∧ form.source.unqualifiedName = method.unqualifiedName ∨
      form.source.isConstructor = true ∧ method.unqualifiedName = constructorName)

/-- The type or its companion writes the method's signature in a function of the method's name. -/
def WritesStatic (catalog : Catalog) (site : Site) (owner : TypeIndex) (method : Method) : Prop :=
  ∃ decl, catalog.world.decl? owner = some decl ∧
    ∃ form, HasForm (catalog.functionsOf site owner).groups (decl.functionName method) form ∧
      form.text = (catalog.signature site method).text

/-- How a method of a type is met in the generated declarations. -/
inductive Survives (catalog : Catalog) (index : TypeIndex) (method : Method) : Prop
  /-- as a method of the type or an ancestor -/
  | asMethod (owner : TypeIndex) (other : Method)
      (related : owner ∈ index :: catalog.world.ancestors index)
      (declared : other ∈ catalog.world.methods owner)
      (answers : answersTo method .exact other = true)
      (onValues : other.isInstanceMember = true) (byName : other.isCalledByName = true)
      (written : ∀ site, catalog.WritesMethod site owner other)
  /-- an ancestor has a static method in its place -/
  | asStatic (owner : TypeIndex) (other : Method) (related : owner ∈ catalog.world.ancestors index)
      (declared : other ∈ catalog.world.methods owner)
      (answers : answersTo method .exact other = true)
      (static : other.isStaticMember = true) (byName : other.isCalledByName = true)
      (written : ∀ site, catalog.WritesStatic site owner other)
  /-- an ancestor has an accessor or an operator in its place -/
  | asOther (owner : TypeIndex) (other : Method) (related : owner ∈ catalog.world.ancestors index)
      (declared : other ∈ catalog.world.methods owner)
      (answers : answersTo method .exact other = true)
      (visible : catalog.world.isVisible owner other = true)
      (notByName : other.isCalledByName = false)

variable {catalog : Catalog} {index : TypeIndex} {method : Method}

/-! ### Methods that are not left to an ancestor -/

theorem treatment_ne_skipped (visible : catalog.world.isVisible index method = true)
    (byName : method.isCalledByName = true) : catalog.world.treatment index method ≠ .skipped := by
  intro skipped
  rw [World.treatment_eq_skipped_iff] at skipped
  unfold World.isDeclarable at skipped
  rw [byName, visible] at skipped
  cases skipped

theorem writesMethod_of_treatment (declared : method ∈ catalog.world.methods index)
    (onValues : method.isInstanceMember = true)
    (notSkipped : catalog.world.treatment index method ≠ .skipped)
    (notInherited : catalog.world.treatment index method ≠ .inherited) (site : Site) :
    catalog.WritesMethod site index method := by
  obtain ⟨decl, found, inDecl⟩ := World.mem_methods_iff.mp declared
  obtain ⟨draft, member, isDraft⟩ := exists_draft site found inDecl notSkipped notInherited
  have onValuesToo : draft.isStatic = false :=
    isDraft.isStatic.trans (Method.isStaticMember_eq_false_iff.mpr (Or.inl onValues))
  have named : draft.name = method.unqualifiedName :=
    isDraft.name.trans (functionName_eq_unqualifiedName decl onValues)
  obtain ⟨form, formMember, written⟩ := isDraft.own
  obtain ⟨kept, has, same⟩ := exists_hasForm_primary member onValuesToo formMember
  obtain ⟨other, otherMember, otherOnValues, otherName, inOther⟩ :=
    exists_draft_of_hasForm_primary member onValuesToo has
  rw [named] at has otherName
  refine ⟨kept, has, same.trans written, ?_⟩
  obtain ⟨otherDecl, -, source, -, drafted⟩ := mem_drafts_iff.mp otherMember
  have isDraftOf := isDraftOf_of_draft? drafted
  rcases isDraftOf.sources kept inOther with ancestral | rfl
  · exact Or.inl ancestral
  · right
    have sameName := isDraftOf.name.symm.trans otherName
    rcases Method.isStaticMember_eq_false_iff.mp (isDraftOf.isStatic.symm.trans otherOnValues) with
      sourceOnValues | constructs
    · rw [functionName_eq_unqualifiedName otherDecl sourceOnValues] at sameName
      exact Or.inl ⟨sourceOnValues, sameName⟩
    · rw [functionName_eq_constructorName otherDecl constructs] at sameName
      exact Or.inr ⟨constructs, sameName.symm⟩

theorem writesStatic_of_treatment (declared : method ∈ catalog.world.methods index)
    (notSkipped : catalog.world.treatment index method ≠ .skipped)
    (notInherited : catalog.world.treatment index method ≠ .inherited) (site : Site) :
    catalog.WritesStatic site index method := by
  obtain ⟨decl, found, inDecl⟩ := World.mem_methods_iff.mp declared
  obtain ⟨draft, member, isDraft⟩ := exists_draft site found inDecl notSkipped notInherited
  obtain ⟨form, formMember, written⟩ := isDraft.own
  obtain ⟨kept, has, same⟩ := exists_hasForm_groups member formMember
  rw [isDraft.name] at has
  exact ⟨decl, found, kept, has, same.trans written⟩

/-! ### Along the ancestors -/

/-- What survives of an inherited method in an ancestor survives of the method it answers for. -/
theorem Survives.of_ancestor {ancestor : TypeIndex} {inherited : Method}
    (below : ∀ owner, owner ∈ ancestor :: catalog.world.ancestors ancestor →
      owner ∈ catalog.world.ancestors index)
    (answers : answersTo method .exact inherited = true)
    (survives : catalog.Survives ancestor inherited) : catalog.Survives index method := by
  have further {other : Method} (answersToo : answersTo inherited .exact other = true) :
      answersTo method .exact other = true := by
    rw [World.answersTo_exact_iff] at answers answersToo ⊢
    exact ⟨answersToo.1, answersToo.2.1.trans answers.2.1, answersToo.2.2.trans answers.2.2⟩
  cases survives with
  | asMethod owner other related declared answersToo onValues byName written =>
    exact .asMethod owner other (List.mem_cons_of_mem _ (below owner related)) declared
      (further answersToo) onValues byName written
  | asStatic owner other related declared answersToo static byName written =>
    exact .asStatic owner other (below owner (List.mem_cons_of_mem _ related)) declared
      (further answersToo) static byName written
  | asOther owner other related declared answersToo visible notByName =>
    exact .asOther owner other (below owner (List.mem_cons_of_mem _ related)) declared
      (further answersToo) visible notByName

/-- **A method that can be seen survives.** By induction on the number of ancestors: a method that
is left to an ancestor survives in the way in which the nearest inherited one does. -/
theorem survives_of_isVisible (acyclic : catalog.world.IsAcyclic)
    (declared : method ∈ catalog.world.methods index)
    (visible : catalog.world.isVisible index method = true)
    (onValues : method.isInstanceMember = true) (byName : method.isCalledByName = true) :
    catalog.Survives index method := by
  induction count : (catalog.world.ancestors index).length using Nat.strongRecOn
    generalizing index method with
  | ind count hypothesis =>
    by_cases isInherited : catalog.world.treatment index method = .inherited
    · obtain ⟨-, -, ⟨ancestor, inherited⟩, found, -⟩ :=
        World.treatment_eq_inherited_iff.mp isInherited
      have facts := World.isInherited_of_visibleInherited? found
      obtain ⟨nearer, path⟩ := World.exists_ancestors_eq_append acyclic facts.ancestor
      by_cases inheritedByName : inherited.isCalledByName = true
      · by_cases inheritedOnValues : inherited.isInstanceMember = true
        · refine Survives.of_ancestor (fun owner member => ?_) facts.answers
            (hypothesis _ ?_ facts.declared facts.visible inheritedOnValues inheritedByName rfl)
          · rw [path]
            exact List.mem_append_right _ member
          · rw [← count, path, List.length_append, List.length_cons]
            omega
        · -- a static method is not left to an ancestor itself, so that it is written here
          have notInherited : catalog.world.treatment ancestor inherited ≠ .inherited :=
            fun same => inheritedOnValues (World.treatment_eq_inherited_iff.mp same).2.1
          have static : inherited.isStaticMember = true := by
            rw [← Bool.not_eq_false, Method.isStaticMember_eq_false_iff]
            rintro (isInstance | constructs)
            · exact inheritedOnValues isInstance
            · rw [(World.answersTo_exact_iff.mp facts.answers).1] at constructs
              cases constructs
          exact .asStatic ancestor inherited facts.ancestor facts.declared facts.answers static
            inheritedByName (writesStatic_of_treatment facts.declared
              (treatment_ne_skipped facts.visible inheritedByName) notInherited)
      · exact .asOther ancestor inherited facts.ancestor facts.declared facts.answers facts.visible
          (Bool.eq_false_iff.mpr inheritedByName)
    · refine .asMethod index method List.mem_cons_self declared ?_ onValues byName
        (writesMethod_of_treatment declared onValues (treatment_ne_skipped visible byName)
          isInherited)
      exact World.answersTo_exact_iff.mpr ⟨(Method.isInstanceMember_iff.mp onValues).2, rfl, rfl⟩

/-- **Hiding loses no method.** -/
theorem survives_of_isPublic (acyclic : catalog.world.IsAcyclic)
    (declared : method ∈ catalog.world.methods index) (isPublic : method.isPublic = true)
    (onValues : method.isInstanceMember = true) (byName : method.isCalledByName = true) :
    catalog.Survives index method := by
  refine survives_of_isVisible acyclic declared ?_ onValues byName
  unfold World.isVisible
  rw [isPublic, Bool.true_or]

/-! ### Methods of all kinds -/

/-- Methods that are left to a static method and to another method, to an accessor and to an
operator; one that is written like a constructor, and one like the static method of an ancestor; two
methods whose parameters are written alike. -/
def kindsTexts : List String :=
  ["assembly a namespace \x7b class A \x7b public static method M(): X " ++
      "public method N(): X \x7d " ++
      "class B extends A \x7b public method M(): X public method N(): X \x7d \x7d",
    "assembly b namespace \x7b class C \x7b public property P: X \x7b get; \x7d \x7d " ++
      "class D extends C \x7b public method get_P(): X \x7d \x7d",
    "assembly c namespace \x7b class E \x7b public operator method M(): X \x7d " ++
      "class F extends E \x7b public method M(): X \x7d \x7d",
    "assembly d namespace \x7b class G \x7b public method new(): System.Void " ++
      "public ctor() \x7d \x7d",
    "assembly e namespace \x7b public interface H \x7b method M(): X \x7d " ++
      "class I extends A implements H \x7b public method M(): X public method M(x: X): X \x7d \x7d",
    "assembly f namespace N \x7b class J<p> \x7b public method M(x: !p, y: q.n.A): X " ++
      "public method M(x: N.A): X \x7d \x7d"]

/-- The types of the listings, for a package that is written like a parameter. -/
def kindsCatalog : Catalog :=
  Catalog.ofAssemblies (kindsTexts.map Listing.assemblyOf)
    { replacement? := some "p, y:q", rootPackages := ["q.n"] }

/-- The type or an ancestor has a form for a method that is not static, with the same name and
number of parameters. -/
def KeepsNamesake (catalog : Catalog) (site : Site) (index : TypeIndex) (method : Method) : Prop :=
  ∃ owner ∈ index :: catalog.world.ancestors index,
    ∃ group ∈ (catalog.functionsOf site owner).groups, ∃ form ∈ group.forms,
      form.source.isStatic = false ∧ form.source.unqualifiedName = method.unqualifiedName ∧
        form.source.arity = method.arity

instance (catalog : Catalog) (site : Site) (index : TypeIndex) (method : Method) :
    Decidable (catalog.KeepsNamesake site index method) :=
  inferInstanceAs (Decidable (∃ owner ∈ index :: catalog.world.ancestors index, _))

theorem kindsCatalog_facts :
    (∀ text ∈ kindsTexts, (Listing.readAssembly text).isOk = true) ∧
      (∀ index ∈ kindsCatalog.world.indices, ∀ base ∈ kindsCatalog.world.base? index,
        base < index) ∧
      (∀ index ∈ [1, 3, 5, 6, 8, 9], ∃ method ∈ kindsCatalog.world.methods index,
        method.isPublic = true ∧ method.isInstanceMember = true ∧ method.isCalledByName = true ∧
          ¬ kindsCatalog.KeepsNamesake (Site.ofFile { space := "", name := "A" }) index method) ∧
      ∃ method ∈ kindsCatalog.world.methods 1,
        method.name = "N" ∧ method.isPublic = true ∧ method.isInstanceMember = true ∧
          method.isCalledByName = true := by
  unfold kindsCatalog
  rw [Listing.forall_isOk_iff, Listing.map_assemblyOf_eq]
  unfold kindsTexts
  simp only [List.map_cons, List.map_nil, String.toList_append]
  repeat rw [String.toList_ofList]
  decide +kernel

/-- A method that an ancestor declares too is met there. -/
theorem survives_of_isPublic_inherited :
    ∃ method ∈ kindsCatalog.world.methods 1,
      method.name = "N" ∧ kindsCatalog.Survives 1 method := by
  obtain ⟨-, earlier, -, method, declared, named, isPublic, onValues, byName⟩ := kindsCatalog_facts
  exact ⟨method, declared, named, survives_of_isPublic (World.isAcyclic_of_forall_lt earlier)
    declared isPublic onValues byName⟩

/-- Not every public method has a namesake that is called on values: one of an ancestor may be of
another kind, and where signatures are written alike only one of them is kept. -/
theorem exists_not_keepsNamesake :
    (∀ text ∈ kindsTexts, (Listing.readAssembly text).isOk = true) ∧ kindsCatalog.world.IsAcyclic ∧
      ∀ index ∈ [1, 3, 5, 6, 8, 9], ∃ method ∈ kindsCatalog.world.methods index,
        method.isPublic = true ∧ method.isInstanceMember = true ∧ method.isCalledByName = true ∧
          ¬ kindsCatalog.KeepsNamesake (Site.ofFile { space := "", name := "A" }) index method := by
  obtain ⟨answered, earlier, lost, -⟩ := kindsCatalog_facts
  exact ⟨answered, World.isAcyclic_of_forall_lt earlier, lost⟩

end Catalog

end ExternBindings
