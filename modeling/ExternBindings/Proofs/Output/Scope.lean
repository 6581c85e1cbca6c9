/-
**The scopes of signatures.**

A type expression keeps a type parameter as it is unless it belongs to the method that is written.

* `Catalog.mem_parameters_typeExpr` — by induction on the reference: a parameter in the expression
  is one of a type, or of a method other than the one at the site;
* `Catalog.mem_typeParameters_signature` — so the signature of a method mentions parameters of the
  type that declares it, and of no other type;
* `Catalog.signatures_are_scoped` — which is the type that the signature is written for, except for
  the signature of an ancestor that is kept beside an override. It mentions parameters of the
  ancestor as they are, and not what the type puts in their places
  (`Catalog.exists_signature_out_of_scope`).
-/

import ExternBindings.Proofs.Listing.Characters
import ExternBindings.Proofs.Metadata.TypeParameters
import ExternBindings.Proofs.Output.FunctionForms
import ExternBindings.Proofs.World.Nesting

namespace ExternBindings

/-! ### Type expressions -/

namespace Catalog

variable {catalog : Catalog} {site : Site} {name : String}

/-- A parameter of the method at the site is not left as it is. -/
theorem mem_parameters_of_not_erases {owner : ParameterOwner}
    (kept : site.erases (.parameter owner name) = false) :
    name ∈ (TypeReference.parameter owner name).parametersOf .type ∨
      name ∈ (TypeReference.parameter owner name).parametersOf .method ∧ name ∉ site.erased := by
  cases owner with
  | type => exact Or.inl (by simp [TypeReference.parametersOf])
  | method =>
    refine Or.inr ⟨by simp [TypeReference.parametersOf], fun erased => ?_⟩
    have lost : site.erased.contains name = false := kept
    rw [List.contains_iff_mem.mpr erased] at lost
    cases lost

mutual

/-- **A type parameter in an expression is one of a type**, or of a method that is not the one at the
site. -/
theorem mem_parameters_typeExpr (precision : Precision) : ∀ reference : TypeReference,
    name ∈ (catalog.typeExpr site precision reference).parameters →
    name ∈ reference.parametersOf .type ∨
      name ∈ reference.parametersOf .method ∧ name ∉ site.erased
  | .primitive kind, mentioned => by
    rw [typeExpr, nameExpr, TypeExpr.parameters] at mentioned
    cases mentioned
  | .named other, mentioned => by
    rw [typeExpr, nameExpr, TypeExpr.parameters] at mentioned
    cases mentioned
  | .parameter owner other, mentioned => by
    rw [typeExpr] at mentioned
    split at mentioned
    · rw [TypeExpr.parameters] at mentioned
      cases mentioned
    · next kept =>
      rw [TypeExpr.parameters] at mentioned
      obtain rfl := List.mem_singleton.mp mentioned
      exact mem_parameters_of_not_erases (Bool.eq_false_iff.mpr kept)
  | .indirect kind element, mentioned => by
    rw [typeExpr] at mentioned
    rw [TypeReference.parametersOf, TypeReference.parametersOf]
    exact mem_parameters_typeExpr precision element mentioned
  | .array element rank, mentioned => by
    rw [typeExpr] at mentioned
    split at mentioned
    · rw [TypeExpr.parameters] at mentioned
      cases mentioned
    · rw [TypeExpr.parameters, TypeExpr.parametersOfAll, TypeExpr.parametersOfAll,
        List.append_nil] at mentioned
      rw [TypeReference.parametersOf, TypeReference.parametersOf]
      exact mem_parameters_typeExpr .exact element mentioned
  | .instantiation definition arguments, mentioned => by
    rw [typeExpr] at mentioned
    split at mentioned
    · rw [bareExpr, TypeExpr.parameters] at mentioned
      cases mentioned
    · rw [TypeExpr.parameters] at mentioned
      rw [TypeReference.parametersOf, TypeReference.parametersOf]
      exact mem_parameters_argumentExprs arguments mentioned

theorem mem_parameters_argumentExprs : ∀ arguments : List TypeReference,
    name ∈ TypeExpr.parametersOfAll (catalog.argumentExprs site arguments) →
    name ∈ TypeReference.parametersOfAll .type arguments ∨
      name ∈ TypeReference.parametersOfAll .method arguments ∧ name ∉ site.erased
  | [], mentioned => by
    rw [argumentExprs, TypeExpr.parametersOfAll] at mentioned
    cases mentioned
  | head :: tail, mentioned => by
    rw [argumentExprs, TypeExpr.parametersOfAll, List.mem_append] at mentioned
    rw [TypeReference.parametersOfAll, TypeReference.parametersOfAll, List.mem_append,
      List.mem_append]
    rcases mentioned with inHead | inTail
    · rcases mem_parameters_typeExpr .exact head inHead with ofType | ⟨ofMethod, kept⟩
      · exact Or.inl (Or.inl ofType)
      · exact Or.inr ⟨Or.inl ofMethod, kept⟩
    · rcases mem_parameters_argumentExprs tail inTail with ofType | ⟨ofMethod, kept⟩
      · exact Or.inl (Or.inr ofType)
      · exact Or.inr ⟨Or.inr ofMethod, kept⟩

end

end Catalog

/-! ### Signatures -/

/-- The type parameters that a signature mentions. -/
def Signature.typeParameters (signature : Signature) : List String :=
  (signature.parameters.flatMap fun parameter => parameter.2.parameters) ++
    signature.returns.parameters

namespace Catalog

variable {catalog : Catalog} {site : Site} {index : TypeIndex} {name parameter : String}
  {decl : TypeDecl} {method : Method} {form : FunctionForm}

theorem parameters_parameterExpr (catalog : Catalog) (site : Site) (parameter : Parameter) :
    (catalog.parameterExpr site parameter).2.parameters =
      (catalog.typeExpr site .general parameter.type).parameters := by
  unfold parameterExpr
  dsimp only
  split
  · rw [TypeExpr.parameters, TypeExpr.parametersOfAll, TypeExpr.parametersOfAll, List.append_nil]
  · split
    · rw [TypeExpr.parameters, TypeExpr.parametersOfAll, TypeExpr.parametersOfAll, List.append_nil]
    · rfl

/-- A type parameter in a signature stands in one of the method's references. -/
theorem exists_reference_of_mem_typeParameters
    (mentioned : parameter ∈ (catalog.signature site method).typeParameters) :
    ∃ reference ∈ method.references, parameter ∈
      (catalog.typeExpr (site.insideMethod method.genericParameters) .general reference).parameters
      := by
  unfold Signature.typeParameters signature parameterExprs at mentioned
  rw [List.mem_append] at mentioned
  unfold Method.references
  rcases mentioned with inParameters | inResult
  · obtain ⟨written, writtenMember, mentioned⟩ := List.mem_flatMap.mp inParameters
    obtain ⟨declared, declaredMember, rfl⟩ := List.mem_map.mp writtenMember
    rw [parameters_parameterExpr] at mentioned
    exact ⟨declared.type, List.mem_append_left _ (List.mem_map_of_mem declaredMember), mentioned⟩
  · dsimp only at inResult
    split at inResult
    · rw [TypeExpr.parameters] at inResult
      cases inResult
    · exact ⟨method.returns, List.mem_append_right _ (List.mem_singleton_self _), inResult⟩

/-- **A signature mentions only parameters of the type that declares the method.** -/
theorem mem_typeParameters_signature (wellScoped : decl.IsScoped) (declared : method ∈ decl.methods)
    (mentioned : parameter ∈ (catalog.signature site method).typeParameters) :
    parameter ∈ decl.genericParameters := by
  obtain ⟨reference, member, mentioned⟩ := exists_reference_of_mem_typeParameters mentioned
  -- parameters of methods are the method's own ones, and these are erased
  rcases mem_parameters_typeExpr .general reference mentioned with ofType | ⟨ofMethod, kept⟩
  · exact wellScoped.method declared member parameter ofType
  · exact absurd (wellScoped.methods method declared reference member parameter ofMethod) kept

theorem mem_typeParameters_of_mem_methods (wellScoped : catalog.world.IsScoped)
    (declared : method ∈ catalog.world.methods index)
    (mentioned : parameter ∈ (catalog.signature site method).typeParameters) :
    ∃ decl, catalog.world.decl? index = some decl ∧ parameter ∈ decl.genericParameters := by
  obtain ⟨decl, found, declared⟩ := World.mem_methods_iff.mp declared
  exact ⟨decl, found, mem_typeParameters_signature (wellScoped.decl found) declared mentioned⟩

/-! ### The functions of a type -/

/-- The form is the signature of an ancestor, kept beside a method of the type, and the parameter
is one of the ancestor. -/
structure IsOutOfScope (catalog : Catalog) (index : TypeIndex) (form : FunctionForm)
    (parameter : String) : Prop where
  isAncestral : form.isAncestral = true
  beside : ∃ method ∈ catalog.world.methods index, ∃ inherited,
    catalog.world.treatment index method = .redeclared inherited ∧
      form.source = inherited.method ∧
      ∃ ownerDecl, catalog.world.decl? inherited.owner = some ownerDecl ∧
        parameter ∈ ownerDecl.genericParameters

/-- **Signatures are well scoped** where the declared types are: a type parameter in a form of a type
is one of that type, unless the form is kept for an ancestor and the parameter is the ancestor's. -/
theorem signatures_are_scoped (wellScoped : catalog.world.IsScoped)
    (found : catalog.world.decl? index = some decl)
    (has : HasForm (catalog.functionsOf site index).groups name form)
    (mentioned : parameter ∈ form.signature.typeParameters) :
    parameter ∈ decl.genericParameters ∨ catalog.IsOutOfScope index form parameter := by
  cases origin_of_hasForm has with
  | own _ declared _ _ written =>
    rw [written] at mentioned
    obtain ⟨own, ownFound, inScope⟩ :=
      mem_typeParameters_of_mem_methods wellScoped declared mentioned
    rw [found, Option.some.injEq] at ownFound
    subst ownFound
    exact Or.inl inScope
  | beside isAncestral method declared inherited became source written =>
    rw [written, source] at mentioned
    exact Or.inr ⟨isAncestral, method, declared, inherited, became, source,
      mem_typeParameters_of_mem_methods wellScoped
        (World.mem_methods_of_treatment_eq_redeclared became) mentioned⟩

/-- A generic type, and a type that is derived from one application of it and implements an interface
besides. -/
def scopeText : String :=
  "assembly a namespace \x7b public interface I \x7b method M(): X \x7d " ++
    "class A<U> \x7b public method M(x: !U): X \x7d " ++
    "class B extends A<X> implements I \x7b public method M(x: X): X \x7d \x7d"

/-- The types of the listing. -/
def scopeCatalog : Catalog :=
  Catalog.ofAssemblies [Listing.assemblyOf scopeText] {}

/-- The site of the files for the types of the listing. -/
def scopeSite : Site :=
  Site.ofFile { space := "", name := "A" }

theorem scopeCatalog_facts :
    (Listing.readAssembly scopeText).isOk = true ∧ scopeCatalog.world.IsScoped ∧
      (scopeCatalog.world.decl? 1).isSome = true ∧
      (∃ group ∈ (scopeCatalog.functionsOf scopeSite 1).groups, ∃ form ∈ group.forms,
        form.isAncestral = false ∧ "U" ∈ form.signature.typeParameters) ∧
      (scopeCatalog.world.decl? 2).any (fun decl => decl.genericParameters = []) = true ∧
      ∃ group ∈ (scopeCatalog.functionsOf scopeSite 2).groups, ∃ form ∈ group.forms,
        "U" ∈ form.signature.typeParameters := by
  unfold scopeCatalog
  rw [Listing.readAssembly_eq, Listing.assemblyOf_eq]
  unfold scopeText
  simp only [String.toList_append]
  repeat rw [String.toList_ofList]
  decide +kernel

/-- A method of a generic type may mention the parameter of its type. -/
theorem signatures_are_scoped_generic :
    ∃ decl, scopeCatalog.world.decl? 1 = some decl ∧
      ∃ name form, HasForm (scopeCatalog.functionsOf scopeSite 1).groups name form ∧
        "U" ∈ form.signature.typeParameters ∧ "U" ∈ decl.genericParameters := by
  obtain ⟨-, wellScoped, known, ⟨group, groupMember, form, formMember, isOwn, mentioned⟩, -⟩ :=
    scopeCatalog_facts
  obtain ⟨decl, found⟩ := Option.isSome_iff_exists.mp known
  have has : HasForm _ group.name form := ⟨group, groupMember, rfl, formMember⟩
  refine ⟨decl, found, group.name, form, has, mentioned, ?_⟩
  rcases signatures_are_scoped wellScoped found has mentioned with inScope | outOfScope
  · exact inScope
  · rw [outOfScope.isAncestral] at isOwn
    cases isOwn

/-- Not every signature is well scoped: the parameter of an ancestor stays as it is, although the
type that is derived from an application of the ancestor has no such parameter. -/
theorem exists_signature_out_of_scope :
    (Listing.readAssembly scopeText).isOk = true ∧ scopeCatalog.world.IsScoped ∧
      ∃ decl, scopeCatalog.world.decl? 2 = some decl ∧
        ∃ name form, HasForm (scopeCatalog.functionsOf scopeSite 2).groups name form ∧
          ∃ parameter ∈ form.signature.typeParameters, parameter ∉ decl.genericParameters := by
  obtain ⟨answered, wellScoped, -, -, plain, group, groupMember, form, formMember, mentioned⟩ :=
    scopeCatalog_facts
  obtain ⟨decl, found, noParameters⟩ := Option.any_eq_true _ _ |>.mp plain
  refine ⟨answered, wellScoped, decl, found, group.name, form,
    ⟨group, groupMember, rfl, formMember⟩, "U", mentioned, ?_⟩
  rw [of_decide_eq_true noParameters]
  exact List.not_mem_nil

end Catalog

end ExternBindings
