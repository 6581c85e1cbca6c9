/-
**The type parameters of a method do not show in its signature.**

Generated methods are not generic, so a signature says `Dynamic`, or the form of a generic type
without arguments, where the method's own type parameters stand.

* `TypeReference.renamed`, `Method.withRenamed` — a reference or a method with the type parameters of
  the method renamed;
* `Catalog.standsIn_renamed` — a renamed parameter is erased like the one it was;
* `Catalog.method_parameters_are_erased` — so a method that mentions only its own parameters has the
  same signature however they are called, and the parameters left in it belong to types.
-/

import ExternBindings.Proofs.Output.Scope
import ExternBindings.Proofs.Output.StandIns

namespace ExternBindings

/-! ### Other names for the parameters of a method -/

/-- What takes the place of a type parameter when those of methods are renamed. -/
def renamedParameter (rename : String → String) : ParameterOwner → String → TypeReference
  | .type, name => .parameter .type name
  | .method, name => .parameter .method (rename name)

/-- The reference with every type parameter of the method renamed. -/
def TypeReference.renamed (rename : String → String) : TypeReference → TypeReference :=
  substituted (renamedParameter rename)

/-- The method with its type parameters renamed wherever they stand. -/
def Method.withRenamed (rename : String → String) (method : Method) : Method :=
  { method with
    genericParameters := method.genericParameters.map rename
    parameters := method.parameters.map fun parameter =>
      { parameter with type := parameter.type.renamed rename }
    returns := method.returns.renamed rename }

theorem TypeReference.isByRef_renamed (rename : String → String) (reference : TypeReference) :
    (reference.renamed rename).isByRef = reference.isByRef := by
  cases reference with
  | parameter owner name => cases owner <;> rfl
  | indirect kind element => cases kind <;> rfl
  | _ => rfl

/-! ### Signatures -/

namespace Catalog

variable {catalog : Catalog} {site : Site} {method : Method} {generics : List String}

/-- **A renamed parameter is erased like the one it was**, if it is one of the method's own. -/
theorem standsIn_renamed (rename : String → String) {owner : ParameterOwner} {name : String}
    (own : owner = .method → name ∈ generics) :
    catalog.StandsIn site generics (generics.map rename) (renamedParameter rename owner name) owner
      name := by
  cases owner with
  | type =>
    refine ⟨rfl, fun precision => ?_⟩
    rw [renamedParameter, typeExpr, typeExpr]
    rfl
  | method =>
    have erased : (site.insideMethod generics).erases (.parameter .method name) = true :=
      List.contains_iff_mem.mpr (own rfl)
    have erasedToo : (site.insideMethod (generics.map rename)).erases
        (.parameter .method (rename name)) = true :=
      List.contains_iff_mem.mpr (List.mem_map_of_mem (own rfl))
    refine ⟨erasedToo.trans erased.symm, fun precision => ?_⟩
    rw [renamedParameter, typeExpr, typeExpr, erased, erasedToo, if_pos rfl, if_pos rfl]

theorem typeExpr_renamed (rename : String → String) (precision : Precision)
    {reference : TypeReference} (own : ∀ name ∈ reference.parametersOf .method, name ∈ generics) :
    catalog.typeExpr (site.insideMethod (generics.map rename)) precision
        (reference.renamed rename) =
      catalog.typeExpr (site.insideMethod generics) precision reference := by
  refine typeExpr_substituted precision reference fun owner name mentioned => ?_
  refine standsIn_renamed rename fun ofMethod => own name ?_
  rwa [ofMethod] at mentioned

theorem parameterExpr_renamed (rename : String → String) {parameter : Parameter}
    (own : ∀ name ∈ parameter.type.parametersOf .method, name ∈ generics) :
    catalog.parameterExpr (site.insideMethod (generics.map rename))
        { parameter with type := parameter.type.renamed rename } =
      catalog.parameterExpr (site.insideMethod generics) parameter := by
  unfold parameterExpr Parameter.isByRef
  dsimp only
  rw [typeExpr_renamed rename .general own, TypeReference.isByRef_renamed]

theorem signature_withRenamed (rename : String → String)
    (own : ∀ reference ∈ method.references, ∀ name ∈ reference.parametersOf .method,
      name ∈ method.genericParameters) :
    catalog.signature site (method.withRenamed rename) = catalog.signature site method := by
  have parameters : catalog.parameterExprs
        (site.insideMethod (method.genericParameters.map rename))
        (method.withRenamed rename).parameters =
      catalog.parameterExprs (site.insideMethod method.genericParameters) method.parameters := by
    unfold parameterExprs Method.withRenamed
    rw [List.map_map]
    refine List.map_congr_left fun parameter member => parameterExpr_renamed rename ?_
    exact own _ (List.mem_append_left _ (List.mem_map_of_mem member))
  have returns : catalog.typeExpr (site.insideMethod (method.genericParameters.map rename))
        .general (method.withRenamed rename).returns =
      catalog.typeExpr (site.insideMethod method.genericParameters) .general method.returns :=
    typeExpr_renamed rename .general (own _ (List.mem_append_right _ (List.mem_singleton_self _)))
  have sameRole : (method.withRenamed rename).isConstructor = method.isConstructor := rfl
  have renamed : (method.withRenamed rename).genericParameters =
      method.genericParameters.map rename := rfl
  unfold signature
  dsimp only
  rw [renamed, parameters, returns, sameRole]

/-- **The type parameters of a method are erased from its signature.** If the method mentions no
parameters of other methods, then it has one signature at every site, in every catalog, however its
parameters are renamed; and every type parameter that is left there stands in a reference of the
method as a parameter of a type. -/
theorem method_parameters_are_erased
    (own : ∀ reference ∈ method.references, ∀ name ∈ reference.parametersOf .method,
      name ∈ method.genericParameters) (catalog : Catalog) (site : Site) :
    (∀ rename, catalog.signature site (method.withRenamed rename) =
      catalog.signature site method) ∧
    ∀ name ∈ (catalog.signature site method).typeParameters,
      ∃ reference ∈ method.references, name ∈ reference.parametersOf .type := by
  refine ⟨fun rename => signature_withRenamed rename own, fun name mentioned => ?_⟩
  obtain ⟨reference, member, mentioned⟩ := exists_reference_of_mem_typeParameters mentioned
  rcases mem_parameters_typeExpr .general reference mentioned with ofType | ⟨ofMethod, kept⟩
  · exact ⟨reference, member, ofType⟩
  · exact absurd (own reference member name ofMethod) kept

/-- A method whose parameters stand alone, as array element, as argument of a generic type with and
without a form of its own, and further inside. -/
def convertMethod : Method where
  name := "Convert"
  genericParameters := ["S", "T"]
  parameters :=
    [{ name := "source", type := .array (.parameter .method "S") 2 },
      { name := "rest", type := .indirect .byRef (.instantiation { space := "", name := "Map" }
        [.parameter .type "K", .array (.indirect .pointer (.parameter .method "T")) 1]) },
      { name := "plain", type := .parameter .method "S" }]
  returns := .instantiation { space := "System.Collections.Generic", name := "IEnumerable" }
    [.parameter .method "T"]

/-- Both parameters of the method may as well have one and the same name, even one that is the name
of a type's parameter. -/
theorem method_parameters_are_erased_convert :
    (∀ reference ∈ convertMethod.references, ∀ name ∈ reference.parametersOf .method,
      name ∈ convertMethod.genericParameters) ∧
    ∀ (catalog : Catalog) (site : Site),
      catalog.signature site (convertMethod.withRenamed fun _ => "K") =
        catalog.signature site convertMethod ∧
      ∀ name ∈ (catalog.signature site convertMethod).typeParameters,
        ∃ reference ∈ convertMethod.references, name ∈ reference.parametersOf .type := by
  have own : ∀ reference ∈ convertMethod.references, ∀ name ∈ reference.parametersOf .method,
      name ∈ convertMethod.genericParameters := by
    decide
  refine ⟨own, fun catalog site => ?_⟩
  have erased := method_parameters_are_erased own catalog site
  exact ⟨erased.1 fun _ => "K", erased.2⟩

-- an array of a parameter is any array, and only `IEnumerable` has a form without arguments
example :
    let catalog : Catalog :=
      { world := { entries := [] }, layout := { rules := {}, declared := [] } }
    (catalog.signature { space := "", home := { space := "", name := "Map" } } convertMethod).text =
      "(source:dotnet.system.Array, rest:cs.Ref<Map<K,cs.NativeArray<Dynamic>>>, plain:Dynamic) : " ++
        "dotnet.system.collections.IEnumerable" := by
  decide +kernel

end Catalog

end ExternBindings
