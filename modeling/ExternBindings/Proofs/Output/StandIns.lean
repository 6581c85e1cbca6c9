/-
**References with others in the place of type parameters.**

* `TypeReference.substituted` — every type parameter in a reference is replaced, at any depth;
* `Catalog.StandsIn` — a reference in one method is as good as a type parameter in another one;
* `Catalog.typeExpr_substituted` — by induction on the reference: where such references take the
  place of all parameters, the expression stays the same;
* `Catalog.typeExpr_substituted_iff` — outside of methods nothing is erased, and there the expression
  stays the same only if every parameter is replaced by a parameter of the same name.
-/

import ExternBindings.Output.Catalog
import ExternBindings.Proofs.Metadata.TypeParameters

namespace ExternBindings

namespace TypeReference

mutual

/-- The reference with another one in the place of every type parameter. -/
def substituted (standIn : ParameterOwner → String → TypeReference) :
    TypeReference → TypeReference
  | primitive kind => primitive kind
  | parameter owner name => standIn owner name
  | array element rank => array (element.substituted standIn) rank
  | indirect kind element => indirect kind (element.substituted standIn)
  | instantiation definition arguments =>
    instantiation definition (substitutedAll standIn arguments)
  | named name => named name

/-- Each reference with others in the place of type parameters. -/
def substitutedAll (standIn : ParameterOwner → String → TypeReference) :
    List TypeReference → List TypeReference
  | [] => []
  | head :: tail => head.substituted standIn :: substitutedAll standIn tail

end

theorem substitutedAll_eq_map (standIn : ParameterOwner → String → TypeReference)
    (references : List TypeReference) :
    substitutedAll standIn references = references.map (substituted standIn) := by
  induction references with
  | nil => rfl
  | cons head tail hypothesis => rw [substitutedAll, hypothesis, List.map_cons]

theorem mem_parametersOf_self (owner : ParameterOwner) (name : String) :
    name ∈ (parameter owner name).parametersOf owner := by
  rw [parametersOf, if_pos rfl]
  exact List.mem_singleton_self name

theorem eq_of_mem_parametersOf {owner other : ParameterOwner} {name mentioned : String}
    (member : mentioned ∈ (parameter owner name).parametersOf other) :
    other = owner ∧ mentioned = name := by
  rw [parametersOf] at member
  split at member
  · next same => exact ⟨same.symm, List.mem_singleton.mp member⟩
  · cases member

/-- The name of the type parameter that the value referred to has, if its type is one. -/
def parameterName? : TypeReference → Option String
  | parameter _ name => some name
  | indirect _ element => element.parameterName?
  | primitive _ | array .. | instantiation .. | named _ => none

end TypeReference

namespace Catalog

open TypeReference (mem_parametersOf_self)

variable {catalog : Catalog} {site : Site}

/-! ### The same expression -/

/-- A reference in a method with the parameters `erasedToo` is as good as a type parameter in a method
with the parameters `erased`. -/
structure StandsIn (catalog : Catalog) (site : Site) (erased erasedToo : List String)
    (replacement : TypeReference) (owner : ParameterOwner) (name : String) : Prop where
  erases : (site.insideMethod erasedToo).erases replacement =
    (site.insideMethod erased).erases (.parameter owner name)
  expr : ∀ precision, catalog.typeExpr (site.insideMethod erasedToo) precision replacement =
    catalog.typeExpr (site.insideMethod erased) precision (.parameter owner name)

section StandsIn

variable {erased erasedToo : List String} {standIn : ParameterOwner → String → TypeReference}

theorem erases_substituted {reference : TypeReference}
    (fits : ∀ owner, ∀ name ∈ reference.parametersOf owner,
      catalog.StandsIn site erased erasedToo (standIn owner name) owner name) :
    (site.insideMethod erasedToo).erases (reference.substituted standIn) =
      (site.insideMethod erased).erases reference := by
  cases reference with
  | parameter owner name => exact (fits owner name (mem_parametersOf_self owner name)).erases
  | primitive kind => rfl
  | array element rank => rfl
  | indirect kind element => rfl
  | instantiation definition arguments => rfl
  | named name => rfl

theorem any_erases_substitutedAll {references : List TypeReference}
    (fits : ∀ owner, ∀ name ∈ TypeReference.parametersOfAll owner references,
      catalog.StandsIn site erased erasedToo (standIn owner name) owner name) :
    (TypeReference.substitutedAll standIn references).any (site.insideMethod erasedToo).erases =
      references.any (site.insideMethod erased).erases := by
  induction references with
  | nil => rfl
  | cons head tail hypothesis =>
    have inHead := erases_substituted fun owner name mentioned =>
      fits owner name (List.mem_append_left _ mentioned)
    have inTail := hypothesis fun owner name mentioned =>
      fits owner name (List.mem_append_right _ mentioned)
    rw [TypeReference.substitutedAll, List.any_cons, List.any_cons, inHead, inTail]

mutual

/-- **Where references that are as good take the place of the type parameters, the expression stays
the same.** -/
theorem typeExpr_substituted : ∀ (precision : Precision) (reference : TypeReference),
    (∀ owner, ∀ name ∈ reference.parametersOf owner,
      catalog.StandsIn site erased erasedToo (standIn owner name) owner name) →
    catalog.typeExpr (site.insideMethod erasedToo) precision (reference.substituted standIn) =
      catalog.typeExpr (site.insideMethod erased) precision reference
  | precision, .parameter owner name, fits =>
    (fits owner name (mem_parametersOf_self owner name)).expr precision
  | precision, .primitive kind, _ => by
    rw [TypeReference.substituted, typeExpr, typeExpr]
    rfl
  | precision, .named name, _ => by
    rw [TypeReference.substituted, typeExpr, typeExpr]
    rfl
  | precision, .indirect kind element, fits => by
    rw [TypeReference.substituted, typeExpr, typeExpr]
    exact typeExpr_substituted precision element fun owner name mentioned =>
      fits owner name (by rwa [TypeReference.parametersOf])
  | precision, .array element rank, fits => by
    have inElement : ∀ owner, ∀ name ∈ element.parametersOf owner,
        catalog.StandsIn site erased erasedToo (standIn owner name) owner name :=
      fun owner name mentioned => fits owner name (by rwa [TypeReference.parametersOf])
    rw [TypeReference.substituted, typeExpr, typeExpr, erases_substituted inElement,
      typeExpr_substituted .exact element inElement]
    rfl
  | precision, .instantiation definition arguments, fits => by
    have inArguments : ∀ owner, ∀ name ∈ TypeReference.parametersOfAll owner arguments,
        catalog.StandsIn site erased erasedToo (standIn owner name) owner name :=
      fun owner name mentioned => fits owner name (by rwa [TypeReference.parametersOf])
    have sameLength : (TypeReference.substitutedAll standIn arguments).length =
        arguments.length := by
      rw [TypeReference.substitutedAll_eq_map, List.length_map]
    rw [TypeReference.substituted, typeExpr, typeExpr, any_erases_substitutedAll inArguments,
      sameLength, argumentExprs_substituted arguments inArguments]
    rfl

theorem argumentExprs_substituted : ∀ references : List TypeReference,
    (∀ owner, ∀ name ∈ TypeReference.parametersOfAll owner references,
      catalog.StandsIn site erased erasedToo (standIn owner name) owner name) →
    catalog.argumentExprs (site.insideMethod erasedToo)
        (TypeReference.substitutedAll standIn references) =
      catalog.argumentExprs (site.insideMethod erased) references
  | [], _ => rfl
  | head :: tail, fits => by
    rw [TypeReference.substitutedAll, argumentExprs, argumentExprs,
      typeExpr_substituted .exact head fun owner name mentioned =>
        fits owner name (List.mem_append_left _ mentioned),
      argumentExprs_substituted tail fun owner name mentioned =>
        fits owner name (List.mem_append_right _ mentioned)]

end

end StandsIn

/-! ### Outside of methods -/

section Plain

variable {standIn : ParameterOwner → String → TypeReference}

theorem erases_eq_false (plain : site.erased = []) (reference : TypeReference) :
    site.erases reference = false := by
  cases reference with
  | parameter owner name =>
    cases owner with
    | type => rfl
    | method =>
      show site.erased.contains name = false
      rw [plain]
      rfl
  | _ => rfl

theorem any_erases_eq_false (plain : site.erased = []) (references : List TypeReference) :
    references.any site.erases = false :=
  List.any_eq_false.mpr fun reference _ => Bool.eq_false_iff.mp (erases_eq_false plain reference)

/-- Outside of methods the references to a type parameter are those that turn into it. -/
theorem typeExpr_eq_parameter_iff (plain : site.erased = []) {precision : Precision}
    {name : String} : ∀ reference : TypeReference,
    catalog.typeExpr site precision reference = .parameter name ↔
      reference.parameterName? = some name
  | .parameter owner other => by
    rw [typeExpr, erases_eq_false plain, if_neg Bool.false_ne_true, TypeReference.parameterName?,
      TypeExpr.parameter.injEq, Option.some.injEq]
  | .indirect kind element => by
    rw [typeExpr, TypeReference.parameterName?]
    exact typeExpr_eq_parameter_iff plain element
  | .primitive kind => by simp [typeExpr, nameExpr, TypeReference.parameterName?]
  | .named other => by simp [typeExpr, nameExpr, TypeReference.parameterName?]
  | .array element rank => by
    simp [typeExpr, erases_eq_false plain, TypeReference.parameterName?]
  | .instantiation definition arguments => by
    simp [typeExpr, any_erases_eq_false plain, TypeReference.parameterName?]

mutual

/-- **Outside of methods the expression stays the same exactly if every type parameter is replaced
by a parameter of the same name.** -/
theorem typeExpr_substituted_iff (plain : site.erased = []) :
    ∀ (precision : Precision) (reference : TypeReference),
    catalog.typeExpr site precision (reference.substituted standIn) =
        catalog.typeExpr site precision reference ↔
      ∀ owner, ∀ name ∈ reference.parametersOf owner,
        (standIn owner name).parameterName? = some name
  | precision, .parameter owner name => by
    have own : catalog.typeExpr site precision (.parameter owner name) = .parameter name :=
      (typeExpr_eq_parameter_iff plain _).mpr rfl
    rw [TypeReference.substituted, own, typeExpr_eq_parameter_iff plain]
    constructor
    · intro same other mentioned member
      obtain ⟨rfl, rfl⟩ := TypeReference.eq_of_mem_parametersOf member
      exact same
    · exact fun same => same owner name (mem_parametersOf_self owner name)
  | precision, .primitive kind => by simp [TypeReference.substituted, TypeReference.parametersOf]
  | precision, .named name => by simp [TypeReference.substituted, TypeReference.parametersOf]
  | precision, .indirect kind element => by
    simp only [TypeReference.substituted, typeExpr, TypeReference.parametersOf]
    exact typeExpr_substituted_iff plain precision element
  | precision, .array element rank => by
    simp only [TypeReference.substituted, typeExpr, TypeReference.parametersOf,
      erases_eq_false plain, Bool.false_eq_true, if_false, TypeExpr.applied.injEq, true_and,
      List.cons.injEq, and_true]
    exact typeExpr_substituted_iff plain .exact element
  | precision, .instantiation definition arguments => by
    have sameLength : (TypeReference.substitutedAll standIn arguments).length =
        arguments.length := by
      rw [TypeReference.substitutedAll_eq_map, List.length_map]
    simp only [TypeReference.substituted, typeExpr, TypeReference.parametersOf,
      any_erases_eq_false plain, sameLength, Bool.false_eq_true, if_false,
      TypeExpr.applied.injEq, true_and]
    exact argumentExprs_substituted_iff plain arguments

theorem argumentExprs_substituted_iff (plain : site.erased = []) :
    ∀ references : List TypeReference,
    catalog.argumentExprs site (TypeReference.substitutedAll standIn references) =
        catalog.argumentExprs site references ↔
      ∀ owner, ∀ name ∈ TypeReference.parametersOfAll owner references,
        (standIn owner name).parameterName? = some name
  | [] => by simp [TypeReference.substitutedAll, TypeReference.parametersOfAll]
  | head :: tail => by
    simp only [TypeReference.substitutedAll, argumentExprs, List.cons.injEq,
      typeExpr_substituted_iff plain .exact head, argumentExprs_substituted_iff plain tail,
      TypeReference.parametersOfAll, List.mem_append]
    constructor
    · rintro ⟨inHead, inTail⟩ owner name (member | member)
      · exact inHead owner name member
      · exact inTail owner name member
    · intro both
      exact ⟨fun owner name member => both owner name (Or.inl member),
        fun owner name member => both owner name (Or.inr member)⟩

end

end Plain

end Catalog

end ExternBindings
