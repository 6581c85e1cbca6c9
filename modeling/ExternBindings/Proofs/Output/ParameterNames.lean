/-
**The names of parameters.**

A reserved word cannot name a parameter and gets an underscore in front. Each name is treated by
itself: whether another parameter is called like that already is not looked at.

* `isReserved_parameterWord` — no parameter is called by a reserved word;
* `parameterWord_eq_iff` — two names are treated alike only if they are one name, or if one of them
  is a reserved word and the other one is that word behind an underscore (`IsEscapeOf`);
* `Catalog.parameter_names_are_apart` — **so parameters of different names keep different names
  exactly if no such two are among them**, and `Catalog.exists_names_not_kept_apart` — such two may
  well be.
-/

import ExternBindings.Output.Signature
import ExternBindings.Proofs.Listing.Characters
import Mathlib.Data.List.Nodup

namespace ExternBindings

/-! ### Reserved words -/

/-- The name is the reserved word behind an underscore. -/
def IsEscapeOf (name word : String) : Prop :=
  isReserved word = true ∧ name = "_" ++ word

/-- No reserved word starts with an underscore. -/
theorem isReserved_behind_underscore (word : String) : isReserved ("_" ++ word) = false := by
  have others : ∀ reserved ∈ reservedWords, reserved.toList.head? ≠ some '_' := by decide
  unfold isReserved
  rw [List.contains_eq_mem, decide_eq_false_iff_not]
  intro member
  refine others _ member ?_
  rw [String.toList_append]
  rfl

theorem IsEscapeOf.isReserved_eq {name word : String} (escapes : IsEscapeOf name word) :
    isReserved name = false := by
  rw [escapes.2]
  exact isReserved_behind_underscore word

theorem parameterWord_of_isReserved {name : String} (reserved : isReserved name = true) :
    parameterWord name = "_" ++ name :=
  if_pos reserved

theorem parameterWord_of_not_isReserved {name : String} (free : isReserved name = false) :
    parameterWord name = name :=
  if_neg (Bool.eq_false_iff.mp free)

/-- **No parameter is called by a reserved word.** -/
theorem isReserved_parameterWord (name : String) : isReserved (parameterWord name) = false := by
  cases reserved : isReserved name with
  | true =>
    rw [parameterWord_of_isReserved reserved]
    exact isReserved_behind_underscore name
  | false =>
    rw [parameterWord_of_not_isReserved reserved]
    exact reserved

/-- **Two names are treated alike only if they are one, or one is a reserved word and the other one
is that word behind an underscore.** -/
theorem parameterWord_eq_iff {name other : String} :
    parameterWord name = parameterWord other ↔
      name = other ∨ IsEscapeOf name other ∨ IsEscapeOf other name := by
  constructor
  · intro same
    cases reserved : isReserved name with
    | true =>
      rw [parameterWord_of_isReserved reserved] at same
      cases reservedToo : isReserved other with
      | true =>
        rw [parameterWord_of_isReserved reservedToo, String.append_right_inj] at same
        exact Or.inl same
      | false =>
        rw [parameterWord_of_not_isReserved reservedToo] at same
        exact Or.inr (Or.inr ⟨reserved, same.symm⟩)
    | false =>
      rw [parameterWord_of_not_isReserved reserved] at same
      cases reservedToo : isReserved other with
      | true =>
        rw [parameterWord_of_isReserved reservedToo] at same
        exact Or.inr (Or.inl ⟨reservedToo, same⟩)
      | false =>
        rw [parameterWord_of_not_isReserved reservedToo] at same
        exact Or.inl same
  · rintro (rfl | escapes | escapes)
    · rfl
    · rw [parameterWord_of_not_isReserved escapes.isReserved_eq,
        parameterWord_of_isReserved escapes.1, escapes.2]
    · rw [parameterWord_of_not_isReserved escapes.isReserved_eq,
        parameterWord_of_isReserved escapes.1, escapes.2]

/-! ### Parameter lists -/

namespace Catalog

variable {catalog : Catalog} {site : Site}

/-- The names in the parameter list of a method, as it is written at a site. -/
def parameterNames (catalog : Catalog) (site : Site) (method : Method) : List String :=
  (catalog.parameterExprs site method.parameters).map Prod.fst

theorem parameterNames_eq (method : Method) :
    catalog.parameterNames site method =
      (method.parameters.map Parameter.name).map parameterWord := by
  unfold parameterNames parameterExprs
  rw [List.map_map, List.map_map]
  rfl

/-- **The names in a parameter list.** None of them is a reserved word. If the parameters have
different names, the written names of two of them agree exactly if one is called by a reserved word
and the other one by that word behind an underscore. -/
theorem parameter_names_are_apart {method : Method}
    (distinct : (method.parameters.map Parameter.name).Nodup) (catalog : Catalog) (site : Site) :
    (∀ name ∈ catalog.parameterNames site method, isReserved name = false) ∧
    (∀ (first second : Nat) (parameter other : Parameter), first ≠ second →
      method.parameters[first]? = some parameter → method.parameters[second]? = some other →
      ((catalog.parameterNames site method)[first]? =
          (catalog.parameterNames site method)[second]? ↔
        IsEscapeOf parameter.name other.name ∨ IsEscapeOf other.name parameter.name)) ∧
    ((catalog.parameterNames site method).Nodup ↔
      ∀ word ∈ method.parameters.map Parameter.name, isReserved word = true →
        "_" ++ word ∉ method.parameters.map Parameter.name) := by
  rw [parameterNames_eq]
  refine ⟨?_, ?_, ?_⟩
  · rw [List.forall_mem_map]
    exact fun name _ => isReserved_parameterWord name
  · intro first second parameter other different found foundToo
    have unequal : parameter.name ≠ other.name := by
      intro same
      refine different ((List.getElem?_inj ?_ distinct).mp ?_)
      · rw [List.length_map]
        exact (List.getElem?_eq_some_iff.mp found).1
      · rw [List.getElem?_map, List.getElem?_map, found, foundToo, Option.map_some, Option.map_some,
          same]
    simp only [List.getElem?_map, found, foundToo, Option.map_some, Option.some.injEq]
    rw [parameterWord_eq_iff, or_iff_right unequal]
  · rw [List.nodup_map_iff_inj_on distinct]
    constructor
    · intro injective word member reserved memberToo
      have same := injective word member _ memberToo
        (parameterWord_eq_iff.mpr (Or.inr (Or.inr ⟨reserved, rfl⟩)))
      have free := isReserved_behind_underscore word
      rw [← same, reserved] at free
      cases free
    · intro apart name member other memberToo same
      rcases parameterWord_eq_iff.mp same with equal | ⟨reserved, rfl⟩ | ⟨reserved, rfl⟩
      · exact equal
      · exact absurd member (apart other memberToo reserved)
      · exact absurd memberToo (apart name member reserved)

end Catalog

/-! ### Two methods -/

/-- The methods that the outermost types of an assembly declare. -/
def Assembly.outerMethods (assembly : Assembly) : List Method :=
  assembly.types.flatMap fun tree => tree.decl.methods

/-- The parameters of the methods that the outermost types of an assembly declare. -/
def Assembly.outerParameterNames (assembly : Assembly) : List (List String) :=
  assembly.outerMethods.map fun method => method.parameters.map Parameter.name

/-- A listing whose outermost types declare one method has that method. -/
theorem Assembly.exists_outerMethod {assembly : Assembly} {names : List String}
    (only : assembly.outerParameterNames = [names]) :
    ∃ method ∈ assembly.outerMethods, method.parameters.map Parameter.name = names := by
  obtain ⟨method, declared, same⟩ := List.map_eq_singleton_iff.mp only
  exact ⟨method, declared ▸ List.mem_singleton_self method, same⟩

/-- A method with two reserved words and a name that starts with an underscore. -/
def apartText : String :=
  "assembly a namespace \x7b public class A \x7b public method M(in: X, _x: X, do: X): X \x7d \x7d"

theorem apartText_facts :
    (Listing.assemblyOf apartText).outerParameterNames = [["in", "_x", "do"]] := by
  unfold apartText
  rw [Listing.assemblyOf_eq, String.toList_ofList]
  decide +kernel

namespace Catalog

/-- Two reserved words and a name that starts with an underscore keep apart. -/
theorem parameter_names_are_apart_beside_underscore :
    ∃ method ∈ (Listing.assemblyOf apartText).outerMethods,
      (method.parameters.map Parameter.name).Nodup ∧
      ∀ (catalog : Catalog) (site : Site), (catalog.parameterNames site method).Nodup := by
  obtain ⟨method, declared, names⟩ := Assembly.exists_outerMethod apartText_facts
  have distinct : (method.parameters.map Parameter.name).Nodup := by
    rw [names]
    decide
  refine ⟨method, declared, distinct, fun catalog site => ?_⟩
  refine (parameter_names_are_apart distinct catalog site).2.2.mpr ?_
  rw [names]
  decide

end Catalog

/-- A method with a reserved word and that word behind an underscore. -/
def doubledText : String :=
  "assembly a namespace \x7b public class A \x7b public method M(in: X, _in: X): X \x7d \x7d"

theorem doubledText_facts :
    (Listing.readAssembly doubledText).isOk = true ∧
    (Listing.assemblyOf doubledText).outerParameterNames = [["in", "_in"]] := by
  unfold doubledText
  rw [Listing.readAssembly_eq, Listing.assemblyOf_eq, String.toList_ofList]
  decide +kernel

/-- **Parameters of different names do not always keep different names**: the underscore in front
of a reserved word can make it the name of another parameter. -/
theorem Catalog.exists_names_not_kept_apart :
    (Listing.readAssembly doubledText).isOk = true ∧
    ∃ method ∈ (Listing.assemblyOf doubledText).outerMethods,
      (method.parameters.map Parameter.name).Nodup ∧
      ∀ (catalog : Catalog) (site : Site),
        catalog.parameterNames site method = ["_in", "_in"] ∧
        ¬ (catalog.parameterNames site method).Nodup := by
  obtain ⟨answered, only⟩ := doubledText_facts
  obtain ⟨method, declared, names⟩ := Assembly.exists_outerMethod only
  refine ⟨answered, method, declared, ?_, fun catalog site => ?_⟩
  · rw [names]
    decide
  · rw [parameterNames_eq, names]
    decide

end ExternBindings
