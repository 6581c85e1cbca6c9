/-
**The type parameters that a declaration mentions.**

* `TypeReference.parametersOf` — the type parameters in a reference, at any depth: those of the type
  or those of the method around it;
* `TypeDecl.IsScoped` — a declared type mentions its own parameters only, and each of its methods no
  parameters of other methods; `World.IsScoped` — all declared types do so.
-/

import ExternBindings.Proofs.Metadata.Mentions
import ExternBindings.World.Basic

namespace ExternBindings

namespace TypeReference

mutual

/-- The type parameters in a reference that belong to the type or to the method around it. -/
def parametersOf (owner : ParameterOwner) : TypeReference → List String
  | primitive _ => []
  | parameter other name => if other = owner then [name] else []
  | array element _ => element.parametersOf owner
  | indirect _ element => element.parametersOf owner
  | instantiation _ arguments => parametersOfAll owner arguments
  | named _ => []

/-- Those in several references. -/
def parametersOfAll (owner : ParameterOwner) : List TypeReference → List String
  | [] => []
  | head :: tail => head.parametersOf owner ++ parametersOfAll owner tail

end

end TypeReference

/-- The parameters of types that a declared type mentions are its own, and the parameters of methods
that one of its methods mentions are that method's own. -/
structure TypeDecl.IsScoped (decl : TypeDecl) : Prop where
  types : ∀ reference ∈ decl.references, ∀ name ∈ reference.parametersOf .type,
    name ∈ decl.genericParameters
  methods : ∀ method ∈ decl.methods, ∀ reference ∈ method.references,
    ∀ name ∈ reference.parametersOf .method, name ∈ method.genericParameters

instance (decl : TypeDecl) : Decidable decl.IsScoped :=
  decidable_of_iff (_ ∧ _)
    ⟨fun both => ⟨both.1, both.2⟩, fun wellScoped => ⟨wellScoped.types, wellScoped.methods⟩⟩

/-- The references of a method are among those of its type. -/
theorem TypeDecl.IsScoped.method {decl : TypeDecl} (wellScoped : decl.IsScoped) {method : Method}
    (declared : method ∈ decl.methods) {reference : TypeReference}
    (member : reference ∈ method.references) :
    ∀ name ∈ reference.parametersOf .type, name ∈ decl.genericParameters :=
  wellScoped.types reference
    (List.mem_append_right _ (List.mem_flatMap.mpr ⟨method, declared, member⟩))

/-- All declared types mention only parameters that are in scope. -/
def World.IsScoped (world : World) : Prop :=
  ∀ entry ∈ world.entries, entry.decl.IsScoped

instance (world : World) : Decidable world.IsScoped :=
  inferInstanceAs (Decidable (∀ entry ∈ world.entries, _))

theorem World.IsScoped.decl {world : World} (wellScoped : world.IsScoped) {index : TypeIndex}
    {decl : TypeDecl} (found : world.decl? index = some decl) : decl.IsScoped := by
  obtain ⟨entry, entryFound, rfl⟩ := Option.map_eq_some_iff.mp found
  exact wellScoped entry (List.mem_of_getElem? entryFound)

end ExternBindings
