/-
**The names that a declaration mentions.**

* `TypeReference.names` — the names in a reference, at any depth; `TypeDecl.names` — the name of a
  declared type, and those in the references of all its parts;
* `IsMadeOf`, for references, methods and declared types — all these names are known;
* `names_withoutSpans` — where a declaration stands does not show in its names.
-/

import ExternBindings.Proofs.Metadata.WithoutSpans

namespace ExternBindings

/-! ### References -/

namespace TypeReference

mutual

/-- The names in a reference, apart from those of primitive types. -/
def names : TypeReference → List QualifiedName
  | primitive _ => []
  | parameter _ _ => []
  | array element _ => element.names
  | indirect _ element => element.names
  | instantiation definition arguments => definition :: namesOfAll arguments
  | named name => [name]

/-- The names in several references. -/
def namesOfAll : List TypeReference → List QualifiedName
  | [] => []
  | head :: tail => head.names ++ namesOfAll tail

end

theorem namesOfAll_eq_flatMap (references : List TypeReference) :
    namesOfAll references = references.flatMap names := by
  induction references with
  | nil => rfl
  | cons head tail hypothesis => rw [namesOfAll, hypothesis, List.flatMap_cons]

/-- All names in the reference are known. -/
def IsMadeOf (known : QualifiedName → Prop) (reference : TypeReference) : Prop :=
  ∀ name ∈ reference.names, known name

section IsMadeOf

variable {known : QualifiedName → Prop}

theorem IsMadeOf.definition {definition : QualifiedName} {arguments : List TypeReference}
    (madeOf : (instantiation definition arguments).IsMadeOf known) : known definition := by
  refine madeOf definition ?_
  rw [names]
  exact List.mem_cons_self

theorem IsMadeOf.argument {definition : QualifiedName} {arguments : List TypeReference}
    (madeOf : (instantiation definition arguments).IsMadeOf known) {argument : TypeReference}
    (member : argument ∈ arguments) : argument.IsMadeOf known := by
  intro name mentioned
  refine madeOf name ?_
  rw [names, namesOfAll_eq_flatMap]
  exact List.mem_cons_of_mem _ (List.mem_flatMap.mpr ⟨argument, member, mentioned⟩)

theorem IsMadeOf.element {element : TypeReference} {rank : Rank}
    (madeOf : (array element rank).IsMadeOf known) : element.IsMadeOf known := by
  intro name mentioned
  refine madeOf name ?_
  rwa [names]

theorem IsMadeOf.value {kind : Indirection} {element : TypeReference}
    (madeOf : (indirect kind element).IsMadeOf known) : element.IsMadeOf known := by
  intro name mentioned
  refine madeOf name ?_
  rwa [names]

theorem IsMadeOf.name {name : QualifiedName} (madeOf : (named name).IsMadeOf known) :
    known name := by
  refine madeOf name ?_
  rw [names]
  exact List.mem_singleton.mpr rfl

end IsMadeOf

end TypeReference

/-! ### Declarations -/

/-- The references in a method. -/
def Method.references (method : Method) : List TypeReference :=
  method.parameters.map Parameter.type ++ [method.returns]

/-- The references in a property. -/
def Property.references (property : Property) : List TypeReference :=
  property.type :: property.indexParameters.map Parameter.type

namespace TypeDecl

/-- The references in a declared type. -/
def references (decl : TypeDecl) : List TypeReference :=
  decl.base?.toList ++ decl.interfaces ++ decl.fields.map Field.type ++
    decl.properties.flatMap Property.references ++ decl.events.map Event.handler ++
    decl.methods.flatMap Method.references

/-- The names in a declared type: its own, and those in its references. -/
def names (decl : TypeDecl) : List QualifiedName :=
  decl.name :: decl.references.flatMap TypeReference.names

theorem references_withoutSpans (decl : TypeDecl) :
    decl.withoutSpans.references = decl.references := by
  simp only [references, withoutSpans, List.map_map, List.flatMap_map]
  rfl

theorem names_withoutSpans (decl : TypeDecl) : decl.withoutSpans.names = decl.names := by
  unfold names
  rw [references_withoutSpans]
  rfl

end TypeDecl

/-- All names in the method are known. -/
def Method.IsMadeOf (known : QualifiedName → Prop) (method : Method) : Prop :=
  ∀ reference ∈ method.references, reference.IsMadeOf known

/-- All names in the declared type are known. -/
def TypeDecl.IsMadeOf (known : QualifiedName → Prop) (decl : TypeDecl) : Prop :=
  ∀ name ∈ decl.names, known name

section IsMadeOf

variable {known : QualifiedName → Prop}

theorem Method.IsMadeOf.returns {method : Method} (madeOf : method.IsMadeOf known) :
    method.returns.IsMadeOf known :=
  madeOf _ (List.mem_append_right _ (List.mem_singleton.mpr rfl))

theorem Method.IsMadeOf.parameter {method : Method} (madeOf : method.IsMadeOf known)
    {parameter : Parameter} (member : parameter ∈ method.parameters) :
    parameter.type.IsMadeOf known :=
  madeOf _ (List.mem_append_left _ (List.mem_map_of_mem member))

namespace TypeDecl.IsMadeOf

variable {decl : TypeDecl}

theorem name (madeOf : decl.IsMadeOf known) : known decl.name :=
  madeOf decl.name List.mem_cons_self

theorem reference (madeOf : decl.IsMadeOf known) {reference : TypeReference}
    (member : reference ∈ decl.references) : reference.IsMadeOf known :=
  fun name mentioned =>
    madeOf name (List.mem_cons_of_mem _ (List.mem_flatMap.mpr ⟨reference, member, mentioned⟩))

theorem base (madeOf : decl.IsMadeOf known) {reference : TypeReference}
    (named : decl.base? = some reference) : reference.IsMadeOf known := by
  refine madeOf.reference ?_
  unfold references
  simp [named]

theorem interface (madeOf : decl.IsMadeOf known) {reference : TypeReference}
    (member : reference ∈ decl.interfaces) : reference.IsMadeOf known := by
  refine madeOf.reference ?_
  unfold references
  simp [member]

theorem field (madeOf : decl.IsMadeOf known) {field : Field} (member : field ∈ decl.fields) :
    field.type.IsMadeOf known := by
  have held := List.mem_map_of_mem (f := Field.type) member
  refine madeOf.reference ?_
  unfold references
  simp [held]

theorem property (madeOf : decl.IsMadeOf known) {property : Property}
    (member : property ∈ decl.properties) : property.type.IsMadeOf known := by
  refine madeOf.reference ?_
  unfold references
  have held : property.type ∈ decl.properties.flatMap Property.references :=
    List.mem_flatMap.mpr ⟨property, member, List.mem_cons_self⟩
  simp only [List.mem_append]
  exact Or.inl (Or.inl (Or.inr held))

theorem event (madeOf : decl.IsMadeOf known) {event : Event} (member : event ∈ decl.events) :
    event.handler.IsMadeOf known := by
  refine madeOf.reference ?_
  unfold references
  have held := List.mem_map_of_mem (f := Event.handler) member
  simp only [List.mem_append]
  exact Or.inl (Or.inr held)

theorem method (madeOf : decl.IsMadeOf known) {method : Method}
    (member : method ∈ decl.methods) : method.IsMadeOf known := by
  intro reference mentioned
  refine madeOf.reference ?_
  unfold references
  exact List.mem_append_right _ (List.mem_flatMap.mpr ⟨method, member, mentioned⟩)

end TypeDecl.IsMadeOf

end IsMadeOf

end ExternBindings
