/-
**References in normal form.**

Two references that differ only in how they spell a primitive type or a one-dimensional array are
written alike.

* `TypeReference.normalized` — a name that stands for a primitive type becomes that type, and an
  array has one dimension at least;
* `normalized_named` — for a well-formed name this is the reference that the name always makes;
* `TypeReference.ranks` — the ranks in a reference; none of them is zero in a normal form
  (`zero_notMem_ranks_normalized`);
* `TypeReference.IsCanonical` — well-formed, and in normal form already unless a rank is zero.
-/

import ExternBindings.Proofs.Metadata.NameTexts

namespace ExternBindings

/-! ### Names of types that are not inner -/

theorem QualifiedName.isInner_eq_false_iff {name : QualifiedName} :
    name.isInner = false ↔ name.enclosing = [] := by
  unfold isInner
  rw [Bool.not_eq_false', List.isEmpty_iff]

theorem text_of_plain {name : QualifiedName} (plain : name.isInner = false) :
    name.text = (if name.space.isEmpty then "" else name.space ++ ".") ++ name.name := by
  unfold QualifiedName.text
  rw [QualifiedName.isInner_eq_false_iff.mp plain]
  rfl

/-! ### Names of primitive types -/

theorem Primitive.isWellNamed_qualifiedName (kind : Primitive) :
    kind.qualifiedName.IsWellNamed := by
  refine ⟨Or.inr ?_, fun outer member => absurd member List.not_mem_nil, ?_⟩
  · show isDottedName "System" = true
    decide
  · cases kind <;> decide

theorem Primitive.text_qualifiedName (kind : Primitive) :
    kind.qualifiedName.text = kind.fullName := by
  rw [text_of_plain rfl]
  rfl

/-- A well-formed name is written like a primitive type only if it is the name of that type. -/
theorem eq_qualifiedName_iff {name : QualifiedName} (named : name.IsWellNamed)
    (kind : Primitive) : kind.fullName = name.text ↔ kind.qualifiedName = name := by
  rw [← kind.text_qualifiedName]
  exact ⟨QualifiedName.text_injective kind.isWellNamed_qualifiedName named,
    congrArg QualifiedName.text⟩

namespace TypeReference

/-! ### The normal form -/

mutual

/-- The reference with every spelled-out primitive type replaced by that type and every array rank
`0` replaced by `1`. -/
def normalized : TypeReference → TypeReference
  | primitive kind => primitive kind
  | parameter owner name => parameter owner name
  | array element rank => array element.normalized (if rank = 0 then 1 else rank)
  | indirect kind element => indirect kind element.normalized
  | instantiation definition arguments => instantiation definition (normalizedAll arguments)
  | named name =>
    if name.isInner then named name
    else
      match Primitive.ofFullName? name.text with
      | some kind => primitive kind
      | none => named name

/-- Each reference in normal form. -/
def normalizedAll : List TypeReference → List TypeReference
  | [] => []
  | head :: tail => head.normalized :: normalizedAll tail

end

theorem normalizedAll_eq_map (references : List TypeReference) :
    normalizedAll references = references.map normalized := by
  induction references with
  | nil => rfl
  | cons head tail hypothesis => rw [normalizedAll, hypothesis, List.map_cons]

/-- **The normal form of a name is the reference that the name makes.** -/
theorem normalized_named {name : QualifiedName} (named : name.IsWellNamed) :
    (TypeReference.named name).normalized = ofName name := by
  unfold normalized ofName
  by_cases nested : name.isInner = true
  · have other : Primitive.ofName? name = none := by
      refine List.find?_eq_none.mpr fun kind _ => ?_
      rw [decide_eq_true_eq]
      rintro rfl
      exact absurd nested Bool.false_ne_true
    rw [if_pos nested, other]
  · rw [if_neg nested]
    have found : Primitive.ofFullName? name.text = Primitive.ofName? name := by
      unfold Primitive.ofFullName? Primitive.ofName?
      congr 1
      funext kind
      exact decide_eq_decide.mpr (eq_qualifiedName_iff named kind)
    cases taken : Primitive.ofName? name <;> simp only [found, taken]

/-! ### Ranks -/

mutual

/-- The ranks of the arrays in a reference, at any depth, in the order of the text. -/
def ranks : TypeReference → List Rank
  | primitive _ => []
  | parameter _ _ => []
  | array element rank => element.ranks ++ [rank]
  | indirect _ element => element.ranks
  | instantiation _ arguments => ranksIn arguments
  | named _ => []

/-- The ranks of the arrays in several references. -/
def ranksIn : List TypeReference → List Rank
  | [] => []
  | head :: tail => head.ranks ++ ranksIn tail

end

theorem ranksIn_eq_flatMap (references : List TypeReference) :
    ranksIn references = references.flatMap ranks := by
  induction references with
  | nil => rfl
  | cons head tail hypothesis => rw [ranksIn, hypothesis, List.flatMap_cons]

theorem ranks_ofName (name : QualifiedName) : (ofName name).ranks = [] := by
  unfold ofName
  split <;> rfl

mutual

/-- **In a normal form, every array has a dimension.** -/
theorem zero_notMem_ranks_normalized : ∀ reference : TypeReference, 0 ∉ reference.normalized.ranks
  | primitive _ => List.not_mem_nil
  | parameter _ _ => List.not_mem_nil
  | array element rank => by
    have last : (0 : Rank) ≠ if rank = 0 then 1 else rank := by
      split
      · decide
      · next some => exact fun zero => some zero.symm
    rw [normalized, ranks, List.mem_append, List.mem_singleton]
    exact not_or.mpr ⟨zero_notMem_ranks_normalized element, last⟩
  | indirect _ element => by
    rw [normalized, ranks]
    exact zero_notMem_ranks_normalized element
  | instantiation _ arguments => by
    rw [normalized, ranks]
    exact zero_notMem_ranksIn_normalizedAll arguments
  | named name => by
    unfold normalized
    split
    · exact List.not_mem_nil
    · split <;> exact List.not_mem_nil

theorem zero_notMem_ranksIn_normalizedAll :
    ∀ references : List TypeReference, 0 ∉ ranksIn (normalizedAll references)
  | [] => List.not_mem_nil
  | head :: tail => by
    rw [normalizedAll, ranksIn, List.mem_append]
    exact not_or.mpr
      ⟨zero_notMem_ranks_normalized head, zero_notMem_ranksIn_normalizedAll tail⟩

end

/-! ### References inside of references -/

/-- The reference occurs in another one, or is that one itself. -/
inductive IsPartOf (part : TypeReference) : TypeReference → Prop
  | self : IsPartOf part part
  | element {element : TypeReference} {rank : Rank} :
      IsPartOf part element → IsPartOf part (array element rank)
  | target {kind : Indirection} {element : TypeReference} :
      IsPartOf part element → IsPartOf part (indirect kind element)
  | argument {definition : QualifiedName} {arguments : List TypeReference}
      {argument : TypeReference} :
      argument ∈ arguments → IsPartOf part argument →
      IsPartOf part (instantiation definition arguments)

/-- All names follow the rules, and nothing is left to normalize in a part whose arrays all have a
dimension. -/
structure IsCanonical (reference : TypeReference) : Prop where
  wellNamed : reference.IsWellNamed
  normal : ∀ part : TypeReference, part.IsPartOf reference → 0 ∉ part.ranks →
    part.normalized = part

/-- **In normal form are those whose arrays all have a dimension.** -/
theorem IsCanonical.normalized_eq_iff {reference : TypeReference}
    (canonical : reference.IsCanonical) : reference.normalized = reference ↔ 0 ∉ reference.ranks := by
  refine ⟨fun normal => ?_, canonical.normal reference .self⟩
  have dimensions := zero_notMem_ranks_normalized reference
  rwa [normal] at dimensions

theorem isCanonical_primitive (kind : Primitive) : (primitive kind).IsCanonical := by
  refine ⟨trivial, fun part isPart _ => ?_⟩
  cases isPart with
  | self => rfl

theorem isCanonical_parameter (owner : ParameterOwner) {name : String}
    (spelled : isIdentifier name = true) : (parameter owner name).IsCanonical := by
  refine ⟨spelled, fun part isPart _ => ?_⟩
  cases isPart with
  | self => rfl

theorem isCanonical_ofName {name : QualifiedName} (named : name.IsWellNamed) :
    (ofName name).IsCanonical := by
  have normal := normalized_named named
  unfold ofName at normal ⊢
  cases found : Primitive.ofName? name with
  | some kind => exact isCanonical_primitive kind
  | none =>
    rw [found] at normal
    refine ⟨named, fun part isPart _ => ?_⟩
    cases isPart with
    | self => exact normal

theorem isCanonical_array {element : TypeReference} (canonical : element.IsCanonical)
    (rank : Rank) : (array element rank).IsCanonical := by
  refine ⟨canonical.wellNamed, fun part isPart dimensions => ?_⟩
  cases isPart with
  | self =>
    rw [ranks, List.mem_append, List.mem_singleton, not_or] at dimensions
    rw [normalized, canonical.normal element .self dimensions.1,
      if_neg fun zero => dimensions.2 zero.symm]
  | element isPart => exact canonical.normal part isPart dimensions

theorem isCanonical_indirect {element : TypeReference} (canonical : element.IsCanonical)
    (kind : Indirection) : (indirect kind element).IsCanonical := by
  refine ⟨canonical.wellNamed, fun part isPart dimensions => ?_⟩
  cases isPart with
  | self =>
    rw [ranks] at dimensions
    rw [normalized, canonical.normal element .self dimensions]
  | target isPart => exact canonical.normal part isPart dimensions

theorem isCanonical_instantiation {definition : QualifiedName} {arguments : List TypeReference}
    (named : definition.IsWellNamed) (present : arguments ≠ [])
    (canonical : ∀ argument ∈ arguments, argument.IsCanonical) :
    (instantiation definition arguments).IsCanonical := by
  refine ⟨⟨named, present, areWellNamed_iff.mpr fun argument member =>
    (canonical argument member).wellNamed⟩, fun part isPart dimensions => ?_⟩
  cases isPart with
  | self =>
    rw [ranks, ranksIn_eq_flatMap] at dimensions
    have same : arguments.map normalized = arguments.map id := by
      refine List.map_congr_left fun argument member => ?_
      exact (canonical argument member).normal argument .self fun zero =>
        dimensions (List.mem_flatMap.mpr ⟨argument, member, zero⟩)
    rw [normalized, normalizedAll_eq_map, same, List.map_id]
  | argument member isPart => exact (canonical _ member).normal part isPart dimensions

/-- The parts of a canonical reference are canonical. -/
theorem IsCanonical.part {part reference : TypeReference} (isPart : part.IsPartOf reference)
    (canonical : reference.IsCanonical) : part.IsCanonical := by
  induction isPart with
  | self => exact canonical
  | element _ hypothesis =>
    refine hypothesis ⟨canonical.wellNamed, fun other isPart => ?_⟩
    exact canonical.normal other (.element isPart)
  | target _ hypothesis =>
    refine hypothesis ⟨canonical.wellNamed, fun other isPart => ?_⟩
    exact canonical.normal other (.target isPart)
  | argument member _ hypothesis =>
    refine hypothesis ⟨areWellNamed_iff.mp canonical.wellNamed.2.2 _ member, fun other isPart => ?_⟩
    exact canonical.normal other (.argument member isPart)

end TypeReference

end ExternBindings
