/-
**Families of types.**

The types of a family share a dotted name. It does not tell where the namespace in it ends and the
types around begin, so a type may share it with one that has nothing to do with it.

* `QualifiedName.dottedPath` — what a family key says of a name (`familyKey_eq_iff`): the parts of
  the namespace and of the nesting in one list;
* `QualifiedName.IsKinOf` — the names have the same namespace, and apart from arity markers the same
  types around them and the same name. In one namespace a family has no other members
  (`dottedPath_eq_iff_isKinOf`);
* `World.HasKin`, `World.HasNamesake` — there is another public type of the family, in the same
  namespace or in a different one (`World.hasSibling_iff`);
* `World.MarksFamily` — the flat name of a type shows the number of its parameters if it has kin, and
  its bare name otherwise;
* `World.marksFamily_iff` — **a flat name shows the number for kin and for namesakes alike**, so that
  it marks the family of a type exactly if a type with a namesake has kin as well
  (`World.exists_not_marksFamily`).
-/

import ExternBindings.Proofs.Output.Variants

namespace ExternBindings

/-! ### Dotted paths -/

namespace QualifiedName

variable {name other : QualifiedName}

/-- The parts of a namespace; there are none outside of all namespaces. -/
def spaceParts (space : String) : List String :=
  if space = "" then [] else Text.segments '.' space

/-- The bare names of the types around a type and of the type itself. -/
def bareParts (name : QualifiedName) : List String :=
  name.enclosing.map withoutArity ++ [name.bareName]

/-- The parts of the dotted name: those of the namespace, then those of the nesting. -/
def dottedPath (name : QualifiedName) : List String :=
  spaceParts name.space ++ name.bareParts

theorem bareParts_ne_nil (name : QualifiedName) : name.bareParts ≠ [] :=
  List.append_ne_nil_of_right_ne_nil _ (List.cons_ne_nil _ _)

theorem not_mem_bareParts (named : name.IsWellNamed) :
    ∀ part ∈ name.bareParts, '.' ∉ part.toList := by
  have plain {raw : String} (identifier : isIdentifier raw = true) :
      '.' ∉ (withoutArity raw).toList := fun dot =>
    absurd (forall_isWordChar_of_isWord (isWord_withoutArity identifier) '.' dot) (by decide)
  unfold bareParts
  rw [List.forall_mem_append, List.forall_mem_map, List.forall_mem_singleton]
  exact ⟨fun outer member => plain (named.enclosing outer member), plain named.own⟩

/-- The family key, cut at its dots, is the dotted path. -/
theorem segments_familyKey (named : name.IsWellNamed) :
    Text.segments '.' name.familyKey = name.dottedPath := by
  have single : ".".toList = ['.'] := rfl
  have cut := Text.segments_join single name.bareParts_ne_nil (not_mem_bareParts named)
  unfold familyKey dottedPath spaceParts
  rw [List.append_assoc, ← bareParts]
  by_cases outside : name.space = ""
  · rwa [if_pos outside, if_pos (String.isEmpty_iff.mpr outside), List.nil_append]
  · rw [if_neg outside, if_neg fun empty => outside (String.isEmpty_iff.mp empty),
      List.singleton_append, Text.join_cons "." _ name.bareParts_ne_nil, Text.segments_glued single, cut]

/-- **Family keys agree exactly if dotted paths do.** -/
theorem familyKey_eq_iff (named : name.IsWellNamed) (namedToo : other.IsWellNamed) :
    name.familyKey = other.familyKey ↔ name.dottedPath = other.dottedPath := by
  have single : ".".toList = ['.'] := rfl
  constructor
  · intro same
    rw [← segments_familyKey named, same, segments_familyKey namedToo]
  · intro same
    rw [← Text.join_segments single name.familyKey, segments_familyKey named, same,
      ← segments_familyKey namedToo, Text.join_segments single]

/-- The names differ in arity markers at most. -/
structure IsKinOf (name other : QualifiedName) : Prop where
  space : name.space = other.space
  enclosing : name.enclosing.map withoutArity = other.enclosing.map withoutArity
  bareName : name.bareName = other.bareName

/-- **In one namespace the dotted path tells kin.** -/
theorem dottedPath_eq_iff_isKinOf (same : name.space = other.space) :
    name.dottedPath = other.dottedPath ↔ name.IsKinOf other := by
  unfold dottedPath bareParts
  rw [same, List.append_cancel_left_eq]
  constructor
  · intro parts
    obtain ⟨around, own⟩ := List.append_inj' parts rfl
    exact ⟨same, around, (List.cons.inj own).1⟩
  · rintro ⟨-, around, own⟩
    rw [around, own]

end QualifiedName

/-! ### Kin and namesakes -/

namespace World

variable {world : World} {index : TypeIndex} {entry : Entry}

/-- Another public type has a name that differs in arity markers at most. -/
def HasKin (world : World) (index : TypeIndex) (name : QualifiedName) : Prop :=
  ∃ other member, other ≠ index ∧ world.entry? other = some member ∧ member.isPublic = true ∧
    member.decl.name.IsKinOf name

/-- A public type of another namespace has the same dotted path: what belongs to the namespace of one
of them are types around the other one. -/
def HasNamesake (world : World) (name : QualifiedName) : Prop :=
  ∃ other member, world.entry? other = some member ∧ member.isPublic = true ∧
    member.decl.name.space ≠ name.space ∧ member.decl.name.dottedPath = name.dottedPath

/-- **What shares the dotted name of a type is kin or a namesake.** -/
theorem hasSibling_iff (nested : world.IsNested) (found : world.entry? index = some entry) :
    world.hasSibling index entry.familyKey = true ↔
      world.HasKin index entry.decl.name ∨ world.HasNamesake entry.decl.name := by
  have samePath {other : TypeIndex} {member : Entry} (memberFound : world.entry? other = some member) :
      member.familyKey = entry.familyKey ↔
        member.decl.name.dottedPath = entry.decl.name.dottedPath := by
    rw [member.familyKey_eq, entry.familyKey_eq]
    exact QualifiedName.familyKey_eq_iff (nested.isWellNamed memberFound) (nested.isWellNamed found)
  rw [hasSibling_eq_true]
  constructor
  · rintro ⟨other, held, different⟩
    obtain ⟨member, memberFound, isPublic, same⟩ := mem_family.mp held
    rw [samePath memberFound] at same
    by_cases space : member.decl.name.space = entry.decl.name.space
    · exact Or.inl ⟨other, member, different, memberFound, isPublic,
        (QualifiedName.dottedPath_eq_iff_isKinOf space).mp same⟩
    · exact Or.inr ⟨other, member, memberFound, isPublic, space, same⟩
  · rintro (⟨other, member, different, memberFound, isPublic, kin⟩ |
      ⟨other, member, memberFound, isPublic, space, same⟩)
    · refine ⟨other, mem_family.mpr ⟨member, memberFound, isPublic, ?_⟩, different⟩
      rw [samePath memberFound]
      exact (QualifiedName.dottedPath_eq_iff_isKinOf kin.space).mpr kin
    · refine ⟨other, mem_family.mpr ⟨member, memberFound, isPublic, ?_⟩, ?_⟩
      · rwa [samePath memberFound]
      · rintro rfl
        exact space (congrArg (fun entry => entry.decl.name.space)
          (Option.some.inj (memberFound.symm.trans found)))

/-! ### Marks of a family -/

/-- The flat name of a type with its bare name in the place of its own part. -/
def bareFlatName (world : World) (entry : Entry) : String :=
  world.outerPart entry.decl.name ++ entry.decl.name.bareName

/-- The number of parameters stands behind the bare name exactly if the type has kin; otherwise the
bare name stands alone. -/
structure MarksFamily (world : World) (index : TypeIndex) (entry : Entry) : Prop where
  marked_iff : world.flatNameAt index =
    world.bareFlatName entry ++ toString entry.decl.genericCount ↔
      world.HasKin index entry.decl.name
  bare : ¬ world.HasKin index entry.decl.name → world.flatNameAt index = world.bareFlatName entry

/-- What a flat name shows: the number of parameters for each sibling, be it kin or a namesake. -/
theorem flatNameAt_iff (nested : world.IsNested) (unambiguous : world.IsUnambiguous)
    (found : world.entry? index = some entry) (isPublic : entry.isPublic = true)
    (generic : 0 < entry.decl.genericCount) :
    (world.flatNameAt index = world.bareFlatName entry ++ toString entry.decl.genericCount ↔
      world.HasKin index entry.decl.name ∨ world.HasNamesake entry.decl.name) ∧
    (world.flatNameAt index = world.bareFlatName entry ↔
      ¬ (world.HasKin index entry.decl.name ∨ world.HasNamesake entry.decl.name)) := by
  have written : world.flatNameAt index = world.bareFlatName entry ++
      if world.hasSibling index entry.familyKey = true then toString entry.decl.genericCount
      else "" := by
    unfold flatNameAt bareFlatName
    rw [decl?_eq_some_decl found, Option.map_some, Option.getD_some, flatName_eq_outerPart,
      nameSegment_eq_emittedName unambiguous found isPublic, String.append_assoc]
    unfold emittedName
    simp only [ne_eq, Nat.ne_of_gt generic, not_false_eq_true, true_and]
  have longer : world.bareFlatName entry ++ toString entry.decl.genericCount ≠
      world.bareFlatName entry := fun same =>
    Nat.repr_ne_empty (String.append_eq_left_iff.mp same)
  rw [← hasSibling_iff nested found, written]
  by_cases sibling : world.hasSibling index entry.familyKey = true
  · rw [if_pos sibling, iff_true_intro sibling]
    exact ⟨iff_of_true rfl trivial, iff_of_false longer (not_not_intro trivial)⟩
  · rw [if_neg sibling, iff_false_intro sibling, String.append_empty]
    exact ⟨iff_of_false longer.symm id, iff_of_true rfl id⟩

/-- **A flat name shows the number of parameters for kin and for namesakes alike**, and the bare name
alone without either. So it marks the family of the type exactly if the type has no namesake, or has
kin as well. -/
theorem marksFamily_iff {assemblies : List Assembly}
    (read : ∀ assembly ∈ assemblies, assembly.IsRead)
    (unambiguous : (ofAssemblies assemblies).IsUnambiguous)
    (found : entry? (ofAssemblies assemblies) index = some entry) (isPublic : entry.isPublic = true)
    (generic : 0 < entry.decl.genericCount) :
    ((ofAssemblies assemblies).flatNameAt index =
        (ofAssemblies assemblies).bareFlatName entry ++ toString entry.decl.genericCount ↔
      (ofAssemblies assemblies).HasKin index entry.decl.name ∨
        (ofAssemblies assemblies).HasNamesake entry.decl.name) ∧
    ((ofAssemblies assemblies).flatNameAt index = (ofAssemblies assemblies).bareFlatName entry ↔
      ¬ ((ofAssemblies assemblies).HasKin index entry.decl.name ∨
        (ofAssemblies assemblies).HasNamesake entry.decl.name)) ∧
    ((ofAssemblies assemblies).MarksFamily index entry ↔
      ((ofAssemblies assemblies).HasNamesake entry.decl.name →
        (ofAssemblies assemblies).HasKin index entry.decl.name)) := by
  obtain ⟨marked, bare⟩ := flatNameAt_iff (isNested_ofAssemblies read) unambiguous found isPublic
    generic
  refine ⟨marked, bare, fun marks namesake => ?_, fun covered => ⟨?_, fun lonely => ?_⟩⟩
  · exact marks.marked_iff.mp (marked.mpr (Or.inr namesake))
  · exact marked.trans (or_iff_left_of_imp covered)
  · exact bare.mpr (not_or.mpr ⟨lonely, fun namesake => lonely (covered namesake)⟩)

/-! ### Two listings -/

/-- Two variants in a namespace that is called like a type with another one of that name inside. -/
def coveredText : String :=
  "assembly a namespace A \x7b public class B \x7b public class C \x7b \x7d \x7d \x7d " ++
    "namespace A.B \x7b public class C\x601<T> \x7b \x7d public class C\x602<T, U> \x7b \x7d \x7d"

/-- A type in a namespace that is called like a type with another one of that name inside. -/
def namesakeText : String :=
  "assembly a namespace \x7b public class A \x7b public class B \x7b \x7d \x7d \x7d " ++
    "namespace A \x7b public class B\x601<T> \x7b \x7d \x7d"

/-- The types of the first listing. -/
def coveredWorld : World :=
  World.ofAssemblies [Listing.assemblyOf coveredText]

/-- The types of the second one. -/
def namesakeWorld : World :=
  World.ofAssemblies [Listing.assemblyOf namesakeText]

theorem coveredWorld_facts :
    (Listing.readAssembly coveredText).isOk = true ∧
    (coveredWorld.entries.map Entry.text).Nodup ∧
    ((coveredWorld.entry? 2).any fun entry =>
      entry.isPublic && entry.decl.genericCount = 1 &&
        ((coveredWorld.entry? 3).any fun member =>
          member.isPublic && member.decl.name.space = entry.decl.name.space &&
            member.decl.name.enclosing.map withoutArity = entry.decl.name.enclosing.map withoutArity &&
            member.decl.name.bareName = entry.decl.name.bareName) &&
        ((coveredWorld.entry? 1).any fun member =>
          member.isPublic && member.decl.name.space ≠ entry.decl.name.space &&
            member.decl.name.dottedPath = entry.decl.name.dottedPath)) = true := by
  unfold coveredWorld
  rw [Listing.readAssembly_eq, Listing.assemblyOf_eq]
  unfold coveredText
  simp only [String.toList_append]
  repeat rw [String.toList_ofList]
  decide +kernel

/-- A type with a namesake marks its family, since it has kin as well. -/
theorem marksFamily_iff_covered :
    ∃ entry, coveredWorld.entry? 2 = some entry ∧ entry.isPublic = true ∧
      0 < entry.decl.genericCount ∧ coveredWorld.HasNamesake entry.decl.name ∧
      coveredWorld.MarksFamily 2 entry := by
  obtain ⟨answered, unambiguous, alike⟩ := coveredWorld_facts
  obtain ⟨entry, found, alike⟩ := Option.any_eq_true _ _ |>.mp alike
  simp only [Bool.and_eq_true, Option.any_eq_true, decide_eq_true_eq] at alike
  obtain ⟨⟨⟨isPublic, one⟩, member, memberFound, ⟨⟨memberPublic, space⟩, around⟩, own⟩,
    namesake, namesakeFound, ⟨namesakePublic, elsewhere⟩, path⟩ := alike
  have generic : 0 < entry.decl.genericCount := by
    rw [one]
    decide
  have read : ∀ assembly ∈ [Listing.assemblyOf coveredText], assembly.IsRead :=
    List.forall_mem_singleton.mpr (Listing.isRead_assemblyOf answered)
  have kin : coveredWorld.HasKin 2 entry.decl.name :=
    ⟨3, member, by decide, memberFound, memberPublic, space, around, own⟩
  obtain ⟨-, -, marks⟩ := marksFamily_iff read unambiguous found isPublic generic
  exact ⟨entry, found, isPublic, generic,
    ⟨1, namesake, namesakeFound, namesakePublic, elsewhere, path⟩, marks.mpr fun _ => kin⟩

theorem namesakeWorld_facts :
    (Listing.readAssembly namesakeText).isOk = true ∧
    (namesakeWorld.entries.map Entry.text).Nodup ∧
    ((namesakeWorld.entry? 2).any fun entry =>
      entry.isPublic && entry.decl.genericCount = 1 &&
        namesakeWorld.bareFlatName entry = "B" && entry.decl.name.space = "A") = true ∧
    (∀ other ∈ namesakeWorld.indices, other ≠ 2 →
      ((namesakeWorld.entry? other).any fun member => member.decl.name.space = "A") = false) ∧
    namesakeWorld.flatNameAt 2 = "B1" := by
  unfold namesakeWorld
  rw [Listing.readAssembly_eq, Listing.assemblyOf_eq]
  unfold namesakeText
  simp only [String.toList_append]
  repeat rw [String.toList_ofList]
  decide +kernel

/-- **A type may show the number of its parameters without any kin**: the dotted name of an inner type
is enough. -/
theorem exists_not_marksFamily :
    (∀ assembly ∈ [Listing.assemblyOf namesakeText], assembly.IsRead) ∧
    namesakeWorld.IsUnambiguous ∧
    ∃ entry, namesakeWorld.entry? 2 = some entry ∧ entry.isPublic = true ∧
      0 < entry.decl.genericCount ∧ ¬ namesakeWorld.HasKin 2 entry.decl.name ∧
      namesakeWorld.bareFlatName entry = "B" ∧ namesakeWorld.flatNameAt 2 = "B1" ∧
      ¬ namesakeWorld.MarksFamily 2 entry := by
  obtain ⟨answered, unambiguous, alike, others, name⟩ := namesakeWorld_facts
  obtain ⟨entry, found, alike⟩ := Option.any_eq_true _ _ |>.mp alike
  simp only [Bool.and_eq_true, decide_eq_true_eq] at alike
  obtain ⟨⟨⟨isPublic, one⟩, bare⟩, space⟩ := alike
  have lonely : ¬ namesakeWorld.HasKin 2 entry.decl.name := by
    rintro ⟨other, member, different, memberFound, -, kin⟩
    have inRange := List.mem_range.mpr (List.getElem?_eq_some_iff.mp memberFound).1
    have elsewhere := others other inRange different
    rw [memberFound, Option.any_some, decide_eq_false_iff_not, kin.space] at elsewhere
    exact elsewhere space
  refine ⟨List.forall_mem_singleton.mpr (Listing.isRead_assemblyOf answered), unambiguous, entry,
    found, isPublic, ?_, lonely, bare, name, fun marks => ?_⟩
  · rw [one]
    decide
  · have alone := marks.bare lonely
    rw [name, bare] at alone
    exact absurd alone (by decide)

end World

end ExternBindings
