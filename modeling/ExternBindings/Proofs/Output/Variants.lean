/-
**Variants of a type.**

Types that stand in one place under one bare name are variants of each other. A declaration tells
them apart by the number of its parameters, a reference by the number of its arguments.

* `countDigits` — a number as it stands behind a name: in decimal, and nothing for zero. Different
  numbers are written differently (`countDigits_inj`);
* `World.outerPart` — what stands in front of the own part of a flat name: the flat name of the type
  around, and an underscore (`World.flatName_eq_outerPart`);
* `Entry.IsVariantOf` — the entries are for public variants. Where there are two, each of them needs
  its number (`World.isShared_of_isVariantOf`, `World.flatName_of_isVariantOf`);
* `World.variants_are_told_apart` — **so variants with different numbers of parameters have different
  flat names, and a reference with its arguments has the name of the variant with so many
  parameters**, whichever of them it names.
-/

import ExternBindings.Proofs.Output.FlattenedNames

namespace ExternBindings

/-! ### Numbers behind names -/

/-- A number as it stands behind a name. -/
def countDigits (count : Nat) : String :=
  if count = 0 then "" else toString count

/-- **Different numbers are written differently.** -/
theorem countDigits_inj {first second : Nat} :
    countDigits first = countDigits second ↔ first = second := by
  refine ⟨fun same => ?_, congrArg countDigits⟩
  unfold countDigits at same
  split at same
  · next zero =>
    split at same
    · next zeroToo => rw [zero, zeroToo]
    · exact absurd same.symm Nat.repr_ne_empty
  · split at same
    · exact absurd same Nat.repr_ne_empty
    · have digits := congrArg (fun text => Nat.ofDigitChars 10 text.toList 0) same
      simpa only [Nat.toString_eq_repr, Nat.toList_repr, Nat.ofDigitChars_ten_toDigits] using digits

/-! ### Parts of a flat name -/

namespace World

variable {world : World} {first second index : TypeIndex} {entry other member : Entry}

/-- What stands in front of the own part of a flat name: the flat name of the type around it and an
underscore, or nothing. -/
def outerPart (world : World) (name : QualifiedName) : String :=
  name.owner?.elim "" fun outer => world.flatName outer ++ "_"

/-- **A flat name has the one of the type around in front of its own part.** -/
theorem flatName_eq_outerPart (name : QualifiedName) (arguments? : Option Nat) :
    world.flatName name arguments? =
      world.outerPart name ++ world.nameSegment name arguments? := by
  obtain ⟨space, enclosing, own⟩ := name
  unfold outerPart
  rcases List.eq_nil_or_concat enclosing with rfl | ⟨around, outer, rfl⟩
  · exact (Text.join_singleton "_" _).trans (String.empty_append ..).symm
  · have inside := world.flatName_inside { space, enclosing := around, name := outer } own arguments?
    have owned := QualifiedName.owner?_inside { space, enclosing := around, name := outer } own
    unfold QualifiedName.inside at inside owned
    rw [List.concat_eq_append, inside, owned, Option.elim_some]

/-- In a family with several members the own part of a flat name is the bare name and the number. -/
theorem nameSegment_of_isShared {name : QualifiedName} {arguments? : Option Nat} {count : Nat}
    (shared : world.isShared name.familyKey = true)
    (counted : arguments?.or (world.declaredArity? name) = some count) :
    world.nameSegment name arguments? = name.bareName ++ countDigits count := by
  unfold nameSegment arityDigits countDigits
  rw [if_pos shared, counted]
  congr 1
  cases count with
  | zero => rfl
  | succ count => exact (if_neg (Nat.succ_ne_zero count)).symm

end World

/-! ### Variants -/

/-- The entries are for public variants: types that stand in one place under one bare name. -/
structure Entry.IsVariantOf (entry other : Entry) : Prop where
  isPublic : entry.isPublic = true
  isPublicToo : other.isPublic = true
  space : entry.decl.name.space = other.decl.name.space
  enclosing : entry.decl.name.enclosing = other.decl.name.enclosing
  bareName : entry.decl.name.bareName = other.decl.name.bareName

namespace Entry.IsVariantOf

variable {entry other : Entry} (variant : entry.IsVariantOf other)

include variant

theorem familyKey : entry.decl.name.familyKey = other.decl.name.familyKey := by
  unfold QualifiedName.familyKey
  rw [variant.space, variant.enclosing, variant.bareName]

theorem outerPart (world : World) :
    world.outerPart entry.decl.name = world.outerPart other.decl.name := by
  unfold World.outerPart QualifiedName.owner?
  rw [variant.space, variant.enclosing]

end Entry.IsVariantOf

namespace World

variable {world : World} {first second index : TypeIndex} {entry other member : Entry}

/-- Two variants make their family one with several members. -/
theorem isShared_of_isVariantOf (found : world.entry? first = some entry)
    (foundToo : world.entry? second = some other) (variant : other.IsVariantOf entry)
    (differ : second ≠ first) : world.isShared entry.decl.name.familyKey = true := by
  rw [← entry.familyKey_eq, isShared_eq_hasSibling found variant.isPublicToo, hasSibling_eq_true]
  refine ⟨second, mem_family.mpr ⟨other, foundToo, variant.isPublic, ?_⟩, differ⟩
  rw [other.familyKey_eq, variant.familyKey, entry.familyKey_eq]

/-- **The flat name of a variant** is what all of them have in common, and its number. -/
theorem flatName_of_isVariantOf (shared : world.isShared entry.decl.name.familyKey = true)
    (variant : member.IsVariantOf entry) {arguments? : Option Nat} {count : Nat}
    (counted : arguments?.or (world.declaredArity? member.decl.name) = some count) :
    world.flatName member.decl.name arguments? =
      world.outerPart entry.decl.name ++ (entry.decl.name.bareName ++ countDigits count) := by
  rw [← variant.familyKey] at shared
  rw [flatName_eq_outerPart, nameSegment_of_isShared shared counted, variant.outerPart,
    variant.bareName]

theorem flatNameAt_of_isVariantOf (unambiguous : world.IsUnambiguous)
    (shared : world.isShared entry.decl.name.familyKey = true)
    (found : world.entry? index = some member) (variant : member.IsVariantOf entry) :
    world.flatNameAt index = world.outerPart entry.decl.name ++
      (entry.decl.name.bareName ++ countDigits member.decl.genericCount) := by
  have declared := decl?_eq_some_decl found
  unfold flatNameAt
  rw [declared, Option.map_some, Option.getD_some]
  exact flatName_of_isVariantOf shared variant (declaredArity?_eq_some unambiguous declared)

/-- A reference to a variant with arguments counts these. -/
theorem flatNameOf?_of_isVariantOf (shared : world.isShared entry.decl.name.familyKey = true)
    (variant : member.IsVariantOf entry) (arguments : List TypeReference) :
    world.flatNameOf? (.instantiation member.decl.name arguments) =
      some (world.outerPart entry.decl.name ++
        (entry.decl.name.bareName ++ countDigits arguments.length)) :=
  congrArg some (flatName_of_isVariantOf shared variant Option.some_or)

/-- **Variants are told apart by their numbers of parameters.** Each variant of two that differ there
has a flat name made of the parts that they have in common and its own number, so the flat names of
the two are different. A reference to one of them with arguments has the flat name of exactly those
variants that have so many parameters. -/
theorem variants_are_told_apart (unambiguous : world.IsUnambiguous)
    (found : world.entry? first = some entry) (foundToo : world.entry? second = some other)
    (variant : other.IsVariantOf entry)
    (differ : entry.decl.genericCount ≠ other.decl.genericCount) :
    world.flatNameAt first ≠ world.flatNameAt second ∧
      ∀ index member, world.entry? index = some member → member.IsVariantOf entry →
        world.flatNameAt index = world.outerPart entry.decl.name ++
          (entry.decl.name.bareName ++ countDigits member.decl.genericCount) ∧
        ∀ definition ∈ [entry.decl.name, other.decl.name], ∀ arguments,
          (world.flatNameOf? (.instantiation definition arguments) =
            some (world.flatNameAt index) ↔ member.decl.genericCount = arguments.length) := by
  have apart : second ≠ first := by
    rintro rfl
    exact differ (congrArg (fun entry => entry.decl.genericCount)
      (Option.some.inj (found.symm.trans foundToo)))
  have shared := isShared_of_isVariantOf found foundToo variant apart
  have itself : entry.IsVariantOf entry := ⟨variant.isPublicToo, variant.isPublicToo, rfl, rfl, rfl⟩
  have common (first second : Nat) : world.outerPart entry.decl.name ++
      (entry.decl.name.bareName ++ countDigits first) = world.outerPart entry.decl.name ++
        (entry.decl.name.bareName ++ countDigits second) ↔ first = second := by
    rw [String.append_right_inj, String.append_right_inj, countDigits_inj]
  refine ⟨?_, fun index member memberFound memberVariant => ?_⟩
  · rw [flatNameAt_of_isVariantOf unambiguous shared found itself,
      flatNameAt_of_isVariantOf unambiguous shared foundToo variant, ne_eq, common]
    exact differ
  · have written := flatNameAt_of_isVariantOf unambiguous shared memberFound memberVariant
    have applied {origin : Entry} (originVariant : origin.IsVariantOf entry)
        (arguments : List TypeReference) :
        world.flatNameOf? (.instantiation origin.decl.name arguments) =
          some (world.flatNameAt index) ↔ member.decl.genericCount = arguments.length := by
      rw [flatNameOf?_of_isVariantOf shared originVariant, written, Option.some.injEq, common,
        eq_comm]
    refine ⟨written, List.forall_mem_cons.mpr ⟨applied itself, List.forall_mem_singleton.mpr ?_⟩⟩
    exact applied variant

/-! ### Variants inside of a variant -/

/-- Three variants that stand inside of one of two others. -/
def innerVariantsText : String :=
  "assembly n namespace N \x7b public class Outer\x601<A> \x7b public class Pair \x7b \x7d " ++
    "public class Pair\x601<T> \x7b \x7d public class Pair\x602<T, U> \x7b \x7d \x7d " ++
    "public class Outer\x602<A, B> \x7b \x7d \x7d"

/-- The types of the listing. -/
def innerVariantsWorld : World :=
  World.ofAssemblies [Listing.assemblyOf innerVariantsText]

theorem innerVariantsWorld_facts :
    (innerVariantsWorld.entries.map Entry.text).Nodup ∧
      ((innerVariantsWorld.entry? 2).any fun entry =>
        (innerVariantsWorld.entry? 3).any fun other =>
          other.isPublic && entry.isPublic && other.decl.name.space = entry.decl.name.space &&
            other.decl.name.enclosing = entry.decl.name.enclosing &&
            other.decl.name.bareName = entry.decl.name.bareName &&
            entry.decl.genericCount = 1 && other.decl.genericCount = 2) = true ∧
      innerVariantsWorld.flatNameAt 2 = "Outer1_Pair1" ∧
      innerVariantsWorld.flatNameAt 3 = "Outer1_Pair2" := by
  unfold innerVariantsWorld
  rw [Listing.assemblyOf_eq]
  unfold innerVariantsText
  simp only [String.toList_append]
  repeat rw [String.toList_ofList]
  decide +kernel

/-- A reference to the variant with one parameter that has two arguments means the other one. -/
theorem variants_are_told_apart_inner :
    ∃ entry other, innerVariantsWorld.entry? 2 = some entry ∧
      innerVariantsWorld.entry? 3 = some other ∧ other.IsVariantOf entry ∧
      entry.decl.genericCount ≠ other.decl.genericCount ∧
      innerVariantsWorld.flatNameAt 2 ≠ innerVariantsWorld.flatNameAt 3 ∧
      ∀ first second, innerVariantsWorld.flatNameOf?
        (.instantiation entry.decl.name [first, second]) = some "Outer1_Pair2" := by
  obtain ⟨unambiguous, alike, -, name⟩ := innerVariantsWorld_facts
  obtain ⟨entry, found, alike⟩ := Option.any_eq_true _ _ |>.mp alike
  obtain ⟨other, foundToo, alike⟩ := Option.any_eq_true _ _ |>.mp alike
  simp only [Bool.and_eq_true, decide_eq_true_eq] at alike
  obtain ⟨⟨⟨⟨⟨⟨isPublic, isPublicToo⟩, space⟩, enclosing⟩, bareName⟩, one⟩, two⟩ := alike
  have variant : other.IsVariantOf entry := ⟨isPublic, isPublicToo, space, enclosing, bareName⟩
  have differ : entry.decl.genericCount ≠ other.decl.genericCount := by
    rw [one, two]
    decide
  obtain ⟨different, named⟩ := variants_are_told_apart unambiguous found foundToo variant differ
  refine ⟨entry, other, found, foundToo, variant, differ, different, fun first second => ?_⟩
  rw [← name]
  exact ((named 3 other foundToo variant).2 _ List.mem_cons_self [first, second]).mpr two

end World

end ExternBindings
