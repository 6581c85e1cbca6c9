/-
**Flat names of declared types.**

A name is looked up as the declaration of it that is not declared again
(`lookupText?_eq_last_iff`). In a world where no name is declared twice that is the declaration that
the name came from (`lookup?_eq_some`). So the number of parameters that a reference gives and the
one that its declaration has lead to the same flat name (`flatName_genericCount`). A flat name is a
word (`forall_mem_flatName`, `flatName_ne_empty`).
-/

import ExternBindings.Proofs.World.Nesting
import ExternBindings.World.FlatName

namespace ExternBindings.World

variable {world : World}

/-! ### Looking up declared names -/

/-- A declaration behind this one has the same written name. -/
def IsRedeclared (world : World) (index : TypeIndex) : Prop :=
  ∃ later entry other, index < later ∧ world.entry? index = some entry ∧
    world.entry? later = some other ∧ other.text = entry.text

/-- **A name is looked up as the declaration of it that is not declared again.** -/
theorem lookupText?_eq_last_iff {written : String} {index : TypeIndex} :
    world.lookupText? written = some index ↔
      ∃ entry, world.entry? index = some entry ∧ entry.text = written ∧
        ¬ world.IsRedeclared index := by
  unfold lookupText?
  rw [lastIndex?_eq_some_iff]
  constructor
  · rintro ⟨⟨entry, found, named⟩, last⟩
    refine ⟨entry, found, of_decide_eq_true named, ?_⟩
    rintro ⟨later, again, other, behind, foundAgain, otherFound, same⟩
    obtain rfl := Option.some.inj (foundAgain.symm.trans found)
    exact of_decide_eq_false (last later other behind otherFound)
      (same.trans (of_decide_eq_true named))
  · rintro ⟨entry, found, rfl, last⟩
    refine ⟨⟨entry, found, decide_eq_true rfl⟩, fun later other behind otherFound => ?_⟩
    exact decide_eq_false fun same => last ⟨later, entry, other, behind, found, otherFound, same⟩

/-- No name is declared twice. -/
def IsUnambiguous (world : World) : Prop :=
  (world.entries.map Entry.text).Nodup

/-- Entries that have no key in common are told apart by their keys. -/
theorem index_eq_of_nodup {α : Type} {key : Entry → α}
    (distinct : (world.entries.map key).Nodup) {first second : TypeIndex} {entry other : Entry}
    (found : world.entry? first = some entry) (foundToo : world.entry? second = some other)
    (same : key entry = key other) : first = second := by
  have inRange : first < (world.entries.map key).length := by
    rw [List.length_map]
    exact (List.getElem?_eq_some_iff.mp found).1
  refine (List.getElem?_inj inRange distinct).mp ?_
  rw [List.getElem?_map, List.getElem?_map]
  unfold entry? at found foundToo
  rw [found, foundToo, Option.map_some, Option.map_some, same]

theorem IsUnambiguous.index_eq (unambiguous : world.IsUnambiguous) {first second : TypeIndex}
    {entry other : Entry} (found : world.entry? first = some entry)
    (foundToo : world.entry? second = some other) (same : entry.text = other.text) :
    first = second :=
  index_eq_of_nodup unambiguous found foundToo same

theorem IsUnambiguous.not_isRedeclared (unambiguous : world.IsUnambiguous) (index : TypeIndex) :
    ¬ world.IsRedeclared index := by
  rintro ⟨later, entry, other, behind, found, otherFound, same⟩
  exact Nat.ne_of_gt behind (unambiguous.index_eq otherFound found same)

/-- **A declared name is looked up as its own declaration.** -/
theorem lookup?_eq_some (unambiguous : world.IsUnambiguous) {index : TypeIndex} {entry : Entry}
    (found : world.entry? index = some entry) :
    world.lookup? entry.decl.name = some index :=
  lookupText?_eq_last_iff.mpr ⟨entry, found, entry.text_eq, unambiguous.not_isRedeclared index⟩

theorem decl?_eq_some {index : TypeIndex} {decl : TypeDecl}
    (found : world.decl? index = some decl) :
    ∃ entry, world.entry? index = some entry ∧ entry.decl = decl :=
  Option.map_eq_some_iff.mp found

theorem decl?_eq_some_decl {index : TypeIndex} {entry : Entry}
    (found : world.entry? index = some entry) : world.decl? index = some entry.decl := by
  unfold decl?
  rw [found, Option.map_some]

theorem declaredArity?_eq_some (unambiguous : world.IsUnambiguous) {index : TypeIndex}
    {decl : TypeDecl} (found : world.decl? index = some decl) :
    world.declaredArity? decl.name = some decl.genericCount := by
  obtain ⟨entry, entryFound, rfl⟩ := decl?_eq_some found
  unfold declaredArity?
  rw [lookup?_eq_some unambiguous entryFound, Option.bind_some, found, Option.map_some]

/-! ### The number of arguments -/

theorem arityDigits_genericCount (unambiguous : world.IsUnambiguous) {index : TypeIndex}
    {decl : TypeDecl} (found : world.decl? index = some decl) :
    world.arityDigits decl.name (some decl.genericCount) = world.arityDigits decl.name none := by
  unfold arityDigits
  rw [declaredArity?_eq_some unambiguous found]
  rfl

/-- **A declared type has the same flat name with and without its number of parameters.** -/
theorem flatName_genericCount (unambiguous : world.IsUnambiguous) {index : TypeIndex}
    {decl : TypeDecl} (found : world.decl? index = some decl) :
    world.flatName decl.name (some decl.genericCount) = world.flatName decl.name := by
  unfold flatName nameSegment
  rw [arityDigits_genericCount unambiguous found]

/-! ### The characters of a flat name -/

theorem forall_mem_toString (number : Nat) :
    ∀ char ∈ (toString number).toList, char.isDigit = true := by
  intro char member
  rw [Nat.toString_eq_repr, Nat.toList_repr] at member
  exact Nat.isDigit_of_mem_toDigits (by decide) (by decide) member

theorem forall_mem_arityDigits (name : QualifiedName) (arguments? : Option Nat) :
    ∀ char ∈ (world.arityDigits name arguments?).toList, char.isDigit = true := by
  have none_empty : ∀ char ∈ "".toList, char.isDigit = true := by simp
  unfold arityDigits
  split
  · split
    · exact none_empty
    · exact none_empty
    · exact forall_mem_toString _
  · exact none_empty

theorem isWord_bareName {name : QualifiedName} (identifier : isIdentifier name.name = true) :
    isWord name.bareName.toList = true :=
  isWord_withoutArity identifier

theorem forall_mem_nameSegment {name : QualifiedName} (identifier : isIdentifier name.name = true)
    (arguments? : Option Nat) :
    ∀ char ∈ (world.nameSegment name arguments?).toList,
      Listing.isWordChar char = true := by
  intro char member
  unfold nameSegment at member
  rw [String.toList_append, List.mem_append] at member
  rcases member with member | member
  · exact forall_isWordChar_of_isWord (isWord_bareName identifier) char member
  · exact isDigit_isWordChar (forall_mem_arityDigits name arguments? char member)

theorem isIdentifier_of_mem_ownersFrom {space : String} :
    ∀ {enclosing around : List String}, (∀ outer ∈ enclosing, isIdentifier outer = true) →
      ∀ owner ∈ QualifiedName.ownersFrom space around enclosing, isIdentifier owner.name = true
  | [], _, _, _, member => absurd member List.not_mem_nil
  | head :: rest, around, spelled, owner, member => by
    rw [List.forall_mem_cons] at spelled
    rcases List.mem_cons.mp member with rfl | member
    · exact spelled.1
    · exact isIdentifier_of_mem_ownersFrom spelled.2 owner member

/-- **A flat name is a word**, as far as its characters go. -/
theorem forall_mem_flatName {name : QualifiedName} (named : name.IsWellNamed)
    (arguments? : Option Nat) :
    ∀ char ∈ (world.flatName name arguments?).toList, Listing.isWordChar char = true := by
  refine Text.forall_mem_join (List.all_eq_true.mp (by decide)) fun part member => ?_
  rcases List.mem_append.mp member with member | member
  · obtain ⟨owner, ownerMember, rfl⟩ := List.mem_map.mp member
    exact forall_mem_nameSegment
      (isIdentifier_of_mem_ownersFrom named.enclosing owner ownerMember) none
  · rw [List.mem_singleton.mp member]
    exact forall_mem_nameSegment named.own arguments?

theorem flatName_ne_empty {name : QualifiedName} (named : name.IsWellNamed)
    (arguments? : Option Nat) : world.flatName name arguments? ≠ "" := by
  obtain ⟨front, joined, -⟩ := Text.exists_join_concat "_"
    (name.owners.map fun outer => world.nameSegment outer none)
    (world.nameSegment name arguments?)
  unfold flatName
  rw [joined]
  intro empty
  have noChars := congrArg String.toList empty
  unfold nameSegment at noChars
  rw [String.toList_append, String.toList_append] at noChars
  have spelled := isWord_bareName named.own
  rw [(List.append_eq_nil_iff.mp (List.append_eq_nil_iff.mp noChars).2).1] at spelled
  cases spelled

end ExternBindings.World
