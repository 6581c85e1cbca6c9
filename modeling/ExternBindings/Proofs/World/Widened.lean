/-
**Worlds with further types.**

A world is widened when further types come in between its own. These keep their order, but not their
places.

* `World.IsWidened` — where the types of the smaller world went, and how the further ones are called;
  one more assembly widens the world of the other ones (`World.isWidened_ofAssemblies`);
* `IsWidened.indicesWhere_eq_map` — where no further type is accepted, the same types are;
* `IsWidened.resembles` — **where no further type has anything in common with the names that are
  mentioned, the worlds resemble each other** in all types of the smaller one.
-/

import ExternBindings.Proofs.Listing.Mentioned
import ExternBindings.Proofs.Metadata.Roots
import ExternBindings.Proofs.World.Resemblance
import Mathlib.Data.List.Sort
import Mathlib.Order.Monotone.Basic

namespace ExternBindings

namespace World

/-- The types of `small` stand in `large` in the same order, and the others are called as `further`
says. -/
structure IsWidened (large small : World) (place : TypeIndex → TypeIndex)
    (further : QualifiedName → Prop) : Prop where
  strictMono : StrictMono place
  moved : ∀ {origin entry}, small.entry? origin = some entry →
    ∃ moved, large.entry? (place origin) = some moved ∧ moved.decl = entry.decl ∧
      moved.owner? = entry.owner?.map place
  origin : ∀ {index entry}, large.entry? index = some entry →
    (∃ origin entry, small.entry? origin = some entry ∧ place origin = index) ∨
      further entry.decl.name

/-- The type went from one place to the other. -/
def IsPlaced (small : World) (place : TypeIndex → TypeIndex) (index origin : TypeIndex) : Prop :=
  place origin = index ∧ ∃ entry, small.entry? origin = some entry

theorem mem_namespaces_iff {world : World} {space : String} :
    space ∈ world.namespaces ↔ ∃ index entry, world.entry? index = some entry ∧
      entry.isTopLevel = true ∧ entry.decl.name.space = space := by
  unfold namespaces
  rw [List.mem_map]
  constructor
  · rintro ⟨entry, member, same⟩
    obtain ⟨held, isTop⟩ := List.mem_filter.mp member
    obtain ⟨index, found⟩ := List.getElem?_of_mem held
    exact ⟨index, entry, found, isTop, same⟩
  · rintro ⟨index, entry, found, isTop, same⟩
    exact ⟨entry, List.mem_filter.mpr ⟨List.mem_of_getElem? found, isTop⟩, same⟩

namespace IsWidened

variable {large small : World} {place : TypeIndex → TypeIndex} {further : QualifiedName → Prop}

theorem imp {other : QualifiedName → Prop} (widened : large.IsWidened small place further)
    (implies : ∀ name, further name → other name) : large.IsWidened small place other where
  strictMono := widened.strictMono
  moved := widened.moved
  origin found := (widened.origin found).imp_right (implies _)

theorem isTopLevel_eq {entry moved : Entry} (owner : moved.owner? = entry.owner?.map place) :
    moved.isTopLevel = entry.isTopLevel := by
  unfold Entry.isTopLevel
  rw [owner, Option.isNone_map]

theorem twins (widened : large.IsWidened small place further) {index origin : TypeIndex}
    (placed : small.IsPlaced place index origin) : Twins large small index origin := by
  obtain ⟨rfl, entry, found⟩ := placed
  obtain ⟨moved, movedFound, decl, owner⟩ := widened.moved found
  exact ⟨moved, entry, movedFound, found,
    Prod.ext (congrArg TypeDecl.withoutSpans decl) (isTopLevel_eq owner)⟩

theorem text_eq (widened : large.IsWidened small place further) {origin : TypeIndex}
    {entry moved : Entry} (found : small.entry? origin = some entry)
    (movedFound : large.entry? (place origin) = some moved) : moved.text = entry.text := by
  obtain ⟨again, againFound, decl, -⟩ := widened.moved found
  rw [movedFound, Option.some.injEq] at againFound
  rw [moved.text_eq, entry.text_eq, againFound, decl]

/-- **The same types are accepted**, each at its place, where no further type is. -/
theorem indicesWhere_eq_map (widened : large.IsWidened small place further)
    {accepts acceptsToo : Entry → Bool}
    (same : ∀ origin entry moved, small.entry? origin = some entry → moved.decl = entry.decl →
      moved.owner? = entry.owner?.map place → accepts moved = acceptsToo entry)
    (refused : ∀ index entry, large.entry? index = some entry → further entry.decl.name →
      accepts entry = false) :
    large.indicesWhere accepts = (small.indicesWhere acceptsToo).map place := by
  have sorted : ∀ (world : World) (accepts : Entry → Bool),
      (world.indicesWhere accepts).Pairwise (· < ·) :=
    fun world accepts => List.Pairwise.filter _ List.pairwise_lt_range
  refine (sorted large accepts).eq_of_mem_iff ?_ fun index => ?_
  · exact (sorted small acceptsToo).map place fun _ _ lower => widened.strictMono lower
  · rw [List.mem_map]
    constructor
    · intro member
      obtain ⟨entry, found, accepted⟩ := mem_indicesWhere.mp member
      rcases widened.origin found with ⟨origin, originEntry, originFound, rfl⟩ | other
      · obtain ⟨moved, movedFound, decl, owner⟩ := widened.moved originFound
        rw [found, Option.some.injEq] at movedFound
        subst movedFound
        rw [same origin originEntry entry originFound decl owner] at accepted
        exact ⟨origin, mem_indicesWhere.mpr ⟨originEntry, originFound, accepted⟩, rfl⟩
      · rw [refused index entry found other] at accepted
        cases accepted
    · rintro ⟨origin, member, rfl⟩
      obtain ⟨entry, found, accepted⟩ := mem_indicesWhere.mp member
      obtain ⟨moved, movedFound, decl, owner⟩ := widened.moved found
      refine mem_indicesWhere.mpr ⟨moved, movedFound, ?_⟩
      rwa [same origin entry moved found decl owner]

/-! ### Names -/

/-- **A name that no further type is written like is looked up as the same type.** -/
theorem lookup? (widened : large.IsWidened small place further) {name : QualifiedName}
    (different : ∀ other, further other → name.text ≠ other.text) :
    Option.Rel (small.IsPlaced place) (large.lookup? name) (small.lookup? name) := by
  have origin : ∀ {index entry}, large.entry? index = some entry → entry.text = name.text →
      ∃ origin entry, small.entry? origin = some entry ∧ place origin = index := by
    intro index entry found written
    refine (widened.origin found).resolve_right fun other => ?_
    exact different _ other (written.symm.trans entry.text_eq)
  refine rel_of_forall (fun index found => ?_) fun origin found missing => ?_
  · obtain ⟨⟨entry, atIndex, written⟩, last⟩ := lastIndex?_eq_some_iff.mp found
    obtain ⟨first, firstEntry, firstFound, rfl⟩ := origin atIndex (of_decide_eq_true written)
    refine ⟨first, lastIndex?_eq_some_iff.mpr ⟨⟨firstEntry, firstFound, ?_⟩, ?_⟩, rfl, _,
      firstFound⟩
    · rwa [← widened.text_eq firstFound atIndex]
    · intro later laterEntry after laterFound
      obtain ⟨moved, movedFound, -⟩ := widened.moved laterFound
      rw [← widened.text_eq laterFound movedFound]
      exact last _ moved (widened.strictMono after) movedFound
  · obtain ⟨⟨entry, atOrigin, written⟩, -⟩ := lastIndex?_eq_some_iff.mp found
    obtain ⟨moved, movedFound, -⟩ := widened.moved atOrigin
    have unlike := lastIndex?_eq_none_iff.mp missing moved (List.mem_of_getElem? movedFound)
    rw [widened.text_eq atOrigin movedFound, written] at unlike
    cases unlike

/-- The family of a key is the same, where no further type has that key. -/
theorem isShared (widened : large.IsWidened small place further) {key : String}
    (different : ∀ other, further other → key ≠ other.familyKey) :
    large.isShared key = small.isShared key := by
  have families : large.family key = (small.family key).map place := by
    refine widened.indicesWhere_eq_map (fun origin entry moved _ decl _ => ?_)
      fun index entry found other => ?_
    · rw [Entry.isPublic, Entry.isPublic, moved.familyKey_eq, entry.familyKey_eq, decl]
    · rw [Bool.and_eq_false_iff, decide_eq_false_iff_not, entry.familyKey_eq]
      exact Or.inr (different _ other).symm
  unfold World.isShared
  rw [families, List.length_map]

/-- A namespace is declared as before, if it is not the one of a further type. -/
theorem mem_namespaces (widened : large.IsWidened small place further) {space : String}
    (different : ∀ other, further other → space ≠ other.space) :
    space ∈ large.namespaces ↔ space ∈ small.namespaces := by
  rw [mem_namespaces_iff, mem_namespaces_iff]
  constructor
  · rintro ⟨index, entry, found, isTop, rfl⟩
    obtain ⟨origin, own, ownFound, rfl⟩ :=
      (widened.origin found).resolve_right fun other => different _ other rfl
    obtain ⟨moved, movedFound, decl, owner⟩ := widened.moved ownFound
    rw [found, Option.some.injEq] at movedFound
    subst movedFound
    rw [isTopLevel_eq owner] at isTop
    exact ⟨origin, own, ownFound, isTop, congrArg (fun decl => decl.name.space) decl.symm⟩
  · rintro ⟨origin, entry, found, isTop, rfl⟩
    obtain ⟨moved, movedFound, decl, owner⟩ := widened.moved found
    rw [← isTopLevel_eq owner] at isTop
    exact ⟨place origin, moved, movedFound, isTop, congrArg (fun decl => decl.name.space) decl⟩

/-! ### Resemblance -/

section Clear

variable {roots : List String}

theorem isClearOf_of_isSystem (outside : "System" ∉ roots) {name : QualifiedName}
    (system : name.isSystem = true) : name.IsClearOf roots := by
  unfold QualifiedName.isSystem at system
  simp only [Bool.and_eq_true, decide_eq_true_eq, List.isEmpty_iff] at system
  obtain ⟨⟨⟨below, dotted⟩, alone⟩, identifier⟩ := system
  have inside : name.space ≠ "" := by
    intro empty
    rw [empty] at below
    exact absurd below (by decide)
  refine ⟨⟨Or.inr dotted, ?_, identifier⟩, ?_⟩
  · rw [alone]
    exact fun _ member => absurd member List.not_mem_nil
  · rwa [QualifiedName.root_eq_of_space inside, below]

/-- **The worlds resemble each other in the types of the smaller one**, if these mention no name with
the root of a further type. -/
theorem resembles (widened : large.IsWidened small place (QualifiedName.IsRootedIn roots))
    (outside : "System" ∉ roots)
    (madeOf : ∀ {origin decl}, small.decl? origin = some decl →
      decl.IsMadeOf (QualifiedName.IsClearOf roots)) :
    large.Resembles small (small.IsPlaced place) (QualifiedName.IsClearOf roots) where
  twins := widened.twins
  eq_iff := by
    rintro _ _ _ _ ⟨rfl, -⟩ ⟨rfl, -⟩
    exact widened.strictMono.injective.eq_iff
  madeOf {index origin decl} placed found := by
    obtain ⟨declFirst, declToo, foundFirst, foundToo, same⟩ := (widened.twins placed).decl
    rw [found, Option.some.injEq] at foundFirst
    subst foundFirst
    unfold TypeDecl.IsMadeOf
    rw [same.names]
    exact madeOf foundToo
  system := isClearOf_of_isSystem outside
  owner clear member := clear.owner member
  lookup? clear := widened.lookup? fun _ => clear.text_ne
  isShared clear := widened.isShared fun _ => clear.familyKey_ne

end Clear

end IsWidened

end World

/-! ### One more assembly -/

/-- The entry is for the same type, where all types stand `count` places further on. -/
def Entry.IsMovedBy (count : Nat) (entry moved : Entry) : Prop :=
  moved.decl = entry.decl ∧ moved.owner? = entry.owner?.map (· + count)

section Moved

variable (count : Nat)

mutual

theorem forall₂_isMovedBy_entries (assembly assemblyToo : Nat) :
    ∀ (owner? : Option Nat) (first : Nat) (tree : TypeTree),
      List.Forall₂ (Entry.IsMovedBy count) (tree.entries assembly owner? first)
        (tree.entries assemblyToo (owner?.map (· + count)) (first + count))
  | owner?, first, .node decl inner => by
    have inside := forall₂_isMovedBy_entriesOfTrees assembly assemblyToo (some first) (first + 1)
      inner
    rw [Option.map_some, Nat.add_right_comm] at inside
    rw [TypeTree.entries, TypeTree.entries]
    exact .cons ⟨rfl, rfl⟩ inside

theorem forall₂_isMovedBy_entriesOfTrees (assembly assemblyToo : Nat) :
    ∀ (owner? : Option Nat) (first : Nat) (trees : List TypeTree),
      List.Forall₂ (Entry.IsMovedBy count) (entriesOfTrees assembly owner? first trees)
        (entriesOfTrees assemblyToo (owner?.map (· + count)) (first + count) trees)
  | owner?, first, [] => by
    rw [entriesOfTrees, entriesOfTrees]
    exact .nil
  | owner?, first, tree :: rest => by
    have own := forall₂_isMovedBy_entries assembly assemblyToo owner? first tree
    have behind := forall₂_isMovedBy_entriesOfTrees assembly assemblyToo owner?
      (first + (tree.entries assembly owner? first).length) rest
    rw [Nat.add_right_comm] at behind
    rw [entriesOfTrees, entriesOfTrees]
    exact List.rel_append own (own.length_eq ▸ behind)

end

/-- The entries of assemblies move with the place that the first of them has. -/
theorem forall₂_isMovedBy_entriesOfAssemblies (assemblies : List Assembly) :
    ∀ position positionToo first : Nat,
      List.Forall₂ (Entry.IsMovedBy count) (entriesOfAssemblies position first assemblies)
        (entriesOfAssemblies positionToo (first + count) assemblies) := by
  induction assemblies with
  | nil => exact fun _ _ _ => .nil
  | cons head rest hypothesis =>
    intro position positionToo first
    have own : List.Forall₂ _ _ _ :=
      forall₂_isMovedBy_entriesOfTrees count position positionToo none first head.types
    have behind := hypothesis (position + 1) (positionToo + 1)
      (first + (entriesOfTrees position none first head.types).length)
    rw [Nat.add_right_comm] at behind
    rw [entriesOfAssemblies, entriesOfAssemblies]
    exact List.rel_append own (own.length_eq ▸ behind)

end Moved

theorem entriesOfAssemblies_append (first second : List Assembly) :
    ∀ position start : Nat, entriesOfAssemblies position start (first ++ second) =
      entriesOfAssemblies position start first ++
        entriesOfAssemblies (position + first.length)
          (start + (entriesOfAssemblies position start first).length) second := by
  induction first with
  | nil => exact fun _ _ => rfl
  | cons head rest hypothesis =>
    intro position start
    rw [List.cons_append, entriesOfAssemblies, entriesOfAssemblies, hypothesis]
    simp only [List.append_assoc, List.length_append, List.length_cons]
    rw [Nat.add_assoc start, Nat.add_assoc position, Nat.add_comm 1]

/-- Where a type goes when `count` types come in at the index `before`. -/
def placeAround (before count index : Nat) : Nat :=
  if index < before then index else index + count

theorem strictMono_placeAround (before count : Nat) : StrictMono (placeAround before count) := by
  intro index later lower
  unfold placeAround
  split <;> split <;> omega

/-- What is not in between is found where it went. -/
theorem getElem?_placeAround {α : Type} (front between behind : List α) (index : Nat) :
    (front ++ (between ++ behind))[placeAround front.length between.length index]? =
      (front ++ behind)[index]? := by
  unfold placeAround
  split
  · next inFront => rw [List.getElem?_append_left inFront, List.getElem?_append_left inFront]
  · next further =>
    rw [List.getElem?_append_right (by omega), List.getElem?_append_right (by omega),
      List.getElem?_append_right (by omega)]
    congr 1
    omega

theorem exists_placeAround {before count index : Nat}
    (outside : index < before ∨ before + count ≤ index) :
    ∃ origin, placeAround before count origin = index := by
  rcases outside with inFront | behind
  · exact ⟨index, if_pos inFront⟩
  · refine ⟨index - count, ?_⟩
    unfold placeAround
    rw [if_neg (by omega)]
    omega

namespace World

/-- Entries that are put between others widen a world, if the owners keep their places or move with
their types. -/
theorem isWidened_of_between {front between back behind : List Entry}
    {further : QualifiedName → Prop}
    (frontOwned : ∀ entry ∈ front, ∀ owner, entry.owner? = some owner → owner < front.length)
    (backOwned : ∀ entry ∈ back, ∀ owner, entry.owner? = some owner → front.length ≤ owner)
    (moved : List.Forall₂ (Entry.IsMovedBy between.length) back behind)
    (named : ∀ entry ∈ between, further entry.decl.name) :
    IsWidened { entries := front ++ (between ++ behind) } { entries := front ++ back }
      (placeAround front.length between.length) further := by
  let IsSame (entry moved : Entry) : Prop := moved.decl = entry.decl ∧
    moved.owner? = entry.owner?.map (placeAround front.length between.length)
  have kept : List.Forall₂ IsSame front front := by
    refine List.forall₂_same.mpr fun entry member => ⟨rfl, ?_⟩
    cases owned : entry.owner? with
    | none => rfl
    | some owner => rw [Option.map_some, placeAround, if_pos (frontOwned entry member owner owned)]
  have shifted : List.Forall₂ IsSame back behind := by
    refine ((List.forall₂_and_left _ _).mpr ⟨fun entry member => member, moved⟩).imp ?_
    rintro entry moved ⟨member, decl, owner⟩
    refine ⟨decl, owner.trans ?_⟩
    cases owned : entry.owner? with
    | none => rfl
    | some owner =>
      rw [Option.map_some, Option.map_some, placeAround,
        if_neg (Nat.not_lt.mpr (backOwned entry member owner owned))]
  have pairs : List.Forall₂ IsSame (front ++ back) (front ++ behind) := List.rel_append kept shifted
  refine ⟨strictMono_placeAround _ _, fun {origin entry} found => ?_, fun {index entry} found => ?_⟩
  · obtain ⟨moved, movedFound, same⟩ := exists_getElem?_of_forall₂ pairs found
    exact ⟨moved, (getElem?_placeAround front between behind origin).trans movedFound, same⟩
  · by_cases outside : index < front.length ∨ front.length + between.length ≤ index
    · obtain ⟨origin, rfl⟩ := exists_placeAround outside
      have movedFound := (getElem?_placeAround front between behind origin).symm.trans found
      obtain ⟨own, ownFound, -⟩ := exists_getElem?_of_forall₂ pairs.flip movedFound
      exact Or.inl ⟨origin, own, ownFound, rfl⟩
    · rw [not_or, Nat.not_lt, Nat.not_le] at outside
      have inBetween : (front ++ (between ++ behind))[index]? = between[index - front.length]? := by
        rw [List.getElem?_append_right outside.1,
          List.getElem?_append_left (Nat.sub_lt_left_of_lt_add outside.1 outside.2)]
      exact Or.inr (named entry (List.mem_of_getElem? (inBetween.symm.trans found)))

/-- **One more assembly widens the world of the other ones.** -/
theorem isWidened_ofAssemblies (first second : List Assembly) (extra : Assembly) :
    ∃ place, (ofAssemblies (first ++ extra :: second)).IsWidened (ofAssemblies (first ++ second))
      place (· ∈ extra.declared) := by
  have front := laidOut_ofAssemblies first
  unfold ofAssemblies at front ⊢
  dsimp only at front
  rw [entriesOfAssemblies_append, entriesOfAssemblies_append, entriesOfAssemblies]
  generalize entriesOfAssemblies 0 0 first = inFront at front ⊢
  have between := laidOut_entriesOfTrees (0 + first.length) none (0 + inFront.length) extra.types
  have back := laidOut_entriesOfAssemblies second (0 + first.length) (0 + inFront.length)
  refine ⟨_, isWidened_of_between (fun entry member owner owned => ?_)
    (fun entry member owner owned => ?_) (forall₂_isMovedBy_entriesOfAssemblies _ second _ _ _)
    fun entry member => ?_⟩
  · rcases front.owner entry member with none | ⟨index, own, -, high⟩
    · rw [owned] at none
      cases none
    · rw [owned, Option.some.injEq] at own
      rwa [own, ← Nat.zero_add inFront.length]
  · rcases back.owner entry member with none | ⟨index, own, low, -⟩
    · rw [owned] at none
      cases none
    · rw [owned, Option.some.injEq] at own
      rwa [own, ← Nat.zero_add inFront.length]
  · have declared : entry.decl ∈ (subtreesIn extra.types).map TypeTree.decl := by
      rw [← between.decls]
      exact List.mem_map_of_mem member
    obtain ⟨tree, treeMember, same⟩ := List.mem_map.mp declared
    exact List.mem_map.mpr ⟨tree, treeMember, congrArg TypeDecl.name same⟩

end World

end ExternBindings
