/-
**Flat names of nested types.**

* `World.FlattensTo` — the flat name, told from the declarations alone: the emitted names of the types
  around a type and its own one, outermost first, with underscores between them;
* `World.Declares.flattensTo_iff` — for the types of a file it is the one that the file uses;
* `World.IsPlain` — a file whose types have no underscores in their names, and no two in the same
  place share an emitted name. Then the last underscore in a flat name is the one in front of the
  type's own part, so **flat names tell the types of the file apart** (`World.FlattensTo.index_eq`).
-/

import ExternBindings.Proofs.Output.Paths

namespace ExternBindings

/-! ### Names inside of names -/

theorem QualifiedName.ownersFrom_concat (space last : String) :
    ∀ enclosing around : List String,
      ownersFrom space around (enclosing ++ [last]) =
        ownersFrom space around enclosing ++
          [{ space, enclosing := around ++ enclosing, name := last }]
  | [], around => by rw [List.nil_append, List.append_nil]; rfl
  | head :: rest, around => by
    rw [List.cons_append, ownersFrom, ownersFrom, ownersFrom_concat space last rest,
      List.append_assoc, List.singleton_append, List.cons_append]

theorem QualifiedName.owners_inside (outer : QualifiedName) (own : String) :
    (outer.inside own).owners = outer.owners ++ [outer] :=
  ownersFrom_concat outer.space outer.name outer.enclosing []

namespace World

variable {world : World} {top index first second : TypeIndex} {topEntry entry other : Entry}
  {name : String}

/-- The flat name of an inner type has that of the type around it in front. -/
theorem flatName_inside (outer : QualifiedName) (own : String) (arguments? : Option Nat) :
    world.flatName (outer.inside own) arguments? =
      world.flatName outer ++ "_" ++ world.nameSegment (outer.inside own) arguments? := by
  unfold flatName
  rw [QualifiedName.owners_inside, List.map_append, List.map_singleton]
  exact Text.join_concat "_" (List.append_ne_nil_of_right_ne_nil _ (by simp)) _

/-! ### Flattening -/

/-- The flat name of a type: its emitted name, behind the flat name of the type that it is declared
in and an underscore. -/
inductive FlattensTo (world : World) : TypeIndex → String → Prop
  | top {index : TypeIndex} {entry : Entry} (found : world.entry? index = some entry)
      (alone : entry.owner? = none) : FlattensTo world index (world.emittedName index entry)
  | inner {owner index : TypeIndex} {entry : Entry} {outer : String}
      (found : world.entry? index = some entry) (belongs : entry.owner? = some owner)
      (around : FlattensTo world owner outer) :
      FlattensTo world index (outer ++ "_" ++ world.emittedName index entry)

theorem FlattensTo.unique {nameToo : String} (flattens : world.FlattensTo index name)
    (flattensToo : world.FlattensTo index nameToo) : name = nameToo := by
  induction flattens generalizing nameToo with
  | top found alone =>
    cases flattensToo with
    | top foundToo _ => rw [Option.some.inj (found.symm.trans foundToo)]
    | inner foundToo belongsToo _ =>
      rw [← Option.some.inj (found.symm.trans foundToo), alone] at belongsToo
      cases belongsToo
  | inner found belongs _ hypothesis =>
    cases flattensToo with
    | top foundToo aloneToo =>
      rw [← Option.some.inj (found.symm.trans foundToo), belongs] at aloneToo
      cases aloneToo
    | inner foundToo belongsToo aroundToo =>
      obtain rfl := Option.some.inj (found.symm.trans foundToo)
      obtain rfl := Option.some.inj (belongs.symm.trans belongsToo)
      rw [hypothesis aroundToo]

/-- The entry of a public type that is not declared in another one. -/
structure IsPublicTop (world : World) (top : TypeIndex) (topEntry : Entry) : Prop where
  found : world.entry? top = some topEntry
  alone : topEntry.owner? = none
  isPublic : topEntry.isPublic = true

/-- The types of a file are flattened to the names that the file uses for them. -/
theorem Declares.flattensTo (nested : world.IsNested) (unambiguous : world.IsUnambiguous)
    (isTop : world.IsPublicTop top topEntry) (declares : world.Declares top index)
    (found : world.entry? index = some entry) :
    world.FlattensTo index (world.flatName entry.decl.name) := by
  induction declares generalizing entry with
  | self =>
    rw [isTop.found, Option.some.injEq] at found
    subst found
    have alone : topEntry.isTopLevel = true := by
      unfold Entry.isTopLevel
      rw [isTop.alone]
      rfl
    rw [flatName_eq_emittedName unambiguous isTop.found isTop.isPublic
      (nested.isTopLevel isTop.found alone).alone]
    exact .top isTop.found isTop.alone
  | inner _ _ foundAgain belongs isPublic hypothesis =>
    rw [found, Option.some.injEq] at foundAgain
    subst foundAgain
    obtain ⟨-, ownerEntry, ownerFound, own, -, inside⟩ := nested.owner_lt found belongs
    rw [inside, flatName_inside, ← inside, nameSegment_eq_emittedName unambiguous found isPublic]
    exact .inner found belongs (hypothesis ownerFound)

theorem Declares.flattensTo_iff (nested : world.IsNested) (unambiguous : world.IsUnambiguous)
    (isTop : world.IsPublicTop top topEntry) (declares : world.Declares top index)
    (found : world.entry? index = some entry) :
    world.FlattensTo index name ↔ name = world.flatName entry.decl.name := by
  have flattens := declares.flattensTo nested unambiguous isTop found
  constructor
  · exact fun flattensToo => flattensToo.unique flattens
  · rintro rfl
    exact flattens

/-! ### Names without underscores -/

/-- No type of the file has an underscore in its name, and no two of them that are declared in the
same type share their emitted name. -/
structure IsPlain (world : World) (top : TypeIndex) : Prop where
  noUnderscore : ∀ {index entry}, world.Declares top index → world.entry? index = some entry →
    '_' ∉ entry.decl.name.bareName.toList
  apart : ∀ {first second entry other}, world.Declares top first → world.Declares top second →
    world.entry? first = some entry → world.entry? second = some other →
    entry.owner? = other.owner? →
    world.emittedName first entry = world.emittedName second other → first = second

theorem IsPlain.not_mem (plain : world.IsPlain top) (declares : world.Declares top index)
    (found : world.entry? index = some entry) :
    '_' ∉ (world.emittedName index entry).toList := by
  intro underscore
  rcases mem_emittedName underscore with inName | digit
  · exact plain.noUnderscore declares found inName
  · exact absurd digit (by decide)

theorem underscore_mem_glued (before after : String) :
    '_' ∈ (before ++ "_" ++ after).toList := by
  simp [String.toList_append]

/-- The type around a type of the file is one of the file. -/
theorem Declares.of_inner {owner : TypeIndex} (isTop : world.IsPublicTop top topEntry)
    (declares : world.Declares top index) (found : world.entry? index = some entry)
    (belongs : entry.owner? = some owner) : world.Declares top owner := by
  rcases declares.eq_or_owner found belongs with rfl | outer
  · rw [← Option.some.inj (isTop.found.symm.trans found), isTop.alone] at belongs
    cases belongs
  · exact outer

/-- **In a plain file flat names tell the types apart.** By induction on the nesting: the last
underscore in a flat name stands in front of the type's own part. -/
theorem FlattensTo.index_eq (plain : world.IsPlain top) (isTop : world.IsPublicTop top topEntry)
    (flattens : world.FlattensTo first name) (flattensToo : world.FlattensTo second name)
    (declares : world.Declares top first) (declaresToo : world.Declares top second) :
    first = second := by
  induction flattens generalizing second with
  | @top first entry found aloneToo =>
    -- a name without an underscore is not that of an inner type
    generalize same : world.emittedName first entry = written at flattensToo
    cases flattensToo with
    | top foundToo aloneAgain =>
      exact plain.apart declares declaresToo found foundToo (aloneToo.trans aloneAgain.symm) same
    | inner foundToo belongs around =>
      refine absurd ?_ (plain.not_mem declares found)
      rw [same]
      exact underscore_mem_glued _ _
  | @inner owner first entry outer found belongs around hypothesis =>
    generalize same : outer ++ "_" ++ world.emittedName first entry = written at flattensToo
    cases flattensToo with
    | top foundToo aloneToo =>
      refine absurd ?_ (plain.not_mem declaresToo foundToo)
      rw [← same]
      exact underscore_mem_glued _ _
    | inner foundToo belongsToo aroundToo =>
      obtain ⟨outers, owns⟩ := Text.glued_injective rfl (plain.not_mem declares found)
        (plain.not_mem declaresToo foundToo) same
      subst outers
      have sameOwner := hypothesis aroundToo (declares.of_inner isTop found belongs)
        (declaresToo.of_inner isTop foundToo belongsToo)
      rw [sameOwner, ← belongsToo] at belongs
      exact plain.apart declares declaresToo found foundToo belongs owns

end World

end ExternBindings
