/-
**The types around a type.**

* `World.Encloses` — a type is declared inside of another one, directly or not. What holds of all
  types around a type holds of its owner and of all types around that one
  (`World.forall_encloses_iff`);
* `World.IsOpen` — everyone may use a type and all types around it.
-/

import ExternBindings.World.Basic
import Mathlib.Logic.Relation

namespace ExternBindings.World

variable {world : World} {owner index : TypeIndex} {entry : Entry}

/-- A type is declared directly inside of another one. -/
def Owns (world : World) (owner index : TypeIndex) : Prop :=
  ∃ entry, world.entry? index = some entry ∧ entry.owner? = some owner

/-- A type is declared inside of another one, directly or not. -/
def Encloses (world : World) : TypeIndex → TypeIndex → Prop :=
  Relation.TransGen world.Owns

theorem Owns.unique {other : TypeIndex} (owns : world.Owns owner index)
    (ownsToo : world.Owns other index) : owner = other := by
  obtain ⟨entry, found, belongs⟩ := owns
  obtain ⟨entryToo, foundToo, belongsToo⟩ := ownsToo
  obtain rfl := Option.some.inj (found.symm.trans foundToo)
  exact Option.some.inj (belongs.symm.trans belongsToo)

/-- What holds of all types around a type holds of its owner and of all types around that one. -/
theorem forall_encloses_iff {property : TypeIndex → Prop} (owns : world.Owns owner index) :
    (∀ outer, world.Encloses outer index → property outer) ↔
      property owner ∧ ∀ outer, world.Encloses outer owner → property outer := by
  constructor
  · intro around
    exact ⟨around owner (.single owns), fun outer encloses => around outer (.tail encloses owns)⟩
  · rintro ⟨own, around⟩ outer encloses
    cases encloses with
    | single direct => exact direct.unique owns ▸ own
    | tail further direct => exact around outer (direct.unique owns ▸ further)

/-- There is no type around one that is declared in a namespace. -/
theorem not_encloses_of_isTopLevel (found : world.entry? index = some entry)
    (top : entry.isTopLevel = true) (outer : TypeIndex) : ¬ world.Encloses outer index := by
  intro encloses
  obtain ⟨owner, -, foundToo, again, belongs⟩ := Relation.TransGen.tail'_iff.mp encloses
  obtain rfl := Option.some.inj (found.symm.trans again)
  rw [Entry.isTopLevel, belongs] at top
  cases top

theorem isPublic_eq (found : world.entry? index = some entry) :
    world.isPublic index = entry.isPublic := by
  unfold isPublic
  rw [found, Option.any_some]

/-- Everyone may use the type and all types around it. -/
structure IsOpen (world : World) (index : TypeIndex) : Prop where
  own : world.isPublic index = true
  around : ∀ outer, world.Encloses outer index → world.isPublic outer = true

end ExternBindings.World
