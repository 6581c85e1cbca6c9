/-
**Worlds in which one entry is changed.**

What a change of an entry leaves as it is, every part of the world that depends on nothing else
answers as before.

* `World.modified` — the world in which the entry at an index is changed;
* `map_entry?_modified` — what is seen of the entries where the change keeps it;
* `target?_modified`, `base?_modified`, `ancestors_modified`, `implemented_modified`,
  `methods_modified`, `isPublicInterface_modified`, `flatName_modified` — which parts of an entry
  look-ups, links, methods and flat names depend on.
-/

import ExternBindings.World.FlatName
import ExternBindings.World.Hierarchy

namespace ExternBindings.World

/-- The world in which the entry at an index is changed. -/
def modified (world : World) (index : TypeIndex) (change : Entry → Entry) : World :=
  { entries := world.entries.modify index change }

variable {world : World} {index : TypeIndex} {change : Entry → Entry}

@[simp]
theorem length_entries_modified :
    (world.modified index change).entries.length = world.entries.length :=
  List.length_modify ..

theorem indices_modified : (world.modified index change).indices = world.indices := by
  unfold indices
  rw [length_entries_modified]

theorem entry?_modified (type : TypeIndex) :
    entry? (world.modified index change) type =
      (world.entry? type).map fun entry => if index = type then change entry else entry := by
  unfold entry? modified
  rw [List.getElem?_modify]
  rfl

theorem entry?_modified_of_ne {type : TypeIndex} (differs : index ≠ type) :
    entry? (world.modified index change) type = world.entry? type := by
  rw [entry?_modified]
  simp only [if_neg differs, Option.map_id']

/-- What the change keeps is seen of every entry as before. -/
theorem map_entry?_modified {α : Type} (view : Entry → α)
    (keeps : ∀ entry, view (change entry) = view entry) (type : TypeIndex) :
    (World.entry? (world.modified index change) type).map view = (world.entry? type).map view := by
  rw [entry?_modified, Option.map_map]
  congr 1
  funext entry
  rw [Function.comp_apply]
  split
  · exact keeps entry
  · rfl

theorem any_entry?_modified {accepts : Entry → Bool}
    (keeps : ∀ entry, accepts (change entry) = accepts entry) (type : TypeIndex) :
    (World.entry? (world.modified index change) type).any accepts =
      (world.entry? type).any accepts := by
  rw [entry?_modified]
  cases world.entry? type with
  | none => rfl
  | some entry =>
    rw [Option.map_some, Option.any_some, Option.any_some]
    split
    · exact keeps entry
    · rfl

theorem map_decl?_modified {α : Type} {view : TypeDecl → α}
    (keeps : ∀ entry, view (change entry).decl = view entry.decl) (type : TypeIndex) :
    ((world.modified index change).decl? type).map view = (world.decl? type).map view := by
  unfold decl?
  rw [Option.map_map, Option.map_map]
  exact map_entry?_modified (view ∘ Entry.decl) keeps type

theorem elim_decl?_modified {α : Type} {otherwise : α} {view : TypeDecl → α}
    (keeps : ∀ entry, view (change entry).decl = view entry.decl) (type : TypeIndex) :
    ((world.modified index change).decl? type).elim otherwise view =
      (world.decl? type).elim otherwise view := by
  have seen : ((world.modified index change).decl? type).map view = (world.decl? type).map view :=
    map_decl?_modified keeps type
  have same := congrArg (Option.elim · otherwise id) seen
  rwa [Option.elim_map, Option.elim_map] at same

theorem methods_modified (keeps : ∀ entry, (change entry).decl.methods = entry.decl.methods) :
    (world.modified index change).methods = world.methods := by
  funext type
  exact elim_decl?_modified keeps type

theorem methods_modified_of_ne {type : TypeIndex} (differs : index ≠ type) :
    (world.modified index change).methods type = world.methods type := by
  unfold methods decl?
  rw [entry?_modified_of_ne differs]

theorem isPublicInterface_modified
    (keeps : ∀ entry, ((change entry).decl.isInterface && (change entry).isPublic) =
      (entry.decl.isInterface && entry.isPublic)) :
    (world.modified index change).isPublicInterface = world.isPublicInterface := by
  funext type
  exact any_entry?_modified keeps type

/-! ### Looking up -/

section Text

variable (texts : ∀ entry, (change entry).text = entry.text)

include texts

theorem lookup?_modified : (world.modified index change).lookup? = world.lookup? := by
  funext name
  have blind : ∀ entry : Entry,
      decide ((change entry).text = name.text) = decide (entry.text = name.text) :=
    fun entry => by rw [texts]
  exact lastIndex?_modify blind world.entries index

/-- The names of declarations are looked up as before. -/
theorem target?_modified : (world.modified index change).target? = world.target? := by
  unfold target?
  rw [lookup?_modified texts]

/-! ### Links -/

theorem base?_modified (keeps : ∀ entry, (change entry).decl.base? = entry.decl.base?) :
    (world.modified index change).base? = world.base? := by
  funext type
  have seen : ((world.modified index change).decl? type).map TypeDecl.base? =
      (world.decl? type).map TypeDecl.base? := map_decl?_modified keeps type
  have same := congrArg (fun base? : Option (Option TypeReference) =>
    base?.bind fun reference? => reference?.bind world.target?) seen
  rw [Option.bind_map, Option.bind_map] at same
  unfold base?
  rw [target?_modified texts]
  exact same

theorem ancestors_modified (keeps : ∀ entry, (change entry).decl.base? = entry.decl.base?) :
    (world.modified index change).ancestors = world.ancestors := by
  unfold ancestors
  rw [length_entries_modified, base?_modified texts keeps]

theorem implemented_modified
    (keeps : ∀ entry, (change entry).decl.interfaces = entry.decl.interfaces) :
    (world.modified index change).implemented = world.implemented := by
  funext type
  unfold implemented
  rw [target?_modified texts]
  refine elim_decl?_modified (fun entry => ?_) type
  rw [keeps]

/-! ### Flat names -/

theorem flatName_modified (publics : ∀ entry, (change entry).isPublic = entry.isPublic)
    (families : ∀ entry, (change entry).familyKey = entry.familyKey)
    (counts : ∀ entry, (change entry).decl.genericCount = entry.decl.genericCount)
    (name : QualifiedName) (arguments? : Option Nat) :
    (world.modified index change).flatName name arguments? = world.flatName name arguments? := by
  have shared : (world.modified index change).isShared = world.isShared := by
    funext key
    have members : (world.modified index change).family key = world.family key := by
      unfold family indicesWhere
      rw [indices_modified]
      refine List.filter_congr fun type _ => any_entry?_modified (fun entry => ?_) type
      rw [publics, families]
    unfold isShared
    rw [members]
  have declared : (world.modified index change).declaredArity? = world.declaredArity? := by
    funext name
    unfold declaredArity?
    rw [lookup?_modified texts, Option.map_bind, Option.map_bind]
    congr 1
    funext type
    exact map_decl?_modified counts type
  unfold flatName nameSegment arityDigits
  rw [shared, declared]

end Text

end ExternBindings.World
