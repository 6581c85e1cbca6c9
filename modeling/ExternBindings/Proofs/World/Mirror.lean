/-
**Worlds that declare the same types.**

Two worlds mirror each other when their entries say the same, in any order, and every type has the
types inside of it in the same order. No index is the same then, but each type has one *twin* in the
other world. Such worlds resemble each other in all of their types, and all names are known.

* `World.Mirrors` — all types have twins (`Mirrors.exists_twin`, `Mirrors.twin_eq`);
* `Mirrors.resembles` — so twins cannot be told apart by anything that is found out about them.
-/

import ExternBindings.Proofs.World.Resemblance

namespace ExternBindings

namespace World

/-- The worlds declare the same types, each once, with the same public types inside of them in the
same order. -/
structure Mirrors (world other : World) : Prop where
  shapes : (world.entries.map Entry.shape).Perm (other.entries.map Entry.shape)
  unambiguous : world.IsUnambiguous
  inner : ∀ {index twin}, Twins world other index twin →
    List.Forall₂ (Twins world other) (world.publicInner index) (other.publicInner twin)

variable {world other : World}

/-- The declared name belongs to the index. -/
theorem lookupText?_eq_some_iff (unambiguous : world.IsUnambiguous) {written : String}
    {index : TypeIndex} :
    world.lookupText? written = some index ↔
      ∃ entry, world.entry? index = some entry ∧ entry.text = written := by
  rw [lookupText?_eq_last_iff]
  simp only [iff_true_intro (unambiguous.not_isRedeclared index), and_true]

/-- The indices of accepted entries lead to the accepted entries, in order. -/
theorem forall₂_indicesWhere (world : World) (accepts : Entry → Bool) :
    List.Forall₂ (fun index entry => world.entry? index = some entry)
      (world.indicesWhere accepts) (world.entries.filter accepts) := by
  unfold indicesWhere indices entry?
  induction world.entries using List.reverseRecOn with
  | nil => exact .nil
  | append_singleton entries last hypothesis =>
    rw [List.length_append, List.length_singleton, List.range_succ, List.filter_append,
      List.filter_append]
    have same : (List.range entries.length).filter
        (fun index => ((entries ++ [last])[index]?).any accepts) =
          (List.range entries.length).filter fun index => (entries[index]?).any accepts := by
      refine List.filter_congr fun index member => ?_
      rw [List.getElem?_append_left (List.mem_range.mp member)]
    refine List.rel_append ?_ ?_
    · rw [same]
      refine hypothesis.imp fun index entry found => ?_
      rwa [List.getElem?_append_left (List.getElem?_eq_some_iff.mp found).1]
    · have found : (entries ++ [last])[entries.length]? = some last := by simp
      rw [List.filter_singleton, List.filter_singleton, found, Option.any_some]
      cases accepts last with
      | true => exact .cons found .nil
      | false => exact .nil

/-- Entries that say the same, in order, belong to twins. -/
theorem forall₂_twins {accepts acceptsToo : Entry → Bool}
    (same : (world.entries.filter accepts).map Entry.shape =
      (other.entries.filter acceptsToo).map Entry.shape) :
    List.Forall₂ (Twins world other) (world.indicesWhere accepts)
      (other.indicesWhere acceptsToo) := by
  have entries := world.forall₂_indicesWhere accepts
  have entriesToo := other.forall₂_indicesWhere acceptsToo
  have alike := forall₂_image_iff.mpr same
  generalize world.entries.filter accepts = kept at entries alike
  generalize other.entries.filter acceptsToo = keptToo at entriesToo alike
  generalize world.indicesWhere accepts = indices at entries
  generalize other.indicesWhere acceptsToo = twins at entriesToo
  induction alike generalizing indices twins with
  | nil =>
    cases entries
    cases entriesToo
    exact .nil
  | cons shape _ hypothesis =>
    cases entries with
    | cons found entries =>
      cases entriesToo with
      | cons foundToo entriesToo =>
        exact .cons ⟨_, _, found, foundToo, shape⟩ (hypothesis _ entries _ entriesToo)

/-- Where entries say the same, names are declared as often. -/
theorem IsUnambiguous.of_shapes (unambiguous : world.IsUnambiguous)
    (shapes : (world.entries.map Entry.shape).Perm (other.entries.map Entry.shape)) :
    other.IsUnambiguous := by
  have texts : ∀ world : World, world.entries.map Entry.text =
      (world.entries.map Entry.shape).map fun shape => shape.1.name.text := by
    intro world
    rw [List.map_map]
    exact List.map_congr_left fun entry _ => entry.text_eq
  unfold IsUnambiguous at unambiguous ⊢
  rw [texts] at unambiguous ⊢
  exact ((shapes.map _).nodup_iff).mp unambiguous

namespace Mirrors

/-! ### Twins -/

theorem unambiguousToo (mirrors : world.Mirrors other) : other.IsUnambiguous :=
  mirrors.unambiguous.of_shapes mirrors.shapes

theorem symm (mirrors : world.Mirrors other) : other.Mirrors world where
  shapes := mirrors.shapes.symm
  unambiguous := mirrors.unambiguousToo
  inner twins := by
    refine ((mirrors.inner twins.symm).flip).imp fun _ _ twins => ?_
    exact Twins.symm twins

theorem length_eq (mirrors : world.Mirrors other) :
    world.entries.length = other.entries.length := by
  simpa using mirrors.shapes.length_eq

/-- **Every type has a twin.** -/
theorem exists_twin (mirrors : world.Mirrors other) {index : TypeIndex} {entry : Entry}
    (found : world.entry? index = some entry) : ∃ twin, Twins world other index twin := by
  have member : entry.shape ∈ world.entries.map Entry.shape :=
    List.mem_map_of_mem (List.mem_of_getElem? found)
  obtain ⟨entryToo, memberToo, same⟩ := List.mem_map.mp (mirrors.shapes.mem_iff.mp member)
  obtain ⟨twin, foundToo⟩ := List.getElem?_of_mem memberToo
  exact ⟨twin, entry, entryToo, found, foundToo, same.symm⟩

/-- **A type has one twin only.** -/
theorem twin_eq (mirrors : world.Mirrors other) {index twin twinToo : TypeIndex}
    (twins : Twins world other index twin) (twinsToo : Twins world other index twinToo) :
    twin = twinToo := by
  obtain ⟨entry, entryToo, found, foundToo, same⟩ := twins
  obtain ⟨again, last, foundAgain, foundLast, sameToo⟩ := twinsToo
  rw [found, Option.some.injEq] at foundAgain
  subst foundAgain
  exact mirrors.unambiguousToo.index_eq foundToo foundLast
    (Entry.text_eq_of_shape (same.symm.trans sameToo))

theorem eq_iff (mirrors : world.Mirrors other) {index twin indexToo twinToo : TypeIndex}
    (twins : Twins world other index twin) (twinsToo : Twins world other indexToo twinToo) :
    index = indexToo ↔ twin = twinToo := by
  constructor
  · rintro rfl
    exact mirrors.twin_eq twins twinsToo
  · rintro rfl
    exact mirrors.symm.twin_eq twins.symm twinsToo.symm

/-! ### Names -/

/-- **A name is looked up as twins.** -/
theorem lookupText? (mirrors : world.Mirrors other) (written : String) :
    Option.Rel (Twins world other) (world.lookupText? written) (other.lookupText? written) := by
  have forth : ∀ {world other : World}, world.Mirrors other → ∀ index,
      world.lookupText? written = some index →
        ∃ twin, other.lookupText? written = some twin ∧ Twins world other index twin := by
    intro world other mirrors index found
    obtain ⟨entry, atIndex, text⟩ := (lookupText?_eq_some_iff mirrors.unambiguous).mp found
    obtain ⟨twin, twins⟩ := mirrors.exists_twin atIndex
    refine ⟨twin, ?_, twins⟩
    obtain ⟨_, entryToo, foundAgain, foundToo, same⟩ := twins
    rw [atIndex, Option.some.injEq] at foundAgain
    subst foundAgain
    refine (lookupText?_eq_some_iff mirrors.unambiguousToo).mpr ⟨entryToo, foundToo, ?_⟩
    rw [← Entry.text_eq_of_shape same, text]
  refine rel_of_forall (forth mirrors) fun twin found => ?_
  obtain ⟨index, looked, -⟩ := forth mirrors.symm twin found
  rw [looked]
  exact Option.some_ne_none index

theorem isShared (mirrors : world.Mirrors other) (key : String) :
    world.isShared key = other.isShared key := by
  have counted : ∀ world : World, (world.family key).length =
      (world.entries.map Entry.shape).countP fun shape =>
        shape.1.visibility.isPublic && shape.1.name.familyKey = key := by
    intro world
    unfold World.family
    rw [(world.forall₂_indicesWhere _).length_eq, List.countP_map, List.countP_eq_length_filter]
    congr 1
    refine List.filter_congr fun entry _ => ?_
    rw [entry.familyKey_eq]
    rfl
  unfold World.isShared
  rw [counted, counted, mirrors.shapes.countP_eq]

/-- **Worlds that mirror each other resemble each other**, twin by twin. -/
theorem resembles (mirrors : world.Mirrors other) :
    world.Resembles other (Twins world other) fun _ => True where
  twins twins := twins
  eq_iff := mirrors.eq_iff
  madeOf _ _ _ _ := trivial
  system _ := trivial
  owner _ _ := trivial
  lookup? _ := mirrors.lookupText? _
  isShared _ := mirrors.isShared _

end Mirrors

end World

end ExternBindings
