/-
**Ancestors of a type.**

A chain of nodes is limited in length and remembers what it has seen. Neither shows in the ancestors
of a type:

* `Climbs` — a path that goes from each node to its next one, and stops only where there is none or
  where it was before. Every chain with enough room is such a path (`climbs_chain`), and so are the
  ancestors of a type (`World.climbs_ancestors`);
* `World.IsAcyclic` — no type inherits from itself. The ancestors of a type then go on to where there
  is no base (`World.lineage_ancestors`), and those of an ancestor are the rest of the path
  (`World.exists_ancestors_eq_append`).
-/

import Mathlib.Logic.Relation
import ExternBindings.World.Hierarchy

namespace ExternBindings

/-! ### Paths -/

section Paths

variable {next? : TypeIndex → Option TypeIndex}

/-- A path from a node to its next one and so on, that stops only where there is no next one or
where it was seen. -/
inductive Climbs (next? : TypeIndex → Option TypeIndex) :
    List TypeIndex → TypeIndex → List TypeIndex → Prop
  | stop {seen : List TypeIndex} {node : TypeIndex}
      (blocked : ∀ next, next? node = some next → next ∈ seen) : Climbs next? seen node []
  | step {seen : List TypeIndex} {node next : TypeIndex} {path : List TypeIndex}
      (link : next? node = some next) (fresh : next ∉ seen)
      (rest : Climbs next? (next :: seen) next path) : Climbs next? seen node (next :: path)

/-- **A chain with enough room is not cut off.** Distinct nodes below `size` cannot be more than
`size`, so the limit is not used up. -/
theorem climbs_chain {size : Nat} (bounded : ∀ node next, next? node = some next → next < size)
    {limit : Nat} {seen : List TypeIndex} (distinct : seen.Nodup)
    (inside : ∀ node ∈ seen, node < size) (room : size < seen.length + limit) (node : TypeIndex) :
    Climbs next? seen node (chain next? limit seen node) := by
  induction limit generalizing seen node with
  | zero =>
    have within : seen ⊆ List.range size := fun other member =>
      List.mem_range.mpr (inside other member)
    have short : seen.length ≤ size := by
      simpa using distinct.length_le_of_subset within
    omega
  | succ limit hypothesis =>
    rw [chain]
    cases link : next? node with
    | none =>
      refine Climbs.stop fun next found => ?_
      rw [link] at found
      cases found
    | some next =>
      dsimp only
      by_cases visited : next ∈ seen
      · rw [if_pos visited]
        refine Climbs.stop fun other found => ?_
        rw [link, Option.some.injEq] at found
        rwa [← found]
      · rw [if_neg visited]
        refine Climbs.step link visited (hypothesis ?_ ?_ ?_ next)
        · exact List.nodup_cons.mpr ⟨visited, distinct⟩
        · exact List.forall_mem_cons.mpr ⟨bounded node next link, inside⟩
        · rw [List.length_cons]
          omega

/-- A path from a node to its next one and so on, that stops only where there is no next one. -/
inductive Lineage (next? : TypeIndex → Option TypeIndex) : TypeIndex → List TypeIndex → Prop
  | root {node : TypeIndex} (last : next? node = none) : Lineage next? node []
  | step {node next : TypeIndex} {path : List TypeIndex} (link : next? node = some next)
      (rest : Lineage next? next path) : Lineage next? node (next :: path)

theorem Lineage.unique {node : TypeIndex} {first second : List TypeIndex}
    (lineage : Lineage next? node first) (lineageToo : Lineage next? node second) :
    first = second := by
  induction lineage generalizing second with
  | root last =>
    cases lineageToo with
    | root => rfl
    | step link =>
      rw [last] at link
      cases link
  | step link rest hypothesis =>
    cases lineageToo with
    | root last =>
      rw [last] at link
      cases link
    | step linkToo restToo =>
      rw [link, Option.some.injEq] at linkToo
      subst linkToo
      rw [hypothesis restToo]

/-- Where no node comes back to itself, a path is not stopped by what was seen below it. -/
theorem Climbs.lineage
    (acyclic : ∀ node, ¬ Relation.TransGen (fun type base => next? type = some base) node node)
    {seen path : List TypeIndex} {node : TypeIndex} (climbs : Climbs next? seen node path)
    (below : ∀ other ∈ seen,
      Relation.ReflTransGen (fun type base => next? type = some base) other node) :
    Lineage next? node path := by
  induction climbs with
  | stop blocked =>
    refine Lineage.root (Option.eq_none_iff_forall_ne_some.mpr fun next link => ?_)
    exact acyclic next (Relation.TransGen.tail' (below next (blocked next link)) link)
  | step link fresh rest hypothesis =>
    refine Lineage.step link (hypothesis (List.forall_mem_cons.mpr ⟨.refl, fun other member => ?_⟩))
    exact (below other member).tail link

end Paths

/-! ### Inheritance -/

namespace World

variable {world : World}

theorem lt_length_of_target? {reference : TypeReference} {index : TypeIndex}
    (found : world.target? reference = some index) : index < world.entries.length := by
  obtain ⟨name, -, looked⟩ := Option.bind_eq_some_iff.mp found
  obtain ⟨⟨entry, atIndex, -⟩, -⟩ := lastIndex?_eq_some_iff.mp looked
  exact (List.getElem?_eq_some_iff.mp atIndex).1

theorem lt_length_of_decl? {index : TypeIndex} {decl : TypeDecl}
    (found : world.decl? index = some decl) : index < world.entries.length := by
  obtain ⟨entry, atIndex, -⟩ := Option.map_eq_some_iff.mp found
  exact (List.getElem?_eq_some_iff.mp atIndex).1

/-- A base belongs to a type of the world and is one. -/
theorem lt_length_of_base? {index base : TypeIndex} (link : world.base? index = some base) :
    index < world.entries.length ∧ base < world.entries.length := by
  obtain ⟨decl, found, resolved⟩ := Option.bind_eq_some_iff.mp link
  obtain ⟨reference, -, target⟩ := Option.bind_eq_some_iff.mp resolved
  exact ⟨lt_length_of_decl? found, lt_length_of_target? target⟩

/-- **The ancestors of a type are the whole path along bases.** -/
theorem climbs_ancestors (world : World) (index : TypeIndex) :
    Climbs world.base? [index] index (world.ancestors index) := by
  unfold ancestors
  by_cases declared : index < world.entries.length
  · refine climbs_chain (fun _ _ link => (lt_length_of_base? link).2)
      (List.pairwise_singleton _ index) (fun other member => ?_) ?_ index
    · rwa [List.mem_singleton.mp member]
    · rw [List.length_singleton]
      omega
  · have last : world.base? index = none :=
      Option.eq_none_iff_forall_ne_some.mpr fun base link => declared (lt_length_of_base? link).1
    have alone : chain world.base? world.entries.length [index] index = [] := by
      cases world.entries.length with
      | zero => rfl
      | succ limit => rw [chain, last]
    rw [alone]
    refine Climbs.stop fun base link => ?_
    rw [last] at link
    cases link

/-- The type inherits from the other one, directly or through others. -/
def InheritsFrom (world : World) : TypeIndex → TypeIndex → Prop :=
  Relation.TransGen fun type base => world.base? type = some base

/-- No type inherits from itself. -/
def IsAcyclic (world : World) : Prop :=
  ∀ index, ¬ world.InheritsFrom index index

/-- A world in which every base stands in front of its heirs is acyclic. -/
theorem isAcyclic_of_forall_lt
    (earlier : ∀ index ∈ world.indices, ∀ base ∈ world.base? index, base < index) :
    world.IsAcyclic := by
  have descends : ∀ {heir ancestor}, world.InheritsFrom heir ancestor → ancestor < heir := by
    intro heir ancestor inherits
    have down : ∀ {type base}, world.base? type = some base → base < type := fun link =>
      earlier _ (List.mem_range.mpr (lt_length_of_base? link).1) _ link
    induction inherits with
    | single link => exact down link
    | tail _ link hypothesis => exact Nat.lt_trans (down link) hypothesis
  exact fun index inherits => Nat.lt_irrefl index (descends inherits)

section Acyclic

variable (acyclic : world.IsAcyclic)

include acyclic

theorem lineage_ancestors (index : TypeIndex) :
    Lineage world.base? index (world.ancestors index) := by
  refine (world.climbs_ancestors index).lineage acyclic fun other member => ?_
  rw [List.mem_singleton.mp member]

/-- **The ancestors of an ancestor are the rest of the path.** -/
theorem exists_ancestors_eq_append {index ancestor : TypeIndex}
    (member : ancestor ∈ world.ancestors index) :
    ∃ nearer, world.ancestors index = nearer ++ ancestor :: world.ancestors ancestor := by
  have lineage := lineage_ancestors acyclic index
  generalize world.ancestors index = path at lineage member
  induction lineage with
  | root => cases member
  | step link rest hypothesis =>
    rcases List.mem_cons.mp member with rfl | member
    · exact ⟨[], by rw [rest.unique (lineage_ancestors acyclic _), List.nil_append]⟩
    · obtain ⟨nearer, split⟩ := hypothesis member
      exact ⟨_ :: nearer, by rw [split, List.cons_append]⟩

end Acyclic

end World

end ExternBindings
