/-
**The line of ancestors.**

Nothing keeps bases from running in a circle: a type may extend itself, directly or through others,
and a reference means the last declaration of its name, wherever that stands.

* `climbs_iff` — what a path is, told without the way it was walked: each node is the next one of
  the node in front of it, no node is met twice, and where the path ends there is nothing new;
* `World.IsLine` — the same of a list of types and their bases;
* `World.isLine_iff_eq_ancestors` — **the ancestors of a type are the one line that starts from
  it**, in every world and for every type.
-/

import Mathlib.Data.List.Chain
import ExternBindings.Proofs.World.Contracts

namespace ExternBindings

/-! ### Paths as lists -/

/-- **A path is a list of different nodes that were not seen before**, in which each is the next one
of the node in front of it, and whose last node leads to nothing new. -/
theorem climbs_iff {next? : TypeIndex → Option TypeIndex} {seen path : List TypeIndex}
    {node : TypeIndex} :
    Climbs next? seen node path ↔
      List.IsChain (fun type next => next? type = some next) (node :: path) ∧
        path.Nodup ∧ (∀ other ∈ path, other ∉ seen) ∧
          ∀ next, next? (path.getLastD node) = some next → next ∈ path ∨ next ∈ seen := by
  induction path generalizing seen node with
  | nil =>
    constructor
    · rintro ⟨blocked⟩
      exact ⟨.singleton node, .nil, fun _ member => absurd member List.not_mem_nil,
        fun next link => Or.inr (blocked next link)⟩
    · rintro ⟨-, -, -, stops⟩
      exact .stop fun next link => (stops next link).resolve_left List.not_mem_nil
  | cons head tail hypothesis =>
    rw [List.isChain_cons_cons, List.nodup_cons, List.forall_mem_cons, List.getLastD_cons]
    constructor
    · rintro (_ | ⟨link, fresh, rest⟩)
      obtain ⟨chain, distinct, unseen, stops⟩ := hypothesis.mp rest
      refine ⟨⟨link, chain⟩, ⟨fun member => unseen head member List.mem_cons_self, distinct⟩,
        ⟨fresh, fun other member before => unseen other member (List.mem_cons_of_mem _ before)⟩,
        fun next linked => ?_⟩
      simpa only [List.mem_cons, or_assoc, or_left_comm] using stops next linked
    · rintro ⟨⟨link, chain⟩, ⟨apart, distinct⟩, ⟨fresh, unseen⟩, stops⟩
      refine .step link fresh (hypothesis.mpr ⟨chain, distinct, fun other member => ?_,
        fun next linked => ?_⟩)
      · rw [List.mem_cons, not_or]
        exact ⟨fun same => apart (same ▸ member), unseen other member⟩
      · simpa only [List.mem_cons, or_assoc, or_left_comm] using stops next linked

/-- **There is only one path** from a node past those that were seen. -/
theorem Climbs.unique {next? : TypeIndex → Option TypeIndex} {seen first second : List TypeIndex}
    {node : TypeIndex} (climbs : Climbs next? seen node first)
    (climbsToo : Climbs next? seen node second) : first = second := by
  induction climbs generalizing second with
  | stop blocked =>
    cases climbsToo with
    | stop => rfl
    | step link fresh => exact absurd (blocked _ link) fresh
  | step link fresh _ hypothesis =>
    cases climbsToo with
    | stop blocked => exact absurd (blocked _ link) fresh
    | step linkToo _ restToo =>
      obtain rfl := Option.some.inj (link.symm.trans linkToo)
      rw [hypothesis restToo]

/-! ### Lines of bases -/

namespace World

variable {world : World} {index : TypeIndex} {line : List TypeIndex}

/-- The list is a line of bases from a type on: it goes as far as it can without coming to a type
again. -/
structure IsLine (world : World) (index : TypeIndex) (line : List TypeIndex) : Prop where
  /-- no type is in the line twice, and the one that it starts from is not in it -/
  nodup : (index :: line).Nodup
  /-- each type is what the base of the one in front of it resolves to -/
  isChain : List.IsChain world.Extends (index :: line)
  /-- the base of the last type is missing, resolves to nothing, or to a type that was met -/
  stops : ∀ base, world.Extends (line.getLastD index) base → base ∈ index :: line

theorem isLine_iff_climbs : world.IsLine index line ↔ Climbs world.base? [index] index line := by
  rw [climbs_iff]
  simp only [base?_eq_some_iff, List.mem_singleton]
  constructor
  · rintro ⟨distinct, chain, stops⟩
    obtain ⟨apart, distinct⟩ := List.nodup_cons.mp distinct
    refine ⟨chain, distinct, fun other member same => apart (same ▸ member), fun base link => ?_⟩
    exact (List.mem_cons.mp (stops base link)).symm
  · rintro ⟨chain, distinct, apart, stops⟩
    exact ⟨List.nodup_cons.mpr ⟨fun member => apart index member rfl, distinct⟩, chain,
      fun base link => List.mem_cons.mpr (stops base link).symm⟩

/-- **The ancestors of a type are the one line of bases that starts from it**, whatever the bases
resolve to. -/
theorem isLine_iff_eq_ancestors (world : World) (index : TypeIndex) (line : List TypeIndex) :
    world.IsLine index line ↔ line = world.ancestors index := by
  have climbs := world.climbs_ancestors index
  rw [isLine_iff_climbs]
  constructor
  · exact fun path => path.unique climbs
  · rintro rfl
    exact climbs

end World

end ExternBindings
