/-
**Which types a walk along links meets.**

A walk takes up pending nodes in turn and is limited in how many. The limit does not show: each node
that is taken up for the first time puts its links in the place of itself, so that
`pending + openLinks` falls by one with every node (`openLinks_visit`), and a walk that starts with
one node has room for that one and for all links of the world.

* `mem_preorder_iff` — a walk with enough room meets what it has seen before and what can be reached
  from the pending nodes past that;
* `nodup_preorder` — it meets no node twice;
* `World.mem_reached_iff` — so the types reached from a type are those at the end of a path of
  links;
* `World.mem_contracts_iff`, `World.mem_allContracts_iff` — the public interfaces among them.
-/

import Mathlib.Algebra.BigOperators.Group.Finset.Basic
import ExternBindings.Proofs.World.Ancestry

namespace ExternBindings

/-! ### Walks -/

section Walks

variable {links : TypeIndex → List TypeIndex} {size : Nat}

/-- The node is linked to the other one. -/
def IsLinked (links : TypeIndex → List TypeIndex) (node other : TypeIndex) : Prop :=
  other ∈ links node

/-- The number of links that leave the nodes below `size` which were not seen. -/
def openLinks (links : TypeIndex → List TypeIndex) (size : Nat) (seen : List TypeIndex) : Nat :=
  ∑ node ∈ Finset.range size \ seen.toFinset, (links node).length

/-- **Visiting a node closes its links.** -/
theorem openLinks_visit (inside : ∀ node, size ≤ node → links node = []) {seen : List TypeIndex}
    {node : TypeIndex} (fresh : node ∉ seen) :
    openLinks links size seen = (links node).length + openLinks links size (seen ++ [node]) := by
  have rest : Finset.range size \ (seen ++ [node]).toFinset =
      (Finset.range size \ seen.toFinset).erase node := by
    ext other
    simp only [Finset.mem_sdiff, Finset.mem_range, List.mem_toFinset, List.mem_append,
      List.mem_singleton, Finset.mem_erase, not_or]
    tauto
  unfold openLinks
  rw [rest]
  by_cases declared : node < size
  · refine (Finset.add_sum_erase _ _ ?_).symm
    simpa [fresh] using declared
  · have absent : node ∉ Finset.range size \ seen.toFinset := by
      simp [declared]
    rw [Finset.erase_eq_of_notMem absent, inside node (Nat.not_lt.mp declared), List.length_nil,
      Nat.zero_add]

/-- What a walk meets is closed under links: it has everything seen before and everything pending,
and with each node that it met itself all that the node is linked to. -/
theorem preorder_closed (inside : ∀ node, size ≤ node → links node = []) {limit : Nat} :
    ∀ {pending seen : List TypeIndex}, pending.length + openLinks links size seen ≤ limit →
      seen ⊆ preorder links limit pending seen ∧ pending ⊆ preorder links limit pending seen ∧
        ∀ node ∈ preorder links limit pending seen, node ∉ seen →
          links node ⊆ preorder links limit pending seen := by
  induction limit with
  | zero =>
    intro pending seen room
    have nothing : pending = [] := List.length_eq_zero_iff.mp (by omega)
    subst nothing
    exact ⟨List.Subset.refl _, List.nil_subset _, fun node member fresh => absurd member fresh⟩
  | succ limit hypothesis =>
    intro pending seen room
    cases pending with
    | nil =>
      exact ⟨List.Subset.refl _, List.nil_subset _, fun node member fresh => absurd member fresh⟩
    | cons head pending =>
      rw [List.length_cons] at room
      rw [preorder]
      by_cases visited : head ∈ seen
      · rw [if_pos visited]
        obtain ⟨keeps, takes, closed⟩ := @hypothesis pending seen (by omega)
        exact ⟨keeps, List.cons_subset.mpr ⟨keeps visited, takes⟩, closed⟩
      · rw [if_neg visited]
        have paid := openLinks_visit inside visited
        have room : (links head ++ pending).length + openLinks links size (seen ++ [head]) ≤ limit := by
          rw [List.length_append]
          omega
        obtain ⟨keeps, takes, closed⟩ := hypothesis room
        rw [List.append_subset] at keeps takes
        have met := keeps.2 List.mem_cons_self
        refine ⟨keeps.1, List.cons_subset.mpr ⟨met, takes.2⟩, fun node member fresh => ?_⟩
        by_cases same : node = head
        · subst same
          exact takes.1
        · refine closed node member ?_
          simp [fresh, same]

/-- A walk meets only what it has seen before and what can be reached from the pending nodes. -/
theorem reachable_of_mem_preorder {limit : Nat} :
    ∀ {pending seen : List TypeIndex} {other : TypeIndex},
      other ∈ preorder links limit pending seen →
      other ∈ seen ∨ ∃ node ∈ pending, Relation.ReflTransGen (IsLinked links) node other := by
  induction limit with
  | zero =>
    intro pending seen other member
    exact Or.inl member
  | succ limit hypothesis =>
    intro pending seen other member
    cases pending with
    | nil => exact Or.inl member
    | cons head pending =>
      rw [preorder] at member
      split at member
      · rcases hypothesis member with before | ⟨node, nodeMember, path⟩
        · exact Or.inl before
        · exact Or.inr ⟨node, List.mem_cons_of_mem _ nodeMember, path⟩
      · rcases hypothesis member with before | ⟨node, nodeMember, path⟩
        · rcases List.mem_append.mp before with before | same
          · exact Or.inl before
          · obtain rfl := List.mem_singleton.mp same
            exact Or.inr ⟨other, List.mem_cons_self, .refl⟩
        · rcases List.mem_append.mp nodeMember with linked | later
          · exact Or.inr ⟨head, List.mem_cons_self, .head linked path⟩
          · exact Or.inr ⟨node, List.mem_cons_of_mem _ later, path⟩

/-- **A walk from one node meets exactly what can be reached from it.** -/
theorem mem_preorder_iff (inside : ∀ node, size ≤ node → links node = []) {limit : Nat}
    (room : openLinks links size [] < limit) {index other : TypeIndex} :
    other ∈ preorder links limit [index] [] ↔
      Relation.ReflTransGen (IsLinked links) index other := by
  constructor
  · intro member
    rcases reachable_of_mem_preorder member with before | ⟨node, nodeMember, path⟩
    · cases before
    · rwa [List.mem_singleton.mp nodeMember] at path
  · intro path
    have enough : [index].length + openLinks links size [] ≤ limit := by
      rw [List.length_singleton]
      omega
    obtain ⟨-, takes, closed⟩ := preorder_closed inside enough
    induction path with
    | refl => exact takes List.mem_cons_self
    | tail _ link hypothesis => exact closed _ hypothesis List.not_mem_nil link

/-- **A walk meets no node twice**, however much room it has. -/
theorem nodup_preorder (links : TypeIndex → List TypeIndex) (limit : Nat) :
    ∀ {pending seen : List TypeIndex}, seen.Nodup → (preorder links limit pending seen).Nodup := by
  induction limit with
  | zero =>
    intro pending seen distinct
    exact distinct
  | succ limit hypothesis =>
    intro pending seen distinct
    cases pending with
    | nil => exact distinct
    | cons head pending =>
      rw [preorder]
      split
      · exact hypothesis distinct
      · next fresh =>
        refine hypothesis (List.nodup_append.mpr ⟨distinct, List.nodup_singleton head, ?_⟩)
        intro node before other same
        rw [List.mem_singleton.mp same]
        rintro rfl
        exact fresh before

end Walks

/-! ### Types that are reached -/

namespace World

variable {world : World}

theorem mem_implemented {index other : TypeIndex} :
    other ∈ world.implemented index ↔
      ∃ decl, world.decl? index = some decl ∧
        ∃ reference ∈ decl.interfaces, world.target? reference = some other := by
  unfold implemented
  cases world.decl? index <;> simp

theorem mem_parents {index other : TypeIndex} :
    other ∈ world.parents index ↔
      world.base? index = some other ∨ other ∈ world.implemented index := by
  unfold parents
  simp

theorem implemented_eq_nil {index : TypeIndex} (outside : world.entries.length ≤ index) :
    world.implemented index = [] := by
  refine List.eq_nil_iff_forall_not_mem.mpr fun other member => ?_
  obtain ⟨decl, found, -⟩ := mem_implemented.mp member
  exact Nat.not_lt.mpr outside (lt_length_of_decl? found)

theorem parents_eq_nil {index : TypeIndex} (outside : world.entries.length ≤ index) :
    world.parents index = [] := by
  refine List.eq_nil_iff_forall_not_mem.mpr fun other member => ?_
  rcases mem_parents.mp member with link | implements
  · exact Nat.not_lt.mpr outside (lt_length_of_base? link).1
  · rw [implemented_eq_nil outside] at implements
    cases implements

theorem openLinks_nil (links : TypeIndex → List TypeIndex) :
    openLinks links world.entries.length [] = world.linkCount links := by
  unfold openLinks linkCount indices
  rw [List.toFinset_nil, Finset.sdiff_empty, List.length_flatMap]
  rfl

/-- **The types reached from a type are those at the end of a path of links.** -/
theorem mem_reached_iff {links : TypeIndex → List TypeIndex}
    (inside : ∀ index, world.entries.length ≤ index → links index = [])
    {index other : TypeIndex} :
    other ∈ world.reached links index ↔ Relation.ReflTransGen (IsLinked links) index other := by
  refine mem_preorder_iff inside ?_
  rw [openLinks_nil]
  exact Nat.lt_succ_self _

theorem mem_interfacesReached_iff {links : TypeIndex → List TypeIndex}
    (inside : ∀ index, world.entries.length ≤ index → links index = [])
    {index contract : TypeIndex} :
    contract ∈ world.interfacesReached links index ↔
      Relation.ReflTransGen (IsLinked links) index contract ∧
        contract ≠ index ∧ world.isPublicInterface contract = true := by
  unfold interfacesReached
  rw [List.mem_filter, mem_reached_iff inside]
  simp

/-- **The contracts of a type** are the other public interfaces along its interfaces and theirs. -/
theorem mem_contracts_iff {index contract : TypeIndex} :
    contract ∈ world.contracts index ↔
      Relation.ReflTransGen (IsLinked world.implemented) index contract ∧
        contract ≠ index ∧ world.isPublicInterface contract = true :=
  mem_interfacesReached_iff fun _ => implemented_eq_nil

/-- **All contracts of a type** are the other public interfaces along bases and interfaces. -/
theorem mem_allContracts_iff {index contract : TypeIndex} :
    contract ∈ world.allContracts index ↔
      Relation.ReflTransGen (IsLinked world.parents) index contract ∧
        contract ≠ index ∧ world.isPublicInterface contract = true :=
  mem_interfacesReached_iff fun _ => parents_eq_nil

theorem isLinked_parents_of_implemented {index other : TypeIndex}
    (linked : IsLinked world.implemented index other) : IsLinked world.parents index other :=
  mem_parents.mpr (Or.inr linked)

/-- An ancestor is reached along bases. -/
theorem reachable_of_mem_ancestors {index ancestor : TypeIndex}
    (member : ancestor ∈ world.ancestors index) :
    Relation.ReflTransGen (IsLinked world.parents) index ancestor := by
  have climbs := world.climbs_ancestors index
  generalize world.ancestors index = path at climbs member
  generalize [index] = seen at climbs
  induction climbs with
  | stop => cases member
  | step link fresh rest hypothesis =>
    have linked : IsLinked world.parents _ _ := mem_parents.mpr (Or.inl link)
    rcases List.mem_cons.mp member with rfl | member
    · exact .single linked
    · exact .head linked (hypothesis member)

/-- **The contracts of what a type descends from or has to satisfy are contracts of the type**, or
the type itself. -/
theorem mem_of_mem_contracts {index owner contract : TypeIndex}
    (related : owner ∈ world.ancestors index ++ world.allContracts index)
    (member : contract ∈ world.contracts owner) :
    contract ∈ index :: world.allContracts index := by
  obtain ⟨path, -, isInterface⟩ := mem_contracts_iff.mp member
  have first : Relation.ReflTransGen (IsLinked world.parents) index owner := by
    rcases List.mem_append.mp related with ancestor | reached
    · exact reachable_of_mem_ancestors ancestor
    · exact (mem_allContracts_iff.mp reached).1
  have second : Relation.ReflTransGen (IsLinked world.parents) owner contract :=
    Relation.ReflTransGen.mono (fun _ _ => isLinked_parents_of_implemented) _ _ path
  by_cases same : contract = index
  · rw [same]
    exact List.mem_cons_self
  · exact List.mem_cons_of_mem _ (mem_allContracts_iff.mpr ⟨first.trans second, same, isInterface⟩)

end World

end ExternBindings
