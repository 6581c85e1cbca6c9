/-
**Worlds of the same types in another order.**

Whole types may be moved: to another place in their namespace, to another namespace block, to another
assembly. The world then mirrors the one before (`World.mirrors_ofAssemblies`). What an entry says
depends only on the tree that it comes from (`TypeTree.shapes`, `TypeTree.innerShapes`), and the
trees are the same ones.
-/

import ExternBindings.Proofs.World.LaidOut
import ExternBindings.Proofs.World.Mirror

namespace ExternBindings

/-! ### Trees without stretches of text -/

theorem TypeDecl.withoutSpans_withoutSpans (decl : TypeDecl) :
    decl.withoutSpans.withoutSpans = decl.withoutSpans := by
  simp only [TypeDecl.withoutSpans, List.map_map]
  rfl

theorem TypeTree.decl_withoutSpans (tree : TypeTree) :
    tree.withoutSpans.decl = tree.decl.withoutSpans := by
  cases tree
  rfl

theorem TypeTree.inner_withoutSpans (tree : TypeTree) :
    tree.withoutSpans.inner = tree.inner.map TypeTree.withoutSpans := by
  cases tree
  exact withoutSpansIn_eq _

mutual

theorem TypeTree.subtrees_withoutSpans : ∀ tree : TypeTree,
    tree.withoutSpans.subtrees = tree.subtrees.map TypeTree.withoutSpans
  | .node decl inner => by
    rw [TypeTree.withoutSpans, TypeTree.subtrees, TypeTree.subtrees, List.map_cons,
      subtreesIn_withoutSpansIn inner, TypeTree.withoutSpans]

theorem subtreesIn_withoutSpansIn : ∀ trees : List TypeTree,
    subtreesIn (withoutSpansIn trees) = (subtreesIn trees).map TypeTree.withoutSpans
  | [] => rfl
  | tree :: rest => by
    rw [withoutSpansIn, subtreesIn, subtreesIn, List.map_append, tree.subtrees_withoutSpans,
      subtreesIn_withoutSpansIn rest]

end

/-! ### What entries say -/

/-- What the entry of a type says that is declared inside of another one. -/
def TypeDecl.innerShape (decl : TypeDecl) : TypeDecl × Bool :=
  (decl.withoutSpans, false)

/-- What the entries of a tree say. -/
def TypeTree.shapes : TypeTree → List (TypeDecl × Bool)
  | .node decl inner =>
    (decl.withoutSpans, true) :: ((subtreesIn inner).map TypeTree.decl).map TypeDecl.innerShape

/-- What the entries of the public types directly inside of a tree say. -/
def TypeTree.innerShapes (tree : TypeTree) : List (TypeDecl × Bool) :=
  ((tree.inner.map TypeTree.decl).filter fun decl => decl.visibility.isPublic).map
    TypeDecl.innerShape

theorem TypeDecl.innerShape_withoutSpans (decl : TypeDecl) :
    decl.withoutSpans.innerShape = decl.innerShape := by
  unfold innerShape
  rw [withoutSpans_withoutSpans]

theorem TypeTree.shapes_withoutSpans (tree : TypeTree) : tree.withoutSpans.shapes = tree.shapes := by
  obtain ⟨decl, inner⟩ := tree
  rw [withoutSpans, shapes, shapes, subtreesIn_withoutSpansIn, TypeDecl.withoutSpans_withoutSpans,
    List.map_map, List.map_map, List.map_map]
  congr 1
  refine List.map_congr_left fun tree _ => ?_
  simp only [Function.comp_apply, decl_withoutSpans, TypeDecl.innerShape_withoutSpans]

theorem TypeTree.innerShapes_withoutSpans (tree : TypeTree) :
    tree.withoutSpans.innerShapes = tree.innerShapes := by
  unfold innerShapes
  rw [inner_withoutSpans, List.filter_map, List.filter_map, List.filter_map, List.map_map,
    List.map_map, List.map_map]
  simp only [Function.comp_def, decl_withoutSpans, TypeDecl.innerShape_withoutSpans]
  rfl

namespace LaidOut

variable {entries : List Entry} {trees : List TypeTree}

theorem shapes_inside {owner first : Nat} (laidOut : LaidOut (some owner) first entries trees) :
    entries.map Entry.shape = ((subtreesIn trees).map TypeTree.decl).map TypeDecl.innerShape := by
  rw [← laidOut.decls, List.map_map]
  refine List.map_congr_left fun entry member => ?_
  have owned : entry.owner?.isNone = false := by
    rcases laidOut.owner entry member with own | ⟨index, own, -⟩ <;> rw [own] <;> rfl
  exact Prod.ext rfl owned

/-- **Entries say what their trees say.** -/
theorem shapes {owner? : Option Nat} {first : Nat} (laidOut : LaidOut owner? first entries trees)
    (top : owner? = none) : entries.map Entry.shape = trees.flatMap TypeTree.shapes := by
  induction laidOut with
  | nil => rfl
  | @cons owner? first head inside rest inner trees belongs insideOut _ _ hypothesis =>
    rw [List.map_cons, List.map_append, insideOut.shapes_inside, hypothesis top, List.flatMap_cons,
      TypeTree.shapes, List.cons_append]
    congr 1
    refine Prod.ext rfl ?_
    show head.owner?.isNone = true
    rw [belongs, top]
    rfl

/-- **The public entries inside of a type say what its tree says.** -/
theorem innerShapes (laidOut : LaidOut none 0 entries trees) {index : Nat} {tree : TypeTree}
    (found : (subtreesIn trees)[index]? = some tree) :
    (entries.filter fun entry => entry.owner? = some index && entry.isPublic).map Entry.shape =
      tree.innerShapes := by
  unfold TypeTree.innerShapes
  rw [← laidOut.innerDecls found, List.filter_map, List.map_map, List.filter_filter]
  have accepted : (fun entry : Entry => entry.owner? = some index && entry.isPublic) =
      fun entry => ((fun decl : TypeDecl => decl.visibility.isPublic) ∘ Entry.decl) entry &&
        decide (entry.owner? = some index) := by
    funext entry
    exact Bool.and_comm _ _
  rw [accepted]
  refine List.map_congr_left fun entry member => ?_
  have belongs := (Bool.and_eq_true_iff.mp (List.mem_filter.mp member).2).2
  rw [decide_eq_true_eq] at belongs
  refine Prod.ext rfl ?_
  show entry.owner?.isNone = false
  rw [belongs]
  rfl

end LaidOut

/-! ### Rearranged assemblies -/

/-- The assemblies have the same top-level types apart from stretches of text, each as often, in any
order and in any assembly. -/
def AreRearranged (first second : List Assembly) : Prop :=
  ((first.flatMap Assembly.types).map TypeTree.withoutSpans).Perm
    ((second.flatMap Assembly.types).map TypeTree.withoutSpans)

namespace AreRearranged

variable {first second : List Assembly}

theorem shapes (rearranged : AreRearranged first second) :
    ((World.ofAssemblies first).entries.map Entry.shape).Perm
      ((World.ofAssemblies second).entries.map Entry.shape) := by
  have spoken : ∀ assemblies : List Assembly, (World.ofAssemblies assemblies).entries.map Entry.shape =
      ((assemblies.flatMap Assembly.types).map TypeTree.withoutSpans).flatMap TypeTree.shapes := by
    intro assemblies
    rw [(World.laidOut_ofAssemblies assemblies).shapes rfl, List.flatMap_map]
    exact congrArg (List.flatMap · _) (funext fun tree => tree.shapes_withoutSpans.symm)
  rw [spoken, spoken]
  exact rearranged.flatMap_right _

theorem subtrees (rearranged : AreRearranged first second) :
    ((subtreesIn (first.flatMap Assembly.types)).map TypeTree.withoutSpans).Perm
      ((subtreesIn (second.flatMap Assembly.types)).map TypeTree.withoutSpans) := by
  rw [← subtreesIn_withoutSpansIn, ← subtreesIn_withoutSpansIn, subtreesIn_eq_flatMap,
    subtreesIn_eq_flatMap, withoutSpansIn_eq, withoutSpansIn_eq]
  exact rearranged.flatMap_right _

end AreRearranged

namespace World

/-- The trees of twins are equal apart from stretches of text. -/
theorem exists_twinTree {first second : List Assembly} (rearranged : AreRearranged first second)
    (unambiguous : (ofAssemblies first).IsUnambiguous) {index twin : TypeIndex}
    {entry entryToo : Entry} (found : World.entry? (ofAssemblies first) index = some entry)
    (foundToo : World.entry? (ofAssemblies second) twin = some entryToo)
    (same : entry.shape = entryToo.shape) :
    ∃ tree twinTree, (subtreesIn (first.flatMap Assembly.types))[index]? = some tree ∧
      (subtreesIn (second.flatMap Assembly.types))[twin]? = some twinTree ∧
      tree.withoutSpans = twinTree.withoutSpans := by
  obtain ⟨tree, treeFound, decl⟩ := exists_tree found
  have member := rearranged.subtrees.mem_iff.mp
    (List.mem_map_of_mem (List.mem_of_getElem? treeFound))
  obtain ⟨twinTree, twinMember, sameTree⟩ := List.mem_map.mp member
  obtain ⟨place, placed⟩ := List.getElem?_of_mem twinMember
  obtain ⟨placedEntry, entryFound, placedDecl⟩ := exists_entry placed
  have decls : SameDecl twinTree.decl tree.decl := by
    unfold SameDecl
    rw [← TypeTree.decl_withoutSpans, ← TypeTree.decl_withoutSpans, sameTree]
  have texts : placedEntry.text = entryToo.text := by
    rw [placedEntry.text_eq, placedDecl, ← Entry.text_eq_of_shape same, entry.text_eq, ← decl]
    exact decls.congr fun decl => decl.name.text
  have here : place = twin :=
    (unambiguous.of_shapes rearranged.shapes).index_eq entryFound foundToo texts
  subst here
  exact ⟨tree, twinTree, treeFound, placed, sameTree.symm⟩

/-- **Assemblies with the same types have worlds that mirror each other.** -/
theorem mirrors_ofAssemblies {first second : List Assembly} (rearranged : AreRearranged first second)
    (unambiguous : (ofAssemblies first).IsUnambiguous) :
    (ofAssemblies first).Mirrors (ofAssemblies second) where
  shapes := rearranged.shapes
  unambiguous := unambiguous
  inner {index twin} twins := by
    obtain ⟨entry, entryToo, found, foundToo, same⟩ := twins
    obtain ⟨tree, twinTree, treeFound, twinFound, sameTree⟩ :=
      exists_twinTree rearranged unambiguous found foundToo same
    refine forall₂_twins ?_
    rw [(laidOut_ofAssemblies first).innerShapes treeFound,
      (laidOut_ofAssemblies second).innerShapes twinFound, ← tree.innerShapes_withoutSpans, sameTree,
      twinTree.innerShapes_withoutSpans]

end World

end ExternBindings
