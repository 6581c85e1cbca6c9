/-
**The order of a file is that of its tree.**

A file lists its types by looking for the owner of every type of the world. What it lists is the tree
that its type was declared with.

* `TypeTree.postorder` — a type and the public types inside of it, at their indices, inner ones
  first;
* `StandAt` — trees that stand behind each other in the world of some assemblies, as those of the
  assemblies themselves do. `StandAt.publicInner_eq`: the public types inside of such a tree are
  found in their order;
* `TypeTree.declarationOrder_eq` — **the order of declaration is the postorder of the tree**;
  `World.typesWithFile_eq_placed` — and the types with a file are the outermost trees.
-/

import ExternBindings.Proofs.Output.Rearranged

namespace ExternBindings

/-! ### Inner types first -/

/-- Whether everyone may use the outermost type of a tree. -/
def TypeTree.isPublic (tree : TypeTree) : Bool :=
  tree.decl.visibility.isPublic

mutual

/-- A type and the public types inside of it, each at its index, when its own is `first`. The types
inside of it come in order and in front of it; those inside of an enumeration do not count. -/
def TypeTree.postorder (first : TypeIndex) : TypeTree → List (TypeIndex × TypeDecl)
  | .node decl inner =>
    (if decl.isEnum then [] else postorderIn (first + 1) inner) ++ [(first, decl)]

/-- The same of the public ones among several types, when the first of them has the index
`first`. -/
def postorderIn (first : TypeIndex) : List TypeTree → List (TypeIndex × TypeDecl)
  | [] => []
  | tree :: rest =>
    (if tree.isPublic then tree.postorder first else []) ++
      postorderIn (first + tree.subtrees.length) rest

end

/-! ### Trees in the world of assemblies -/

/-- The trees stand behind each other in the world of the assemblies, the first of them at the
index `first`. -/
def StandAt (assemblies : List Assembly) (first : TypeIndex) (trees : List TypeTree) : Prop :=
  trees <+: (subtreesIn (assemblies.flatMap Assembly.types)).drop first

namespace StandAt

variable {assemblies : List Assembly} {first index : TypeIndex} {decl : TypeDecl}
  {inner trees : List TypeTree} {tree : TypeTree}

theorem all (assemblies : List Assembly) :
    StandAt assemblies 0 (subtreesIn (assemblies.flatMap Assembly.types)) :=
  List.prefix_refl _

theorem left {behind : List TypeTree} (stand : StandAt assemblies first (trees ++ behind)) :
    StandAt assemblies first trees :=
  (List.prefix_append trees behind).trans stand

theorem right {behind : List TypeTree} (stand : StandAt assemblies first (trees ++ behind)) :
    StandAt assemblies (first + trees.length) behind := by
  have later := stand.drop trees.length
  rwa [List.drop_left, List.drop_drop] at later

theorem inside (stand : StandAt assemblies index (TypeTree.node decl inner).subtrees) :
    StandAt assemblies (index + 1) (subtreesIn inner) := by
  have whole : (TypeTree.node decl inner).subtrees = [.node decl inner] ++ subtreesIn inner := by
    rw [TypeTree.subtrees, List.singleton_append]
  rw [whole] at stand
  exact stand.right

theorem getElem?_eq (stand : StandAt assemblies index (TypeTree.node decl inner).subtrees) :
    (subtreesIn (assemblies.flatMap Assembly.types))[index]? = some (.node decl inner) := by
  obtain ⟨behind, whole⟩ := stand
  rw [TypeTree.subtrees, List.cons_append] at whole
  rw [← List.head?_drop, ← whole, List.head?_cons]

theorem decl?_eq (stand : StandAt assemblies index (TypeTree.node decl inner).subtrees) :
    (World.ofAssemblies assemblies).decl? index = some decl := by
  obtain ⟨entry, found, same⟩ := World.exists_entry stand.getElem?_eq
  rw [World.decl?_eq_some_decl found, same]
  rfl

/-- Each of several trees stands at its index. -/
theorem of_mem_placed : ∀ {trees : List TypeTree} {first : TypeIndex},
    StandAt assemblies first (subtreesIn trees) →
      ∀ tree ∈ placed first trees, StandAt assemblies tree.1 tree.2.subtrees
  | [], _, _, _, member => absurd member List.not_mem_nil
  | head :: rest, first, stand, tree, member => by
    rw [subtreesIn] at stand
    rcases List.mem_cons.mp member with rfl | later
    · exact stand.left
    · exact of_mem_placed stand.right tree later

/-- **The public types inside of a tree are found in their order.** -/
theorem publicInner_eq (stand : StandAt assemblies index (TypeTree.node decl inner).subtrees) :
    (World.ofAssemblies assemblies).publicInner index =
      ((placed (index + 1) inner).filter fun tree => tree.2.isPublic).map Prod.fst := by
  have owned := (World.laidOut_ofAssemblies assemblies).ownsInner (fun _ same => nomatch same)
    index _ stand.getElem?_eq
  rw [Nat.zero_add] at owned
  exact World.indicesWhere_owned owned fun decl => decl.visibility.isPublic

end StandAt

/-! ### The order of a file -/

section Order

variable {assemblies : List Assembly}

mutual

/-- **The order of declaration is the postorder of the tree.** -/
theorem TypeTree.declarationOrder_eq : ∀ (tree : TypeTree) {index : TypeIndex},
    StandAt assemblies index tree.subtrees →
      (World.ofAssemblies assemblies).declarationOrder index = (tree.postorder index).map Prod.fst
  | .node decl inner, index, stand => by
    have found := stand.decl?_eq
    obtain ⟨entry, entryFound, -⟩ := World.decl?_eq_some found
    have inRange : index < (World.ofAssemblies assemblies).entries.length :=
      (List.getElem?_eq_some_iff.mp entryFound).1
    rw [(World.isOrdered_ofAssemblies assemblies).declarationOrder_eq inRange, found,
      Option.any_some, TypeTree.postorder, List.map_append]
    congr 1
    by_cases isEnum : decl.isEnum = true
    · rw [if_pos isEnum, if_pos isEnum]
      rfl
    · rw [if_neg isEnum, if_neg isEnum, stand.publicInner_eq,
        flatMap_declarationOrder inner stand.inside]

/-- The types inside of a tree are listed one behind the other. -/
theorem flatMap_declarationOrder : ∀ (trees : List TypeTree) {first : TypeIndex},
    StandAt assemblies first (subtreesIn trees) →
      (((placed first trees).filter fun tree => tree.2.isPublic).map Prod.fst).flatMap
          (World.ofAssemblies assemblies).declarationOrder =
        (postorderIn first trees).map Prod.fst
  | [], _, _ => rfl
  | tree :: rest, first, stand => by
    rw [subtreesIn] at stand
    have own := tree.declarationOrder_eq stand.left
    have behind := flatMap_declarationOrder rest stand.right
    rw [placed, postorderIn, List.map_append, ← behind, List.filter_cons]
    by_cases isPublic : tree.isPublic = true
    · rw [if_pos isPublic, if_pos isPublic, List.map_cons, List.flatMap_cons, own]
    · rw [if_neg isPublic, if_neg isPublic]
      rfl

end

mutual

/-- The types in the order stand at their indices. -/
theorem TypeTree.decl?_of_mem_postorder : ∀ (tree : TypeTree) {index : TypeIndex},
    StandAt assemblies index tree.subtrees →
      ∀ type ∈ tree.postorder index, (World.ofAssemblies assemblies).decl? type.1 = some type.2
  | .node decl inner, index, stand, type, member => by
    rw [TypeTree.postorder, List.mem_append, List.mem_singleton] at member
    rcases member with within | rfl
    · split at within
      · cases within
      · exact decl?_of_mem_postorderIn inner stand.inside type within
    · exact stand.decl?_eq

theorem decl?_of_mem_postorderIn : ∀ (trees : List TypeTree) {first : TypeIndex},
    StandAt assemblies first (subtreesIn trees) →
      ∀ type ∈ postorderIn first trees, (World.ofAssemblies assemblies).decl? type.1 = some type.2
  | [], _, _, _, member => absurd member List.not_mem_nil
  | tree :: rest, first, stand, type, member => by
    rw [subtreesIn] at stand
    rw [postorderIn, List.mem_append] at member
    rcases member with own | later
    · split at own
      · exact tree.decl?_of_mem_postorder stand.left type own
      · cases own
    · exact decl?_of_mem_postorderIn rest stand.right type later

end

end Order

/-- **The types with a file are the outermost trees**, apart from those that get none. -/
theorem World.typesWithFile_eq_placed (assemblies : List Assembly) :
    (World.ofAssemblies assemblies).typesWithFile =
      ((placed 0 (assemblies.flatMap Assembly.types)).filter fun tree => tree.2.getsFile).map
        Prod.fst := by
  have outermost := (laidOut_ofAssemblies assemblies).ownedDecls_eq fun _ same => nomatch same
  rw [typesWithFile_eq]
  refine Eq.trans (congrArg _ (funext fun entry => ?_)) (indicesWhere_owned outermost fun decl =>
    decl.visibility.isPublic && !ownNamedTypes.contains decl.name.text)
  unfold Entry.getsFile Entry.isTopLevel Entry.isPublic
  rw [entry.text_eq, Bool.and_assoc]
  cases entry.owner? <;> rfl

end ExternBindings
