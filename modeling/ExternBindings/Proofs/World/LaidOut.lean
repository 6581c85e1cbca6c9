/-
**How declared types are laid out in a world.**

The entries of a world follow the text: each type stands right in front of the types that are
declared inside of it.

* `LaidOut` — entries that are laid out like trees, the first of them at a given index;
  `World.laidOut_ofAssemblies` finds those of some assemblies laid out like their types;
* `TypeTree.subtrees` — the trees at the indices of such entries (`LaidOut.decls`);
* `ownedDecls` — the types that belong to a given one, and `placed` — trees at their indices;
  `World.indicesWhere_owned` chooses among the first by way of the second;
* `LaidOut.ownsInner` — the types that belong to the one at an index are the trees directly inside
  of the one there, in their order and at their indices; `LaidOut.ownedDecls_eq` — those that belong
  to no type are the trees themselves;
* `LaidOut.owner_lt` — a type stands behind the one that it is declared in (`World.IsOrdered`).
-/

import ExternBindings.World.Basic

namespace ExternBindings

/-! ### Chosen types -/

namespace World

variable {world : World}

theorem mem_indicesWhere {accepts : Entry → Bool} {index : TypeIndex} :
    index ∈ world.indicesWhere accepts ↔
      ∃ entry, world.entry? index = some entry ∧ accepts entry = true := by
  unfold indicesWhere indices
  rw [List.mem_filter, List.mem_range, Option.any_eq_true]
  constructor
  · exact fun both => both.2
  · rintro ⟨entry, found, accepted⟩
    exact ⟨(List.getElem?_eq_some_iff.mp found).1, entry, found, accepted⟩

theorem mem_publicInner {owner index : TypeIndex} :
    index ∈ world.publicInner owner ↔
      ∃ entry, world.entry? index = some entry ∧ entry.owner? = some owner ∧
        entry.isPublic = true := by
  unfold publicInner
  simp only [mem_indicesWhere, Bool.and_eq_true, decide_eq_true_eq]

theorem indicesWhere_eq (world : World) (accepts : Entry → Bool) :
    world.indicesWhere accepts =
      (world.entries.zipIdx.filter fun entry => accepts entry.1).map Prod.snd := by
  unfold indicesWhere indices
  rw [List.range_eq_range', ← List.zipIdx_map_snd 0 world.entries, List.filter_map]
  congr 1
  refine List.filter_congr fun entry member => ?_
  show (world.entry? entry.2).any accepts = accepts entry.1
  unfold entry?
  rw [List.mem_zipIdx_iff_getElem?.mp member, Option.any_some]

/-- Choosing among chosen types. -/
theorem indicesWhere_filter (world : World) (accepts acceptsToo : Entry → Bool) :
    ((world.indicesWhere accepts).filter fun index => (world.entry? index).any acceptsToo) =
      world.indicesWhere fun entry => accepts entry && acceptsToo entry := by
  unfold indicesWhere
  rw [List.filter_filter]
  refine List.filter_congr fun index _ => ?_
  cases world.entry? index with
  | none => rfl
  | some entry => exact Bool.and_comm _ _

end World

/-! ### Trees -/

mutual

/-- The tree and all trees inside of it, each right in front of those inside of it. -/
def TypeTree.subtrees : TypeTree → List TypeTree
  | .node decl inner => .node decl inner :: subtreesIn inner

/-- The same of several trees. -/
def subtreesIn : List TypeTree → List TypeTree
  | [] => []
  | tree :: rest => tree.subtrees ++ subtreesIn rest

end

theorem subtreesIn_cons (decl : TypeDecl) (inner trees : List TypeTree) :
    subtreesIn (.node decl inner :: trees) =
      .node decl inner :: (subtreesIn inner ++ subtreesIn trees) := by
  rw [subtreesIn, TypeTree.subtrees, List.cons_append]

theorem subtreesIn_eq_flatMap (trees : List TypeTree) :
    subtreesIn trees = trees.flatMap TypeTree.subtrees := by
  induction trees with
  | nil => rfl
  | cons tree rest hypothesis => rw [subtreesIn, hypothesis, List.flatMap_cons]

/-! ### Types at their indices -/

/-- The trees at their indices, when the first of them has the index `first`. -/
def placed (first : TypeIndex) : List TypeTree → List (TypeIndex × TypeTree)
  | [] => []
  | tree :: rest => (first, tree) :: placed (first + tree.subtrees.length) rest

theorem placed_cons (first : TypeIndex) (decl : TypeDecl) (inner trees : List TypeTree) :
    placed first (.node decl inner :: trees) =
      (first, .node decl inner) :: placed (first + 1 + (subtreesIn inner).length) trees := by
  rw [placed, TypeTree.subtrees, List.length_cons, Nat.add_right_comm, Nat.add_assoc]

/-- The types that belong to `owner?` at their indices, when the first entry has the index
`first`. -/
def ownedDecls (owner? : Option TypeIndex) (first : TypeIndex) (entries : List Entry) :
    List (TypeIndex × TypeDecl) :=
  ((entries.zipIdx first).filter fun entry => entry.1.owner? = owner?).map fun entry =>
    (entry.2, entry.1.decl)

section OwnedDecls

variable {owner? : Option TypeIndex} {first : TypeIndex} {head : Entry} {entries : List Entry}

theorem ownedDecls_cons_self (belongs : head.owner? = owner?) :
    ownedDecls owner? first (head :: entries) =
      (first, head.decl) :: ownedDecls owner? (first + 1) entries := by
  unfold ownedDecls
  rw [List.zipIdx_cons, List.filter_cons_of_pos (by simpa using belongs), List.map_cons]

theorem ownedDecls_cons_of_ne (other : head.owner? ≠ owner?) :
    ownedDecls owner? first (head :: entries) = ownedDecls owner? (first + 1) entries := by
  unfold ownedDecls
  rw [List.zipIdx_cons, List.filter_cons_of_neg (by simpa using other)]

theorem ownedDecls_append (behind : List Entry) :
    ownedDecls owner? first (entries ++ behind) =
      ownedDecls owner? first entries ++ ownedDecls owner? (first + entries.length) behind := by
  unfold ownedDecls
  rw [List.zipIdx_append, List.filter_append, List.map_append]

theorem ownedDecls_eq_nil (other : ∀ entry ∈ entries, entry.owner? ≠ owner?) (first : TypeIndex) :
    ownedDecls owner? first entries = [] := by
  unfold ownedDecls
  rw [List.map_eq_nil_iff, List.filter_eq_nil_iff]
  intro entry member
  rw [decide_eq_true_eq]
  exact other entry.1 (List.fst_mem_of_mem_zipIdx member)

end OwnedDecls

theorem map_snd_ownedDecls (owner? : Option TypeIndex) (first : TypeIndex) (entries : List Entry) :
    (ownedDecls owner? first entries).map Prod.snd =
      (entries.filter fun entry => entry.owner? = owner?).map Entry.decl := by
  induction entries generalizing first with
  | nil => rfl
  | cons head rest hypothesis =>
    by_cases belongs : head.owner? = owner?
    · rw [ownedDecls_cons_self belongs, List.filter_cons_of_pos (by simpa using belongs),
        List.map_cons, List.map_cons, hypothesis]
    · rw [ownedDecls_cons_of_ne belongs, List.filter_cons_of_neg (by simpa using belongs), hypothesis]

theorem map_snd_placed (first : TypeIndex) (trees : List TypeTree) :
    ((placed first trees).map (Prod.map id TypeTree.decl)).map Prod.snd =
      trees.map TypeTree.decl := by
  induction trees generalizing first with
  | nil => rfl
  | cons tree rest hypothesis =>
    rw [placed, List.map_cons, List.map_cons, hypothesis, List.map_cons]
    rfl

/-- **Types that are chosen by their owner** and their declarations, when those of the owner are the
trees. -/
theorem World.indicesWhere_owned {world : World} {owner? : Option TypeIndex} {first : TypeIndex}
    {trees : List TypeTree}
    (owned : ownedDecls owner? 0 world.entries = (placed first trees).map (Prod.map id TypeTree.decl))
    (accepts : TypeDecl → Bool) :
    (world.indicesWhere fun entry => entry.owner? = owner? && accepts entry.decl) =
      ((placed first trees).filter fun tree => accepts tree.2.decl).map Prod.fst := by
  have kept : (world.indicesWhere fun entry => entry.owner? = owner? && accepts entry.decl) =
      ((ownedDecls owner? 0 world.entries).filter fun type => accepts type.2).map Prod.fst := by
    unfold ownedDecls
    rw [World.indicesWhere_eq, List.filter_map, List.map_map, List.filter_filter]
    refine congrArg _ (List.filter_congr fun entry _ => ?_)
    exact Bool.and_comm _ _
  rw [kept, owned, List.filter_map, List.map_map]
  rfl

/-! ### Entries laid out like trees -/

/-- The entries are laid out like the trees: the outermost ones belong to `owner?`, and the first of
them has the index `first`. -/
inductive LaidOut : Option Nat → Nat → List Entry → List TypeTree → Prop
  | nil {owner? : Option Nat} {first : Nat} : LaidOut owner? first [] []
  | cons {owner? : Option Nat} {first : Nat} {head : Entry} {inside rest : List Entry}
      {inner trees : List TypeTree} :
      head.owner? = owner? → LaidOut (some first) (first + 1) inside inner →
        LaidOut owner? (first + (inside.length + 1)) rest trees →
          LaidOut owner? first (head :: (inside ++ rest)) (.node head.decl inner :: trees)

theorem laidOut_entriesOfTrees (assembly : Nat) :
    ∀ (owner? : Option Nat) (first : Nat) (trees : List TypeTree),
      LaidOut owner? first (entriesOfTrees assembly owner? first trees) trees
  | _, _, [] => by
    rw [entriesOfTrees]
    exact LaidOut.nil
  | owner?, first, .node decl inner :: rest => by
    have inside := laidOut_entriesOfTrees assembly (some first) (first + 1) inner
    have behind := laidOut_entriesOfTrees assembly owner?
      (first + ((entriesOfTrees assembly (some first) (first + 1) inner).length + 1)) rest
    rw [entriesOfTrees, TypeTree.entries, List.length_cons]
    exact LaidOut.cons rfl inside behind

namespace LaidOut

variable {owner? : Option Nat} {first : Nat} {entries : List Entry}
  {trees : List TypeTree}

theorem append {others : List Entry} {further : List TypeTree}
    (laidOut : LaidOut owner? first entries trees)
    (behind : LaidOut owner? (first + entries.length) others further) :
    LaidOut owner? first (entries ++ others) (trees ++ further) := by
  induction laidOut with
  | nil => exact behind
  | @cons owner? first head inside rest inner trees belongs insideOut _ _ hypothesis =>
    rw [List.cons_append, List.append_assoc, List.cons_append]
    refine LaidOut.cons belongs insideOut (hypothesis ?_)
    rwa [List.length_cons, List.length_append, Nat.add_right_comm, ← Nat.add_assoc] at behind

/-- The entries are the declarations of the trees and of those inside. -/
theorem decls (laidOut : LaidOut owner? first entries trees) :
    entries.map Entry.decl = (subtreesIn trees).map TypeTree.decl := by
  induction laidOut with
  | nil => rfl
  | cons _ _ _ inside rest =>
    rw [List.map_cons, List.map_append, inside, rest, subtreesIn_cons, List.map_cons,
      List.map_append]
    rfl

theorem length_eq (laidOut : LaidOut owner? first entries trees) :
    entries.length = (subtreesIn trees).length := by
  simpa using congrArg List.length laidOut.decls

/-- Each entry belongs to `owner?` or to one of the entries in front of it. -/
theorem owner_lt (laidOut : LaidOut owner? first entries trees) :
    ∀ position entry, entries[position]? = some entry → entry.owner? = owner? ∨
      ∃ index : Nat, entry.owner? = some index ∧ first ≤ index ∧ index < first + position := by
  induction laidOut with
  | nil => exact fun position entry found => by simp at found
  | @cons owner? first head inside rest inner trees belongs _ _ insideOwned restOwned =>
    intro position entry found
    cases position with
    | zero =>
      cases found
      exact Or.inl belongs
    | succ position =>
      rw [List.getElem?_cons_succ] at found
      by_cases within : position < inside.length
      · rw [List.getElem?_append_left within] at found
        rcases insideOwned position entry found with own | ⟨index, own, low, high⟩
        · exact Or.inr ⟨first, own, Nat.le_refl _, by omega⟩
        · exact Or.inr ⟨index, own, by omega, by omega⟩
      · rw [List.getElem?_append_right (Nat.not_lt.mp within)] at found
        rcases restOwned _ entry found with own | ⟨index, own, low, high⟩
        · exact Or.inl own
        · exact Or.inr ⟨index, own, by omega, by omega⟩

/-- Each entry belongs to `owner?` or to another one of the entries. -/
theorem owner (laidOut : LaidOut owner? first entries trees) :
    ∀ entry ∈ entries, entry.owner? = owner? ∨
      ∃ index : Nat, entry.owner? = some index ∧ first ≤ index ∧ index < first + entries.length := by
  intro entry member
  obtain ⟨position, inRange, rfl⟩ := List.getElem_of_mem member
  rcases laidOut.owner_lt position _ (List.getElem?_eq_getElem inRange) with
    own | ⟨index, own, low, high⟩
  · exact Or.inl own
  · exact Or.inr ⟨index, own, low, by omega⟩

/-- None of the types belongs to a type that is neither `owner?` nor one of the entries. -/
theorem ownedDecls_eq_nil (laidOut : LaidOut owner? first entries trees) {other? : Option Nat}
    (different : owner? ≠ other?)
    (outside : ∀ index, other? = some index → index < first ∨ first + entries.length ≤ index)
    (start : Nat) : ownedDecls other? start entries = [] := by
  refine ExternBindings.ownedDecls_eq_nil (fun entry member same => ?_) start
  rcases laidOut.owner entry member with own | ⟨index, own, low, high⟩
  · exact different (own.symm.trans same)
  · rcases outside index (same.symm.trans own) with before | behind <;> omega

/-- **The types that belong to `owner?` are the trees themselves**, when it stands in front. -/
theorem ownedDecls_eq (laidOut : LaidOut owner? first entries trees)
    (before : ∀ index, owner? = some index → index < first) :
    ownedDecls owner? first entries = (placed first trees).map (Prod.map id TypeTree.decl) := by
  induction laidOut with
  | nil => rfl
  | @cons owner? first head inside rest inner trees belongs insideOut _ _ hypothesis =>
    have noneInside : ownedDecls owner? (first + 1) inside = [] := by
      refine insideOut.ownedDecls_eq_nil (fun same => ?_) (fun index same => ?_) _
      · exact Nat.lt_irrefl first (before first same.symm)
      · exact Or.inl (Nat.lt_succ_of_lt (before index same))
    have behind : ownedDecls owner? (first + 1 + inside.length) rest =
        (placed (first + 1 + inside.length) trees).map (Prod.map id TypeTree.decl) := by
      rw [Nat.add_assoc, Nat.add_comm 1]
      exact hypothesis fun index same => Nat.lt_of_lt_of_le (before index same) (Nat.le_add_right _ _)
    rw [ownedDecls_cons_self belongs, ownedDecls_append, noneInside, List.nil_append, behind,
      placed_cons, ← insideOut.length_eq, List.map_cons]
    rfl

/-- The types that belong to the one at each index are the trees directly inside of the one
there. -/
def OwnsInner (first : Nat) (entries : List Entry) (subtrees : List TypeTree) : Prop :=
  ∀ (position : Nat) (tree : TypeTree), subtrees[position]? = some tree →
    ownedDecls (some (first + position)) first entries =
      (placed (first + position + 1) tree.inner).map (Prod.map id TypeTree.decl)

/-- Entries of one part own none of the other part. -/
theorem OwnsInner.append {own behind : List Entry} {subtrees further : List TypeTree}
    (owns : OwnsInner first own subtrees) (ownsBehind : OwnsInner (first + own.length) behind further)
    (sameLength : own.length = subtrees.length)
    (noneOwn : ∀ index : Nat, first + own.length ≤ index → ownedDecls (some index) first own = [])
    (noneBehind : ∀ index : Nat, first ≤ index → index < first + own.length →
      ownedDecls (some index) (first + own.length) behind = []) :
    OwnsInner first (own ++ behind) (subtrees ++ further) := by
  intro position tree found
  rw [ownedDecls_append]
  by_cases within : position < subtrees.length
  · rw [List.getElem?_append_left within] at found
    rw [noneBehind (first + position) (by omega) (by omega), List.append_nil]
    exact owns position tree found
  · rw [Nat.not_lt] at within
    rw [List.getElem?_append_right within] at found
    rw [noneOwn (first + position) (by omega), List.nil_append]
    have owned := ownsBehind _ tree found
    rwa [show first + own.length + (position - subtrees.length) = first + position by omega] at owned

/-- **The types that belong to the one at an index are the trees directly inside of it**, in their
order and at their indices. -/
theorem ownsInner (laidOut : LaidOut owner? first entries trees)
    (before : ∀ index, owner? = some index → index < first) :
    OwnsInner first entries (subtreesIn trees) := by
  induction laidOut with
  | nil => exact fun position tree found => by simp [subtreesIn] at found
  | @cons owner? first head inside rest inner trees belongs insideOut restOut insideOwns restOwns =>
    have noneBehind : ∀ index start : Nat, first ≤ index → index < first + (inside.length + 1) →
        ownedDecls (some index) start rest = [] := by
      intro index start low high
      refine restOut.ownedDecls_eq_nil (fun same => ?_) (fun other same => ?_) start
      · exact absurd (before index same) (Nat.not_lt.mpr low)
      · cases same
        exact Or.inl high
    intro position tree found
    have notHead : head.owner? ≠ some (first + position) := fun same =>
      absurd (before _ (belongs.symm.trans same)) (Nat.not_lt.mpr (Nat.le_add_right _ _))
    rw [ownedDecls_cons_of_ne notHead]
    rw [subtreesIn_cons] at found
    cases position with
    | zero =>
      -- The head itself: what belongs to it are the trees directly inside.
      cases found
      rw [ownedDecls_append, noneBehind (first + 0) _ (by omega) (by omega), List.append_nil]
      exact insideOut.ownedDecls_eq fun index same => by
        cases same
        exact Nat.lt_succ_self _
    | succ position =>
      have insideOwned := insideOwns fun index same => by
        cases same
        exact Nat.lt_succ_self _
      have restOwned := restOwns fun index same => Nat.lt_of_lt_of_le (before index same) (by omega)
      rw [← Nat.add_assoc, Nat.add_right_comm] at restOwned
      have noneInside : ∀ index : Nat, first + 1 + inside.length ≤ index →
          ownedDecls (some index) (first + 1) inside = [] := by
        intro index low
        refine insideOut.ownedDecls_eq_nil (fun same => ?_) (fun other same => ?_) _
        · cases same
          omega
        · cases same
          exact Or.inr low
      have owned := insideOwned.append restOwned insideOut.length_eq noneInside
        fun index low high => noneBehind index _ (by omega) (by omega)
      rw [show first + (position + 1) = first + 1 + position by omega]
      exact owned position tree found

/-- The declarations that belong to `owner?`, without their indices. -/
theorem topDecls (laidOut : LaidOut owner? first entries trees)
    (before : ∀ index, owner? = some index → index < first) :
    (entries.filter fun entry => entry.owner? = owner?).map Entry.decl =
      trees.map TypeTree.decl := by
  rw [← map_snd_ownedDecls owner? first, laidOut.ownedDecls_eq before, map_snd_placed]

/-- The declarations that belong to the type at an index, without their indices. -/
theorem innerDecls (laidOut : LaidOut none 0 entries trees) {index : Nat} {tree : TypeTree}
    (found : (subtreesIn trees)[index]? = some tree) :
    (entries.filter fun entry => entry.owner? = some index).map Entry.decl =
      tree.inner.map TypeTree.decl := by
  have owned := laidOut.ownsInner (fun index same => nomatch same) index tree found
  rw [Nat.zero_add] at owned
  rw [← map_snd_ownedDecls (some index) 0, owned, map_snd_placed]

end LaidOut

/-- **The entries of assemblies are laid out like their types.** -/
theorem laidOut_entriesOfAssemblies (assemblies : List Assembly) (position first : Nat) :
    LaidOut none first (entriesOfAssemblies position first assemblies)
      (assemblies.flatMap Assembly.types) := by
  induction assemblies generalizing position first with
  | nil => exact LaidOut.nil
  | cons head rest hypothesis =>
    exact (laidOut_entriesOfTrees position none first head.types).append (hypothesis _ _)

namespace World

theorem laidOut_ofAssemblies (assemblies : List Assembly) :
    LaidOut none 0 (World.ofAssemblies assemblies).entries (assemblies.flatMap Assembly.types) :=
  laidOut_entriesOfAssemblies assemblies 0 0

/-- The tree that an entry comes from. -/
theorem exists_tree {assemblies : List Assembly} {index : TypeIndex} {entry : Entry}
    (found : World.entry? (ofAssemblies assemblies) index = some entry) :
    ∃ tree, (subtreesIn (assemblies.flatMap Assembly.types))[index]? = some tree ∧
      tree.decl = entry.decl := by
  have decls := (laidOut_ofAssemblies assemblies).decls
  have atIndex := congrArg (·[index]?) decls
  simp only [List.getElem?_map] at atIndex
  unfold entry? at found
  rw [found, Option.map_some] at atIndex
  obtain ⟨tree, treeFound, same⟩ := Option.map_eq_some_iff.mp atIndex.symm
  exact ⟨tree, treeFound, same⟩

theorem exists_entry {assemblies : List Assembly} {index : Nat} {tree : TypeTree}
    (found : (subtreesIn (assemblies.flatMap Assembly.types))[index]? = some tree) :
    ∃ entry, World.entry? (ofAssemblies assemblies) index = some entry ∧ entry.decl = tree.decl := by
  have decls := (laidOut_ofAssemblies assemblies).decls
  have atIndex := congrArg (·[index]?) decls
  simp only [List.getElem?_map] at atIndex
  rw [found, Option.map_some] at atIndex
  exact Option.map_eq_some_iff.mp atIndex

end World

/-- Every type stands behind the one that it is declared in. -/
def World.IsOrdered (world : World) : Prop :=
  ∀ index entry owner, world.entry? index = some entry → entry.owner? = some owner → owner < index

/-- **A world of assemblies is ordered**, whatever the names in them are. -/
theorem World.isOrdered_ofAssemblies (assemblies : List Assembly) :
    (World.ofAssemblies assemblies).IsOrdered := by
  intro index entry owner found belongs
  rcases (laidOut_ofAssemblies assemblies).owner_lt index entry found with
    none | ⟨other, own, -, earlier⟩
  · rw [belongs] at none
    cases none
  · rw [belongs, Option.some.injEq] at own
    rwa [own, ← Nat.zero_add index]

end ExternBindings
