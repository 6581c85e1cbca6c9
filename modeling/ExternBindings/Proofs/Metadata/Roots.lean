/-
**Words and roots of names.**

The root of a name is what its dotted form starts with: the first part of its namespace or, for a
type in no namespace, its outermost raw name without the marker. Names with different roots can be
told apart by their written forms, by their family keys and by their namespaces.

* `QualifiedName.words` — all words that a name is made of, the root among them (`root_mem_words`);
* `QualifiedName.IsRootedIn` — a name in a namespace, with one of the given roots;
  `QualifiedName.IsClearOf` — a name with none of them;
* `IsClearOf.text_ne`, `IsClearOf.familyKey_ne`, `IsClearOf.space_ne` — the former and the latter
  have nothing in common; the types around a type are as clear as itself (`IsClearOf.owner`).
-/

import ExternBindings.Proofs.Listing.Identifier

namespace ExternBindings

namespace QualifiedName

/-- The words that a name is made of: the parts of its namespace, and the raw names of its types with
and without their markers. -/
def words (name : QualifiedName) : List String :=
  Text.segments '.' name.space ++ (name.enclosing ++ [name.name]) ++
    (name.enclosing ++ [name.name]).map withoutArity

/-- What the dotted form of a name starts with. -/
def root (name : QualifiedName) : String :=
  if name.space = "" then name.outermost.bareName else Text.beforeFirst '.' name.space

variable {name other : QualifiedName}

theorem root_mem_words (name : QualifiedName) : name.root ∈ name.words := by
  obtain ⟨space, enclosing, own⟩ := name
  unfold words root
  dsimp only
  split
  · refine List.mem_append_right _ (List.mem_map_of_mem ?_)
    cases enclosing <;> simp [outermost]
  · exact List.mem_append_left _ (List.mem_append_left _ (Text.beforeFirst_mem_segments '.' space))

theorem root_eq_of_space (inside : name.space ≠ "") :
    name.root = Text.beforeFirst '.' name.space :=
  if_neg inside

/-! ### Written forms -/

theorem beforeFirst_text (inside : name.space ≠ "") :
    Text.beforeFirst '.' name.text = name.root := by
  have glued : name.text =
      Text.join "." [name.space, Text.join "/" (name.enclosing ++ [name.name])] := by
    unfold text
    rw [if_neg fun empty => inside (String.isEmpty_iff.mp empty)]
    apply String.toList_injective
    simp [Text.toList_join_cons]
  rw [glued, Text.beforeFirst_join rfl, root_eq_of_space inside]

/-- Only a name in a namespace is written with a dot. -/
theorem mem_text_iff (named : name.IsWellNamed) : '.' ∈ name.text.toList ↔ name.space ≠ "" := by
  unfold text
  by_cases outside : name.space = ""
  · rw [outside]
    refine iff_of_false (fun member => ?_) (fun inside => inside rfl)
    have plain : ∀ char ∈ (Text.join "/" (name.enclosing ++ [name.name])).toList, char ≠ '.' := by
      refine Text.forall_mem_join (by simp) fun part partMember => ?_
      have identifier : isIdentifier part = true := by
        rcases List.mem_append.mp partMember with outer | own
        · exact named.enclosing part outer
        · rw [List.mem_singleton.mp own]
          exact named.own
      rintro char held rfl
      exact not_mem_identifier identifier (by decide) held
    rw [if_pos (by decide), String.empty_append] at member
    exact plain '.' member rfl
  · refine iff_of_true ?_ outside
    rw [if_neg fun empty => outside (String.isEmpty_iff.mp empty)]
    simp

theorem beforeFirst_withoutArity {raw : String} (identifier : isIdentifier raw = true) :
    Text.beforeFirst '.' (withoutArity raw) = withoutArity raw := by
  refine Text.beforeFirst_of_not_mem fun member => ?_
  have wordChar := forall_isWordChar_of_isWord (isWord_withoutArity identifier) '.' member
  exact absurd wordChar (by decide)

/-- The family key of a name starts with its root. -/
theorem beforeFirst_familyKey (named : name.IsWellNamed) :
    Text.beforeFirst '.' name.familyKey = name.root := by
  by_cases outside : name.space = ""
  · obtain ⟨space, enclosing, own⟩ := name
    obtain rfl : space = "" := outside
    unfold familyKey root
    dsimp only
    rw [if_pos (by decide), if_pos rfl, List.nil_append]
    cases enclosing with
    | nil =>
      rw [List.map_nil, List.nil_append, Text.beforeFirst_join rfl]
      exact beforeFirst_withoutArity named.own
    | cons outer rest =>
      rw [List.map_cons, List.cons_append, Text.beforeFirst_join rfl]
      exact beforeFirst_withoutArity (named.enclosing outer List.mem_cons_self)
  · unfold familyKey
    rw [if_neg fun empty => outside (String.isEmpty_iff.mp empty), List.append_assoc,
      List.singleton_append, Text.beforeFirst_join rfl, root_eq_of_space outside]

/-! ### The types around a type -/

theorem exists_of_mem_ownersFrom {space : String} {outer : QualifiedName} :
    ∀ {enclosing around : List String}, outer ∈ ownersFrom space around enclosing →
      ∃ before after, enclosing = before ++ outer.name :: after ∧
        outer.enclosing = around ++ before ∧ outer.space = space
  | head :: rest, around, member => by
    rcases List.mem_cons.mp member with rfl | member
    · exact ⟨[], rest, rfl, (List.append_nil around).symm, rfl⟩
    · obtain ⟨before, after, split, enclosed, spaced⟩ := exists_of_mem_ownersFrom member
      refine ⟨head :: before, after, ?_, ?_, spaced⟩
      · rw [split, List.cons_append]
      · rw [enclosed, List.append_assoc, List.singleton_append]

theorem root_eq_of_mem_owners {outer : QualifiedName} (member : outer ∈ name.owners) :
    outer.root = name.root := by
  obtain ⟨before, after, split, enclosed, spaced⟩ := exists_of_mem_ownersFrom member
  have outermosts : outer.outermost.bareName = name.outermost.bareName := by
    unfold outermost
    rw [enclosed, split]
    cases before <;> rfl
  unfold root
  rw [spaced, outermosts]

theorem IsWellNamed.owner {outer : QualifiedName} (named : name.IsWellNamed)
    (member : outer ∈ name.owners) : outer.IsWellNamed := by
  obtain ⟨before, after, split, enclosed, spaced⟩ := exists_of_mem_ownersFrom member
  refine ⟨spaced ▸ named.space, fun around aroundMember => ?_, ?_⟩
  · rw [enclosed, List.nil_append] at aroundMember
    exact named.enclosing around (split ▸ List.mem_append_left _ aroundMember)
  · exact named.enclosing outer.name (split ▸ List.mem_append_right _ List.mem_cons_self)

/-! ### Names that have nothing in common -/

/-- A well-formed name in a namespace, with one of these roots. -/
structure IsRootedIn (roots : List String) (name : QualifiedName) : Prop where
  wellNamed : name.IsWellNamed
  space : name.space ≠ ""
  root : name.root ∈ roots

/-- A well-formed name with none of these roots. -/
structure IsClearOf (roots : List String) (name : QualifiedName) : Prop where
  wellNamed : name.IsWellNamed
  root : name.root ∉ roots

namespace IsClearOf

variable {roots : List String} {name other : QualifiedName}

theorem owner {outer : QualifiedName} (clear : name.IsClearOf roots)
    (member : outer ∈ name.owners) : outer.IsClearOf roots where
  wellNamed := clear.wellNamed.owner member
  root := by
    rw [root_eq_of_mem_owners member]
    exact clear.root

theorem root_ne (clear : name.IsClearOf roots) (rooted : other.IsRootedIn roots) :
    name.root ≠ other.root := by
  intro same
  refine clear.root ?_
  rw [same]
  exact rooted.root

theorem space_ne (clear : name.IsClearOf roots) (rooted : other.IsRootedIn roots) :
    name.space ≠ other.space := by
  intro same
  have inside : name.space ≠ "" := by
    rw [same]
    exact rooted.space
  refine clear.root_ne rooted ?_
  rw [root_eq_of_space inside, root_eq_of_space rooted.space, same]

theorem text_ne (clear : name.IsClearOf roots) (rooted : other.IsRootedIn roots) :
    name.text ≠ other.text := by
  intro same
  have dotted := (mem_text_iff rooted.wellNamed).mpr rooted.space
  rw [← same] at dotted
  have inside := (mem_text_iff clear.wellNamed).mp dotted
  refine clear.root_ne rooted ?_
  rw [← beforeFirst_text inside, ← beforeFirst_text rooted.space, same]

theorem familyKey_ne (clear : name.IsClearOf roots) (rooted : other.IsRootedIn roots) :
    name.familyKey ≠ other.familyKey := by
  intro same
  refine clear.root_ne rooted ?_
  rw [← beforeFirst_familyKey clear.wellNamed, ← beforeFirst_familyKey rooted.wellNamed, same]

end IsClearOf

end QualifiedName

end ExternBindings
