/-
**Names as texts.**

A written name is its raw names across slashes, the outermost of them behind the namespace. No
identifier holds a dot or a slash, so the parts are found again in the text:

* `QualifiedName.IsWellNamed.segments_text` — the slashes of a well-formed name stand between its raw
  names only;
* `QualifiedName.text_injective` — **no two well-formed names are written alike.**
-/

import ExternBindings.Proofs.Listing.Identifier

namespace ExternBindings

/-- Besides the dots there are only characters of names in a dotted name. -/
theorem not_mem_dottedName {text : String} (dotted : isDottedName text = true) {char : Char}
    (separates : isNameChar char = false) (other : char ≠ '.') : char ∉ text.toList := by
  have chars : ∀ inside ∈ text.toList, inside = '.' ∨ isNameChar inside = true := by
    rw [← Text.join_segments (by rfl : ".".toList = ['.']) text]
    refine Text.forall_mem_join (fun inside member => ?_) fun part member inside insideMember => ?_
    · exact Or.inl (List.mem_singleton.mp member)
    · exact Or.inr (forall_isNameChar (List.all_eq_true.mp dotted part member) inside insideMember)
  intro member
  rcases chars char member with same | name
  · exact other same
  · rw [separates] at name
    cases name

namespace QualifiedName

variable {name other : QualifiedName}

/-- A written name is its raw names across slashes, the first of them behind the namespace. -/
theorem text_eq_join {first : String} {inner : List String}
    (path : name.enclosing ++ [name.name] = first :: inner) :
    name.text = Text.join "/" (Text.behind "." (Text.present? name.space) first :: inner) := by
  apply String.toList_injective
  unfold text
  rw [path, String.toList_append, Text.toList_join_cons, Text.toList_join_cons, ← List.append_assoc,
    ← String.toList_append]
  unfold Text.present? Text.behind
  split
  · rw [String.empty_append]
    rfl
  · rfl

theorem IsWellNamed.isIdentifier_of_path (named : name.IsWellNamed) {first : String}
    {inner : List String} (path : name.enclosing ++ [name.name] = first :: inner) :
    isIdentifier first = true ∧ ∀ own ∈ inner, isIdentifier own = true := by
  have spelled : ∀ own ∈ first :: inner, isIdentifier own = true := by
    rw [← path, List.forall_mem_append, List.forall_mem_singleton]
    exact ⟨named.enclosing, named.own⟩
  exact List.forall_mem_cons.mp spelled

/-- The slashes of a written name stand between its raw names only. -/
theorem IsWellNamed.segments_text (named : name.IsWellNamed) {first : String} {inner : List String}
    (path : name.enclosing ++ [name.name] = first :: inner) :
    Text.segments '/' name.text =
      Text.behind "." (Text.present? name.space) first :: inner := by
  obtain ⟨spelled, spelledInner⟩ := named.isIdentifier_of_path path
  have plain : '/' ∉ first.toList := not_mem_identifier spelled (by decide)
  rw [text_eq_join path]
  refine Text.segments_join rfl (List.cons_ne_nil _ _) (List.forall_mem_cons.mpr ⟨?_, ?_⟩)
  · unfold Text.present?
    split
    · exact plain
    · next present =>
      have dotted := named.space.resolve_left fun empty => present (String.isEmpty_iff.mpr empty)
      have slash : '/' ∉ name.space.toList :=
        not_mem_dottedName dotted (by decide) (by decide)
      unfold Text.behind
      rw [Option.elim_some, String.toList_append, String.toList_append, List.mem_append,
        List.mem_append]
      exact not_or.mpr ⟨not_or.mpr ⟨slash, by decide⟩, plain⟩
  · exact fun own member => not_mem_identifier (spelledInner own member) (by decide)

/-- **No two well-formed names are written alike.** -/
theorem text_injective (named : name.IsWellNamed) (namedToo : other.IsWellNamed)
    (same : name.text = other.text) : name = other := by
  obtain ⟨first, inner, path⟩ := List.exists_cons_of_ne_nil
    (List.append_ne_nil_of_right_ne_nil name.enclosing (List.cons_ne_nil name.name []))
  obtain ⟨firstToo, innerToo, pathToo⟩ := List.exists_cons_of_ne_nil
    (List.append_ne_nil_of_right_ne_nil other.enclosing (List.cons_ne_nil other.name []))
  have cut := congrArg (Text.segments '/') same
  rw [named.segments_text path, namedToo.segments_text pathToo, List.cons.injEq,
    Text.behind_eq_iff rfl
      (not_mem_identifier (named.isIdentifier_of_path path).1 (by decide))
      (not_mem_identifier (namedToo.isIdentifier_of_path pathToo).1 (by decide)),
    Text.present?_inj] at cut
  obtain ⟨⟨space, rfl⟩, rfl⟩ := cut
  obtain ⟨enclosing, own⟩ := List.append_inj' (path.trans pathToo.symm) rfl
  obtain ⟨nameSpace, nameEnclosing, nameOwn⟩ := name
  obtain rfl : nameSpace = other.space := space
  obtain rfl : nameEnclosing = other.enclosing := enclosing
  obtain rfl : nameOwn = other.name := List.singleton_inj.mp own
  rfl

end QualifiedName

end ExternBindings
