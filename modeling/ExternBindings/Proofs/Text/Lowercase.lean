/-
**Names in lower case.**

The names of a listing are plain ASCII, so lower case is the letter by letter mapping. It keeps the
characters of names among themselves, and so the dots of a dotted name stay where they are
(`segments_lowercase`).
-/

import ExternBindings.Proofs.Listing.Identifier
import ExternBindings.Text.Lowercase
import Mathlib.Data.List.Basic

namespace ExternBindings.Text

theorem isNameChar_toLower {char : Char} (name : isNameChar char = true) :
    isNameChar char.toLower = true := by
  have all : ∀ code < 128, isNameChar (Char.ofNat code) = true →
      isNameChar (Char.ofNat code).toLower = true := by decide +kernel
  have visible := isVisible_of_isNameChar name
  simp only [isVisible, Bool.and_eq_true, decide_eq_true_eq] at visible
  have taken := all char.toNat (Nat.lt_of_le_of_lt visible.2 (by decide))
  rw [Char.ofNat_toNat] at taken
  exact taken name

theorem isAscii_of_isNameChar {char : Char} (name : isNameChar char = true) :
    char.toNat < 0x80 := by
  have visible := isVisible_of_isNameChar name
  simp only [isVisible, Bool.and_eq_true, decide_eq_true_eq] at visible
  exact Nat.lt_of_le_of_lt visible.2 (by decide)

theorem toList_lowercase {text : String} (ascii : ∀ char ∈ text.toList, char.toNat < 0x80) :
    (lowercase text).toList = text.toList.map Char.toLower := by
  have mapped := lowercase_ofList_ascii ascii
  rw [String.ofList_toList] at mapped
  rw [mapped, String.toList_ofList]

/-- The parts of a dotted name are put in lower case one by one. -/
theorem lowercase_join {parts : List String}
    (spelled : ∀ part ∈ parts, isIdentifier part = true) :
    lowercase (join "." parts) = join "." (parts.map lowercase) := by
  have ascii : ∀ part ∈ parts, ∀ char ∈ part.toList, char.toNat < 0x80 :=
    fun part member char inside =>
      isAscii_of_isNameChar (forall_isNameChar (spelled part member) char inside)
  apply String.toList_injective
  rw [toList_lowercase (forall_mem_join (by simp) ascii)]
  cases parts with
  | nil => rfl
  | cons head tail =>
    rw [List.forall_mem_cons] at ascii
    rw [List.map_cons, toList_join_cons, toList_join_cons, List.map_append,
      toList_lowercase ascii.1, List.flatMap_map, List.map_flatMap]
    congr 1
    refine List.flatMap_congr fun part member => ?_
    rw [List.map_append, toList_lowercase (ascii.2 part member)]
    rfl

/-- **The parts of a dotted name in lower case are its parts in lower case.** -/
theorem segments_lowercase {text : String} (dotted : isDottedName text = true) :
    segments '.' (lowercase text) = (segments '.' text).map lowercase := by
  have spelled : ∀ part ∈ segments '.' text, isIdentifier part = true :=
    List.all_eq_true.mp dotted
  have single : ".".toList = ['.'] := rfl
  have mapped := lowercase_join spelled
  rw [join_segments single] at mapped
  rw [mapped]
  refine segments_join single ?_ (List.forall_mem_map.mpr fun part member inside => ?_)
  · rw [ne_eq, List.map_eq_nil_iff]
    exact segments_ne_nil '.' text
  · have chars := forall_isNameChar (spelled part member)
    rw [toList_lowercase fun char member => isAscii_of_isNameChar (chars char member)] at inside
    obtain ⟨char, charMember, same⟩ := List.mem_map.mp inside
    have name := isNameChar_toLower (chars char charMember)
    rw [same] at name
    exact absurd name (by decide)

/-- A part of a dotted name in lower case is not empty and holds only characters of names. -/
theorem forall_mem_segments_lowercase {text : String} (dotted : isDottedName text = true) :
    ∀ part ∈ segments '.' (lowercase text),
      part ≠ "" ∧ ∀ char ∈ part.toList, isNameChar char = true := by
  rw [segments_lowercase dotted, List.forall_mem_map]
  intro part member
  have identifier : isIdentifier part = true := List.all_eq_true.mp dotted part member
  have chars := forall_isNameChar identifier
  have lowered := toList_lowercase fun char member => isAscii_of_isNameChar (chars char member)
  constructor
  · intro empty
    rw [empty] at lowered
    have none : part.toList = [] := List.map_eq_nil_iff.mp lowered.symm
    obtain ⟨word, marker, spelled, -, written⟩ := exists_word_marker identifier
    rw [none] at written
    rw [(List.append_eq_nil_iff.mp written.symm).1] at spelled
    cases spelled
  · rw [lowered, List.forall_mem_map]
    exact fun char member => isNameChar_toLower (chars char member)

end ExternBindings.Text
