/-
**Well-formed names.**

A listing writes names by the rules below, and the names of a declared type or a reference that was
read keep them.

* `isIdentifier` — a word, with a back quote and digits behind it or nothing;
  `isDottedName` — identifiers with single dots between them.
* `QualifiedName.IsWellNamed` and `TypeReference.IsWellNamed` — all names inside follow the rules,
  and a generic type has arguments.
* `isWord_withoutArity` — what is left of an identifier without its marker is a word.
-/

import ExternBindings.Listing.Token
import ExternBindings.Metadata.TypeReference
import ExternBindings.Proofs.Text.Joined

namespace ExternBindings

open Listing (isWordStart isWordChar)

/-! ### Identifiers -/

/-- Whether characters form a word. -/
def isWord : List Char → Bool
  | [] => false
  | first :: rest => isWordStart first && rest.all isWordChar

/-- Whether characters form an arity marker, or are missing. -/
def isMarker : List Char → Bool
  | [] => true
  | mark :: digits => mark = arityMark && !digits.isEmpty && digits.all Char.isDigit

/-- Whether a text is an identifier: a word and an arity marker, which may be missing. -/
def isIdentifier (text : String) : Bool :=
  isWord (text.toList.takeWhile isWordChar) && isMarker (text.toList.dropWhile isWordChar)

/-- Whether a text consists of identifiers with single dots between them. -/
def isDottedName (text : String) : Bool :=
  (Text.segments '.' text).all isIdentifier

theorem isWordChar_of_isWordStart {char : Char} (starts : isWordStart char = true) :
    isWordChar char = true := by
  unfold isWordStart at starts
  unfold isWordChar Char.isAlphanum
  simp only [Bool.or_eq_true, decide_eq_true_eq] at starts ⊢
  exact starts.imp Or.inl id

theorem isWordChar_arityMark : isWordChar arityMark = false := by
  decide

theorem forall_isWordChar_of_isWord {word : List Char} (spelled : isWord word = true) :
    ∀ char ∈ word, isWordChar char = true := by
  cases word with
  | nil => simp
  | cons first rest =>
    simp only [isWord, Bool.and_eq_true, List.all_eq_true] at spelled
    exact List.forall_mem_cons.mpr ⟨isWordChar_of_isWordStart spelled.1, spelled.2⟩

/-- A marker does not go on with the word in front of it. -/
theorem takeWhile_marker {marker : List Char} (spelled : isMarker marker = true) :
    marker.takeWhile isWordChar = [] := by
  cases marker with
  | nil => rfl
  | cons mark digits =>
    simp only [isMarker, Bool.and_eq_true, decide_eq_true_eq] at spelled
    rw [spelled.1.1]
    exact List.takeWhile_cons_of_neg (by simp [isWordChar_arityMark])

theorem isIdentifier_append {word marker : List Char} (spelled : isWord word = true)
    (marked : isMarker marker = true) : isIdentifier (String.ofList (word ++ marker)) = true := by
  have chars := forall_isWordChar_of_isWord spelled
  unfold isIdentifier
  rw [String.toList_ofList, List.takeWhile_append_of_pos chars,
    List.dropWhile_append_of_pos chars, takeWhile_marker marked, List.append_nil]
  have kept : marker.dropWhile isWordChar = marker := by
    have parts := List.takeWhile_append_dropWhile (p := isWordChar) (l := marker)
    rwa [takeWhile_marker marked, List.nil_append] at parts
  rw [kept, spelled, marked, Bool.and_self]

/-- An identifier is a word and a marker. -/
theorem exists_word_marker {text : String} (identifier : isIdentifier text = true) :
    ∃ word marker, isWord word = true ∧ isMarker marker = true ∧ text.toList = word ++ marker := by
  unfold isIdentifier at identifier
  rw [Bool.and_eq_true] at identifier
  exact ⟨_, _, identifier.1, identifier.2, List.takeWhile_append_dropWhile.symm⟩

/-- The characters of identifiers: those of words, and the back quote. -/
def isNameChar (char : Char) : Bool :=
  isWordChar char || char = arityMark

theorem isDigit_isWordChar {char : Char} (digit : char.isDigit = true) :
    isWordChar char = true := by
  unfold isWordChar Char.isAlphanum
  rw [digit, Bool.or_true, Bool.true_or]

theorem forall_isNameChar {text : String} (identifier : isIdentifier text = true) :
    ∀ char ∈ text.toList, isNameChar char = true := by
  obtain ⟨word, marker, spelled, marked, written⟩ := exists_word_marker identifier
  intro char member
  unfold isNameChar
  rw [Bool.or_eq_true, decide_eq_true_eq]
  rw [written, List.mem_append] at member
  rcases member with member | member
  · exact Or.inl (forall_isWordChar_of_isWord spelled char member)
  · cases marker with
    | nil => cases member
    | cons mark digits =>
      simp only [isMarker, Bool.and_eq_true, decide_eq_true_eq, List.all_eq_true] at marked
      rcases List.mem_cons.mp member with rfl | member
      · exact Or.inr marked.1.1
      · exact Or.inl (isDigit_isWordChar (marked.2 char member))

/-- Characters that leave a mark on paper, among those that references are written with. -/
def isVisible (char : Char) : Bool :=
  33 ≤ char.toNat && char.toNat ≤ 126

theorem isVisible_of_isNameChar {char : Char} (name : isNameChar char = true) :
    isVisible char = true := by
  unfold isNameChar isWordChar Char.isAlphanum Char.isAlpha Char.isUpper Char.isLower Char.isDigit
    at name
  simp only [Bool.or_eq_true, Bool.and_eq_true, decide_eq_true_eq, UInt32.le_iff_toNat_le,
    ge_iff_le] at name
  simp only [isVisible, Bool.and_eq_true, decide_eq_true_eq]
  rcases name with ((((⟨low, high⟩ | ⟨low, high⟩) | ⟨low, high⟩) | rfl) | rfl)
  · exact ⟨Nat.le_trans (by decide) low, Nat.le_trans high (by decide)⟩
  · exact ⟨Nat.le_trans (by decide) low, Nat.le_trans high (by decide)⟩
  · exact ⟨Nat.le_trans (by decide) low, Nat.le_trans high (by decide)⟩
  · decide
  · decide

/-- No separator stands inside of an identifier. -/
theorem not_mem_identifier {text : String} (identifier : isIdentifier text = true) {char : Char}
    (separates : isNameChar char = false) : char ∉ text.toList := by
  intro member
  rw [forall_isNameChar identifier char member] at separates
  cases separates

/-- An identifier without its marker is a word. -/
theorem isWord_withoutArity {text : String} (identifier : isIdentifier text = true) :
    isWord (withoutArity text).toList = true := by
  obtain ⟨word, marker, spelled, marked, written⟩ := exists_word_marker identifier
  have plain : ∀ char ∈ word, (char != arityMark) = true := by
    intro char member
    rw [bne_iff_ne]
    rintro rfl
    have wordChar := forall_isWordChar_of_isWord spelled _ member
    rw [isWordChar_arityMark] at wordChar
    cases wordChar
  have stops : marker.takeWhile (· != arityMark) = [] := by
    cases marker with
    | nil => rfl
    | cons mark digits =>
      simp only [isMarker, Bool.and_eq_true, decide_eq_true_eq] at marked
      simp [marked.1.1]
  unfold withoutArity Text.beforeFirst
  rw [String.toList_ofList, written, List.takeWhile_append_of_pos plain, stops, List.append_nil]
  exact spelled

/-! ### Names of types -/

/-- All parts of the name follow the rules. -/
structure QualifiedName.IsWellNamed (name : QualifiedName) : Prop where
  space : name.space = "" ∨ isDottedName name.space = true
  enclosing : ∀ outer ∈ name.enclosing, isIdentifier outer = true
  own : isIdentifier name.name = true

namespace TypeReference

mutual

/-- All names in the reference follow the rules, and a generic type has arguments. -/
def IsWellNamed : TypeReference → Prop
  | primitive _ => True
  | parameter _ name => isIdentifier name = true
  | array element _ => element.IsWellNamed
  | indirect _ element => element.IsWellNamed
  | instantiation definition arguments =>
    definition.IsWellNamed ∧ arguments ≠ [] ∧ AreWellNamed arguments
  | named name => name.IsWellNamed

/-- All names in all references follow the rules. -/
def AreWellNamed : List TypeReference → Prop
  | [] => True
  | head :: tail => head.IsWellNamed ∧ AreWellNamed tail

end

theorem areWellNamed_iff {references : List TypeReference} :
    AreWellNamed references ↔ ∀ reference ∈ references, reference.IsWellNamed := by
  induction references with
  | nil => simp [AreWellNamed]
  | cons head tail hypothesis => simp [AreWellNamed, hypothesis]

end TypeReference

end ExternBindings
