/-
**The identifiers that a declaration introduces.**

* `Declaration.annotation` — the line of marks in front of a declaration;
* `Declaration.Introduces` — behind it stand `extern`, the word for the kind, and an identifier; the
  text leaves no choice which one (`introduces_unique`);
* `Declaration.parts` — a companion is written like a class of its own, and then each part of a
  declaration introduces one of its identifiers (`forall₂_introduces_parts`);
* `introduces_flatName` — for a declared type it is the flat name.
-/

import ExternBindings.Output.Declaring
import ExternBindings.Proofs.Listing.Lexing
import ExternBindings.Proofs.Output.Files

namespace ExternBindings

open Listing (isWordChar HeadAvoids headAvoids_nil headAvoids_cons headAvoids_flatMap
  takeWhile_append_avoids)

namespace Declaration

/-- The line of marks in front of the declaration. -/
def annotation : Declaration → String
  | enumeration declaration =>
    line ["@:fakeEnum(", declaration.storage.text, ") ", runtimeMark declaration.runtimeName]
  | classLike declaration =>
    line [runtimeMark declaration.runtimeName, if declaration.isFinal then " @:final" else ""]

/-- The words for the kinds of declarations. -/
def kindWords : List String :=
  ["class", "interface", "enum"]

/-- Behind its marks the declaration goes on with `extern`, a word for its kind and the
identifier. -/
def Introduces (declaration : Declaration) (identifier : String) : Prop :=
  ∃ kind ∈ kindWords, ∃ rest,
    declaration.text = declaration.annotation ++ "extern " ++ kind ++ " " ++ identifier ++ rest ∧
    identifier ≠ "" ∧ (∀ char ∈ identifier.toList, isWordChar char = true) ∧
    HeadAvoids isWordChar rest.toList

/-- **The text of a declaration determines the identifier.** -/
theorem introduces_unique {declaration : Declaration} {first second : String}
    (introduces : declaration.Introduces first) (introducesToo : declaration.Introduces second) :
    first = second := by
  have wordChars : (kindWords.all fun kind => kind.toList.all isWordChar) = true := by decide
  have kindChars : ∀ kind ∈ kindWords, ∀ char ∈ kind.toList, isWordChar char = true :=
    fun kind member => List.all_eq_true.mp (List.all_eq_true.mp wordChars kind member)
  have blank (text : List Char) : HeadAvoids isWordChar (" ".toList ++ text) :=
    headAvoids_cons (by decide) text
  obtain ⟨kind, kindMember, rest, written, -, chars, stops⟩ := introduces
  obtain ⟨other, otherMember, more, writtenToo, -, charsToo, stopsToo⟩ := introducesToo
  have same := congrArg String.toList (written.symm.trans writtenToo)
  simp only [String.toList_append, List.append_assoc, List.append_cancel_left_eq] at same
  -- the word for the kind ends at the same blank in both readings, and the identifier behind it
  have afterKind := congrArg (List.dropWhile isWordChar) same
  rw [(takeWhile_append_avoids (kindChars kind kindMember) (blank _)).2,
    (takeWhile_append_avoids (kindChars other otherMember) (blank _)).2] at afterKind
  have behind := congrArg (List.takeWhile isWordChar) (List.append_cancel_left afterKind)
  rw [(takeWhile_append_avoids chars stops).1, (takeWhile_append_avoids charsToo stopsToo).1]
    at behind
  exact String.toList_injective behind

theorem introduces_enumeration {declaration : EnumDeclaration} (present : declaration.name ≠ "")
    (chars : ∀ char ∈ declaration.name.toList, isWordChar char = true) :
    (enumeration declaration).Introduces declaration.name := by
  refine ⟨"enum", by decide, " \x7b\n" ++ (Text.join "" (declaration.tags.map fun tag =>
    line ["  ", tag, ";"]) ++ closing), ?_, present, chars, ?_⟩
  · apply String.toList_injective
    have word : "extern enum ".toList = "extern ".toList ++ "enum".toList ++ " ".toList := rfl
    have brace : " \x7b\n".toList = " \x7b".toList ++ "\n".toList := rfl
    unfold text EnumDeclaration.text annotation line
    simp only [String.toList_append, Text.toList_join_empty, List.flatMap_cons, List.flatMap_nil,
      List.append_assoc, List.append_nil, word, brace]
  · rw [String.toList_append]
    exact headAvoids_cons (by decide) _

end Declaration

namespace ClassDeclaration

variable (declaration : ClassDeclaration)

theorem headAvoids_genericText : HeadAvoids isWordChar declaration.genericText.toList := by
  unfold genericText
  split
  · exact headAvoids_nil _
  · rw [String.toList_append, String.toList_append]
    exact headAvoids_cons (by decide) _

theorem headAvoids_inheritanceText :
    HeadAvoids isWordChar declaration.inheritanceText.toList := by
  have extension (back : String) : HeadAvoids isWordChar (" extends " ++ back).toList := by
    rw [String.toList_append]
    exact headAvoids_cons (by decide) _
  have implementation (back : String) : HeadAvoids isWordChar (" implements " ++ back).toList := by
    rw [String.toList_append]
    exact headAvoids_cons (by decide) _
  unfold inheritanceText
  dsimp only
  rw [String.toList_append, Text.toList_join_empty]
  refine HeadAvoids.append ?_ (headAvoids_flatMap (List.forall_mem_map.mpr fun type _ => ?_))
  · cases declaration.base? with
    | none => exact headAvoids_nil _
    | some base => exact extension base.text
  · split
    · exact extension type.text
    · exact implementation type.text

theorem introduces_name (present : declaration.name ≠ "")
    (chars : ∀ char ∈ declaration.name.toList, isWordChar char = true) :
    (Declaration.classLike declaration).Introduces declaration.name := by
  have behind : HeadAvoids isWordChar (declaration.genericText ++ (declaration.inheritanceText ++
      (" \x7b\n" ++ (declaration.membersText ++ closing ++
        declaration.methods.companion?.elim "" declaration.companionText)))).toList := by
    simp only [String.toList_append]
    exact declaration.headAvoids_genericText.append
      (declaration.headAvoids_inheritanceText.append (headAvoids_cons (by decide) _))
  have classWord : "class ".toList = "class".toList ++ " ".toList := rfl
  have interfaceWord : "interface ".toList = "interface".toList ++ " ".toList := rfl
  have brace : " \x7b\n".toList = " \x7b".toList ++ "\n".toList := rfl
  refine ⟨if declaration.isInterface then "interface" else "class", ?_, _, ?_, present, chars,
    behind⟩
  · split <;> decide
  · apply String.toList_injective
    show declaration.text.toList = _
    unfold text ownText Declaration.annotation line
    by_cases kind : declaration.isInterface = true
    · simp only [kind, if_true, String.toList_append, Text.toList_join_empty, List.flatMap_cons,
        List.flatMap_nil, List.append_assoc, List.append_nil, interfaceWord, brace]
    · simp only [kind, if_false, Bool.false_eq_true, String.toList_append, Text.toList_join_empty,
        List.flatMap_cons, List.flatMap_nil, List.append_assoc, List.append_nil, classWord, brace]

/-! ### Companions -/

/-- The class or interface without its companion. -/
def withoutCompanion : ClassDeclaration :=
  { declaration with methods := { declaration.methods with companion? := none } }

/-- The companion with these functions, as a class of its own. -/
def companion (functions : List FunctionGroup) : ClassDeclaration where
  runtimeName := declaration.runtimeName
  isInterface := false
  isFinal := true
  name := declaration.companionName
  genericParameters := []
  base? := none
  interfaces := []
  events := []
  fields := []
  properties := []
  methods := { primary := functions, companion? := none }

theorem text_withoutCompanion : declaration.withoutCompanion.text = declaration.ownText :=
  String.append_empty

/-- A companion is written like a class. -/
theorem text_companion (functions : List FunctionGroup) :
    (declaration.companion functions).text = declaration.companionText functions := by
  apply String.toList_injective
  have words : "extern class ".toList = "extern ".toList ++ "class ".toList := rfl
  unfold text ownText companionText membersText companion genericText inheritanceText line
  simp only [String.toList_append, Text.toList_join_empty, List.flatMap_cons, List.flatMap_nil,
    List.map_nil, List.append_assoc, List.append_nil, List.nil_append, List.isEmpty_nil, if_true,
    Bool.false_eq_true, if_false, Option.elim_none, String.toList_empty, words]

end ClassDeclaration

namespace Declaration

/-- The declaration and its companion, each by itself. -/
def parts : Declaration → List Declaration
  | enumeration declaration => [enumeration declaration]
  | classLike declaration =>
    classLike declaration.withoutCompanion ::
      (declaration.methods.companion?.map fun functions =>
        classLike (declaration.companion functions)).toList

/-- The text of a declaration is that of its parts. -/
theorem text_eq_join_parts (declaration : Declaration) :
    declaration.text = Text.join "" (declaration.parts.map text) := by
  apply String.toList_injective
  rw [Text.toList_join_empty]
  cases declaration with
  | enumeration declaration => exact (List.append_nil _).symm
  | classLike declaration =>
    have whole : (classLike declaration).text = declaration.ownText ++
        declaration.methods.companion?.elim "" declaration.companionText := rfl
    have own : (classLike declaration.withoutCompanion).text = declaration.ownText :=
      declaration.text_withoutCompanion
    have beside (functions : List FunctionGroup) :
        (classLike (declaration.companion functions)).text = declaration.companionText functions :=
      declaration.text_companion functions
    unfold parts
    rw [whole, String.toList_append, List.map_cons, List.flatMap_cons, own]
    cases declaration.methods.companion? with
    | none => rfl
    | some functions =>
      rw [Option.map_some, Option.toList_some, List.map_singleton, List.flatMap_singleton, beside]
      rfl

/-- **Each part of a declaration introduces one of its identifiers.** -/
theorem forall₂_introduces_parts {declaration : Declaration}
    (spelled : ∀ identifier ∈ declaration.identifiers,
      identifier ≠ "" ∧ ∀ char ∈ identifier.toList, isWordChar char = true) :
    List.Forall₂ Introduces declaration.parts declaration.identifiers := by
  cases declaration with
  | enumeration declaration =>
    obtain ⟨present, chars⟩ := spelled declaration.name (List.mem_singleton_self _)
    exact .cons (introduces_enumeration present chars) .nil
  | classLike declaration =>
    obtain ⟨present, chars⟩ := spelled declaration.name List.mem_cons_self
    refine .cons (declaration.withoutCompanion.introduces_name present chars) ?_
    cases companion : declaration.methods.companion? with
    | none => exact .nil
    | some functions =>
      have listed : (classLike declaration).identifiers =
          [declaration.name, declaration.companionName] := by
        show declaration.name :: (if declaration.methods.companion?.isSome then _ else _) = _
        rw [companion]
        rfl
      obtain ⟨present, chars⟩ := spelled declaration.companionName (by simp [listed])
      exact .cons ((declaration.companion functions).introduces_name present chars) .nil

end Declaration

namespace Catalog

variable {catalog : Catalog}

/-- **The declaration of a type introduces its flat name.** -/
theorem introduces_flatName {site : Site} {index : TypeIndex} {decl : TypeDecl}
    {declaration : Declaration} (named : decl.name.IsWellNamed)
    (declared : catalog.declaration site index decl = .ok declaration) :
    declaration.Introduces (catalog.world.flatName decl.name) := by
  have present : catalog.world.flatName decl.name ≠ "" := World.flatName_ne_empty named none
  have chars : ∀ char ∈ (catalog.world.flatName decl.name).toList, isWordChar char = true :=
    World.forall_mem_flatName named none
  unfold Catalog.declaration at declared
  split at declared
  · obtain ⟨enumeration, found, rfl⟩ := map_eq_ok.mp declared
    unfold enumDeclaration at found
    split at found
    · cases found
    · cases found
      exact Declaration.introduces_enumeration present chars
  · obtain ⟨classLike, found, rfl⟩ := map_eq_ok.mp declared
    obtain ⟨events, -, whole⟩ := bind_eq_ok.mp found
    cases whole
    exact ClassDeclaration.introduces_name _ present chars

end Catalog

end ExternBindings
