/-
**Written names are read back.**

* `reads_rawIdentifier`, `reads_gluedIdentifiers` — an identifier, and identifiers behind
  separators, are taken whole when the text behind them cannot go on with them (`HeadAvoids`);
* `exists_identifiers` — the written form of a well-formed name is a dotted run of identifiers and a
  run of identifiers behind slashes;
* `reads_typePath` — **the written form of a well-formed name is read as that name**, and by
  `yields_typePath` every name that is read is well-formed.
-/

import ExternBindings.Listing.Name
import ExternBindings.Proofs.Listing.Answers
import ExternBindings.Proofs.Listing.Lexing

namespace ExternBindings.Listing

open Reading

/-! ### Tokens that touch -/

/-- What a token that touches the one before it starts with. -/
theorem lexeme_of_isGlued {edge : Nat} {text : List Char} {token : Token} {others : List Token}
    (cut : tokensAfter edge text = token :: others) (touching : token.isGlued = true) :
    (text = [] ∧ token.lexeme = .finish) ∨
      ∃ char rest, text = char :: rest ∧ token.lexeme = (Lexeme.split char rest).1 := by
  obtain ⟨lexeme, rest, same⟩ :=
    exists_tokensBehind edge (splitLayout text).1 (splitLayout text).2
  have head : token = { edge, layout := (splitLayout text).1, lexeme } := by
    unfold tokensAfter at cut
    rw [same] at cut
    exact (List.cons.inj cut).1.symm
  have noGap : (splitLayout text).1 = [] := by
    rw [head] at touching
    exact List.isEmpty_iff.mp touching
  have whole : (splitLayout text).2 = text := by
    have parts := splitLayout_append text
    rwa [noGap, List.nil_append] at parts
  rw [head]
  rw [noGap, whole] at same
  cases text with
  | nil =>
    rw [tokensBehind_nil] at same
    refine Or.inl ⟨rfl, ?_⟩
    exact (congrArg Token.lexeme (List.cons.inj same).1).symm
  | cons char more =>
    rw [tokensBehind_cons] at same
    refine Or.inr ⟨char, more, rfl, ?_⟩
    exact (congrArg Token.lexeme (List.cons.inj same).1).symm

/-- A lexeme that is one character starts with it, and a marker starts with the back quote. -/
theorem split_eq_mark {char other : Char} {rest : List Char}
    (same : (Lexeme.split char rest).1 = .mark other) : char = other := by
  unfold Lexeme.split at same
  split at same
  · cases same
  · split at same
    · cases same
    · exact Lexeme.mark.inj same

theorem split_eq_arity {char : Char} {rest : List Char} {digits : String}
    (same : (Lexeme.split char rest).1 = .arity digits) : char = arityMark := by
  unfold Lexeme.split at same
  split at same
  · cases same
  · split at same
    · next marked => exact marked.1
    · cases same

/-- Nothing that touches is taken when the text starts with none of it. -/
theorem refuses_glued_accept {α : Type} {choose : Lexeme → Option α} {edge : Nat}
    {text : List Char} (notFinish : choose .finish = none)
    (avoids : ∀ char rest, text = char :: rest → choose (Lexeme.split char rest).1 = none) :
    Refuses (do glued; accept choose) (tokensAfter edge text) := by
  rcases reads_or_refuses glued (tokensAfter edge text) with ⟨value, rest, taken⟩ | refused
  · obtain ⟨rfl, token, others, cut, touching⟩ := reads_glued.mp taken
    refine refuses_bind.mpr (Or.inr ⟨value, _, taken, refuses_accept.mpr ?_⟩)
    intro next further same
    rw [cut] at same
    obtain ⟨rfl, rfl⟩ := List.cons.inj same
    rcases lexeme_of_isGlued cut touching with ⟨-, finished⟩ | ⟨char, more, starts, split⟩
    · rw [finished, notFinish]
    · rw [split, avoids char more starts]
  · exact refuses_bind.mpr (Or.inl refused)

theorem splitLayout_of_not_space {char : Char} {rest : List Char} (solid : isSpace char = false)
    (noComment : ¬ (char = '/' ∧ rest.head? = some '/')) :
    splitLayout (char :: rest) = ([], char :: rest) := by
  unfold splitLayout splitLayoutFrom
  simp only [solid, Bool.false_eq_true, if_false, if_neg noComment]

/-! ### Identifiers -/

theorem reads_word (edge : Nat) (gap : List Char) {chars rest : List Char}
    (spelled : isWord chars = true) (avoids : HeadAvoids isWordChar rest) :
    Reads word (tokensBehind edge gap (chars ++ rest)) (String.ofList chars)
      (tokensAfter (edge + byteSize gap + byteSize chars) rest) := by
  rw [tokensBehind_word edge gap spelled avoids]
  exact reads_accept.mpr ⟨_, rfl, rfl⟩

theorem refuses_arityMarker (edge : Nat) {rest : List Char} (avoids : HeadAvoids isNameChar rest) :
    Refuses (do glued; arityMarker) (tokensAfter edge rest) := by
  refine refuses_glued_accept rfl fun char more starts => ?_
  have refused := avoids char (by rw [starts]; rfl)
  split
  · next digits same =>
    rw [split_eq_arity same] at refused
    exact absurd refused (by decide)
  · rfl

theorem reads_arityMarker (edge : Nat) {digits rest : List Char} (present : digits ≠ [])
    (spelled : ∀ char ∈ digits, char.isDigit = true) (avoids : HeadAvoids isNameChar rest) :
    Reads (do glued; arityMarker) (tokensAfter edge (arityMark :: digits ++ rest))
      (String.singleton arityMark ++ String.ofList digits)
      (tokensAfter (edge + byteSize (arityMark :: digits)) rest) := by
  have noDigit : HeadAvoids Char.isDigit rest := by
    refine avoids.mono fun char digit => ?_
    rw [isNameChar, isDigit_isWordChar digit, Bool.true_or]
  have cut := tokensBehind_arity edge [] present spelled noDigit
  rw [List.cons_append, tokensAfter_solid edge (by decide), ← List.cons_append, cut]
  exact (reads_glued_cons rfl).bind (reads_accept.mpr ⟨_, rfl, rfl⟩)

theorem reads_rawIdentifier (edge : Nat) (gap : List Char) {text : String} {rest : List Char}
    (identifier : isIdentifier text = true) (avoids : HeadAvoids isNameChar rest) :
    Reads rawIdentifier (tokensBehind edge gap (text.toList ++ rest)) text
      (tokensAfter (edge + byteSize gap + byteSize text.toList) rest) := by
  have noWord : HeadAvoids isWordChar rest :=
    avoids.mono fun char wordChar => by rw [isNameChar, wordChar, Bool.true_or]
  obtain ⟨word, marker, spelled, marked, written⟩ := exists_word_marker identifier
  cases marker with
  | nil =>
    rw [List.append_nil] at written
    have base := reads_word edge gap spelled noWord
    rw [written]
    refine base.bind ((refuses_arityMarker _ avoids).maybe.bind ?_)
    refine reads_pure.mpr ⟨String.toList_injective ?_, rfl⟩
    simp [written]
  | cons mark digits =>
    simp only [isMarker, Bool.and_eq_true, decide_eq_true_eq, Bool.not_eq_true',
      List.all_eq_true] at marked
    obtain ⟨⟨rfl, present⟩, digital⟩ := marked
    have avoidsMark : HeadAvoids isWordChar (arityMark :: digits ++ rest) :=
      headAvoids_cons isWordChar_arityMark _
    have base := reads_word edge gap spelled avoidsMark
    have number := reads_arityMarker (edge + byteSize gap + byteSize word)
      (List.isEmpty_eq_false_iff.mp present) digital avoids
    rw [written, List.append_assoc, byteSize_append, ← Nat.add_assoc]
    refine base.bind (number.maybe.bind ?_)
    refine reads_pure.mpr ⟨String.toList_injective ?_, rfl⟩
    simp [written]

theorem exists_head_identifier {text : String} (identifier : isIdentifier text = true) :
    ∃ first more, text.toList = first :: more ∧ isWordStart first = true := by
  obtain ⟨word, marker, spelled, -, written⟩ := exists_word_marker identifier
  cases word with
  | nil => cases spelled
  | cons first word =>
    rw [isWord, Bool.and_eq_true] at spelled
    exact ⟨first, word ++ marker, written, spelled.1⟩

/-- No layout stands in front of an identifier at the head of a text. -/
theorem tokensAfter_identifier (edge : Nat) {text : String} (identifier : isIdentifier text = true)
    (rest : List Char) :
    tokensAfter edge (text.toList ++ rest) = tokensBehind edge [] (text.toList ++ rest) := by
  obtain ⟨first, more, written, starts⟩ := exists_head_identifier identifier
  rw [written, List.cons_append,
    tokensAfter_solid edge (isSolid_of_isWordChar (isWordChar_of_isWordStart starts))]

theorem reads_gluedIdentifier (edge : Nat) {text : String} {rest : List Char}
    (identifier : isIdentifier text = true) (avoids : HeadAvoids isNameChar rest) :
    Reads (do glued; rawIdentifier) (tokensAfter edge (text.toList ++ rest)) text
      (tokensAfter (edge + byteSize text.toList) rest) := by
  have own := reads_rawIdentifier edge [] identifier avoids
  rw [tokensAfter_identifier edge identifier]
  obtain ⟨lexeme, others, head⟩ := exists_tokensBehind edge [] (text.toList ++ rest)
  rw [head] at own ⊢
  exact (reads_glued_cons rfl).bind own

/-! ### Identifiers behind separators -/

/-- A character that can stand between identifiers: it belongs to none, and it is no space. -/
def isSeparator (char : Char) : Bool :=
  !isNameChar char && !isSpace char

/-- One more identifier behind a separator, with everything touching. -/
def separatedIdentifier (separator : Char) : Reading String := do
  glued
  mark separator
  glued
  rawIdentifier

theorem reads_separatedIdentifier (edge : Nat) {separator : Char} {text : String}
    {rest : List Char} (separates : isSeparator separator = true)
    (identifier : isIdentifier text = true) (avoids : HeadAvoids isNameChar rest) :
    Reads (separatedIdentifier separator) (tokensAfter edge (separator :: text.toList ++ rest))
      text (tokensAfter (edge + byteSize (separator :: text.toList)) rest) := by
  simp only [isSeparator, Bool.and_eq_true, Bool.not_eq_true'] at separates
  have noComment : ¬ (separator = '/' ∧ (text.toList ++ rest).head? = some '/') := by
    obtain ⟨first, more, written, starts⟩ := exists_head_identifier identifier
    rintro ⟨-, same⟩
    rw [written, List.cons_append, List.head?_cons, Option.some.injEq] at same
    rw [same] at starts
    exact absurd starts (by decide)
  have cut : tokensAfter edge (separator :: text.toList ++ rest) =
      tokensBehind edge [] (separator :: (text.toList ++ rest)) := by
    unfold tokensAfter
    rw [List.cons_append, splitLayout_of_not_space separates.2 noComment]
  have size : byteSize (separator :: text.toList) = byteSize [separator] + byteSize text.toList :=
    byteSize_append [separator] text.toList
  rw [cut, tokensBehind_mark edge [] _ separates.1, size, ← Nat.add_assoc]
  have own := reads_gluedIdentifier (edge + byteSize [separator]) identifier avoids
  exact (reads_glued_cons rfl).bind ((reads_mark_cons rfl).bind own)

theorem refuses_separatedIdentifier (edge : Nat) {separator : Char} {rest : List Char}
    (avoids : HeadAvoids (· = separator) rest) :
    Refuses (separatedIdentifier separator) (tokensAfter edge rest) := by
  have noMark : Refuses (do glued; mark separator) (tokensAfter edge rest) := by
    refine refuses_glued_accept rfl fun char more starts => if_neg fun same => ?_
    have different := avoids char (by rw [starts]; rfl)
    rw [split_eq_mark same] at different
    simp at different
  rcases refuses_bind.mp noMark with refused | ⟨_, left, touching, refused⟩
  · exact refuses_bind.mpr (Or.inl refused)
  · exact refuses_bind.mpr (Or.inr ⟨_, left, touching, refuses_bind.mpr (Or.inl refused)⟩)

theorem yields_rawIdentifier :
    Yields Lexeme.IsLawful rawIdentifier fun text => isIdentifier text = true := by
  have readWord : Yields Lexeme.IsLawful word fun text => isWord text.toList = true := by
    refine Yields.accept fun lexeme text lawful chosen => ?_
    cases lexeme <;> cases chosen
    exact lawful
  have readMarker : Yields Lexeme.IsLawful arityMarker fun text => isMarker text.toList = true := by
    refine Yields.accept fun lexeme text lawful chosen => ?_
    cases lexeme <;> cases chosen
    simpa [isMarker, Lexeme.IsLawful] using lawful
  refine readWord.bind fun base spelled => ?_
  refine (Yields.glued.bind fun _ _ => readMarker).maybe.bind fun marker? marked => ?_
  refine Yields.pure ?_
  have written : base ++ marker?.getD "" =
      String.ofList (base.toList ++ (marker?.getD "").toList) := by
    rw [String.ofList_append, String.ofList_toList, String.ofList_toList]
  rw [written]
  refine isIdentifier_append spelled ?_
  cases marker? with
  | none => rfl
  | some marker => exact marked marker rfl

theorem yields_separatedIdentifier (separator : Char) :
    Yields Lexeme.IsLawful (separatedIdentifier separator) fun text => isIdentifier text = true :=
  Yields.glued.bind fun _ _ => (Yields.mark separator).bind fun _ _ =>
    Yields.glued.bind fun _ _ => yields_rawIdentifier

theorem advances_separatedIdentifier (separator : Char) :
    Advances Lexeme.IsLawful (separatedIdentifier separator) :=
  Advances.bindRight Yields.glued fun _ => Advances.accept.bind (Yields.mark separator) fun _ =>
    Yields.glued.bind fun _ _ => yields_rawIdentifier

/-- Identifiers as they are written, each behind the separator. -/
def writtenBehind (separator : Char) (identifiers : List String) : List Char :=
  identifiers.flatMap fun text => separator :: text.toList

theorem chain_separatedIdentifier {separator : Char} (separates : isSeparator separator = true)
    {rest : List Char} (avoids : HeadAvoids isNameChar rest) :
    ∀ (edge : Nat) {identifiers : List String}, (∀ text ∈ identifiers, isIdentifier text = true) →
      Chain (separatedIdentifier separator)
        (tokensAfter edge (writtenBehind separator identifiers ++ rest)) identifiers
        (tokensAfter (edge + byteSize (writtenBehind separator identifiers)) rest)
  | edge, [], _ => Chain.done _
  | edge, head :: tail, spelled => by
    rw [List.forall_mem_cons] at spelled
    have stops : HeadAvoids isNameChar (writtenBehind separator tail ++ rest) := by
      cases tail with
      | nil => exact avoids
      | cons next others =>
        simp only [isSeparator, Bool.and_eq_true, Bool.not_eq_true'] at separates
        exact headAvoids_cons separates.1 _
    have first := reads_separatedIdentifier edge separates spelled.1 stops
    have further := chain_separatedIdentifier separates avoids
      (edge + byteSize (separator :: head.toList)) spelled.2
    have written : writtenBehind separator (head :: tail) =
        separator :: head.toList ++ writtenBehind separator tail :=
      List.flatMap_cons
    rw [written, List.append_assoc, byteSize_append, ← Nat.add_assoc]
    refine Chain.step first ?_ further
    exact advances_separatedIdentifier separator isLawful_of_mem_tokensBehind first

/-- **Identifiers behind separators are taken whole.** -/
theorem reads_gluedIdentifiers (edge : Nat) {separator : Char} {identifiers : List String}
    {rest : List Char} (separates : isSeparator separator = true)
    (spelled : ∀ text ∈ identifiers, isIdentifier text = true)
    (avoids : HeadAvoids (fun char => isNameChar char || char = separator) rest) :
    Reads (gluedIdentifiers separator)
      (tokensAfter edge (writtenBehind separator identifiers ++ rest)) identifiers
      (tokensAfter (edge + byteSize (writtenBehind separator identifiers)) rest) := by
  have noName : HeadAvoids isNameChar rest :=
    avoids.mono fun char name => by rw [name, Bool.true_or]
  have noSeparator : HeadAvoids (· = separator) rest :=
    avoids.mono fun char same => by rw [same, Bool.or_true]
  exact reads_many (chain_separatedIdentifier separates noName edge spelled)
    (refuses_separatedIdentifier _ noSeparator)

theorem yields_gluedIdentifiers (separator : Char) :
    Yields Lexeme.IsLawful (gluedIdentifiers separator)
      fun identifiers => ∀ text ∈ identifiers, isIdentifier text = true :=
  (yields_separatedIdentifier separator).many

theorem yields_rawDottedName :
    Yields Lexeme.IsLawful rawDottedName
      fun identifiers => identifiers ≠ [] ∧ ∀ text ∈ identifiers, isIdentifier text = true :=
  yields_rawIdentifier.bind fun head spelled => (yields_gluedIdentifiers '.').bind fun tail all =>
    Yields.pure ⟨List.cons_ne_nil head tail, List.forall_mem_cons.mpr ⟨spelled, all⟩⟩

/-! ### Names of types -/

theorem isDottedName_join {identifiers : List String} (present : identifiers ≠ [])
    (spelled : ∀ text ∈ identifiers, isIdentifier text = true) :
    isDottedName (Text.join "." identifiers) = true := by
  have absent : ∀ text ∈ identifiers, '.' ∉ text.toList := fun text member =>
    not_mem_identifier (spelled text member) (by decide)
  unfold isDottedName
  rw [Text.segments_join rfl present absent, List.all_eq_true]
  exact spelled

theorem isWellNamed_ofIdentifiers {identifiers : List String} (present : identifiers ≠ [])
    (spelled : ∀ text ∈ identifiers, isIdentifier text = true) :
    (QualifiedName.ofIdentifiers identifiers).IsWellNamed := by
  refine ⟨?_, fun outer member => absurd member List.not_mem_nil, ?_⟩
  · by_cases alone : identifiers.dropLast = []
    · left
      unfold QualifiedName.ofIdentifiers
      rw [alone]
      rfl
    · exact Or.inr (isDottedName_join alone fun text member =>
        spelled text (List.dropLast_subset _ member))
  · unfold QualifiedName.ofIdentifiers
    rw [List.getLast?_eq_some_getLast present]
    exact spelled _ (List.getLast_mem present)

theorem isWellNamed_inside {outer : QualifiedName} {name : String} (named : outer.IsWellNamed)
    (identifier : isIdentifier name = true) : (outer.inside name).IsWellNamed := by
  refine ⟨named.space, fun other member => ?_, identifier⟩
  rcases List.mem_append.mp member with member | member
  · exact named.enclosing other member
  · rw [List.mem_singleton.mp member]
    exact named.own

theorem isWellNamed_foldl_inside {identifiers : List String} :
    ∀ {outer : QualifiedName}, outer.IsWellNamed →
      (∀ text ∈ identifiers, isIdentifier text = true) →
      (identifiers.foldl QualifiedName.inside outer).IsWellNamed := by
  induction identifiers with
  | nil => exact fun named _ => named
  | cons head tail hypothesis =>
    intro outer named spelled
    rw [List.forall_mem_cons] at spelled
    exact hypothesis (isWellNamed_inside named spelled.1) spelled.2

/-- **A name that was read is well-formed.** -/
theorem yields_typePath : Yields Lexeme.IsLawful typePath QualifiedName.IsWellNamed := by
  refine Yields.attempt (yields_rawDottedName.bind fun top both => ?_)
  refine (yields_gluedIdentifiers '/').bind fun inner spelled => Yields.pure ?_
  exact isWellNamed_foldl_inside (isWellNamed_ofIdentifiers both.1 both.2) spelled

theorem foldl_inside (space : String) :
    ∀ (inner around : List String) (name : String) {enclosing : List String} {last : String},
      around ++ name :: inner = enclosing ++ [last] →
      inner.foldl QualifiedName.inside { space, enclosing := around, name } =
        { space, enclosing, name := last }
  | [], around, name, enclosing, last, same => by
    obtain ⟨rfl, tail⟩ := List.append_inj' same rfl
    obtain rfl := List.singleton_inj.mp tail
    rfl
  | next :: inner, around, name, enclosing, last, same => by
    refine foldl_inside space inner (around ++ [name]) next ?_
    rw [← same, List.append_assoc, List.singleton_append]

/-- The identifiers of a written name: a first one, others across dots, and others across
slashes. -/
theorem exists_identifiers {name : QualifiedName} (named : name.IsWellNamed) :
    ∃ head tail inner,
      (∀ text ∈ head :: tail ++ inner, isIdentifier text = true) ∧
      name.text.toList = head.toList ++ (writtenBehind '.' tail ++ writtenBehind '/' inner) ∧
      inner.foldl QualifiedName.inside (QualifiedName.ofIdentifiers (head :: tail)) = name := by
  obtain ⟨space, enclosing, own⟩ := name
  obtain ⟨first, inner, path⟩ : ∃ first inner, enclosing ++ [own] = first :: inner :=
    List.exists_cons_of_ne_nil (List.append_ne_nil_of_right_ne_nil _ (List.cons_ne_nil _ _))
  have spelled : ∀ text ∈ first :: inner, isIdentifier text = true := by
    rw [← path, List.forall_mem_append]
    exact ⟨named.enclosing, List.forall_mem_singleton.mpr named.own⟩
  have types : (Text.join "/" (enclosing ++ [own])).toList =
      first.toList ++ writtenBehind '/' inner := by
    rw [path, Text.toList_join_cons]
    rfl
  have nested := foldl_inside space inner [] first path.symm
  rcases named.space with rfl | dotted
  · refine ⟨first, [], inner, spelled, ?_, nested⟩
    exact types
  · obtain ⟨head, others, cut⟩ := List.exists_cons_of_ne_nil (Text.segments_ne_nil '.' space)
    have single : ".".toList = ['.'] := rfl
    have joined : Text.join "." (head :: others) = space := by
      rw [← cut]
      exact Text.join_segments single space
    have identifiers : ∀ text ∈ head :: others, isIdentifier text = true := by
      rw [← cut]
      exact List.all_eq_true.mp dotted
    have present : space.isEmpty = false := by
      by_contra missing
      rw [Bool.not_eq_false, String.isEmpty_iff] at missing
      have empty : isDottedName "" = true := missing ▸ dotted
      exact absurd empty (by decide)
    refine ⟨head, others ++ [first], inner, ?_, ?_, ?_⟩
    · rw [List.forall_mem_cons] at spelled
      rw [← List.cons_append, List.forall_mem_append, List.forall_mem_append,
        List.forall_mem_singleton]
      exact ⟨⟨identifiers, spelled.1⟩, spelled.2⟩
    · have front : space.toList = head.toList ++ writtenBehind '.' others := by
        rw [← joined, Text.toList_join_cons]
        rfl
      unfold QualifiedName.text
      rw [present, if_neg Bool.false_ne_true, String.toList_append, String.toList_append, types,
        front, single]
      simp [writtenBehind]
    · have top : QualifiedName.ofIdentifiers (head :: (others ++ [first])) =
          { space, name := first } := by
        unfold QualifiedName.ofIdentifiers
        rw [← List.cons_append, List.dropLast_concat, List.getLast?_concat, joined]
        rfl
      rw [top]
      exact nested

/-- **A written name is read as that name** when the text behind it cannot go on with it. -/
theorem reads_typePath (edge : Nat) (gap : List Char) {name : QualifiedName} {rest : List Char}
    (named : name.IsWellNamed)
    (avoids : HeadAvoids (fun char => isNameChar char || char = '.' || char = '/') rest) :
    Reads typePath (tokensBehind edge gap (name.text.toList ++ rest)) name
      (tokensAfter (edge + byteSize gap + byteSize name.text.toList) rest) := by
  obtain ⟨head, tail, inner, spelled, written, whole⟩ := exists_identifiers named
  rw [List.forall_mem_append, List.forall_mem_cons] at spelled
  have afterInner : HeadAvoids (fun char => isNameChar char || char = '/') rest := by
    refine avoids.mono fun char => ?_
    simp only [Bool.or_eq_true]
    exact Or.imp_left Or.inl
  have afterTail : HeadAvoids (fun char => isNameChar char || char = '.')
      (writtenBehind '/' inner ++ rest) := by
    cases inner with
    | nil => exact avoids.mono fun char taken => by rw [taken, Bool.true_or]
    | cons => exact headAvoids_cons (by decide) _
  have afterHead : HeadAvoids isNameChar
      (writtenBehind '.' tail ++ (writtenBehind '/' inner ++ rest)) := by
    cases tail with
    | nil => exact afterTail.mono fun char name => by rw [name, Bool.true_or]
    | cons => exact headAvoids_cons (by decide) _
  refine reads_attempt.mpr ?_
  rw [written, List.append_assoc, List.append_assoc, byteSize_append, byteSize_append,
    ← Nat.add_assoc, ← Nat.add_assoc]
  have first := reads_rawIdentifier edge gap spelled.1.1 afterHead
  have others := reads_gluedIdentifiers (edge + byteSize gap + byteSize head.toList)
    rfl spelled.1.2 afterTail
  have last := reads_gluedIdentifiers
    (edge + byteSize gap + byteSize head.toList + byteSize (writtenBehind '.' tail))
    rfl spelled.2 afterInner
  have top : Reads rawDottedName _ (head :: tail) _ :=
    first.bind (others.bind (reads_pure.mpr ⟨rfl, rfl⟩))
  exact top.bind (last.bind (reads_pure.mpr ⟨whole, rfl⟩))

end ExternBindings.Listing
